import SupernoteTaskService.Encoding

/-!
# Emoji tokens, read and written

The decoder scans from the left and takes tokens of any length and either case, the
encoder writes one for each character past the basic plane and escapes nothing.
`Decodes` is the scan without its fuel.  Encoding changes nothing that the scan
produces, so a text survives the round trip exactly when the scan leaves it alone, that
is when no decodable token is spelled out in it.
-/

set_option autoImplicit false

namespace SupernoteTaskService

open Foundation

/-! ## Tokens -/

/-- `[U+digits]` -/
def tokenText (digits : Text) : Text := "[U+".toList ++ digits ++ [']']

def HexRun (digits : Text) : Prop := digits ≠ [] ∧ ∀ c ∈ digits, isHexDigit c = true

/-- A token for a Unicode scalar value is spelled out in the text. -/
def SpellsToken (text : Text) : Prop :=
  ∃ before digits after, text = before ++ tokenText digits ++ after ∧ HexRun digits ∧
    (hexNumber digits).isValidChar

theorem matchToken_eq_some_iff {text digits rest : Text} :
    matchToken text = some (digits, rest) ↔ HexRun digits ∧ text = tokenText digits ++ rest := by
  constructor
  · intro matched
    unfold matchToken at matched
    split at matched
    · rename_i body
      have whole := List.takeWhile_append_dropWhile (p := isHexDigit) (l := body)
      cases isDigits : body.takeWhile isHexDigit with
      | nil =>
          rw [isDigits] at matched
          cases matched
      | cons d digits' =>
          rw [isDigits] at matched whole
          split at matched
          · contradiction
          · rename_i closing closes _
            cases matched
            rw [closes] at whole
            refine ⟨⟨List.cons_ne_nil d digits', fun c member => ?_⟩, ?_⟩
            · rw [← isDigits] at member
              exact List.mem_takeWhile_imp member
            · rw [← whole]
              simp [tokenText]
          · cases matched
    · cases matched
  · intro ⟨⟨nonempty, isHex⟩, spelled⟩
    have stop : isHexDigit ']' = false := by decide
    have taken : (digits ++ ']' :: rest).takeWhile isHexDigit = digits := by
      rw [List.takeWhile_append_of_pos isHex, List.takeWhile_cons_of_neg (by simp [stop]),
        List.append_nil]
    have dropped : (digits ++ ']' :: rest).dropWhile isHexDigit = ']' :: rest := by
      rw [List.dropWhile_append_of_pos isHex, List.dropWhile_cons_of_neg (by simp [stop])]
    have shape : text = '[' :: 'U' :: '+' :: (digits ++ ']' :: rest) := by
      rw [spelled]
      simp [tokenText]
    rw [shape, matchToken, taken, dropped]
    cases digits with
    | nil => exact absurd rfl nonempty
    | cons d digits => rfl

theorem matchToken_tokenText {digits : Text} (hexRun : HexRun digits) (rest : Text) :
    matchToken (tokenText digits ++ rest) = some (digits, rest) :=
  matchToken_eq_some_iff.mpr ⟨hexRun, rfl⟩

theorem tokenText_eq (digits : Text) : tokenText digits = '[' :: ("U+".toList ++ digits ++ [']']) :=
  rfl

theorem isHexDigit_ne_open {c : Char} (isHex : isHexDigit c = true) : c ≠ '[' := by
  intro opens
  subst opens
  exact absurd isHex (by decide)

theorem notMem_tokenBody {digits : Text} (hexRun : HexRun digits) :
    '[' ∉ "U+".toList ++ digits ++ [']'] := by
  intro member
  rcases List.mem_append.mp member with inFront | closing
  · rcases List.mem_append.mp inFront with inOpening | inDigits
    · exact absurd inOpening (by decide)
    · exact isHexDigit_ne_open (hexRun.2 _ inDigits) rfl
  · exact absurd closing (by decide)

theorem replaceToken_of_valid {digits : Text} (valid : (hexNumber digits).isValidChar) :
    replaceToken digits = [Char.ofNat (hexNumber digits)] := by
  unfold replaceToken
  dsimp only
  rw [if_neg]
  unfold Nat.isValidChar at valid
  omega

theorem replaceToken_of_not_valid {digits : Text} (invalid : ¬ (hexNumber digits).isValidChar) :
    replaceToken digits = tokenText digits := by
  unfold replaceToken
  dsimp only
  rw [if_pos]
  · rfl
  · unfold Nat.isValidChar at invalid
    omega

/-! ## Where a token is spelled out -/

theorem spellsToken_nil : ¬ SpellsToken [] := by
  intro ⟨before, digits, after, empty, _⟩
  rw [tokenText_eq] at empty
  simp at empty

theorem spellsToken_cons_iff {c : Char} {rest : Text} :
    SpellsToken (c :: rest) ↔
      (∃ digits after, matchToken (c :: rest) = some (digits, after) ∧
        (hexNumber digits).isValidChar) ∨ SpellsToken rest := by
  constructor
  · intro ⟨before, digits, after, spelled, hexRun, valid⟩
    cases before with
    | nil => exact Or.inl ⟨digits, after, matchToken_eq_some_iff.mpr ⟨hexRun, spelled⟩, valid⟩
    | cons first before =>
        obtain ⟨rfl, later⟩ := List.cons.inj spelled
        exact Or.inr ⟨before, digits, after, later, hexRun, valid⟩
  · intro either
    rcases either with ⟨digits, after, matched, valid⟩ | ⟨before, digits, after, rfl, hexRun, valid⟩
    · obtain ⟨hexRun, spelled⟩ := matchToken_eq_some_iff.mp matched
      exact ⟨[], digits, after, spelled, hexRun, valid⟩
    · exact ⟨c :: before, digits, after, rfl, hexRun, valid⟩

theorem matchToken_of_ne_open {c : Char} (different : c ≠ '[') (rest : Text) :
    matchToken (c :: rest) = none := by
  cases matched : matchToken (c :: rest) with
  | none => rfl
  | some found =>
      obtain ⟨-, spelled⟩ := matchToken_eq_some_iff.mp matched
      exact absurd (List.cons.inj spelled).1 different

theorem spellsToken_append_iff {front rest : Text} (noOpen : '[' ∉ front) :
    SpellsToken (front ++ rest) ↔ SpellsToken rest := by
  induction front with
  | nil => rfl
  | cons c front ih =>
      rw [List.mem_cons, not_or] at noOpen
      rw [List.cons_append, spellsToken_cons_iff, matchToken_of_ne_open (Ne.symm noOpen.1),
        ih noOpen.2]
      exact or_iff_right fun ⟨_, _, impossible, _⟩ => by cases impossible

/-! ## The scan -/

/-- The leftmost, non-overlapping substitution. -/
inductive Decodes : Text → Text → Prop where
  | nil : Decodes [] []
  | token {c : Char} {rest digits after out : Text}
      (matched : matchToken (c :: rest) = some (digits, after)) (scan : Decodes after out) :
      Decodes (c :: rest) (replaceToken digits ++ out)
  | plain {c : Char} {rest out : Text} (noToken : matchToken (c :: rest) = none)
      (scan : Decodes rest out) : Decodes (c :: rest) (c :: out)

theorem Decodes.ofToken {digits after out : Text} (hexRun : HexRun digits)
    (scan : Decodes after out) : Decodes (tokenText digits ++ after) (replaceToken digits ++ out) :=
  Decodes.token (matchToken_tokenText hexRun after) scan

theorem Decodes.unique {text out out' : Text} (scan : Decodes text out)
    (scan' : Decodes text out') : out = out' := by
  induction scan generalizing out' with
  | nil =>
      cases scan'
      rfl
  | token matched scan ih =>
      cases scan' with
      | token matched' scan' =>
          rw [matched] at matched'
          cases matched'
          rw [ih scan']
      | plain noToken _ =>
          rw [matched] at noToken
          cases noToken
  | plain noToken scan ih =>
      cases scan' with
      | token matched' _ =>
          rw [noToken] at matched'
          cases matched'
      | plain _ scan' => rw [ih scan']

theorem decodes_substituteTokens (fuel : ℕ) : ∀ text : Text, text.length ≤ fuel →
    Decodes text (substituteTokens fuel text) := by
  induction fuel with
  | zero =>
      intro text short
      rw [List.length_eq_zero_iff.mp (Nat.le_zero.mp short)]
      exact Decodes.nil
  | succ fuel ih =>
      intro text short
      cases text with
      | nil => exact Decodes.nil
      | cons c rest =>
          rw [substituteTokens]
          cases matched : matchToken (c :: rest) with
          | none =>
              exact Decodes.plain matched (ih rest (Nat.le_of_succ_le_succ short))
          | some found =>
              obtain ⟨-, spelled⟩ := matchToken_eq_some_iff.mp matched
              refine Decodes.token matched (ih found.2 ?_)
              have lengths := congrArg List.length spelled
              rw [tokenText_eq, List.length_append, List.length_cons] at lengths
              rw [List.length_cons] at short lengths
              omega

theorem Decodes.self_of_no_opening (text : Text) (noOpening : ¬ "[U+".toList <:+: text) :
    Decodes text text := by
  induction text with
  | nil => exact Decodes.nil
  | cons c rest ih =>
      have noToken : matchToken (c :: rest) = none := by
        cases matched : matchToken (c :: rest) with
        | none => rfl
        | some found =>
            obtain ⟨-, spelled⟩ := matchToken_eq_some_iff.mp matched
            refine absurd ⟨[], found.1 ++ [']'] ++ found.2, ?_⟩ noOpening
            rw [spelled, tokenText]
            simp
      exact Decodes.plain noToken (ih fun inRest => noOpening (List.infix_cons inRest))

theorem decodes_decodeEmoji (text : Text) : Decodes text (decodeEmoji (some text)) := by
  unfold decodeEmoji
  dsimp only
  by_cases opening : "[U+".toList <:+: text
  · rw [if_pos opening]
    exact decodes_substituteTokens text.length text (Nat.le_refl _)
  · rw [if_neg opening]
    exact Decodes.self_of_no_opening text opening

theorem Decodes.eq_iff {text out : Text} (scan : Decodes text out) :
    (out = text ↔ ¬ SpellsToken text) ∧ out.length ≤ text.length := by
  induction scan with
  | nil => exact ⟨iff_of_true rfl spellsToken_nil, Nat.le_refl 0⟩
  | @token c rest digits after out matched scan ih =>
      obtain ⟨same, short⟩ := ih
      obtain ⟨hexRun, spelled⟩ := matchToken_eq_some_iff.mp matched
      have length : (c :: rest).length = (tokenText digits).length + after.length := by
        rw [spelled, List.length_append]
      by_cases valid : (hexNumber digits).isValidChar
      · have shorter : (replaceToken digits ++ out).length < (c :: rest).length := by
          rw [replaceToken_of_valid valid, length, tokenText_eq]
          simp only [List.length_append, List.length_cons, List.length_nil]
          omega
        refine ⟨iff_of_false (fun same => ?_) (not_not.mpr ?_), shorter.le⟩
        · rw [same] at shorter
          exact lt_irrefl _ shorter
        · exact spellsToken_cons_iff.mpr (Or.inl ⟨digits, after, matched, valid⟩)
      · have atHead : SpellsToken (c :: rest) ↔ SpellsToken after := by
          rw [spellsToken_cons_iff]
          have notHere : ¬ ∃ digits after, matchToken (c :: rest) = some (digits, after) ∧
              (hexNumber digits).isValidChar := by
            intro ⟨digits', after', matched', valid'⟩
            rw [matched] at matched'
            cases matched'
            exact valid valid'
          rw [or_iff_right notHere]
          rw [tokenText_eq, List.cons_append] at spelled
          rw [(List.cons.inj spelled).2]
          exact spellsToken_append_iff (notMem_tokenBody hexRun)
        rw [replaceToken_of_not_valid valid, atHead, ← same]
        refine ⟨?_, ?_⟩
        · rw [spelled]
          exact ⟨List.append_cancel_left, fun same => by rw [same]⟩
        · rw [length, List.length_append]
          omega
  | @plain c rest out noToken scan ih =>
      obtain ⟨same, short⟩ := ih
      have atHead : SpellsToken (c :: rest) ↔ SpellsToken rest := by
        rw [spellsToken_cons_iff]
        refine or_iff_right fun ⟨digits, after, matched, _⟩ => ?_
        rw [noToken] at matched
        cases matched
      rw [atHead, ← same]
      refine ⟨⟨fun same => (List.cons.inj same).2, fun same => by rw [same]⟩, ?_⟩
      exact Nat.succ_le_succ short

/-! ## The encoder under the scan -/

def encodedDigits (ch : Char) : Text := (Nat.toDigits 16 ch.toNat).map Char.toUpper

theorem emojiToken_eq (ch : Char) : emojiToken ch = tokenText (encodedDigits ch) := rfl

theorem hexValue_digitChar : ∀ digit < 16, hexValue (Nat.digitChar digit).toUpper = some digit := by
  decide

theorem encodedDigits_hexRun (ch : Char) : HexRun (encodedDigits ch) := by
  refine ⟨fun empty => Nat.toDigits_ne_nil (List.map_eq_nil_iff.mp empty), fun c member => ?_⟩
  obtain ⟨digitChar, isDigit, rfl⟩ := List.mem_map.mp member
  obtain ⟨digit, small, rfl⟩ := exists_digitChar_of_mem_toDigits (by decide) _ isDigit
  rw [isHexDigit, hexValue_digitChar digit small]
  rfl

theorem hexNumber_toDigits (n : ℕ) :
    hexNumber ((Nat.toDigits 16 n).map Char.toUpper) = n := by
  induction n using Nat.strong_induction_on with
  | h n ih =>
      by_cases small : n < 16
      · rw [Nat.toDigits_of_lt_base small, hexNumber, List.map_singleton, List.foldl_cons,
          hexValue_digitChar n small]
        simp
      · have higher := ih (n / 16) (by omega)
        rw [hexNumber] at higher
        rw [Nat.toDigits_of_base_le (by decide) (not_lt.mp small), hexNumber, List.map_append,
          List.foldl_append, higher, List.map_singleton, List.foldl_cons,
          hexValue_digitChar (n % 16) (Nat.mod_lt n (by decide))]
        simp only [Option.getD_some, List.foldl_nil]
        omega

theorem replaceToken_encodedDigits (ch : Char) : replaceToken (encodedDigits ch) = [ch] := by
  have number : hexNumber (encodedDigits ch) = ch.toNat := hexNumber_toDigits ch.toNat
  have valid : (hexNumber (encodedDigits ch)).isValidChar := number ▸ ch.valid
  rw [replaceToken_of_valid valid, number, Char.ofNat_toNat]

theorem encodeEmoji_cons (c : Char) (rest : Text) :
    encodeEmoji (c :: rest) = encodeChar c ++ encodeEmoji rest :=
  List.flatMap_cons

theorem encodeEmoji_append (front back : Text) :
    encodeEmoji (front ++ back) = encodeEmoji front ++ encodeEmoji back :=
  List.flatMap_append

theorem encodeEmoji_of_basicPlane {text : Text} (basic : BasicPlane text) (rest : Text) :
    encodeEmoji (text ++ rest) = text ++ encodeEmoji rest := by
  induction text with
  | nil => rfl
  | cons c text ih =>
      have single : encodeChar c = [c] := if_neg (not_lt.mpr (basic c List.mem_cons_self))
      rw [List.cons_append, encodeEmoji_cons, single,
        ih fun c' member => basic c' (List.mem_cons_of_mem c member)]
      rfl

theorem tokenText_basicPlane {digits : Text} (hexRun : HexRun digits) :
    BasicPlane (tokenText digits) := by
  intro c member
  rcases List.mem_append.mp member with inFront | closing
  · rcases List.mem_append.mp inFront with inOpening | inDigits
    · have ascii : "[U+".toList.all (fun c => c.toNat < 128) = true := rfl
      have bound := of_decide_eq_true (List.all_eq_true.mp ascii c inOpening)
      omega
    · have isHex := hexRun.2 c inDigits
      unfold isHexDigit hexValue at isHex
      dsimp only at isHex
      split_ifs at isHex
      · omega
      · omega
      · omega
      · cases isHex
  · rw [List.mem_singleton.mp closing]
    exact (by decide : (']' : Char).toNat < 128).le.trans (by omega)

theorem copied_of_encodeEmoji {front after : Text} (noOpen : '[' ∉ front) :
    ∀ {text : Text}, encodeEmoji text = front ++ after →
      ∃ rest, text = front ++ rest ∧ encodeEmoji rest = after := by
  induction front with
  | nil => exact fun {text} encoded => ⟨text, rfl, encoded⟩
  | cons c front ih =>
      intro text encoded
      rw [List.mem_cons, not_or] at noOpen
      cases text with
      | nil => cases encoded
      | cons c' text =>
          rw [encodeEmoji_cons] at encoded
          by_cases astral : c'.toNat > 0xFFFF
          · rw [encodeChar, if_pos astral, emojiToken_eq, tokenText_eq] at encoded
            exact absurd (List.cons.inj encoded).1 noOpen.1
          · rw [encodeChar, if_neg astral] at encoded
            obtain ⟨rfl, later⟩ := List.cons.inj encoded
            obtain ⟨rest, rfl, encodedRest⟩ := ih noOpen.2 later
            exact ⟨rest, rfl, encodedRest⟩

/-- A copied character starts a token in the encoded text only where it starts one in
the text. -/
theorem matchToken_encodeEmoji_none {c : Char} {rest : Text}
    (noToken : matchToken (c :: rest) = none) : matchToken (c :: encodeEmoji rest) = none := by
  cases matched : matchToken (c :: encodeEmoji rest) with
  | none => rfl
  | some found =>
      obtain ⟨hexRun, spelled⟩ := matchToken_eq_some_iff.mp matched
      rw [tokenText_eq, List.cons_append] at spelled
      obtain ⟨rfl, body⟩ := List.cons.inj spelled
      obtain ⟨rest', rfl, -⟩ := copied_of_encodeEmoji (notMem_tokenBody hexRun) body
      rw [← List.cons_append, ← tokenText_eq, matchToken_tokenText hexRun] at noToken
      cases noToken

theorem Decodes.encodeEmoji {text out : Text} (scan : Decodes text out) :
    Decodes (encodeEmoji text) out := by
  induction scan with
  | nil => exact Decodes.nil
  | token matched scan ih =>
      obtain ⟨hexRun, spelled⟩ := matchToken_eq_some_iff.mp matched
      rw [spelled, encodeEmoji_of_basicPlane (tokenText_basicPlane hexRun)]
      exact Decodes.ofToken hexRun ih
  | @plain c rest out noToken scan ih =>
      rw [encodeEmoji_cons, encodeChar]
      by_cases astral : c.toNat > 0xFFFF
      · rw [if_pos astral, emojiToken_eq]
        have scanned := Decodes.ofToken (encodedDigits_hexRun c) ih
        rwa [replaceToken_encodedDigits] at scanned
      · rw [if_neg astral]
        exact Decodes.plain (matchToken_encodeEmoji_none noToken) ih

theorem decodeEmoji_encodeEmoji (text : Text) :
    decodeEmoji (some (encodeEmoji text)) = decodeEmoji (some text) :=
  (decodes_decodeEmoji (encodeEmoji text)).unique (decodes_decodeEmoji text).encodeEmoji

/-- A text survives the round trip exactly when no decodable token is spelled out in it. -/
theorem round_trip_iff (text : Text) :
    decodeEmoji (some (encodeEmoji text)) = text ↔ ¬ SpellsToken text := by
  rw [decodeEmoji_encodeEmoji]
  exact (decodes_decodeEmoji text).eq_iff.1

end SupernoteTaskService
