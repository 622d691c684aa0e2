import SupernoteTaskService.EmojiTokens
import SupernoteTaskService.Foundation.Substitution

/-!
# Decoding strings of code points

`decode_emoji` on what a Python string is: a sequence of code points, with surrogates if
need be, and with the exceptions that `int` and `chr` can raise.  Without surrogates in
the stored text none is raised and none comes out: the pattern divides the text into its
tokens and the stretches between them, and only a token for a scalar value is replaced.
There the decoder on `Text` is the same function.
-/

set_option autoImplicit false

namespace SupernoteTaskService

open Foundation

/-- A Python string. -/
abbrev CodePoints := List ℕ

namespace CodePoints

def ofText (text : Text) : CodePoints := text.map Char.toNat

/-! ## The decoder -/

def opening : CodePoints := ofText "[U+".toList

def closing : ℕ := (']' : Char).toNat

def digitValue (c : ℕ) : Option ℕ :=
  if 48 ≤ c ∧ c ≤ 57 then some (c - 48)
  else if 65 ≤ c ∧ c ≤ 70 then some (c - 55)
  else if 97 ≤ c ∧ c ≤ 102 then some (c - 87)
  else none

/-- `[0-9A-Fa-f]` -/
def isHexDigit (c : ℕ) : Bool := (digitValue c).isSome

/-- `\[U\+([0-9A-Fa-f]+)\]`; a match is the text of its group. -/
def EMOJI_DECODE_RE : Matcher ℕ CodePoints := Matcher.delimited opening isHexDigit closing rfl

def addDigit (value digit : ℕ) : Except Raised ℕ :=
  match digitValue digit with
  | some v => .ok (value * 16 + v)
  | none => .error .valueError

/-- `int(digits, 16)` of a string without signs, blanks, prefixes and underscores.  The
limit on the length of a number does not apply to a base that is a power of two. -/
def intBase16 (digits : CodePoints) : Except Raised ℕ :=
  if digits = [] then .error .valueError else digits.foldlM addDigit 0

/-- A surrogate is a character to `chr`, a number past the last code point is none. -/
def chr (code : ℕ) : Except Raised ℕ := if code ≤ 0x10FFFF then .ok code else .error .valueError

def replace (digits : CodePoints) : Except Raised CodePoints :=
  let group0 := EMOJI_DECODE_RE.spelling digits
  match intBase16 digits with
  | .error .valueError => .ok group0
  | .error raised => .error raised
  | .ok code =>
      if (0xD800 ≤ code ∧ code ≤ 0xDFFF) ∨ code > 0x10FFFF then .ok group0
      else do
        let ch ← chr code
        return [ch]

def decodeEmoji (text : Option CodePoints) : Except Raised CodePoints :=
  match text with
  | none => .ok []
  | some text => if opening <:+: text then EMOJI_DECODE_RE.sub replace text else .ok text

/-! ## What a token is replaced with -/

def hexNumber (digits : CodePoints) : ℕ :=
  digits.foldl (fun value digit => value * 16 + (digitValue digit).getD 0) 0

def decodedToken (digits : CodePoints) : CodePoints :=
  if (hexNumber digits).isValidChar then [hexNumber digits] else EMOJI_DECODE_RE.spelling digits

def HexRun (digits : CodePoints) : Prop := digits ≠ [] ∧ ∀ c ∈ digits, isHexDigit c = true

theorem next_eq_some_iff {text digits rest : CodePoints} :
    EMOJI_DECODE_RE.next text = some (digits, rest) ↔
      HexRun digits ∧ text = EMOJI_DECODE_RE.spelling digits ++ rest :=
  (delimitedNext_eq_some_iff rfl).trans and_assoc.symm

theorem foldlM_addDigit {digits : CodePoints} (allHex : ∀ c ∈ digits, isHexDigit c = true)
    (value : ℕ) : digits.foldlM addDigit value =
      .ok (digits.foldl (fun value digit => value * 16 + (digitValue digit).getD 0) value) := by
  induction digits generalizing value with
  | nil => rfl
  | cons digit digits ih =>
      obtain ⟨v, isValue⟩ := Option.isSome_iff_exists.mp (allHex digit List.mem_cons_self)
      rw [List.foldlM_cons, List.foldl_cons, addDigit, isValue]
      exact ih (fun c member => allHex c (List.mem_cons_of_mem digit member)) (value * 16 + v)

theorem intBase16_of_hexRun {digits : CodePoints} (hexRun : HexRun digits) :
    intBase16 digits = .ok (hexNumber digits) := by
  rw [intBase16, if_neg hexRun.1]
  exact foldlM_addDigit hexRun.2 0

/-- The exceptions of `int` and `chr` do not occur. -/
theorem replace_of_hexRun {digits : CodePoints} (hexRun : HexRun digits) :
    replace digits = .ok (decodedToken digits) := by
  unfold replace decodedToken
  rw [intBase16_of_hexRun hexRun]
  dsimp only
  by_cases valid : (hexNumber digits).isValidChar
  · have inRange : hexNumber digits ≤ 0x10FFFF := by
      unfold Nat.isValidChar at valid
      omega
    rw [if_pos valid, if_neg, chr, if_pos inRange]
    · rfl
    · unfold Nat.isValidChar at valid
      omega
  · rw [if_neg valid, if_pos]
    unfold Nat.isValidChar at valid
    omega

/-! ## The text, piece by piece -/

theorem next_eq_none_of_no_opening {text : CodePoints} (noOpening : ¬ opening <:+: text)
    {front back : CodePoints} (whole : text = front ++ back) : EMOJI_DECODE_RE.next back = none := by
  cases matched : EMOJI_DECODE_RE.next back with
  | none => rfl
  | some found =>
      obtain ⟨-, spelled⟩ := next_eq_some_iff.mp matched
      refine absurd ⟨front, found.1 ++ [closing] ++ found.2, ?_⟩ noOpening
      rw [whole, spelled]
      simp [EMOJI_DECODE_RE, Matcher.delimited]

/-- The exit for texts without an opening only saves the scan. -/
theorem decodeEmoji_eq_sub (text : CodePoints) :
    decodeEmoji (some text) = EMOJI_DECODE_RE.sub replace text := by
  rw [decodeEmoji]
  by_cases opens : opening <:+: text
  · rw [if_pos opens]
  · rw [if_neg opens, Matcher.sub_eq_self]
    exact fun front back whole _ => next_eq_none_of_no_opening opens whole

section Pieces
variable {text : CodePoints} {pieces : List (Piece ℕ CodePoints)}
  (scan : EMOJI_DECODE_RE.Splits text pieces)
include scan

theorem hexRun_of_mem {digits : CodePoints} (member : .token digits ∈ pieces) : HexRun digits := by
  obtain ⟨front, rest, matched⟩ := scan.matched_of_mem member
  exact (next_eq_some_iff.mp matched).1

theorem decodeEmoji_eq_flatMap :
    decodeEmoji (some text) = .ok (pieces.flatMap (Piece.image decodedToken)) := by
  rw [decodeEmoji_eq_sub]
  exact scan.sub_eq fun digits member => replace_of_hexRun (hexRun_of_mem scan member)

theorem isValidChar_or_mem {c : ℕ} (member : c ∈ pieces.flatMap (Piece.image decodedToken)) :
    c.isValidChar ∨ c ∈ text := by
  obtain ⟨piece, isPiece, inPiece⟩ := List.mem_flatMap.mp member
  have copied : c ∈ piece.image EMOJI_DECODE_RE.spelling → c ∈ text := by
    intro inSpelling
    rw [← scan.flatMap_spelling]
    exact List.mem_flatMap.mpr ⟨piece, isPiece, inSpelling⟩
  cases piece with
  | stretch stretch => exact Or.inr (copied inPiece)
  | token digits =>
      rw [Piece.image, decodedToken] at inPiece
      by_cases valid : (hexNumber digits).isValidChar
      · rw [if_pos valid, List.mem_singleton] at inPiece
        exact Or.inl (inPiece ▸ valid)
      · rw [if_neg valid] at inPiece
        exact Or.inr (copied inPiece)

end Pieces

theorem length_decodedToken_le (digits : CodePoints) :
    (decodedToken digits).length ≤ (EMOJI_DECODE_RE.spelling digits).length := by
  unfold decodedToken
  split_ifs
  · exact List.length_pos_iff.mpr (List.append_ne_nil_of_right_ne_nil _ (List.cons_ne_nil _ _))
  · exact Nat.le_refl _

/-- On a text without surrogates the decoder returns, what it returns has no surrogate and
nothing past the last code point, and it is not longer.  It is the text with every token
for a scalar value replaced, and the other tokens and the stretches between the tokens in
their places. -/
theorem decodeEmoji_encodable (text : CodePoints) (scalar : ∀ c ∈ text, c.isValidChar) :
    ∃ decoded, decodeEmoji (some text) = .ok decoded ∧ (∀ c ∈ decoded, c.isValidChar) ∧
      decoded.length ≤ text.length ∧
      ∃ pieces, EMOJI_DECODE_RE.Splits text pieces ∧
        (∀ other, EMOJI_DECODE_RE.Splits text other → other = pieces) ∧
        decoded = pieces.flatMap (Piece.image decodedToken) := by
  obtain ⟨pieces, scan⟩ := EMOJI_DECODE_RE.exists_splits text
  refine ⟨_, decodeEmoji_eq_flatMap scan, fun c member => ?_, ?_, pieces, scan,
    fun other scan' => scan'.unique scan, rfl⟩
  · exact (isValidChar_or_mem scan member).elim id (scalar c)
  · exact scan.length_le fun digits _ => length_decodedToken_le digits

/-- An opening inside an opening, a token for a surrogate and one for a character. -/
theorem decodeEmoji_encodable_nested :
    ∃ decoded, decodeEmoji (some (ofText "[U+[U+D800]x[U+1F600]".toList)) = .ok decoded ∧
      (∀ c ∈ decoded, c.isValidChar) ∧ decoded.length ≤ 21 :=
  have ⟨decoded, isDecoded, valid, short, _⟩ :=
    decodeEmoji_encodable (ofText "[U+[U+D800]x[U+1F600]".toList) (by decide)
  ⟨decoded, isDecoded, valid, short⟩

/-! ## The decoder on `Text` -/

theorem ofText_injective : Function.Injective ofText :=
  List.map_injective_iff.mpr fun _ _ => Char.toNat_inj.mp

theorem ofText_cons (c : Char) (rest : Text) : ofText (c :: rest) = c.toNat :: ofText rest := rfl

theorem ofText_append (front back : Text) :
    ofText (front ++ back) = ofText front ++ ofText back :=
  List.map_append

theorem spelling_ofText (digits : Text) :
    EMOJI_DECODE_RE.spelling (ofText digits) = ofText (tokenText digits) := by
  rw [tokenText, ofText_append, ofText_append]
  rfl

theorem hexRun_ofText_iff {digits : Text} :
    HexRun (ofText digits) ↔ SupernoteTaskService.HexRun digits := by
  unfold HexRun SupernoteTaskService.HexRun ofText
  rw [List.forall_mem_map, ne_eq, List.map_eq_nil_iff]
  rfl

theorem hexNumber_ofText (digits : Text) :
    hexNumber (ofText digits) = SupernoteTaskService.hexNumber digits :=
  List.foldl_map

theorem decodedToken_ofText (digits : Text) :
    decodedToken (ofText digits) = ofText (replaceToken digits) := by
  rw [decodedToken, hexNumber_ofText]
  by_cases valid : (SupernoteTaskService.hexNumber digits).isValidChar
  · rw [if_pos valid, replaceToken_of_valid valid, ofText, List.map_singleton,
      Char.toNat_ofNat, if_pos valid]
  · rw [if_neg valid, replaceToken_of_not_valid valid, spelling_ofText]

theorem next_ofText (text : Text) :
    EMOJI_DECODE_RE.next (ofText text) =
      (matchToken text).map fun found => (ofText found.1, ofText found.2) := by
  cases matched : matchToken text with
  | some found =>
      obtain ⟨hexRun, spelled⟩ := matchToken_eq_some_iff.mp matched
      refine next_eq_some_iff.mpr ⟨hexRun_ofText_iff.mpr hexRun, ?_⟩
      rw [spelling_ofText, ← ofText_append, ← spelled]
  | none =>
      cases isNext : EMOJI_DECODE_RE.next (ofText text) with
      | none => rfl
      | some found =>
          obtain ⟨hexRun, spelled⟩ := next_eq_some_iff.mp isNext
          obtain ⟨front, rest, rfl, isSpelling, -⟩ := List.map_eq_append_iff.mp spelled
          obtain ⟨opened, last, rfl, isOpened, isLast⟩ := List.map_eq_append_iff.mp isSpelling
          obtain ⟨first, digits, rfl, isFirst, isDigits⟩ := List.map_eq_append_iff.mp isOpened
          obtain rfl : first = "[U+".toList := ofText_injective isFirst
          obtain rfl : last = [']'] := ofText_injective isLast
          change ofText digits = found.1 at isDigits
          rw [← isDigits, hexRun_ofText_iff] at hexRun
          have impossible := matchToken_tokenText hexRun rest
          rw [tokenText, matched] at impossible
          cases impossible

theorem sub_ofText {text out : Text} (scan : Decodes text out) :
    EMOJI_DECODE_RE.sub replace (ofText text) = .ok (ofText out) := by
  induction scan with
  | nil => rw [ofText, List.map_nil, Matcher.sub]
  | @token c rest digits after out matched scan ih =>
      have hexRun := hexRun_ofText_iff.mpr (matchToken_eq_some_iff.mp matched).1
      have isNext := next_ofText (c :: rest)
      rw [matched] at isNext
      rw [Matcher.sub_of_matched isNext, replace_of_hexRun hexRun, ih, decodedToken_ofText,
        ofText_append]
      rfl
  | @plain c rest out noToken scan ih =>
      have isNext := next_ofText (c :: rest)
      rw [noToken] at isNext
      rw [ofText_cons] at isNext
      rw [ofText_cons, Matcher.sub_of_unmatched isNext, ih]
      rfl

/-- On the code points of a text the decoder is the one on texts. -/
theorem decodeEmoji_ofText (text : Option Text) :
    decodeEmoji (text.map ofText) = .ok (ofText (SupernoteTaskService.decodeEmoji text)) := by
  cases text with
  | none => rfl
  | some text =>
      exact (decodeEmoji_eq_sub (ofText text)).trans (sub_ofText (decodes_decodeEmoji text))

end CodePoints

end SupernoteTaskService
