import SupernoteTaskService.Foundation.Json
import SupernoteTaskService.Errors

/-!
# Encoding and conversion helpers

The columns of the task database hold emoji as bracketed `U+` tokens, instants as
epoch milliseconds and document links as Base64 JSON.  Instants are exact here:
a `Datetime` is the wall clock in microseconds, restricted to the years 1 to 9999
that the standard library represents, with its optional offset from UTC.
-/

set_option autoImplicit false

namespace SupernoteTaskService

open Foundation

/-! ## Instants -/

/-- Microseconds from the epoch to 0001-01-01T00:00:00. -/
def minWall : ℤ := -62135596800000000

/-- Microseconds from the epoch to 9999-12-31T23:59:59.999999. -/
def maxWall : ℤ := 253402300799999999

def microsPerDay : ℤ := 86400000000

structure Datetime where
  wall : ℤ
  utcoffset : Option ℤ
  wallRange : minWall ≤ wall ∧ wall ≤ maxWall
  offsetRange : ∀ offset, utcoffset = some offset → -microsPerDay < offset ∧ offset < microsPerDay

instance : DecidableEq Datetime := fun left right =>
  decidable_of_iff (left.wall = right.wall ∧ left.utcoffset = right.utcoffset) <| by
    cases left
    cases right
    simp

/-- The instant in microseconds; a naive date-time is read as UTC. -/
def Datetime.timestampMicros (dt : Datetime) : ℤ := dt.wall - dt.utcoffset.getD 0

/-- `int(dt.timestamp() * 1000)` truncates towards zero; the product is taken exactly and not in
floats. -/
def datetimeToMs (dt : Datetime) : ℤ := dt.timestampMicros.tdiv 1000

/-- `datetime.fromtimestamp(ms / 1000, tz=UTC)`, which raises outside the years 1 to 9999; the
quotient is taken exactly and not in floats. -/
def fromTimestampMs (ms : ℤ) : Option Datetime :=
  if range : minWall ≤ ms * 1000 ∧ ms * 1000 ≤ maxWall then
    some {
      wall := ms * 1000
      utcoffset := some 0
      wallRange := range
      offsetRange := by
        intro offset same
        cases same
        decide }
  else none

def msToDatetime (ms : Option ℤ) : Except Raised (Option Datetime) :=
  let ms := ms.getD 0
  if ms ≤ 0 then .ok none
  else
    match fromTimestampMs ms with
    | some dt => .ok (some dt)
    | none => .error .valueError

/-- Milliseconds from the epoch to 9999-12-31T23:59:59.999. -/
def lastInstantMs : ℤ := 253402300799999

theorem msToDatetime_ok_iff (ms : ℤ) :
    (∃ dt, msToDatetime (some ms) = .ok dt) ↔ ms ≤ lastInstantMs := by
  unfold msToDatetime fromTimestampMs minWall maxWall lastInstantMs
  simp only [Option.getD_some]
  by_cases positive : ms ≤ 0
  · rw [if_pos positive]
    exact iff_of_true ⟨none, rfl⟩ (by omega)
  · rw [if_neg positive]
    by_cases inRange : ms ≤ 253402300799999
    · rw [dif_pos (by omega)]
      exact iff_of_true ⟨_, rfl⟩ inRange
    · rw [dif_neg (by omega)]
      refine iff_of_false ?_ inRange
      rintro ⟨dt, impossible⟩
      cases impossible

/-! ## Text columns -/

def emojiToken (ch : Char) : Text :=
  "[U+".toList ++ (Nat.toDigits 16 ch.toNat).map Char.toUpper ++ [']']

def encodeChar (ch : Char) : Text := if ch.toNat > 0xFFFF then emojiToken ch else [ch]

def encodeEmoji (text : Text) : Text := text.flatMap encodeChar

def isHexDigit (c : Char) : Bool := (hexValue c).isSome

def hexNumber (digits : Text) : ℕ :=
  digits.foldl (fun value digit => value * 16 + (hexValue digit).getD 0) 0

/-- The replacement of one matched token.  Surrogates and values past the last
code point are left as they stand. -/
def replaceToken (digits : Text) : Text :=
  let code := hexNumber digits
  if (0xD800 ≤ code ∧ code ≤ 0xDFFF) ∨ code > 0x10FFFF then "[U+".toList ++ digits ++ [']']
  else [Char.ofNat code]

def matchToken (text : Text) : Option (Text × Text) :=
  match text with
  | '[' :: 'U' :: '+' :: rest =>
      match rest.takeWhile isHexDigit, rest.dropWhile isHexDigit with
      | [], _ => none
      | digits, ']' :: rest => some (digits, rest)
      | _, _ => none
  | _ => none

/-- The leftmost, non-overlapping substitution over the text. -/
def substituteTokens : ℕ → Text → Text
  | 0, text => text
  | _ + 1, [] => []
  | fuel + 1, c :: rest =>
      match matchToken (c :: rest) with
      | some (digits, rest) => replaceToken digits ++ substituteTokens fuel rest
      | none => c :: substituteTokens fuel rest

def decodeEmoji (text : Option Text) : Text :=
  match text with
  | none => []
  | some text =>
      if "[U+".toList <:+: text then substituteTokens text.length text else text

def DETAIL_MAX_LEN : ℕ := 255

def encodeDetailFrom (length : ℕ) : Text → Text
  | [] => []
  | ch :: rest =>
      if length + (encodeChar ch).length > DETAIL_MAX_LEN then []
      else encodeChar ch ++ encodeDetailFrom (length + (encodeChar ch).length) rest

def encodeDetail (detail : Text) : Text := encodeDetailFrom 0 detail

/-! ## The code points of stored text -/

/-- No code point above U+FFFF, which the `utf8` columns do not hold. -/
def BasicPlane (text : Text) : Prop := ∀ c ∈ text, c.toNat ≤ 0xFFFF

theorem exists_digitChar_of_mem_toDigits {base : ℕ} (large : 1 < base) (n : ℕ) {c : Char} :
    c ∈ Nat.toDigits base n → ∃ digit < base, c = Nat.digitChar digit := by
  induction n using Nat.strong_induction_on with
  | h n ih =>
      intro member
      by_cases small : n < base
      · rw [Nat.toDigits_of_lt_base small, List.mem_singleton] at member
        exact ⟨n, small, member⟩
      · rw [Nat.toDigits_of_base_le large (not_lt.mp small), List.mem_append,
          List.mem_singleton] at member
        have positive : 0 < n := by omega
        rcases member with higher | lowest
        · exact ih (n / base) (Nat.div_lt_self positive large) higher
        · exact ⟨n % base, Nat.mod_lt n (by omega), lowest⟩

theorem emojiToken_basicPlane (ch : Char) : BasicPlane (emojiToken ch) := by
  have ascii : ∀ digit < 16, (Nat.digitChar digit).toUpper.toNat < 128 := by
    intro digit small
    interval_cases digit <;> decide
  have opening : "[U+".toList.all (fun c => c.toNat < 128) = true := rfl
  intro c member
  simp only [emojiToken, List.mem_append, List.mem_map, List.mem_singleton] at member
  rcases member with (inOpening | ⟨digitChar, isDigit, rfl⟩) | rfl
  · have bound := of_decide_eq_true (List.all_eq_true.mp opening c inOpening)
    omega
  · obtain ⟨digit, small, rfl⟩ := exists_digitChar_of_mem_toDigits (by decide) _ isDigit
    have bound := ascii digit small
    omega
  · exact (by decide : (']' : Char).toNat < 128).le.trans (by omega)

theorem encodeChar_basicPlane (ch : Char) : BasicPlane (encodeChar ch) := by
  unfold encodeChar
  split
  · exact emojiToken_basicPlane ch
  · rename_i inPlane
    intro c member
    rw [List.mem_singleton.mp member]
    exact not_lt.mp inPlane

theorem encodeChar_ne_nil (ch : Char) : encodeChar ch ≠ [] := by
  unfold encodeChar
  split
  · exact List.append_ne_nil_of_right_ne_nil _ (List.cons_ne_nil _ _)
  · exact List.cons_ne_nil _ _

theorem encodeEmoji_basicPlane (text : Text) : BasicPlane (encodeEmoji text) := by
  intro c member
  obtain ⟨ch, -, inToken⟩ := List.mem_flatMap.mp member
  exact encodeChar_basicPlane ch c inToken

theorem encodeEmoji_ne_nil {text : Text} (nonempty : text ≠ []) : encodeEmoji text ≠ [] := by
  obtain ⟨ch, rest, rfl⟩ := List.exists_cons_of_ne_nil nonempty
  exact List.append_ne_nil_of_left_ne_nil (encodeChar_ne_nil ch) _

theorem encodeDetailFrom_basicPlane (detail : Text) (length : ℕ) :
    BasicPlane (encodeDetailFrom length detail) := by
  induction detail generalizing length with
  | nil => exact fun c member => absurd member List.not_mem_nil
  | cons ch rest ih =>
      rw [encodeDetailFrom]
      split
      · exact fun c member => absurd member List.not_mem_nil
      · intro c member
        rcases List.mem_append.mp member with inToken | inRest
        · exact encodeChar_basicPlane ch c inToken
        · exact ih _ c inRest

theorem encodeDetailFrom_length_le (detail : Text) (length : ℕ) (room : length ≤ DETAIL_MAX_LEN) :
    length + (encodeDetailFrom length detail).length ≤ DETAIL_MAX_LEN := by
  induction detail generalizing length with
  | nil => exact room
  | cons ch rest ih =>
      rw [encodeDetailFrom]
      split
      · exact room
      · rename_i fits
        rw [List.length_append, ← Nat.add_assoc]
        exact ih _ (not_lt.mp fits)

/-! ## Document links -/

def decodeDocumentLink (linksValue : Option Text) : Option (List (List ℕ × Json)) :=
  match linksValue with
  | none => none
  | some [] => none
  | some linksValue => do
      let octets ← b64decode linksValue
      let decoded ← decodeUtf8 octets
      match loads decoded with
      | some (.obj members) => some members
      | _ => none

def encodeDocumentLink (link : List (Text × Scalar)) : Text :=
  b64encode (encodeUtf8 (renderObject link))

theorem encodeDocumentLink_ne_nil (link : List (Text × Scalar)) : encodeDocumentLink link ≠ [] := by
  have brace : ∃ rest, renderObject link = '\x7b' :: rest := by
    cases link with
    | nil => exact ⟨_, rfl⟩
    | cons member members => exact ⟨_, rfl⟩
  obtain ⟨rest, rendered⟩ := brace
  rw [encodeDocumentLink, rendered]
  intro empty
  have decoded := b64decode_b64encode _ (encodeUtf8_octets ('\x7b' :: rest))
  rw [empty] at decoded
  have octets : encodeUtf8 ('\x7b' :: rest) = 123 :: encodeUtf8 rest := rfl
  rw [octets] at decoded
  exact absurd (Option.some.inj decoded) (List.cons_ne_nil _ _).symm

theorem decodeDocumentLink_encodeDocumentLink (link : List (Text × Scalar)) :
    decodeDocumentLink (some (encodeDocumentLink link)) =
      some (link.map fun member => (member.1.map Char.toNat, member.2.toJson)) := by
  have decoded := b64decode_b64encode _ (encodeUtf8_octets (renderObject link))
  have notEmpty := encodeDocumentLink_ne_nil link
  rw [← encodeDocumentLink] at decoded
  cases column : encodeDocumentLink link with
  | nil => exact absurd column notEmpty
  | cons c rest =>
      rw [column] at decoded
      simp only [decodeDocumentLink, decoded, Option.bind_eq_bind, Option.bind_some,
        decodeUtf8_encodeUtf8, loads_renderObject]

/-! ## Python integers -/

/-- The characters that `str.strip` removes. -/
def isPythonSpace (c : Char) : Bool :=
  let n := c.toNat
  (9 ≤ n && n ≤ 13) || (28 ≤ n && n ≤ 32) || n == 0x85 || n == 0xA0 || n == 0x1680 ||
    (0x2000 ≤ n && n ≤ 0x200A) || n == 0x2028 || n == 0x2029 || n == 0x202F || n == 0x205F ||
    n == 0x3000

def strip (text : Text) : Text :=
  ((text.dropWhile isPythonSpace).reverse.dropWhile isPythonSpace).reverse

def digitGroups (value : ℕ) (afterDigit : Bool) : Text → Option ℕ
  | [] => if afterDigit then some value else none
  | c :: rest =>
      if c.isDigit then digitGroups (value * 10 + (c.toNat - 48)) true rest
      else if c = '_' ∧ afterDigit then digitGroups value false rest
      else none

def signedDigits : Text → Option ℤ
  | '-' :: digits => (digitGroups 0 false digits).map fun n => -(n : ℤ)
  | '+' :: digits => (digitGroups 0 false digits).map fun n => (n : ℤ)
  | digits => (digitGroups 0 false digits).map fun n => (n : ℤ)

/-- `int(text)` -/
def pythonInt (text : Text) : Option ℤ := signedDigits (strip text)

def pythonStr (n : ℤ) : Text :=
  if n < 0 then '-' :: Nat.toDigits 10 n.natAbs else Nat.toDigits 10 n.natAbs

theorem isDigit_of_mem_digits {n : ℕ} {c : Char} (member : c ∈ Nat.toDigits 10 n) :
    c.isDigit = true :=
  Nat.isDigit_of_mem_toDigits (by decide) (by decide) member

theorem digitGroups_of_digits (digits : Text) (allDigits : ∀ c ∈ digits, c.isDigit = true) :
    ∀ value, digitGroups value true digits = some (Nat.ofDigitChars 10 digits value) := by
  induction digits with
  | nil => exact fun _ => rfl
  | cons c rest ih =>
      intro value
      rw [digitGroups, if_pos (allDigits c List.mem_cons_self),
        ih fun d member => allDigits d (List.mem_cons_of_mem c member), Nat.ofDigitChars_cons,
        Nat.mul_comm]
      rfl

theorem digitGroups_toDigits (n : ℕ) : digitGroups 0 false (Nat.toDigits 10 n) = some n := by
  have allDigits : ∀ c ∈ Nat.toDigits 10 n, c.isDigit = true := fun c => isDigit_of_mem_digits
  have number := digitGroups_of_digits _ allDigits 0
  rw [Nat.ofDigitChars_ten_toDigits] at number
  cases digits : Nat.toDigits 10 n with
  | nil => exact absurd digits Nat.toDigits_ne_nil
  | cons c rest =>
      rw [digits] at number allDigits
      rw [digitGroups, if_pos (allDigits c List.mem_cons_self)] at number ⊢
      exact number

theorem isPythonSpace_of_isDigit {c : Char} (digit : c.isDigit = true) : isPythonSpace c = false := by
  simp only [Char.isDigit, Bool.and_eq_true, decide_eq_true_eq, UInt32.le_iff_toNat_le] at digit
  simp only [isPythonSpace, Char.toNat, Bool.or_eq_false_iff, Bool.and_eq_false_iff, beq_eq_false_iff_ne,
    decide_eq_false_iff_not]
  have low : 48 ≤ c.val.toNat := digit.1
  have high : c.val.toNat ≤ 57 := digit.2
  omega

theorem strip_of_no_space {text : Text} (noSpace : ∀ c ∈ text, isPythonSpace c = false) :
    strip text = text := by
  have kept : ∀ text : Text, (∀ c ∈ text, isPythonSpace c = false) →
      text.dropWhile isPythonSpace = text := by
    intro text noSpace
    cases text with
    | nil => rfl
    | cons c rest =>
        rw [List.dropWhile_cons, noSpace c List.mem_cons_self]
        rfl
  rw [strip, kept text noSpace, kept text.reverse, List.reverse_reverse]
  intro c member
  exact noSpace c (List.mem_reverse.mp member)

theorem pythonStr_no_space (n : ℤ) : ∀ c ∈ pythonStr n, isPythonSpace c = false := by
  intro c member
  unfold pythonStr at member
  split at member
  · rcases List.mem_cons.mp member with rfl | isDigit
    · rfl
    · exact isPythonSpace_of_isDigit (isDigit_of_mem_digits isDigit)
  · exact isPythonSpace_of_isDigit (isDigit_of_mem_digits member)

theorem pythonStr_ne_nil (n : ℤ) : pythonStr n ≠ [] := by
  unfold pythonStr
  split
  · exact List.cons_ne_nil _ _
  · exact Nat.toDigits_ne_nil

theorem pythonInt_pythonStr (n : ℤ) : pythonInt (pythonStr n) = some n := by
  rw [pythonInt, strip_of_no_space (pythonStr_no_space n), pythonStr]
  by_cases negative : n < 0
  · have value : -(n.natAbs : ℤ) = n := by omega
    rw [if_pos negative, signedDigits, digitGroups_toDigits]
    exact congrArg some value
  · rw [if_neg negative]
    have unsigned : signedDigits (Nat.toDigits 10 n.natAbs) =
        (digitGroups 0 false (Nat.toDigits 10 n.natAbs)).map fun n => (n : ℤ) := by
      unfold signedDigits
      split
      · rename_i same
        have impossible := isDigit_of_mem_digits (c := '-') (same ▸ List.mem_cons_self)
        cases impossible
      · rename_i same
        have impossible := isDigit_of_mem_digits (c := '+') (same ▸ List.mem_cons_self)
        cases impossible
      · rfl
    have value : (n.natAbs : ℤ) = n := by omega
    rw [unsigned, digitGroups_toDigits]
    exact congrArg some value

end SupernoteTaskService
