import SupernoteTaskService.EmojiTokens
import SupernoteTaskService.Foundation.Fitting

/-!
# How long encoded text gets

A character past the basic plane takes a token of nine or ten characters, every other one
stands for itself.  The encoder of titles writes all tokens, the one of details stops
before the first token that passes the column limit: it encodes the longest front of the
text whose encoding fits.
-/

set_option autoImplicit false

namespace SupernoteTaskService

open Foundation

/-! ## Tokens -/

/-- The characters that a token has more than the character it stands for. -/
def growth (ch : Char) : ℕ :=
  if ch.toNat ≤ 0xFFFF then 0 else if ch.toNat ≤ 0xFFFFF then 8 else 9

theorem hexDigits_length {n k : ℕ} (lower : 16 ^ k ≤ n) (upper : n < 16 ^ (k + 1)) :
    (Nat.toDigits 16 n).length = k + 1 := by
  apply le_antisymm
  · exact (Nat.length_toDigits_le_iff (by decide) (Nat.succ_pos k)).mpr upper
  · by_contra few
    cases k with
    | zero =>
        have nonempty := Nat.length_toDigits_pos (b := 16) (n := n)
        omega
    | succ k =>
        have short : (Nat.toDigits 16 n).length ≤ k + 1 := by omega
        have small := (Nat.length_toDigits_le_iff (by decide) (Nat.succ_pos k)).mp short
        omega

theorem encodeChar_length (ch : Char) : (encodeChar ch).length = 1 + growth ch := by
  unfold encodeChar growth
  by_cases basic : ch.toNat ≤ 0xFFFF
  · rw [if_neg (not_lt.mpr basic), if_pos basic]
    rfl
  · have token : (emojiToken ch).length = 4 + (Nat.toDigits 16 ch.toNat).length := by
      have opening : "[U+".toList.length = 3 := rfl
      rw [emojiToken, List.length_append, List.length_append, List.length_map, opening,
        List.length_singleton]
      omega
    have scalar : ch.toNat < 16 ^ 6 := by
      have valid : ch.toNat.isValidChar := ch.valid
      unfold Nat.isValidChar at valid
      omega
    rw [if_pos (not_le.mp basic), if_neg basic, token]
    by_cases five : ch.toNat ≤ 0xFFFFF
    · rw [if_pos five, hexDigits_length (k := 4) (by omega) (by omega)]
    · rw [if_neg five, hexDigits_length (k := 5) (by omega) scalar]

theorem encodeEmoji_length (text : Text) :
    (encodeEmoji text).length = text.length + totalWeight growth text := by
  induction text with
  | nil => rfl
  | cons ch text ih =>
      rw [encodeEmoji] at ih ⊢
      rw [List.flatMap_cons, List.length_append, ih, encodeChar_length, totalWeight_cons,
        List.length_cons]
      omega

theorem encodeEmoji_front {front text : Text} (isFront : front <+: text) :
    encodeEmoji front <+: encodeEmoji text := by
  obtain ⟨back, rfl⟩ := isFront
  rw [encodeEmoji_append]
  exact List.prefix_append _ _

/-! ## Details -/

def tokenLength (ch : Char) : ℕ := (encodeChar ch).length

theorem encodeEmoji_length_eq_totalWeight (text : Text) :
    (encodeEmoji text).length = totalWeight tokenLength text := by
  rw [encodeEmoji, List.length_flatMap, totalWeight]
  rfl

theorem encodeDetailFrom_eq (detail : Text) : ∀ length : ℕ, length ≤ DETAIL_MAX_LEN →
    encodeDetailFrom length detail =
      encodeEmoji (fitting tokenLength (DETAIL_MAX_LEN - length) detail) := by
  induction detail with
  | nil => exact fun length _ => rfl
  | cons ch rest ih =>
      intro length room
      have weight : tokenLength ch = (encodeChar ch).length := rfl
      rw [encodeDetailFrom, fitting, weight]
      by_cases passed : length + (encodeChar ch).length > DETAIL_MAX_LEN
      · rw [if_pos passed, if_neg (by omega)]
        rfl
      · rw [if_neg passed, if_pos (by omega), ih _ (not_lt.mp passed), Nat.sub_add_eq]
        rfl

def storedDetail (detail : Text) : Text := fitting tokenLength DETAIL_MAX_LEN detail

theorem encodeDetail_eq (detail : Text) : encodeDetail detail = encodeEmoji (storedDetail detail) :=
  encodeDetailFrom_eq detail 0 (Nat.zero_le _)

theorem storedDetail_front (detail : Text) : storedDetail detail <+: detail :=
  fitting_front tokenLength detail DETAIL_MAX_LEN

theorem front_of_storedDetail_iff {front detail : Text} (isFront : front <+: detail) :
    front <+: storedDetail detail ↔ (encodeEmoji front).length ≤ DETAIL_MAX_LEN := by
  rw [encodeEmoji_length_eq_totalWeight]
  exact front_of_fitting_iff isFront

theorem storedDetail_fits (detail : Text) :
    (encodeEmoji (storedDetail detail)).length ≤ DETAIL_MAX_LEN :=
  (front_of_storedDetail_iff (storedDetail_front detail)).mp (List.prefix_refl _)

/-- A token is stored whole, or nothing of it and of what follows. -/
theorem encodeDetail_cuts_no_token (before after : Text) (ch : Char) :
    encodeEmoji (before ++ [ch]) <+: encodeDetail (before ++ ch :: after) ∨
      encodeDetail (before ++ ch :: after) <+: encodeEmoji before := by
  rw [encodeDetail_eq]
  have withToken : before ++ [ch] <+: before ++ ch :: after :=
    ⟨after, by rw [List.append_assoc, List.singleton_append]⟩
  have stored := storedDetail_front (before ++ ch :: after)
  rcases List.prefix_or_prefix_of_prefix withToken stored with whole | short
  · exact Or.inl (encodeEmoji_front whole)
  · rcases List.prefix_concat_iff.mp short with all | shorter
    · exact Or.inl (encodeEmoji_front (all ▸ List.prefix_refl _))
    · exact Or.inr (encodeEmoji_front shorter)

/-- A stored detail is the encoding of the longest front of the detail whose encoding fits
the column: in full where all of it fits, with no token cut, and growing with the detail. -/
theorem encodeDetail_longest_fitting (detail : Text) :
    (encodeDetail detail).length ≤ DETAIL_MAX_LEN ∧ BasicPlane (encodeDetail detail) ∧
    (∃ front, front <+: detail ∧ (encodeEmoji front).length ≤ DETAIL_MAX_LEN ∧
      (∀ other, other <+: detail → (encodeEmoji other).length ≤ DETAIL_MAX_LEN → other <+: front) ∧
      encodeDetail detail = encodeEmoji front) ∧
    ((encodeEmoji detail).length ≤ DETAIL_MAX_LEN → encodeDetail detail = encodeEmoji detail) ∧
    (∀ before ch after, detail = before ++ ch :: after →
      encodeEmoji (before ++ [ch]) <+: encodeDetail detail ∨
        encodeDetail detail <+: encodeEmoji before) ∧
    ∀ longer, detail <+: longer → encodeDetail detail <+: encodeDetail longer := by
  have fits := storedDetail_fits detail
  refine ⟨?_, ?_, ?_, ?_, ?_, ?_⟩
  · rw [encodeDetail_eq]
    exact fits
  · rw [encodeDetail_eq]
    exact encodeEmoji_basicPlane _
  · refine ⟨storedDetail detail, storedDetail_front detail, fits, ?_, encodeDetail_eq detail⟩
    intro other isFront otherFits
    exact (front_of_storedDetail_iff isFront).mpr otherFits
  · intro allFits
    rw [encodeEmoji_length_eq_totalWeight] at allFits
    rw [encodeDetail_eq, storedDetail, fitting_eq_self allFits]
  · rintro before ch after rfl
    exact encodeDetail_cuts_no_token before after ch
  · intro longer isFront
    rw [encodeDetail_eq, encodeDetail_eq]
    exact encodeEmoji_front (fitting_mono isFront)

end SupernoteTaskService
