import Mathlib

/-!
# Substituting the matches of a pattern

A text is scanned from the left.  Where a match starts it is replaced and the scan goes on
behind it, and every other item is copied.  `Splits` is the division of a text that the
scan works by: matches, and between them the longest stretches in which no match starts.
Every text has one such division, and a substitution works on it piece by piece.
-/

set_option autoImplicit false

namespace SupernoteTaskService.Foundation

/-- What a pattern matches at the front of a text, with the text that each match is
spelled as.  No match is empty. -/
structure Matcher (α τ : Type) where
  next : List α → Option (τ × List α)
  spelling : τ → List α
  spelled : ∀ {text token rest}, next text = some (token, rest) → text = spelling token ++ rest
  nonempty : ∀ {text token rest}, next text = some (token, rest) → spelling token ≠ []

inductive Piece (α τ : Type) where
  | stretch (text : List α)
  | token (token : τ)

section Scan
variable {α τ ε : Type} (pattern : Matcher α τ)

theorem Matcher.rest_length_lt {text rest : List α} {token : τ}
    (matched : pattern.next text = some (token, rest)) : rest.length < text.length := by
  have positive := List.length_pos_iff.mpr (pattern.nonempty matched)
  rw [pattern.spelled matched, List.length_append]
  omega

/-- The leftmost matches that do not overlap, each with its replacement. -/
def Matcher.sub (replace : τ → Except ε (List α)) : List α → Except ε (List α)
  | [] => .ok []
  | c :: rest =>
      match _ : pattern.next (c :: rest) with
      | some (token, after) => do
          let replacement ← replace token
          let out ← Matcher.sub replace after
          return replacement ++ out
      | none => do
          let out ← Matcher.sub replace rest
          return c :: out
termination_by text => text.length
decreasing_by
  · exact pattern.rest_length_lt ‹_›
  · exact Nat.lt_succ_self rest.length

def Piece.image (write : τ → List α) : Piece α τ → List α
  | .stretch text => text
  | .token found => write found

/-- The text is these pieces: every token is matched where it stands, no match starts
inside a stretch, and no two stretches meet. -/
inductive Matcher.Splits : List α → List (Piece α τ) → Prop where
  | nil : Splits [] []
  | token {text rest : List α} {token : τ} {pieces : List (Piece α τ)}
      (matched : pattern.next text = some (token, rest)) (scan : Splits rest pieces) :
      Splits text (.token token :: pieces)
  | stretch {stretch rest : List α} {pieces : List (Piece α τ)} (nonempty : stretch ≠ [])
      (unmatched : ∀ front back, stretch = front ++ back → back ≠ [] →
        pattern.next (back ++ rest) = none)
      (maximal : ∀ other pieces', pieces ≠ .stretch other :: pieces') (scan : Splits rest pieces) :
      Splits (stretch ++ rest) (.stretch stretch :: pieces)

variable {pattern}

theorem Matcher.Splits.flatMap_spelling {text : List α} {pieces : List (Piece α τ)}
    (scan : pattern.Splits text pieces) :
    pieces.flatMap (Piece.image pattern.spelling) = text := by
  induction scan with
  | nil => rfl
  | token matched scan ih => rw [List.flatMap_cons, ih, pattern.spelled matched, Piece.image]
  | stretch nonempty unmatched maximal scan ih => rw [List.flatMap_cons, ih, Piece.image]

theorem Matcher.Splits.matched_of_mem {text : List α} {pieces : List (Piece α τ)}
    (scan : pattern.Splits text pieces) {token : τ} (member : Piece.token token ∈ pieces) :
    ∃ front rest, pattern.next front = some (token, rest) := by
  induction scan with
  | nil => cases member
  | token matched scan ih =>
      rcases List.mem_cons.mp member with same | later
      · cases same
        exact ⟨_, _, matched⟩
      · exact ih later
  | stretch nonempty unmatched maximal scan ih =>
      rcases List.mem_cons.mp member with impossible | later
      · cases impossible
      · exact ih later

theorem Matcher.Splits.exists_cons {c : α} {rest : List α} {pieces : List (Piece α τ)}
    (noMatch : pattern.next (c :: rest) = none) (scan : pattern.Splits rest pieces) :
    ∃ pieces', pattern.Splits (c :: rest) pieces' := by
  have alone : (∀ other pieces', pieces ≠ .stretch other :: pieces') →
      pattern.Splits ([c] ++ rest) (.stretch [c] :: pieces) := by
    intro maximal
    refine .stretch (List.cons_ne_nil c []) (fun front back whole nonempty => ?_) maximal scan
    cases front with
    | nil =>
        rw [List.nil_append] at whole
        rw [← whole]
        exact noMatch
    | cons first front =>
        have empty := (List.append_eq_nil_iff.mp (List.cons.inj whole).2.symm).2
        exact absurd empty nonempty
  cases scan with
  | nil => exact ⟨_, alone fun _ _ impossible => by cases impossible⟩
  | token matched scan => exact ⟨_, alone fun _ _ impossible => by cases impossible⟩
  | @stretch stretch rest pieces nonempty unmatched maximal scan =>
      refine ⟨.stretch (c :: stretch) :: pieces, .stretch (List.cons_ne_nil c stretch)
        (fun front back whole backNonempty => ?_) maximal scan⟩
      cases front with
      | nil =>
          rw [List.nil_append] at whole
          rw [← whole]
          exact noMatch
      | cons first front => exact unmatched front back (List.cons.inj whole).2 backNonempty

variable (pattern) in
theorem Matcher.exists_splits (text : List α) : ∃ pieces, pattern.Splits text pieces := by
  induction length : text.length using Nat.strong_induction_on generalizing text with
  | h n ih =>
      cases text with
      | nil => exact ⟨[], .nil⟩
      | cons c rest =>
          cases matched : pattern.next (c :: rest) with
          | some found =>
              have shorter := pattern.rest_length_lt matched
              obtain ⟨pieces, scan⟩ := ih found.2.length (length ▸ shorter) found.2 rfl
              exact ⟨_, .token matched scan⟩
          | none =>
              have shorter : rest.length < n := length ▸ Nat.lt_succ_self rest.length
              obtain ⟨pieces, scan⟩ := ih rest.length shorter rest rfl
              exact Matcher.Splits.exists_cons matched scan

theorem Matcher.Splits.matched_of_maximal {text : List α} {pieces : List (Piece α τ)}
    (scan : pattern.Splits text pieces) (nonempty : text ≠ [])
    (maximal : ∀ other pieces', pieces ≠ .stretch other :: pieces') : pattern.next text ≠ none := by
  cases scan with
  | nil => exact absurd rfl nonempty
  | token matched scan =>
      rw [matched]
      exact Option.some_ne_none _
  | stretch _ _ _ _ => exact absurd rfl (maximal _ _)

theorem Matcher.Splits.not_inside {stretch longer rest rest' : List α} {pieces : List (Piece α τ)}
    (maximal : ∀ other pieces', pieces ≠ .stretch other :: pieces')
    (scan : pattern.Splits rest pieces)
    (unmatched : ∀ front back, longer = front ++ back → back ≠ [] →
      pattern.next (back ++ rest') = none)
    {more : List α} (isLonger : longer = stretch ++ more) (isRest : rest = more ++ rest') :
    stretch = longer ∧ rest = rest' := by
  have nothing : more = [] := by
    by_contra nonempty
    refine scan.matched_of_maximal ?_ maximal ?_
    · rw [isRest]
      exact List.append_ne_nil_of_left_ne_nil nonempty rest'
    · rw [isRest]
      exact unmatched stretch more isLonger nonempty
  rw [isLonger, isRest, nothing]
  exact ⟨(List.append_nil stretch).symm, List.nil_append rest'⟩

theorem Matcher.Splits.front_cases {text : List α} {pieces : List (Piece α τ)}
    (scan : pattern.Splits text pieces) :
    (text = [] ∧ pieces = []) ∨
      (∃ found rest pieces', pattern.next text = some (found, rest) ∧
        pieces = .token found :: pieces' ∧ pattern.Splits rest pieces') ∨
      ∃ stretch rest pieces', text = stretch ++ rest ∧ pieces = .stretch stretch :: pieces' ∧
        stretch ≠ [] ∧ (∀ front back, stretch = front ++ back → back ≠ [] →
          pattern.next (back ++ rest) = none) ∧
        (∀ other pieces'', pieces' ≠ .stretch other :: pieces'') ∧ pattern.Splits rest pieces' := by
  cases scan with
  | nil => exact Or.inl ⟨rfl, rfl⟩
  | token matched scan => exact Or.inr (Or.inl ⟨_, _, _, matched, rfl, scan⟩)
  | stretch nonempty unmatched maximal scan =>
      exact Or.inr (Or.inr ⟨_, _, _, rfl, rfl, nonempty, unmatched, maximal, scan⟩)

/-- There is one division of a text. -/
theorem Matcher.Splits.unique {text : List α} {pieces pieces' : List (Piece α τ)}
    (scan : pattern.Splits text pieces) (scan' : pattern.Splits text pieces') :
    pieces = pieces' := by
  induction scan generalizing pieces' with
  | nil =>
      rcases scan'.front_cases with ⟨-, rfl⟩ | ⟨found, rest, _, matched, -, -⟩ |
        ⟨stretch, rest, _, whole, -, nonempty, -, -, -⟩
      · rfl
      · exact absurd (pattern.rest_length_lt matched) (Nat.not_lt_zero _)
      · exact absurd (List.append_eq_nil_iff.mp whole.symm).1 nonempty
  | token matched scan ih =>
      rcases scan'.front_cases with ⟨rfl, -⟩ | ⟨found, rest, _, matched', rfl, scan'⟩ |
        ⟨stretch, rest, _, rfl, -, nonempty, unmatched, -, -⟩
      · exact absurd (pattern.rest_length_lt matched) (Nat.not_lt_zero _)
      · rw [matched] at matched'
        cases matched'
        rw [ih scan']
      · rw [unmatched [] stretch rfl nonempty] at matched
        cases matched
  | @stretch stretch rest pieces nonempty unmatched maximal scan ih =>
      rcases scan'.front_cases with ⟨empty, -⟩ | ⟨found, _, _, matched, -, -⟩ |
        ⟨stretch', rest', _, whole, rfl, -, unmatched', maximal', scan'⟩
      · exact absurd (List.append_eq_nil_iff.mp empty).1 nonempty
      · rw [unmatched [] stretch rfl nonempty] at matched
        cases matched
      · have same : stretch = stretch' ∧ rest = rest' := by
          rcases List.append_eq_append_iff.mp whole with
            ⟨more, isLonger, isRest⟩ | ⟨more, isLonger, isRest⟩
          · exact scan.not_inside maximal unmatched' isLonger isRest
          · obtain ⟨sameStretch, sameRest⟩ := scan'.not_inside maximal' unmatched isLonger isRest
            exact ⟨sameStretch.symm, sameRest.symm⟩
        obtain ⟨rfl, rfl⟩ := same
        rw [ih scan']

/-! ## A substitution, piece by piece -/

variable {replace : τ → Except ε (List α)}

theorem Matcher.sub_of_matched {text rest : List α} {token : τ}
    (matched : pattern.next text = some (token, rest)) :
    pattern.sub replace text = (do
      let replacement ← replace token
      let out ← pattern.sub replace rest
      return replacement ++ out) := by
  cases text with
  | nil => exact absurd (pattern.rest_length_lt matched) (Nat.not_lt_zero _)
  | cons c text =>
      rw [Matcher.sub]
      split
      · rename_i found after isFound
        rw [matched] at isFound
        cases isFound
        rfl
      · rename_i unmatched
        rw [matched] at unmatched
        cases unmatched

theorem Matcher.sub_of_unmatched {c : α} {rest : List α}
    (unmatched : pattern.next (c :: rest) = none) :
    pattern.sub replace (c :: rest) = (do
      let out ← pattern.sub replace rest
      return c :: out) := by
  rw [Matcher.sub]
  split
  · rename_i matched
    rw [unmatched] at matched
    cases matched
  · rfl

theorem Matcher.sub_stretch {stretch rest out : List α}
    (unmatched : ∀ front back, stretch = front ++ back → back ≠ [] →
      pattern.next (back ++ rest) = none)
    (substituted : pattern.sub replace rest = .ok out) :
    pattern.sub replace (stretch ++ rest) = .ok (stretch ++ out) := by
  induction stretch with
  | nil => exact substituted
  | cons c stretch ih =>
      have atHead := unmatched [] (c :: stretch) rfl (List.cons_ne_nil c stretch)
      have tail := ih fun front back whole nonempty =>
        unmatched (c :: front) back (congrArg (List.cons c) whole) nonempty
      rw [List.cons_append] at atHead
      rw [List.cons_append, Matcher.sub_of_unmatched atHead, tail]
      rfl

/-- Where every matched token has a replacement, the substitution puts it in its place and
leaves everything else. -/
theorem Matcher.Splits.sub_eq {text : List α} {pieces : List (Piece α τ)}
    (scan : pattern.Splits text pieces) {replacement : τ → List α}
    (replaces : ∀ found, .token found ∈ pieces → replace found = .ok (replacement found)) :
    pattern.sub replace text = .ok (pieces.flatMap (Piece.image replacement)) := by
  induction scan with
  | nil => rw [Matcher.sub]; rfl
  | token matched scan ih =>
      have rest := ih fun found member => replaces found (List.mem_cons_of_mem _ member)
      rw [Matcher.sub_of_matched matched, replaces _ List.mem_cons_self, rest]
      rfl
  | stretch nonempty unmatched maximal scan ih =>
      have rest := ih fun found member => replaces found (List.mem_cons_of_mem _ member)
      exact Matcher.sub_stretch unmatched rest

theorem Matcher.sub_eq_self {text : List α}
    (unmatched : ∀ front back, text = front ++ back → back ≠ [] → pattern.next back = none) :
    pattern.sub replace text = .ok text := by
  have empty : pattern.sub replace [] = .ok [] := by rw [Matcher.sub]
  have inside : ∀ front back, text = front ++ back → back ≠ [] →
      pattern.next (back ++ []) = none := by
    intro front back whole nonempty
    rw [List.append_nil]
    exact unmatched front back whole nonempty
  have copied := Matcher.sub_stretch inside empty
  rwa [List.append_nil] at copied

theorem Matcher.Splits.length_le {text : List α} {pieces : List (Piece α τ)}
    (scan : pattern.Splits text pieces) {replacement : τ → List α}
    (shorter : ∀ found, .token found ∈ pieces →
      (replacement found).length ≤ (pattern.spelling found).length) :
    (pieces.flatMap (Piece.image replacement)).length ≤ text.length := by
  rw [← scan.flatMap_spelling, List.length_flatMap, List.length_flatMap]
  refine List.sum_le_sum fun piece member => ?_
  cases piece with
  | stretch text => exact Nat.le_refl _
  | token found => exact shorter found member

end Scan

/-! ## Runs between delimiters -/

section Delimited
variable {α : Type} [DecidableEq α] (opening : List α) (inner : α → Bool) (closing : α)

/-- `opening`, the longest run of inner items, one of them at least, and `closing`. -/
def delimitedNext (text : List α) : Option (List α × List α) := do
  let body ← text.dropPrefix? opening
  match body.takeWhile inner, body.dropWhile inner with
  | run, last :: rest => if run ≠ [] ∧ last = closing then some (run, rest) else none
  | _, [] => none

variable {opening inner closing}

omit [DecidableEq α] in
theorem takeWhile_of_delimited (outside : inner closing = false) {run : List α}
    (allInner : ∀ c ∈ run, inner c = true) (rest : List α) :
    (run ++ closing :: rest).takeWhile inner = run ∧
      (run ++ closing :: rest).dropWhile inner = closing :: rest := by
  have stops : ¬ inner closing = true := by rw [outside]; exact Bool.false_ne_true
  rw [List.takeWhile_append_of_pos allInner, List.dropWhile_append_of_pos allInner,
    List.takeWhile_cons_of_neg stops, List.dropWhile_cons_of_neg stops, List.append_nil]
  exact ⟨rfl, rfl⟩

/-- Where the closing item is no inner one, the longest run is the only one. -/
theorem delimitedNext_eq_some_iff (outside : inner closing = false) {text run rest : List α} :
    delimitedNext opening inner closing text = some (run, rest) ↔
      run ≠ [] ∧ (∀ c ∈ run, inner c = true) ∧ text = opening ++ run ++ [closing] ++ rest := by
  unfold delimitedNext
  constructor
  · intro isNext
    obtain ⟨body, opens, matched⟩ := Option.bind_eq_some_iff.mp isNext
    obtain ⟨opening', rfl, sameOpening⟩ := List.dropPrefix?_eq_some_iff.mp opens
    have whole := List.takeWhile_append_dropWhile (p := inner) (l := body)
    split at matched
    · rename_i last rest' closes
      split at matched
      · rename_i found
        cases matched
        refine ⟨found.1, fun c member => List.mem_takeWhile_imp member, ?_⟩
        rw [eq_of_beq sameOpening, List.append_assoc, List.append_assoc, ← found.2,
          List.singleton_append, ← closes, whole]
      · cases matched
    · cases matched
  · intro ⟨nonempty, allInner, spelled⟩
    have opens : text.dropPrefix? opening = some (run ++ closing :: rest) := by
      rw [List.dropPrefix?_eq_some_iff]
      refine ⟨opening, ?_, beq_self_eq_true opening⟩
      rw [spelled, List.append_assoc, List.append_assoc, List.singleton_append]
    obtain ⟨taken, dropped⟩ := takeWhile_of_delimited outside allInner rest
    rw [opens]
    simp only [Option.bind_eq_bind, Option.bind_some, taken, dropped]
    exact if_pos ⟨nonempty, trivial⟩

variable (opening inner closing) in
def Matcher.delimited (outside : inner closing = false) : Matcher α (List α) where
  next := delimitedNext opening inner closing
  spelling run := opening ++ run ++ [closing]
  spelled := fun matched => ((delimitedNext_eq_some_iff outside).mp matched).2.2
  nonempty := fun _ => List.append_ne_nil_of_right_ne_nil _ (List.cons_ne_nil _ _)

end Delimited

end SupernoteTaskService.Foundation
