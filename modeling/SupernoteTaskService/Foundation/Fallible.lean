import Mathlib

/-!
# Fallible computations over lists

Rules for `Except`: how a sequence of steps succeeds, and what a list mapped
element by element looks like when every element maps.
-/

set_option autoImplicit false

namespace SupernoteTaskService.Foundation

variable {ε α β γ : Type}

theorem bind_eq_ok_iff {first : Except ε α} {next : α → Except ε β} {result : β} :
    (first >>= next) = .ok result ↔ ∃ value, first = .ok value ∧ next value = .ok result := by
  cases first with
  | error e => simp [bind, Except.bind]
  | ok value => simp [bind, Except.bind]

theorem pure_eq_ok_iff {value result : α} :
    (pure value : Except ε α) = .ok result ↔ value = result :=
  Except.ok.injEq value result ▸ Iff.rfl

theorem map_eq_ok_iff {f : α → β} {computation : Except ε α} {result : β} :
    computation.map f = .ok result ↔ ∃ value, computation = .ok value ∧ f value = result := by
  cases computation with
  | error e => simp [Except.map]
  | ok value => simp [Except.map]

theorem map_map_eq (f : α → β) (g : β → γ) (computation : Except ε α) :
    (computation.map f).map g = computation.map fun value => g (f value) := by
  cases computation with
  | error e => rfl
  | ok value => rfl

theorem exists_map_ok_iff {f : α → β} {computation : Except ε α} :
    (∃ result, computation.map f = .ok result) ↔ ∃ value, computation = .ok value := by
  simp only [map_eq_ok_iff]
  constructor
  · intro ⟨_, value, computed, _⟩
    exact ⟨value, computed⟩
  · intro ⟨value, computed⟩
    exact ⟨f value, value, computed, rfl⟩

def RaisesOnly (P : ε → Prop) (computation : Except ε α) : Prop :=
  ∀ raised, computation = .error raised → P raised

section RaisesOnly
variable {P : ε → Prop}

theorem raisesOnly_ok (value : α) : RaisesOnly P (.ok value : Except ε α) := by
  intro raised impossible
  cases impossible

theorem raisesOnly_error {raised : ε} (holds : P raised) :
    RaisesOnly P (.error raised : Except ε α) := by
  intro other same
  cases same
  exact holds

theorem RaisesOnly.bind {first : Except ε α} {next : α → Except ε β} (ofFirst : RaisesOnly P first)
    (ofNext : ∀ value, RaisesOnly P (next value)) : RaisesOnly P (first >>= next) := by
  cases first with
  | error raised => exact raisesOnly_error (ofFirst raised rfl)
  | ok value => exact ofNext value

theorem RaisesOnly.map {computation : Except ε α} (raises : RaisesOnly P computation) (f : α → β) :
    RaisesOnly P (computation.map f) := by
  cases computation with
  | error raised => exact raisesOnly_error (raises raised rfl)
  | ok value => exact raisesOnly_ok (f value)

end RaisesOnly

section MapM
variable {map : α → Except ε β}

theorem mapM_cons_eq_ok_iff {item : α} {items : List α} {results : List β} :
    (item :: items).mapM map = .ok results ↔
      ∃ result rest, map item = .ok result ∧ items.mapM map = .ok rest ∧
        results = result :: rest := by
  rw [List.mapM_cons]
  simp only [bind_eq_ok_iff, pure_eq_ok_iff]
  constructor
  · intro ⟨result, mapped, rest, restMapped, same⟩
    exact ⟨result, rest, mapped, restMapped, same.symm⟩
  · intro ⟨result, rest, mapped, restMapped, same⟩
    exact ⟨result, mapped, rest, restMapped, same.symm⟩

theorem mapM_append_eq_ok_iff {front back : List α} {results : List β} :
    (front ++ back).mapM map = .ok results ↔
      ∃ left right, front.mapM map = .ok left ∧ back.mapM map = .ok right ∧
        results = left ++ right := by
  rw [List.mapM_append]
  simp only [bind_eq_ok_iff, pure_eq_ok_iff]
  constructor
  · intro ⟨left, leftMapped, right, rightMapped, same⟩
    exact ⟨left, right, leftMapped, rightMapped, same.symm⟩
  · intro ⟨left, right, leftMapped, rightMapped, same⟩
    exact ⟨left, leftMapped, right, rightMapped, same.symm⟩

theorem mem_of_mapM_ok {items : List α} {results : List β}
    (mapped : items.mapM map = .ok results) (result : β) :
    result ∈ results ↔ ∃ item ∈ items, map item = .ok result := by
  induction items generalizing results with
  | nil =>
      cases mapped
      simp
  | cons item items ih =>
      obtain ⟨first, rest, firstMapped, restMapped, rfl⟩ := mapM_cons_eq_ok_iff.mp mapped
      rw [List.mem_cons, ih restMapped, List.exists_mem_cons_iff, firstMapped]
      simp [eq_comm]

theorem mapM_ok_iff_forall {items : List α} :
    (∃ results, items.mapM map = .ok results) ↔ ∀ item ∈ items, ∃ result, map item = .ok result := by
  induction items with
  | nil => exact iff_of_true ⟨[], rfl⟩ (by simp)
  | cons item items ih =>
      rw [List.forall_mem_cons, ← ih]
      constructor
      · intro ⟨results, mapped⟩
        obtain ⟨first, rest, firstMapped, restMapped, -⟩ := mapM_cons_eq_ok_iff.mp mapped
        exact ⟨⟨first, firstMapped⟩, ⟨rest, restMapped⟩⟩
      · intro ⟨⟨first, firstMapped⟩, ⟨rest, restMapped⟩⟩
        exact ⟨first :: rest, mapM_cons_eq_ok_iff.mpr ⟨first, rest, firstMapped, restMapped, rfl⟩⟩

theorem mapM_error_iff_exists {items : List α} :
    (∃ e, items.mapM map = .error e) ↔ ∃ item ∈ items, ∃ e, map item = .error e := by
  have notOk : ∀ {δ : Type} (outcome : Except ε δ),
      (∃ e, outcome = .error e) ↔ ¬ ∃ result, outcome = .ok result := by
    intro δ outcome
    cases outcome <;> simp
  rw [notOk, mapM_ok_iff_forall]
  push Not
  simp only [notOk, not_exists]

theorem map_eq_of_mapM_ok {before : α → γ} {after : β → γ}
    (keeps : ∀ item result, map item = .ok result → after result = before item)
    {items : List α} {results : List β} (mapped : items.mapM map = .ok results) :
    results.map after = items.map before := by
  induction items generalizing results with
  | nil =>
      cases mapped
      rfl
  | cons item items ih =>
      obtain ⟨first, rest, firstMapped, restMapped, rfl⟩ := mapM_cons_eq_ok_iff.mp mapped
      rw [List.map_cons, List.map_cons, keeps item first firstMapped, ih restMapped]

theorem length_of_mapM_ok {items : List α} {results : List β}
    (mapped : items.mapM map = .ok results) : results.length = items.length := by
  have same : results.map (fun _ => ()) = items.map fun _ => () :=
    map_eq_of_mapM_ok (fun _ _ _ => rfl) mapped
  have lengths := congrArg List.length same
  rwa [List.length_map, List.length_map] at lengths

theorem getLast_of_mapM_ok {items : List α} {results : List β} {last : α}
    (mapped : items.mapM map = .ok results) (ends : items.getLast? = some last) :
    ∃ result, results.getLast? = some result ∧ map last = .ok result := by
  obtain ⟨front, rfl⟩ := List.getLast?_eq_some_iff.mp ends
  obtain ⟨frontResults, lastResults, -, lastMapped, rfl⟩ := mapM_append_eq_ok_iff.mp mapped
  obtain ⟨result, rest, resultMapped, restMapped, rfl⟩ := mapM_cons_eq_ok_iff.mp lastMapped
  rw [List.mapM_nil, pure_eq_ok_iff] at restMapped
  subst restMapped
  refine ⟨result, ?_, resultMapped⟩
  rw [List.getLast?_append, List.getLast?_singleton, Option.some_or]

theorem mem_iff_image_mem {items : List α} {results : List β}
    (mapped : items.mapM map = .ok results) {item : α}
    (separates : ∀ other ∈ items, ∀ result, map other = .ok result → map item = .ok result →
      item = other) :
    item ∈ items ↔ ∃ result ∈ results, map item = .ok result := by
  constructor
  · intro member
    obtain ⟨result, itemMapped⟩ := mapM_ok_iff_forall.mp ⟨results, mapped⟩ item member
    exact ⟨result, (mem_of_mapM_ok mapped result).mpr ⟨item, member, itemMapped⟩, itemMapped⟩
  · intro ⟨result, resultMem, itemMapped⟩
    obtain ⟨other, otherMem, otherMapped⟩ := (mem_of_mapM_ok mapped result).mp resultMem
    rw [separates other otherMem result otherMapped itemMapped]
    exact otherMem

/-- Two maps that fail alike on every item give the same list exactly when they fail on
an item of it, or agree on all of its items. -/
theorem mapM_eq_iff {other : α → Except ε β}
    (alike : ∀ item, (∃ e, map item = .error e ∧ other item = .error e) ∨
      ∃ result otherResult, map item = .ok result ∧ other item = .ok otherResult)
    (items : List α) :
    items.mapM map = items.mapM other ↔
      (∃ item ∈ items, ∃ e, map item = .error e) ∨ ∀ item ∈ items, map item = other item := by
  induction items with
  | nil => exact iff_of_true rfl (Or.inr fun _ member => absurd member List.not_mem_nil)
  | cons item items ih =>
      rw [List.mapM_cons, List.mapM_cons, List.exists_mem_cons_iff, List.forall_mem_cons]
      rcases alike item with ⟨e, mapped, otherMapped⟩ | ⟨result, otherResult, mapped, otherMapped⟩
      · rw [mapped, otherMapped]
        exact iff_of_true rfl (Or.inl (Or.inl ⟨e, rfl⟩))
      · have works : ¬ ∃ e, map item = .error e := by
          rintro ⟨e, failed⟩
          rw [mapped] at failed
          cases failed
        simp only [works, false_or]
        rw [mapped, otherMapped, Except.ok.injEq]
        cases rest : items.mapM map with
        | error e =>
            -- A later item fails, and both maps fail on the first that does.
            have fails := mapM_error_iff_exists.mp ⟨e, rest⟩
            have same := ih.mpr (Or.inl fails)
            rw [rest] at same
            rw [← same]
            exact iff_of_true rfl (Or.inl fails)
        | ok results =>
            have noFailure : ¬ ∃ item ∈ items, ∃ e, map item = .error e := by
              rw [← mapM_error_iff_exists, rest]
              exact fun ⟨_, failed⟩ => by cases failed
            obtain ⟨otherResults, otherRest⟩ := mapM_ok_iff_forall.mpr fun item member => by
              rcases alike item with ⟨e, failed, _⟩ | ⟨_, otherResult, _, outcome⟩
              · exact absurd ⟨item, member, e, failed⟩ noFailure
              · exact ⟨otherResult, outcome⟩
            rw [rest, otherRest] at ih
            rw [otherRest]
            simp only [noFailure, false_or, Except.ok.injEq] at ih ⊢
            rw [← ih]
            simp [bind, Except.bind, pure, Except.pure]

theorem mapM_ok_of_forall {total : α → β} {items : List α}
    (each : ∀ item ∈ items, map item = .ok (total item)) :
    items.mapM map = .ok (items.map total) := by
  induction items with
  | nil => rfl
  | cons item items ih =>
      have rest := ih fun other member => each other (List.mem_cons_of_mem item member)
      exact mapM_cons_eq_ok_iff.mpr ⟨_, _, each item List.mem_cons_self, rest, rfl⟩

theorem mapM_ok_of_total {total : α → β} (items : List α) :
    items.mapM (fun item => (.ok (total item) : Except ε β)) = .ok (items.map total) := by
  induction items with
  | nil => rfl
  | cons item items ih =>
      exact mapM_cons_eq_ok_iff.mpr ⟨total item, items.map total, rfl, ih, rfl⟩

end MapM

end SupernoteTaskService.Foundation
