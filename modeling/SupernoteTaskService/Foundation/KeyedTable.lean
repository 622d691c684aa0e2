import Mathlib

/-!
# Tables with a primary key

A table is a list of rows whose keys are pairwise distinct.  The list order is
the physical order of the rows and carries no meaning of its own: a query that
needs an order sorts.  `INSERT` refuses a duplicate key, `UPDATE ... WHERE`
rewrites the matching rows in place and never touches a key, so both keep the
invariant that the structure carries.

`changedCount` is the row count a driver reports for an `UPDATE` when it counts
changed rows rather than matched ones.
-/

set_option autoImplicit false

namespace SupernoteTaskService.Foundation

structure KeyedTable {ρ κ : Type} (key : ρ → κ) where
  rows : List ρ
  keysNodup : (rows.map key).Nodup

namespace KeyedTable

variable {ρ κ : Type} {key : ρ → κ}

instance [DecidableEq ρ] : DecidableEq (KeyedTable key) := fun left right =>
  decidable_of_iff (left.rows = right.rows) <| by
    cases left
    cases right
    simp

def empty : KeyedTable key := ⟨[], List.nodup_nil⟩

def single (row : ρ) : KeyedTable key := ⟨[row], List.nodup_singleton _⟩

/-- `SELECT ... WHERE condition`, in physical order. -/
def select (table : KeyedTable key) (condition : ρ → Bool) : List ρ :=
  table.rows.filter condition

def get [DecidableEq κ] (table : KeyedTable key) (k : κ) : Option ρ :=
  table.rows.find? fun row => key row = k

def insert [DecidableEq κ] (table : KeyedTable key) (row : ρ) :
    Option (KeyedTable key) :=
  if taken : key row ∈ table.rows.map key then none
  else some ⟨table.rows ++ [row], by
    rw [List.map_append, List.map_singleton, ← List.concat_eq_append]
    exact table.keysNodup.concat taken⟩

/-- The rows after `UPDATE ... SET assign WHERE condition`. -/
def update (table : KeyedTable key) (condition : ρ → Bool) (assign : ρ → ρ)
    (keeps : ∀ row, key (assign row) = key row) : KeyedTable key where
  rows := table.rows.map fun row => if condition row then assign row else row
  keysNodup := by
    have sameKeys : (table.rows.map fun row =>
        if condition row then assign row else row).map key = table.rows.map key := by
      rw [List.map_map]
      apply List.map_congr_left
      intro row _
      by_cases hit : condition row <;> simp [hit, keeps]
    rw [sameKeys]
    exact table.keysNodup

def changedCount [DecidableEq ρ] (table : KeyedTable key) (condition : ρ → Bool)
    (assign : ρ → ρ) : ℕ :=
  table.rows.countP fun row => condition row && decide (assign row ≠ row)

/-! ## Lookup -/

theorem eq_of_key_eq (table : KeyedTable key) {left right : ρ}
    (leftMem : left ∈ table.rows) (rightMem : right ∈ table.rows)
    (same : key left = key right) : left = right :=
  List.inj_on_of_nodup_map table.keysNodup leftMem rightMem same

theorem get_eq_some_iff [DecidableEq κ] (table : KeyedTable key) (k : κ) (row : ρ) :
    table.get k = some row ↔ row ∈ table.rows ∧ key row = k := by
  constructor
  · intro found
    exact ⟨List.mem_of_find?_eq_some found, by simpa using List.find?_some found⟩
  · rintro ⟨member, rfl⟩
    cases found : table.get (key row) with
    | none =>
        have absent := List.find?_eq_none.mp found row member
        simp at absent
    | some other =>
        have otherKey : key other = key row := by simpa using List.find?_some found
        rw [table.eq_of_key_eq (List.mem_of_find?_eq_some found) member otherKey]

theorem get_eq_none_iff [DecidableEq κ] (table : KeyedTable key) (k : κ) :
    table.get k = none ↔ ∀ row ∈ table.rows, key row ≠ k := by
  simp [get, List.find?_eq_none]

theorem mem_select (table : KeyedTable key) (condition : ρ → Bool) (row : ρ) :
    row ∈ table.select condition ↔ row ∈ table.rows ∧ condition row = true :=
  List.mem_filter

theorem select_keys_nodup (table : KeyedTable key) (condition : ρ → Bool) :
    ((table.select condition).map key).Nodup :=
  table.keysNodup.sublist (List.filter_sublist.map key)

theorem select_key [DecidableEq κ] (table : KeyedTable key) (k : κ) :
    table.select (fun row => decide (key row = k)) = (table.get k).toList := by
  cases found : table.get k with
  | none =>
      rw [Option.toList_none, select, List.filter_eq_nil_iff]
      intro row member hit
      exact (table.get_eq_none_iff k).mp found row member (of_decide_eq_true hit)
  | some row =>
      have isRow := (table.get_eq_some_iff k row).mp found
      refine List.perm_singleton.mp ((List.perm_ext_iff_of_nodup
        (table.select_keys_nodup _).of_map (List.nodup_singleton row)).mpr fun other => ?_)
      rw [mem_select, decide_eq_true_eq, List.mem_singleton]
      constructor
      · intro ⟨member, isKey⟩
        exact table.eq_of_key_eq member isRow.1 (isKey.trans isRow.2.symm)
      · intro same
        rw [same]
        exact isRow

theorem select_key_and [DecidableEq κ] (table : KeyedTable key) (k : κ) (condition : ρ → Bool) :
    table.select (fun row => decide (key row = k) && condition row) =
      ((table.get k).filter condition).toList := by
  have both : table.select (fun row => decide (key row = k) && condition row) =
      (table.select fun row => decide (key row = k)).filter condition := by
    simp only [select, List.filter_filter, Bool.and_comm]
  rw [both, select_key]
  cases table.get k with
  | none => rfl
  | some row =>
      rw [Option.filter_some, Option.toList_some]
      by_cases hit : condition row = true
      · rw [if_pos hit, List.filter_cons_of_pos hit, List.filter_nil, Option.toList_some]
      · rw [if_neg hit, List.filter_cons_of_neg hit, List.filter_nil, Option.toList_none]

/-! ## Insertion -/

theorem insert_eq_some_iff [DecidableEq κ] (table after : KeyedTable key) (row : ρ) :
    table.insert row = some after ↔
      table.get (key row) = none ∧ after.rows = table.rows ++ [row] := by
  have free : table.get (key row) = none ↔ key row ∉ table.rows.map key := by
    rw [get_eq_none_iff, List.mem_map]
    push Not
    rfl
  rw [free]
  unfold insert
  split
  · rename_i taken
    simp [taken]
  · rename_i open_
    constructor
    · intro success
      cases success
      exact ⟨open_, rfl⟩
    · rintro ⟨_, sameRows⟩
      cases after
      simp_all

theorem insert_eq_none_iff [DecidableEq κ] (table : KeyedTable key) (row : ρ) :
    table.insert row = none ↔ table.get (key row) ≠ none := by
  have taken : table.get (key row) ≠ none ↔ key row ∈ table.rows.map key := by
    rw [Ne, get_eq_none_iff, List.mem_map]
    push Not
    rfl
  rw [taken]
  unfold insert
  split
  · rename_i member
    exact iff_of_true rfl member
  · rename_i absent
    exact iff_of_false (Option.some_ne_none _) absent

theorem get_insert [DecidableEq κ] {table after : KeyedTable key} {row : ρ}
    (inserted : table.insert row = some after) (k : κ) :
    after.get k = if key row = k then some row else table.get k := by
  obtain ⟨free, rowsAfter⟩ := (table.insert_eq_some_iff after row).mp inserted
  unfold get at free ⊢
  rw [rowsAfter, List.find?_append]
  by_cases hit : key row = k
  · subst hit
    simp [free]
  · simp [hit]

theorem exists_insert [DecidableEq κ] (table : KeyedTable key) (row : ρ)
    (free : table.get (key row) = none) :
    ∃ after, table.insert row = some after ∧ after.rows = table.rows ++ [row] := by
  cases inserted : table.insert row with
  | none => exact absurd free ((table.insert_eq_none_iff row).mp inserted)
  | some after => exact ⟨after, rfl, ((table.insert_eq_some_iff after row).mp inserted).2⟩

theorem insert_cases [DecidableEq κ] (table : KeyedTable key) (row : ρ) :
    table.insert row = none ∧ table.get (key row) ≠ none ∨
      ∃ after, table.insert row = some after ∧ table.get (key row) = none ∧
        ∀ k, after.get k = if k = key row then some row else table.get k := by
  by_cases free : table.get (key row) = none
  · obtain ⟨after, inserted, -⟩ := table.exists_insert row free
    refine Or.inr ⟨after, inserted, free, fun k => ?_⟩
    rw [get_insert inserted]
    simp only [eq_comm]
  · exact Or.inl ⟨(table.insert_eq_none_iff row).mpr free, free⟩

/-! ## Update -/

section Update
variable {condition : ρ → Bool} {assign : ρ → ρ}
  (keeps : ∀ row, key (assign row) = key row)

theorem get_update [DecidableEq κ] (table : KeyedTable key) (k : κ) :
    (table.update condition assign keeps).get k =
      (table.get k).map fun row => if condition row then assign row else row := by
  unfold get update
  rw [List.find?_map]
  congr 2
  funext row
  by_cases hit : condition row <;> simp [hit, keeps]

theorem changedCount_eq_zero_iff [DecidableEq ρ] (table : KeyedTable key)
    (condition : ρ → Bool) (assign : ρ → ρ) :
    table.changedCount condition assign = 0 ↔
      ∀ row ∈ table.rows, condition row = true → assign row = row := by
  simp [changedCount, List.countP_eq_zero]

theorem update_eq_self_of_changedCount_zero [DecidableEq ρ] (table : KeyedTable key)
    (nothing : table.changedCount condition assign = 0) :
    table.update condition assign keeps = table := by
  have fixed := (table.changedCount_eq_zero_iff condition assign).mp nothing
  cases table with
  | mk rows keysNodup =>
      simp only [update, KeyedTable.mk.injEq]
      calc rows.map (fun row => if condition row then assign row else row)
          = rows.map id := by
            apply List.map_congr_left
            intro row member
            by_cases hit : condition row
            · simpa [hit] using fixed row member hit
            · simp [hit]
        _ = rows := List.map_id rows

end Update

/-- With the key fixed by the condition, the update is about a single row. -/
theorem changedCount_pos_iff [DecidableEq ρ] [DecidableEq κ] (table : KeyedTable key)
    (condition : ρ → Bool) (assign : ρ → ρ) (k : κ)
    (onKey : ∀ row, condition row = true → key row = k) :
    0 < table.changedCount condition assign ↔
      ∃ row, table.get k = some row ∧ condition row = true ∧ assign row ≠ row := by
  rw [Nat.pos_iff_ne_zero, Ne, changedCount_eq_zero_iff]
  push Not
  constructor
  · rintro ⟨row, member, hit, changed⟩
    exact ⟨row, (table.get_eq_some_iff k row).mpr ⟨member, onKey row hit⟩, hit, changed⟩
  · rintro ⟨row, found, hit, changed⟩
    exact ⟨row, ((table.get_eq_some_iff k row).mp found).1, hit, changed⟩

/-- The two outcomes of an update of one key: nothing at all, or one row changed. -/
theorem update_cases [DecidableEq ρ] [DecidableEq κ] (table : KeyedTable key)
    {condition : ρ → Bool} {assign : ρ → ρ} (keeps : ∀ row, key (assign row) = key row) (k : κ)
    (onKey : ∀ row, condition row = true → key row = k) :
    table.changedCount condition assign = 0 ∧ table.update condition assign keeps = table ∨
      ∃ row, table.get k = some row ∧ condition row = true ∧ assign row ≠ row ∧
        0 < table.changedCount condition assign ∧
        ∀ k', (table.update condition assign keeps).get k' =
          if k' = k then some (assign row) else table.get k' := by
  by_cases nothing : table.changedCount condition assign = 0
  · exact Or.inl ⟨nothing, table.update_eq_self_of_changedCount_zero keeps nothing⟩
  · have some_ := Nat.pos_of_ne_zero nothing
    obtain ⟨row, found, hit, changed⟩ :=
      (table.changedCount_pos_iff condition assign k onKey).mp some_
    refine Or.inr ⟨row, found, hit, changed, some_, fun k' => ?_⟩
    rw [table.get_update keeps k']
    by_cases isTarget : k' = k
    · subst isTarget
      rw [if_pos rfl, found, Option.map_some, if_pos hit]
    · rw [if_neg isTarget]
      cases other : table.get k' with
      | none => rfl
      | some otherRow =>
          have otherKey := ((table.get_eq_some_iff k' otherRow).mp other).2
          rw [Option.map_some, if_neg]
          intro otherHit
          exact isTarget (otherKey.symm.trans (onKey otherRow otherHit))

/-! ## Frames -/

section Keeps
variable {before middle after : KeyedTable key} {frozen : ρ → Prop}

/-- Every row is still there under its key, and unchanged where it is frozen. -/
def Keeps (frozen : ρ → Prop) (before after : KeyedTable key) : Prop :=
  ∀ row ∈ before.rows, ∃ row' ∈ after.rows, key row' = key row ∧ (frozen row → row' = row)

theorem Keeps.refl (table : KeyedTable key) : Keeps frozen table table :=
  fun row member => ⟨row, member, rfl, fun _ => rfl⟩

theorem Keeps.trans (first : Keeps frozen before middle) (second : Keeps frozen middle after) :
    Keeps frozen before after := by
  intro row member
  obtain ⟨row', member', sameKey, same⟩ := first row member
  obtain ⟨row'', member'', sameKey', same'⟩ := second row' member'
  refine ⟨row'', member'', sameKey'.trans sameKey, fun isFrozen => ?_⟩
  have isRow := same isFrozen
  subst isRow
  exact same' isFrozen

end Keeps

section Frame
variable [DecidableEq κ] {before after : KeyedTable key} {row : ρ}

theorem mem_iff_of_frame
    (frame : ∀ k, after.get k = if k = key row then some row else before.get k) (other : ρ) :
    other ∈ after.rows ↔ other = row ∨ other ∈ before.rows ∧ key other ≠ key row := by
  have stored : ∀ table : KeyedTable key, other ∈ table.rows ↔
      table.get (key other) = some other := by
    intro table
    rw [table.get_eq_some_iff, and_iff_left rfl]
  rw [stored, stored, frame]
  by_cases sameKey : key other = key row
  · simp only [sameKey, if_true, Option.some.injEq, ne_eq, not_true, and_false, or_false, eq_comm]
  · have different : other ≠ row := fun same => sameKey (congrArg key same)
    simp only [sameKey, if_false, different, false_or, ne_eq, not_false_eq_true, and_true]

theorem keeps_of_frame {frozen : ρ → Prop}
    (frame : ∀ k, after.get k = if k = key row then some row else before.get k)
    (thawed : ∀ old, before.get (key row) = some old → ¬ frozen old) :
    Keeps frozen before after := by
  intro other member
  by_cases sameKey : key other = key row
  · refine ⟨row, (mem_iff_of_frame frame row).mpr (Or.inl rfl), sameKey.symm, fun isFrozen => ?_⟩
    have found := (before.get_eq_some_iff (key row) other).mpr ⟨member, sameKey⟩
    exact absurd isFrozen (thawed other found)
  · exact ⟨other, (mem_iff_of_frame frame other).mpr (Or.inr ⟨member, sameKey⟩), rfl, fun _ => rfl⟩

theorem gained_of_frame
    (frame : ∀ k, after.get k = if k = key row then some row else before.get k)
    (free : before.get (key row) = none) :
    row ∉ before.rows ∧ ∀ other, other ∈ after.rows ↔ other ∈ before.rows ∨ other = row := by
  have absent := (before.get_eq_none_iff (key row)).mp free
  refine ⟨fun member => absent row member rfl, fun other => ?_⟩
  rw [mem_iff_of_frame frame, or_comm]
  exact or_congr_left (and_iff_left_of_imp (absent other))

end Frame

end KeyedTable

end SupernoteTaskService.Foundation
