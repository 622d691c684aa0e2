import SupernoteTaskService.Foundation.KeyedTable

/-!
# Tables that agree on a part

Two tables compared on the rows of one party, whatever the other rows are.  `AgreeOn`
compares them as sets, `SameOn` in their physical order too.  A query that asks for the
party's rows only cannot tell such tables apart, and a write that only touches them
leaves the tables in agreement.
-/

set_option autoImplicit false

namespace SupernoteTaskService.Foundation.KeyedTable

variable {ρ κ : Type} {key : ρ → κ} {left right left' right' : KeyedTable key}
  {condition : ρ → Bool} {assign : ρ → ρ}

/-! ## As sets -/

section AgreeOn
variable {mine : ρ → Prop}

def AgreeOn (mine : ρ → Prop) (left right : KeyedTable key) : Prop :=
  ∀ row, mine row → (row ∈ left.rows ↔ row ∈ right.rows)

theorem AgreeOn.refl (table : KeyedTable key) : AgreeOn mine table table := fun _ _ => Iff.rfl

theorem AgreeOn.select_perm (agree : AgreeOn mine left right)
    (covers : ∀ row, condition row = true → mine row) :
    (left.select condition).Perm (right.select condition) := by
  have nodup : ∀ table : KeyedTable key, (table.select condition).Nodup := fun table =>
    (table.select_keys_nodup condition).of_map key
  refine (List.perm_ext_iff_of_nodup (nodup left) (nodup right)).mpr fun row => ?_
  rw [mem_select, mem_select]
  exact and_congr_left fun hit => agree row (covers row hit)

theorem AgreeOn.filter_get [DecidableEq κ] (agree : AgreeOn mine left right)
    (covers : ∀ row, condition row = true → mine row) (k : κ) :
    (left.get k).filter condition = (right.get k).filter condition := by
  ext row
  rw [Option.filter_eq_some_iff, Option.filter_eq_some_iff, get_eq_some_iff, get_eq_some_iff]
  refine and_congr_left fun hit => and_congr_left fun _ => agree row (covers row hit)

theorem mem_update_rows (table : KeyedTable key) (keeps : ∀ row, key (assign row) = key row)
    (row : ρ) : row ∈ (table.update condition assign keeps).rows ↔
      ∃ old ∈ table.rows, (if condition old then assign old else old) = row :=
  List.mem_map

theorem AgreeOn.update (agree : AgreeOn mine left right)
    (keeps : ∀ row, key (assign row) = key row) (stays : ∀ row, mine (assign row) ↔ mine row) :
    AgreeOn mine (left.update condition assign keeps) (right.update condition assign keeps) := by
  intro row isMine
  rw [mem_update_rows, mem_update_rows]
  apply exists_congr
  intro old
  apply and_congr_left
  intro becomes
  refine agree old ?_
  rw [← becomes] at isMine
  split at isMine
  · exact (stays old).mp isMine
  · exact isMine

theorem agreeOn_update (table : KeyedTable key) (keeps : ∀ row, key (assign row) = key row)
    (stays : ∀ row, mine (assign row) ↔ mine row)
    (foreign : ∀ row, condition row = true → ¬ mine row) :
    AgreeOn mine table (table.update condition assign keeps) := by
  intro row isMine
  rw [mem_update_rows]
  have untouched : ∀ old, mine old → (if condition old then assign old else old) = old := by
    intro old oldMine
    exact if_neg fun hit => foreign old hit oldMine
  constructor
  · intro member
    exact ⟨row, member, untouched row isMine⟩
  · intro ⟨old, member, becomes⟩
    have oldMine : mine old := by
      rw [← becomes] at isMine
      split at isMine
      · exact (stays old).mp isMine
      · exact isMine
    rw [untouched old oldMine] at becomes
    rwa [← becomes]

section Insert
variable [DecidableEq κ] {row : ρ}

theorem mem_insert_iff (inserted : left.insert row = some left') (other : ρ) :
    other ∈ left'.rows ↔ other ∈ left.rows ∨ other = row := by
  rw [((left.insert_eq_some_iff left' row).mp inserted).2, List.mem_append, List.mem_singleton]

theorem AgreeOn.insert (agree : AgreeOn mine left right) (inLeft : left.insert row = some left')
    (inRight : right.insert row = some right') : AgreeOn mine left' right' := by
  intro other isMine
  rw [mem_insert_iff inLeft, mem_insert_iff inRight]
  exact or_congr_left (agree other isMine)

theorem agreeOn_insert (inserted : left.insert row = some left') (foreign : ¬ mine row) :
    AgreeOn mine left left' := by
  intro other isMine
  rw [mem_insert_iff inserted]
  refine (or_iff_left ?_).symm
  rintro rfl
  exact foreign isMine

end Insert

end AgreeOn

/-! ## In physical order -/

section SameOn
variable {mine : ρ → Bool}

def SameOn (mine : ρ → Bool) (left right : KeyedTable key) : Prop :=
  left.rows.filter mine = right.rows.filter mine

theorem SameOn.agreeOn (same : SameOn mine left right) :
    AgreeOn (fun row => mine row = true) left right := by
  intro row isMine
  have member := congrArg (row ∈ ·) same
  simpa only [List.mem_filter, isMine, and_true, eq_iff_iff] using member

theorem SameOn.select_eq (same : SameOn mine left right)
    (covers : ∀ row, condition row = true → mine row = true) :
    left.select condition = right.select condition := by
  have through : ∀ rows : List ρ, rows.filter condition = (rows.filter mine).filter condition := by
    intro rows
    rw [List.filter_filter]
    apply List.filter_congr
    intro row _
    cases hit : condition row with
    | false => rfl
    | true => rw [covers row hit, Bool.and_self]
  rw [select, select, through left.rows, through right.rows]
  exact congrArg (List.filter condition) same

theorem SameOn.update (same : SameOn mine left right)
    (keeps : ∀ row, key (assign row) = key row) (stays : ∀ row, mine (assign row) = mine row) :
    SameOn mine (left.update condition assign keeps) (right.update condition assign keeps) := by
  have through : ∀ rows : List ρ,
      (rows.map fun row => if condition row then assign row else row).filter mine =
        (rows.filter mine).map fun row => if condition row then assign row else row := by
    intro rows
    rw [List.filter_map]
    congr 1
    apply List.filter_congr
    intro row _
    rw [Function.comp_apply]
    split
    · exact stays row
    · rfl
  rw [SameOn, KeyedTable.update, KeyedTable.update, through, through]
  exact congrArg _ same

theorem SameOn.insert [DecidableEq κ] {row : ρ} (same : SameOn mine left right)
    (inLeft : left.insert row = some left') (inRight : right.insert row = some right') :
    SameOn mine left' right' := by
  rw [SameOn, ((left.insert_eq_some_iff left' row).mp inLeft).2,
    ((right.insert_eq_some_iff right' row).mp inRight).2, List.filter_append, List.filter_append,
    show left.rows.filter mine = right.rows.filter mine from same]

end SameOn

end SupernoteTaskService.Foundation.KeyedTable
