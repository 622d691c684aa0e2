import SupernoteTaskService.Foundation.KeyedTable
import SupernoteTaskService.Foundation.Runs

/-!
# Two levels of one system

Two step functions take the same events.  Where every step keeps a relation between their
states and puts out the same, so does a run.  For tables with keys the relation is kept
row by row: `Tracks` relates the rows of the one table that are owned with all rows of the
other, and a row put on both sides is the only move it needs.
-/

set_option autoImplicit false

namespace SupernoteTaskService.Foundation

section Lockstep
variable {σ τ ε ω : Type} (step : σ → ε → σ) (step' : τ → ε → τ)

/-- Both systems take the event. -/
def lockstep (pair : σ × τ) (event : ε) : σ × τ := (step pair.1 event, step' pair.2 event)

variable {step step'} {run rest : List ε} {event : ε} {pair start : σ × τ}

theorem foldl_lockstep (run : List ε) : ∀ start : σ × τ,
    run.foldl (lockstep step step') start =
      (run.foldl step start.1, run.foldl step' start.2) := by
  induction run with
  | nil => exact fun _ => rfl
  | cons event run ih => exact fun start => ih (lockstep step step' start event)

theorem Happens.left (occurs : Happens (lockstep step step') start run pair event rest) :
    Happens step start.1 run pair.1 event rest := by
  obtain ⟨before, split, reached⟩ := occurs
  rw [foldl_lockstep] at reached
  exact ⟨before, split, congrArg Prod.fst reached⟩

theorem Happens.right (occurs : Happens (lockstep step step') start run pair event rest) :
    Happens step' start.2 run pair.2 event rest := by
  obtain ⟨before, split, reached⟩ := occurs
  rw [foldl_lockstep] at reached
  exact ⟨before, split, congrArg Prod.snd reached⟩

/-- The simulation rule: a relation that the events of a run keep, with equal outputs while
it holds, holds at the end, and the outputs of the run are equal. -/
theorem simulation_of_steps (start : σ × τ) (Related : σ → τ → Prop) {emit : σ → ε → Option ω}
    {emit' : τ → ε → Option ω} (initial : Related start.1 start.2)
    (steps : ∀ pair event rest, Happens (lockstep step step') start run pair event rest →
      Related pair.1 pair.2 → Related (step pair.1 event) (step' pair.2 event) ∧
        emit pair.1 event = emit' pair.2 event) :
    Related (run.foldl step start.1) (run.foldl step' start.2) ∧
      outputs step emit start.1 run = outputs step' emit' start.2 run := by
  induction run generalizing start with
  | nil => exact ⟨initial, rfl⟩
  | cons first run ih =>
      obtain ⟨kept, same⟩ := steps start first run happens_head initial
      have later := ih (lockstep step step' start first) kept
        fun pair event rest occurs => steps pair event rest occurs.cons
      refine ⟨later.1, ?_⟩
      rw [outputs, outputs, same]
      exact congrArg _ later.2

end Lockstep

section Tables
variable {ρ σ κ : Type} [DecidableEq κ] {key : ρ → κ} {key' : σ → κ} {owned : ρ → Prop}
  {rel : ρ → σ → Prop} {left left' : KeyedTable key} {right right' : KeyedTable key'}

/-- Every row on the right stands for one on the left, and every owned row on the left has
one that stands for it. -/
structure Tracks (owned : ρ → Prop) (rel : ρ → σ → Prop) (left : KeyedTable key)
    (right : KeyedTable key') : Prop where
  backward : ∀ k other, right.get k = some other → ∃ row, left.get k = some row ∧ rel row other
  forward : ∀ k row, left.get k = some row → owned row → ∃ other, right.get k = some other

theorem tracks_empty : Tracks owned rel (KeyedTable.empty : KeyedTable key)
    (KeyedTable.empty : KeyedTable key') where
  backward _ _ impossible := by cases impossible
  forward _ _ impossible := by cases impossible

theorem Tracks.get_cases (tracks : Tracks owned rel left right) (k : κ) :
    (right.get k = none ∧ ∀ row, left.get k = some row → ¬ owned row) ∨
      ∃ row other, left.get k = some row ∧ right.get k = some other ∧ rel row other := by
  cases found : right.get k with
  | none =>
      refine Or.inl ⟨rfl, fun row stored isOwned => ?_⟩
      obtain ⟨other, impossible⟩ := tracks.forward k row stored isOwned
      rw [found] at impossible
      cases impossible
  | some other =>
      obtain ⟨row, stored, related⟩ := tracks.backward k other found
      exact Or.inr ⟨row, other, stored, rfl, related⟩

theorem Tracks.related_of_owned (tracks : Tracks owned rel left right) {row : ρ}
    (member : row ∈ left.rows) (isOwned : owned row) : ∃ other, rel row other := by
  have stored := (left.get_eq_some_iff (key row) row).mpr ⟨member, rfl⟩
  rcases tracks.get_cases (key row) with ⟨-, unowned⟩ | ⟨row', other, stored', found, related⟩
  · exact absurd isOwned (unowned row stored)
  · rw [stored] at stored'
    cases stored'
    exact ⟨other, related⟩

theorem Tracks.put (tracks : Tracks owned rel left right) {k : κ} {row : ρ} {other : σ}
    (related : rel row other)
    (frame : ∀ k', left'.get k' = if k' = k then some row else left.get k')
    (frame' : ∀ k', right'.get k' = if k' = k then some other else right.get k') :
    Tracks owned rel left' right' := by
  constructor
  · intro k' found isFound
    rw [frame'] at isFound
    rw [frame]
    by_cases isTarget : k' = k
    · rw [if_pos isTarget] at isFound ⊢
      cases isFound
      exact ⟨row, rfl, related⟩
    · rw [if_neg isTarget] at isFound ⊢
      exact tracks.backward k' found isFound
  · intro k' stored isStored isOwned
    rw [frame] at isStored
    rw [frame']
    by_cases isTarget : k' = k
    · rw [if_pos isTarget]
      exact ⟨other, rfl⟩
    · rw [if_neg isTarget] at isStored ⊢
      exact tracks.forward k' stored isStored isOwned

/-- A write under a guard.  It meets no row that passes and does nothing, or it puts what it
makes of the one that passes in its place. -/
inductive Guarded (guard : ρ → Prop) (make : ρ → ρ) (k : κ) (before : KeyedTable key) :
    Bool → KeyedTable key → Prop
  | refused (nothing : ∀ row, before.get k = some row → ¬ guard row) :
      Guarded guard make k before false before
  | taken (row : ρ) (after : KeyedTable key) (found : before.get k = some row)
      (passes : guard row)
      (frame : ∀ k', after.get k' = if k' = k then some (make row) else before.get k') :
      Guarded guard make k before true after

theorem Tracks.guarded {guard : ρ → Prop} {guard' : σ → Prop} {make : ρ → ρ} {make' : σ → σ}
    {k : κ} {ok ok' : Bool} (tracks : Tracks owned rel left right)
    (agree : ∀ row other, rel row other → (guard row ↔ guard' other))
    (ownedOnly : ∀ row, guard row → owned row)
    (kept : ∀ row other, rel row other → guard row → rel (make row) (make' other))
    (write : Guarded guard make k left ok left')
    (write' : Guarded guard' make' k right ok' right') :
    ok = ok' ∧ Tracks owned rel left' right' := by
  have both := tracks.get_cases k
  cases write with
  | refused nothing =>
      cases write' with
      | refused nothing' => exact ⟨rfl, tracks⟩
      | taken other after found passes frame =>
          rcases both with ⟨absent, -⟩ | ⟨row, other', stored, found', related⟩
          · rw [found] at absent
            cases absent
          · rw [found] at found'
            cases found'
            exact absurd ((agree row other related).mpr passes) (nothing row stored)
  | taken row after stored passes frame =>
      rcases both with ⟨-, unowned⟩ | ⟨row', other, stored', found, related⟩
      · exact absurd (ownedOnly row passes) (unowned row stored)
      · rw [stored] at stored'
        cases stored'
        cases write' with
        | refused nothing' =>
            exact absurd ((agree row other related).mp passes) (nothing' other found)
        | taken other' after' found' passes' frame' =>
            rw [found] at found'
            cases found'
            exact ⟨rfl, tracks.put (kept row other related passes) frame frame'⟩

section Selected
variable {condition : ρ → Bool} {condition' : σ → Bool} {ω : Type} {view : ρ → ω}
  {view' : σ → ω}

theorem Tracks.select_perm (tracks : Tracks owned rel left right)
    (agree : ∀ row other, rel row other → condition' other = condition row)
    (ownedOnly : ∀ row, condition row = true → owned row)
    (looksAlike : ∀ row other, rel row other → view' other = view row) {tie : ω → κ}
    (keepsKey : ∀ row, tie (view row) = key row) (keepsKey' : ∀ other, tie (view' other) = key' other) :
    ((left.select condition).map view).Perm ((right.select condition').map view') := by
  have nodup : ((left.select condition).map view).Nodup := by
    apply List.Nodup.of_map tie
    rw [List.map_map]
    have keys := left.select_keys_nodup condition
    rwa [← List.map_congr_left fun row _ => keepsKey row] at keys
  have nodup' : ((right.select condition').map view').Nodup := by
    apply List.Nodup.of_map tie
    rw [List.map_map]
    have keys := right.select_keys_nodup condition'
    rwa [← List.map_congr_left fun other _ => keepsKey' other] at keys
  rw [List.perm_ext_iff_of_nodup nodup nodup']
  intro seen
  simp only [List.mem_map, KeyedTable.mem_select]
  constructor
  · rintro ⟨row, ⟨member, selected⟩, rfl⟩
    have stored := (left.get_eq_some_iff (key row) row).mpr ⟨member, rfl⟩
    rcases tracks.get_cases (key row) with ⟨-, unowned⟩ | ⟨row', other, isStored, found, related⟩
    · exact absurd (ownedOnly row selected) (unowned row stored)
    · rw [stored] at isStored
      cases isStored
      refine ⟨other, ⟨((right.get_eq_some_iff _ other).mp found).1, ?_⟩, looksAlike row other related⟩
      rw [agree row other related, selected]
  · rintro ⟨other, ⟨member, selected⟩, rfl⟩
    have found := (right.get_eq_some_iff (key' other) other).mpr ⟨member, rfl⟩
    obtain ⟨row, stored, related⟩ := tracks.backward _ other found
    refine ⟨row, ⟨((left.get_eq_some_iff _ row).mp stored).1, ?_⟩,
      (looksAlike row other related).symm⟩
    rw [← agree row other related, selected]

end Selected

end Tables

end SupernoteTaskService.Foundation
