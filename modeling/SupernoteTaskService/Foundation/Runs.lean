import Mathlib

/-!
# Runs of a step function

A run is the list of the events of a system, each with the clock reading it takes.
The step function is total: an event that is refused leaves the state as it is.
`Happens` places one event in a run, in the state it meets and with the events that
are still to come, so that a property of a run can speak of two events in order.
-/

set_option autoImplicit false

namespace SupernoteTaskService.Foundation

structure Timed (α : Type) where
  clock : ℤ
  event : α
  deriving DecidableEq

section Runs
variable {σ ε : Type} {step : σ → ε → σ} {start state : σ} {event : ε} {run rest : List ε}

variable (step) in
/-- In the run from `start`, `event` meets `state` and `rest` is still to come. -/
def Happens (start : σ) (run : List ε) (state : σ) (event : ε) (rest : List ε) : Prop :=
  ∃ before, run = before ++ event :: rest ∧ before.foldl step start = state

theorem happens_head : Happens step start (event :: rest) start event rest :=
  ⟨[], rfl, rfl⟩

theorem Happens.cons {first : ε} (later : Happens step (step start first) run state event rest) :
    Happens step start (first :: run) state event rest := by
  obtain ⟨before, rfl, reached⟩ := later
  exact ⟨first :: before, rfl, reached⟩

theorem happens_nil : ¬ Happens step start [] state event rest := by
  intro ⟨before, split, _⟩
  cases before with
  | nil => cases split
  | cons first before => cases split

theorem happens_cons_iff {first : ε} :
    Happens step start (first :: run) state event rest ↔
      (state = start ∧ event = first ∧ rest = run) ∨
        Happens step (step start first) run state event rest := by
  constructor
  · intro ⟨before, split, reached⟩
    cases before with
    | nil =>
        cases split
        exact Or.inl ⟨reached.symm, rfl, rfl⟩
    | cons head before =>
        obtain ⟨rfl, tail⟩ := List.cons.inj split
        exact Or.inr ⟨before, tail, reached⟩
  · intro either
    rcases either with ⟨rfl, rfl, rfl⟩ | later
    · exact happens_head
    · exact later.cons

theorem forall_happens_nil {P : σ → ε → List ε → Prop} :
    ∀ state event rest, Happens step start [] state event rest → P state event rest :=
  fun _ _ _ occurs => absurd occurs happens_nil

theorem forall_happens_cons_iff {first : ε} {P : σ → ε → List ε → Prop} :
    (∀ state event rest, Happens step start (first :: run) state event rest →
        P state event rest) ↔
      P start first run ∧ ∀ state event rest,
        Happens step (step start first) run state event rest → P state event rest := by
  constructor
  · intro all
    exact ⟨all start first run happens_head, fun state event rest later =>
      all state event rest later.cons⟩
  · intro ⟨atFirst, atLater⟩ state event rest occurs
    rcases happens_cons_iff.mp occurs with ⟨rfl, rfl, rfl⟩ | later
    · exact atFirst
    · exact atLater state event rest later

theorem Happens.trans {later : σ} {next : ε} {remaining : List ε}
    (first : Happens step start run state event rest)
    (second : Happens step (step state event) rest later next remaining) :
    Happens step start run later next remaining := by
  obtain ⟨before, rfl, rfl⟩ := first
  obtain ⟨between, rfl, rfl⟩ := second
  refine ⟨before ++ event :: between, ?_, ?_⟩
  · rw [List.append_assoc, List.cons_append]
  · rw [List.foldl_append, List.foldl_cons]

theorem happens_after (before : List ε) :
    Happens step start (before ++ event :: rest) (before.foldl step start) event rest :=
  ⟨before, rfl, rfl⟩

theorem Happens.append_right (occurs : Happens step start run state event rest) (back : List ε) :
    Happens step start (run ++ back) state event (rest ++ back) := by
  obtain ⟨before, rfl, reached⟩ := occurs
  exact ⟨before, by rw [List.append_assoc, List.cons_append], reached⟩

theorem Happens.mem (occurs : Happens step start run state event rest) : event ∈ run := by
  obtain ⟨before, rfl, -⟩ := occurs
  exact List.mem_append_right before List.mem_cons_self

/-- The invariant rule: what holds initially and survives every event of the run
holds whenever an event happens, and at the end. -/
theorem invariant_of_steps (Inv : σ → Prop) (initial : Inv start)
    (preserved : ∀ state event rest, Happens step start run state event rest → Inv state →
      Inv (step state event)) :
    (∀ state event rest, Happens step start run state event rest → Inv state) ∧
      Inv (run.foldl step start) := by
  induction run generalizing start with
  | nil => exact ⟨fun _ _ _ occurs => absurd occurs happens_nil, initial⟩
  | cons first run ih =>
      have afterFirst := preserved start first run happens_head initial
      obtain ⟨during, final⟩ := ih afterFirst fun state event rest occurs =>
        preserved state event rest occurs.cons
      refine ⟨fun state event rest occurs => ?_, final⟩
      rcases happens_cons_iff.mp occurs with ⟨rfl, rfl, rfl⟩ | later
      · exact initial
      · exact during state event rest later

theorem mem_scanl_cases {reached : σ} (run : List ε) : ∀ start : σ,
    reached ∈ run.scanl step start →
      reached = run.foldl step start ∨ ∃ event rest, Happens step start run reached event rest := by
  induction run with
  | nil => exact fun start member => Or.inl (List.mem_singleton.mp member)
  | cons first run ih =>
      intro start member
      rw [List.scanl_cons, List.mem_cons] at member
      rcases member with rfl | later
      · exact Or.inr ⟨first, run, happens_head⟩
      · rcases ih (step start first) later with final | ⟨event, rest, occurs⟩
        · exact Or.inl final
        · exact Or.inr ⟨event, rest, occurs.cons⟩

theorem invariant_of_scanl (Inv : σ → Prop) (initial : Inv start)
    (preserved : ∀ state event rest, Happens step start run state event rest → Inv state →
      Inv (step state event)) :
    ∀ reached ∈ run.scanl step start, Inv reached := by
  obtain ⟨during, final⟩ := invariant_of_steps Inv initial preserved
  intro reached member
  rcases mem_scanl_cases run start member with rfl | ⟨event, rest, occurs⟩
  · exact final
  · exact during reached event rest occurs

theorem foldl_mem_scanl : run.foldl step start ∈ run.scanl step start := by
  rw [← List.getLast_scanl List.scanl_ne_nil]
  exact List.getLast_mem _

theorem Happens.state_mem_scanl (occurs : Happens step start run state event rest) :
    state ∈ run.scanl step start := by
  induction run generalizing start with
  | nil => exact absurd occurs happens_nil
  | cons first run ih =>
      rw [List.scanl_cons]
      rcases happens_cons_iff.mp occurs with ⟨rfl, -, -⟩ | later
      · exact List.mem_cons_self
      · exact List.mem_cons_of_mem _ (ih later)

theorem Happens.next_mem_scanl (occurs : Happens step start run state event rest) :
    step state event ∈ run.scanl step start := by
  induction run generalizing start with
  | nil => exact absurd occurs happens_nil
  | cons first run ih =>
      rw [List.scanl_cons]
      refine List.mem_cons_of_mem _ ?_
      rcases happens_cons_iff.mp occurs with ⟨rfl, rfl, -⟩ | later
      · cases run with
        | nil => exact List.mem_cons_self
        | cons second run =>
            rw [List.scanl_cons]
            exact List.mem_cons_self
      · exact ih later

/-- Where a condition on each event says exactly whether the invariant survives it, the
invariant holds throughout the run exactly when every event meets the condition. -/
theorem scanl_invariant_iff (Inv : σ → Prop) (Cond : σ → ε → Prop) (initial : Inv start)
    (decides : ∀ state event rest, Happens step start run state event rest → Inv state →
      (Inv (step state event) ↔ Cond state event)) :
    (∀ reached ∈ run.scanl step start, Inv reached) ↔
      ∀ state event rest, Happens step start run state event rest → Cond state event := by
  constructor
  · intro throughout state event rest occurs
    exact (decides state event rest occurs (throughout state occurs.state_mem_scanl)).mp
      (throughout _ occurs.next_mem_scanl)
  · intro conditions
    exact invariant_of_scanl Inv initial fun state event rest occurs holds =>
      (decides state event rest occurs holds).mpr (conditions state event rest occurs)

/-- A run that ends with a property that it did not start with has an event that brings it. -/
theorem exists_turning {P : σ → Prop} (before : ¬ P start) (after : P (run.foldl step start)) :
    ∃ state event rest, Happens step start run state event rest ∧ ¬ P state ∧
      P (step state event) := by
  induction run generalizing start with
  | nil => exact absurd after before
  | cons first run ih =>
      by_cases turned : P (step start first)
      · exact ⟨start, first, run, happens_head, before, turned⟩
      · obtain ⟨state, event, rest, occurs, notYet, then_⟩ := ih turned after
        exact ⟨state, event, rest, occurs.cons, notYet, then_⟩

theorem Happens.foldl_eq (occurs : Happens step start run state event rest) :
    run.foldl step start = rest.foldl step (step state event) := by
  obtain ⟨before, rfl, rfl⟩ := occurs
  rw [List.foldl_append, List.foldl_cons]

end Runs

section Outputs
variable {σ ε ω : Type} {step : σ → ε → σ} {emit : σ → ε → Option ω}

variable (step emit) in
/-- What the events of a run put out, each in the state it meets. -/
def outputs : σ → List ε → List ω
  | _, [] => []
  | state, event :: run => (emit state event).toList ++ outputs (step state event) run

theorem outputs_cons_none {start : σ} {event : ε} {run : List ε} (silent : emit start event = none) :
    outputs step emit start (event :: run) = outputs step emit (step start event) run := by
  rw [outputs, silent, Option.toList_none, List.nil_append]

theorem outputs_cons_some {start : σ} {event : ε} {run : List ε} {output : ω}
    (emitted : emit start event = some output) :
    outputs step emit start (event :: run) =
      output :: outputs step emit (step start event) run := by
  rw [outputs, emitted, Option.toList_some, List.singleton_append]

theorem outputs_append (front back : List ε) : ∀ start : σ,
    outputs step emit start (front ++ back) =
      outputs step emit start front ++ outputs step emit (front.foldl step start) back := by
  induction front with
  | nil => exact fun _ => rfl
  | cons event front ih =>
      intro start
      rw [List.cons_append, outputs, outputs, ih, List.append_assoc, List.foldl_cons]

theorem happens_of_mem_outputs {output : ω} (run : List ε) : ∀ start : σ,
    output ∈ outputs step emit start run →
      ∃ state event rest, Happens step start run state event rest ∧
        emit state event = some output := by
  induction run with
  | nil => exact fun _ member => absurd member List.not_mem_nil
  | cons event run ih =>
      intro start member
      rw [outputs, List.mem_append, Option.mem_toList] at member
      rcases member with emitted | later
      · exact ⟨start, event, run, happens_head, emitted⟩
      · obtain ⟨state, event', rest, occurs, emitted⟩ := ih _ later
        exact ⟨state, event', rest, occurs.cons, emitted⟩

end Outputs

section Counts
variable {σ ε : Type} {step : σ → ε → σ}

variable (step) in
/-- How many events of a run are counted, each in the state it meets. -/
def eventCount (counted : σ → ε → Bool) : σ → List ε → ℕ
  | _, [] => 0
  | state, event :: run => (counted state event).toNat + eventCount counted (step state event) run

theorem eventCount_eq_zero_iff {counted : σ → ε → Bool} (run : List ε) : ∀ start : σ,
    eventCount step counted start run = 0 ↔
      ∀ state event rest, Happens step start run state event rest → counted state event = false := by
  induction run with
  | nil => exact fun start => iff_of_true rfl forall_happens_nil
  | cons event run ih =>
      intro start
      rw [forall_happens_cons_iff (P := fun state event _ => counted state event = false), ← ih,
        eventCount, Nat.add_eq_zero_iff, Bool.toNat_eq_zero]

/-- A quantity that some events raise by one and others lower by one. -/
theorem value_foldl (value : σ → ℤ) {up down : σ → ε → Bool}
    (changes : ∀ state event, value (step state event) =
      value state + (up state event).toNat - (down state event).toNat) (run : List ε) :
    ∀ start : σ, value (run.foldl step start) =
      value start + eventCount step up start run - eventCount step down start run := by
  induction run with
  | nil => exact fun start => by simp [eventCount]
  | cons event run ih =>
      intro start
      rw [List.foldl_cons, ih, changes, eventCount, eventCount]
      push_cast
      omega

theorem eventCount_le_value (value : σ → ℤ) {up : σ → ε → Bool}
    (grows : ∀ state event, value state + (up state event).toNat ≤ value (step state event))
    (run : List ε) :
    ∀ start : σ, value start + eventCount step up start run ≤ value (run.foldl step start) := by
  induction run with
  | nil => exact fun start => by simp [eventCount]
  | cons event run ih =>
      intro start
      have first := grows start event
      have rest := ih (step start event)
      rw [List.foldl_cons, eventCount]
      push_cast
      omega

end Counts

section Clock
variable {σ α : Type} {step : σ → Timed α → σ} {start state : σ} {event : Timed α}
  {run rest : List (Timed α)}

def ClockMonotone (run : List (Timed α)) : Prop :=
  run.Pairwise fun earlier later => earlier.clock ≤ later.clock

instance (run : List (Timed α)) : Decidable (ClockMonotone run) :=
  inferInstanceAs (Decidable (run.Pairwise _))

theorem ClockMonotone.tail {first : Timed α} (monotone : ClockMonotone (first :: run)) :
    ClockMonotone run :=
  (List.pairwise_cons.mp monotone).2

theorem Happens.clock_le (occurs : Happens step start run state event rest)
    (monotone : ClockMonotone run) : ∀ later ∈ rest, event.clock ≤ later.clock := by
  obtain ⟨before, rfl, -⟩ := occurs
  have fromEvent := (List.pairwise_append.mp monotone).2.1
  exact (List.pairwise_cons.mp fromEvent).1

theorem Happens.rest_monotone (occurs : Happens step start run state event rest)
    (monotone : ClockMonotone run) : ClockMonotone rest := by
  obtain ⟨before, rfl, -⟩ := occurs
  have fromEvent := (List.pairwise_append.mp monotone).2.1
  exact (List.pairwise_cons.mp fromEvent).2

end Clock

end SupernoteTaskService.Foundation
