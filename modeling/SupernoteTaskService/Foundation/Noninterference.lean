import SupernoteTaskService.Foundation.Runs

/-!
# Noninterference by purging

Some events of a system are visible to a party, and the party sees a part of the state.
Where the other events leave that part alone, and the visible ones act on it and answer by it
alone, the answers that the party gets over a run are those of the run without the others.
-/

set_option autoImplicit false

namespace SupernoteTaskService.Foundation

section Purge
variable {σ ε ω β : Type} (step : σ → ε → σ) (emit : σ → ε → Option ω) (visible : ε → Bool)
  (view : σ → β)

/-- The two conditions on a single event. -/
structure Isolates : Prop where
  respects : ∀ state event, visible event = false → view (step state event) = view state
  consistent : ∀ state state' event, visible event = true → view state = view state' →
    view (step state event) = view (step state' event) ∧ emit state event = emit state' event

def seen (state : σ) (event : ε) : Option ω := if visible event then emit state event else none

variable {step emit visible view}

theorem Isolates.purge (isolates : Isolates step emit visible view) (run : List ε) :
    ∀ start start' : σ, view start = view start' →
      view (run.foldl step start) = view ((run.filter visible).foldl step start') ∧
        outputs step (seen emit visible) start run =
          outputs step (seen emit visible) start' (run.filter visible) := by
  induction run with
  | nil => exact fun start start' same => ⟨same, rfl⟩
  | cons event run ih =>
      intro start start' same
      cases isVisible : visible event with
      | false =>
          rw [List.filter_cons_of_neg (by rw [isVisible]; exact Bool.false_ne_true), List.foldl_cons,
            outputs, seen, isVisible]
          exact ih (step start event) start' ((isolates.respects start event isVisible).trans same)
      | true =>
          obtain ⟨stepped, answered⟩ := isolates.consistent start start' event isVisible same
          obtain ⟨final, later⟩ := ih (step start event) (step start' event) stepped
          rw [List.filter_cons_of_pos isVisible, List.foldl_cons, List.foldl_cons, outputs, outputs,
            later, seen, seen, answered]
          exact ⟨final, rfl⟩

end Purge

end SupernoteTaskService.Foundation
