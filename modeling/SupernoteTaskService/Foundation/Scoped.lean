import Mathlib

/-!
# Programs with scopes

A program acts on a state, may fail, and runs parts of itself inside a scope: a scope
is entered, which may fail, and left again however its body ended.  `entryDepths` lists
in how many scopes the program is each time it enters another one.  A program never
nests when all these depths are zero; the rules below decide it along the program.
-/

set_option autoImplicit false

namespace SupernoteTaskService.Foundation

/-- How a scope is entered and left; the key is what it holds meanwhile. -/
structure Scope (σ ε κ : Type) where
  enter : σ → Except ε κ × σ
  leave : κ → σ → Except ε Unit × σ

inductive Program (σ ε : Type) : Type → Type 1 where
  | done {α : Type} (value : α) : Program σ ε α
  | act {α β : Type} (action : σ → Except ε β × σ) (next : β → Program σ ε α) : Program σ ε α
  | within {α β : Type} (body : Program σ ε β) (next : β → Program σ ε α) : Program σ ε α

namespace Program
variable {σ ε κ : Type}

def bind {α β : Type} : Program σ ε α → (α → Program σ ε β) → Program σ ε β
  | .done value, rest => rest value
  | .act action next, rest => .act action fun value => (next value).bind rest
  | .within body next, rest => .within body fun value => (next value).bind rest

instance : Monad (Program σ ε) where
  pure := .done
  bind := .bind

def step {α : Type} (action : σ → Except ε α × σ) : Program σ ε α := .act action .done

def block {α : Type} (body : Program σ ε α) : Program σ ε α := .within body .done

def raise {α : Type} (error : ε) : Program σ ε α := step fun state => (.error error, state)

/-- What comes after a part of a program that returned or failed. -/
def proceed {α γ : Type} (first : Except ε α × σ) (failed : ε → σ → γ) (next : α → σ → γ) : γ :=
  match first with
  | (.ok value, state) => next value state
  | (.error error, state) => failed error state

/-- The body inside the scope; leaving may itself fail. -/
def around {α : Type} (scope : Scope σ ε κ) (body : σ → Except ε α × σ) (state : σ) :
    Except ε α × σ :=
  proceed (scope.enter state) (fun error state => (.error error, state)) fun key state =>
    let (result, state) := body state
    proceed (scope.leave key state) (fun error state => (.error error, state))
      fun _ state => (result, state)

def run (scope : Scope σ ε κ) {α : Type} : Program σ ε α → σ → Except ε α × σ
  | .done value, state => (.ok value, state)
  | .act action next, state =>
      proceed (action state) (fun error state => (.error error, state)) fun value state =>
        (next value).run scope state
  | .within body next, state =>
      proceed (around scope (body.run scope) state) (fun error state => (.error error, state))
        fun value state => (next value).run scope state

/-- In how many scopes the program is, each time it enters another one. -/
def entryDepths (scope : Scope σ ε κ) {α : Type} : Program σ ε α → ℕ → σ → List ℕ
  | .done _, _, _ => []
  | .act action next, depth, state =>
      proceed (action state) (fun _ _ => []) fun value state =>
        (next value).entryDepths scope depth state
  | .within body next, depth, state =>
      depth ::
        (proceed (scope.enter state) (fun _ _ => [])
            (fun _ state => body.entryDepths scope (depth + 1) state) ++
          proceed (around scope (body.run scope) state) (fun _ _ => []) fun value state =>
            (next value).entryDepths scope depth state)

section Rules
variable {scope : Scope σ ε κ} {α β γ : Type}

@[simp] theorem proceed_ok (value : α) (state : σ) (failed : ε → σ → γ) (next : α → σ → γ) :
    proceed (.ok value, state) failed next = next value state := rfl

@[simp] theorem proceed_error (error : ε) (state : σ) (failed : ε → σ → γ) (next : α → σ → γ) :
    proceed (.error error, state) failed next = failed error state := rfl

@[simp] theorem act_bind {δ : Type} (action : σ → Except ε δ × σ) (next : δ → Program σ ε α)
    (rest : α → Program σ ε β) :
    (Program.act action next >>= rest) = .act action fun value => next value >>= rest := rfl

@[simp] theorem within_bind {δ : Type} (body : Program σ ε δ) (next : δ → Program σ ε α)
    (rest : α → Program σ ε β) :
    (Program.within body next >>= rest) = .within body fun value => next value >>= rest := rfl

theorem bind_assoc {δ : Type} (program : Program σ ε δ) (first : δ → Program σ ε α)
    (second : α → Program σ ε β) :
    (program >>= first) >>= second = program >>= fun value => first value >>= second := by
  induction program with
  | done value => rfl
  | act action next ih =>
      simp only [act_bind]
      congr 1
      funext value
      exact ih value first
  | within body next _ ih =>
      simp only [within_bind]
      congr 1
      funext value
      exact ih value first

@[simp] theorem run_step (action : σ → Except ε α × σ) (state : σ) :
    (step action).run scope state = action state := by
  rw [step, run]
  rcases action state with ⟨error | value, after⟩
  · rfl
  · rfl

@[simp] theorem run_block (body : Program σ ε α) (state : σ) :
    (block body).run scope state = around scope (body.run scope) state := by
  rw [block, run]
  rcases around scope (body.run scope) state with ⟨error | value, after⟩
  · rfl
  · rfl

theorem run_bind (program : Program σ ε α) (rest : α → Program σ ε β) (state : σ) :
    (program >>= rest).run scope state =
      proceed (program.run scope state) (fun error state => (.error error, state))
        fun value state => (rest value).run scope state := by
  induction program generalizing state with
  | done value => rfl
  | act action next ih =>
      rw [act_bind, run, run]
      rcases action state with ⟨error | value, after⟩
      · rfl
      · exact ih value rest after
  | within body next _ ih =>
      rw [within_bind, run, run]
      rcases around scope (body.run scope) state with ⟨error | value, after⟩
      · rfl
      · exact ih value rest after

theorem entryDepths_bind (program : Program σ ε α) (rest : α → Program σ ε β) (depth : ℕ)
    (state : σ) :
    (program >>= rest).entryDepths scope depth state =
      program.entryDepths scope depth state ++
        proceed (program.run scope state) (fun _ _ => []) fun value state =>
          (rest value).entryDepths scope depth state := by
  induction program generalizing state with
  | done value => rfl
  | act action next ih =>
      rw [act_bind, entryDepths, entryDepths, run]
      rcases action state with ⟨error | value, after⟩
      · rfl
      · exact ih value rest after
  | within body next _ ih =>
      rw [within_bind, entryDepths, entryDepths, run, List.cons_append, List.append_assoc]
      congr 2
      rcases around scope (body.run scope) state with ⟨error | value, after⟩
      · rfl
      · exact ih value rest after

theorem entryDepths_add (program : Program σ ε α) (depth more : ℕ) (state : σ) :
    program.entryDepths scope (depth + more) state =
      (program.entryDepths scope depth state).map (· + more) := by
  induction program generalizing depth state with
  | done value => rfl
  | act action next ih =>
      rw [entryDepths, entryDepths]
      rcases action state with ⟨error | value, after⟩
      · rfl
      · exact ih value depth after
  | within body next bodyIh ih =>
      rw [entryDepths, entryDepths, List.map_cons, List.map_append]
      congr 2
      · rcases scope.enter state with ⟨error | key, inside⟩
        · rfl
        · have inner := bodyIh (depth + 1) inside
          rw [Nat.add_right_comm] at inner
          exact inner
      · rcases around scope (body.run scope) state with ⟨error | value, after⟩
        · rfl
        · exact ih value depth after

end Rules

/-! ## Nesting -/

section Nesting
variable (scope : Scope σ ε κ) {α β : Type}

def EntersNone (program : Program σ ε α) (state : σ) : Prop :=
  program.entryDepths scope 0 state = []

/-- The program enters a scope only while it is in none. -/
def NeverNests (program : Program σ ε α) (state : σ) : Prop :=
  ∀ depth ∈ program.entryDepths scope 0 state, depth = 0

variable {scope}

theorem EntersNone.neverNests {program : Program σ ε α} {state : σ}
    (none : program.EntersNone scope state) : program.NeverNests scope state := by
  rw [NeverNests, none]
  exact fun depth member => absurd member List.not_mem_nil

theorem entersNone_step (action : σ → Except ε α × σ) (state : σ) :
    (step action).EntersNone scope state := by
  rw [EntersNone, step, entryDepths]
  rcases action state with ⟨error | value, after⟩
  · rfl
  · rfl

theorem not_entersNone_block_bind (body : Program σ ε α) (rest : α → Program σ ε β) (state : σ) :
    ¬ (block body >>= rest).EntersNone scope state := by
  rw [EntersNone, block, within_bind, entryDepths]
  exact List.cons_ne_nil _ _

theorem entersNone_bind_iff (program : Program σ ε α) (rest : α → Program σ ε β) (state : σ) :
    (program >>= rest).EntersNone scope state ↔
      program.EntersNone scope state ∧ ∀ value after,
        program.run scope state = (.ok value, after) → (rest value).EntersNone scope after := by
  rw [EntersNone, entryDepths_bind, List.append_eq_nil_iff, EntersNone]
  refine and_congr_right fun _ => ?_
  rcases program.run scope state with ⟨error | value, after⟩
  · simp
  · simp [EntersNone]

theorem neverNests_bind_iff (program : Program σ ε α) (rest : α → Program σ ε β) (state : σ) :
    (program >>= rest).NeverNests scope state ↔
      program.NeverNests scope state ∧ ∀ value after,
        program.run scope state = (.ok value, after) → (rest value).NeverNests scope after := by
  rw [NeverNests, entryDepths_bind, List.forall_mem_append, NeverNests]
  refine and_congr_right fun _ => ?_
  rcases program.run scope state with ⟨error | value, after⟩
  · simp
  · simp [NeverNests]

/-- A block never nests exactly when its body, once inside, enters no further scope. -/
theorem neverNests_block_iff (body : Program σ ε α) (state : σ) :
    (block body).NeverNests scope state ↔
      ∀ key inside, scope.enter state = (.ok key, inside) → body.EntersNone scope inside := by
  rw [NeverNests, block, entryDepths, List.forall_mem_cons, List.forall_mem_append]
  constructor
  · rintro ⟨-, flat, -⟩ key inside entered
    rw [entered, proceed_ok, entryDepths_add body 0 1] at flat
    refine List.eq_nil_iff_forall_not_mem.mpr fun depth member => ?_
    have isZero := flat (depth + 1) (List.mem_map_of_mem member)
    exact absurd isZero (Nat.succ_ne_zero depth)
  · intro none
    refine ⟨rfl, ?_, ?_⟩
    · rcases entered : scope.enter state with ⟨error | key, inside⟩
      · exact fun depth member => absurd member List.not_mem_nil
      · rw [proceed_ok, entryDepths_add body 0 1, none key inside entered]
        exact fun depth member => absurd member List.not_mem_nil
    · rcases around scope (body.run scope) state with ⟨error | value, after⟩
      · exact fun depth member => absurd member List.not_mem_nil
      · exact fun depth member => absurd member List.not_mem_nil

end Nesting

/-! ## Pre- and postconditions -/

section Triples
variable {α β : Type}

/-- How a part of a program ends: with a value, or with an error. -/
def Ends (Returns : α → σ → Prop) (Raises : ε → σ → Prop) : Except ε α × σ → Prop
  | (.ok value, state) => Returns value state
  | (.error error, state) => Raises error state

variable (scope : Scope σ ε κ)

/-- From a state with the precondition, the program returns as the first postcondition
says, or raises as the second one says. -/
def Ensures (Pre : σ → Prop) (program : Program σ ε α) (Returns : α → σ → Prop)
    (Raises : ε → σ → Prop) : Prop :=
  ∀ state, Pre state → Ends Returns Raises (program.run scope state)

variable {scope} {Pre : σ → Prop} {Returns : α → σ → Prop} {Raises : ε → σ → Prop}

theorem Ends.proceed {Between : β → σ → Prop} {first : Except ε β × σ}
    {next : β → σ → Except ε α × σ} (ends : Ends Between Raises first)
    (continues : ∀ value state, Between value state → Ends Returns Raises (next value state)) :
    Ends Returns Raises (proceed first (fun error state => (.error error, state)) next) := by
  rcases first with ⟨error | value, after⟩
  · exact ends
  · exact continues value after ends

theorem ends_of_final {Holds : σ → Prop} {ended : Except ε α × σ} (holds : Holds ended.2) :
    Ends (fun _ => Holds) (fun _ => Holds) ended := by
  rcases ended with ⟨error | value, after⟩
  · exact holds
  · exact holds

theorem Ends.mono {Returns' : α → σ → Prop} {Raises' : ε → σ → Prop} {ended : Except ε α × σ}
    (ends : Ends Returns Raises ended) (returns : ∀ value state, Returns value state →
      Returns' value state) (raises : ∀ error state, Raises error state → Raises' error state) :
    Ends Returns' Raises' ended := by
  rcases ended with ⟨error | value, after⟩
  · exact raises error after ends
  · exact returns value after ends

theorem ensures_done {value : α} (holds : ∀ state, Pre state → Returns value state) :
    Ensures scope Pre (.done value) Returns Raises :=
  fun state pre => holds state pre

theorem ensures_step {action : σ → Except ε α × σ}
    (acts : ∀ state, Pre state → Ends Returns Raises (action state)) :
    Ensures scope Pre (step action) Returns Raises := by
  intro state pre
  rw [run_step]
  exact acts state pre

theorem Ensures.bind {Between : β → σ → Prop} {program : Program σ ε β}
    {rest : β → Program σ ε α} (first : Ensures scope Pre program Between Raises)
    (second : ∀ value, Ensures scope (Between value) (rest value) Returns Raises) :
    Ensures scope Pre (program >>= rest) Returns Raises := by
  intro state pre
  rw [run_bind]
  exact (first state pre).proceed second

/-- A block: the scope is entered, the body ends in one of two ways, and after both the
scope is left. -/
theorem Ensures.block {Inside : κ → σ → Prop} {Returned : α → σ → Prop} {Raised : ε → σ → Prop}
    {body : Program σ ε α} (enters : ∀ state, Pre state → Ends Inside Raises (scope.enter state))
    (runs : ∀ key, Ensures scope (Inside key) body Returned Raised)
    (leaves : ∀ key value state, Returned value state →
      Ends (fun _ after => Returns value after) Raises (scope.leave key state))
    (escapes : ∀ key error state, Raised error state →
      Ends (fun _ after => Raises error after) Raises (scope.leave key state)) :
    Ensures scope Pre (Program.block body) Returns Raises := by
  intro state pre
  rw [run_block, around]
  refine (enters state pre).proceed fun key inside entered => ?_
  have ended := runs key inside entered
  generalize body.run scope inside = final at ended ⊢
  rcases final with ⟨error | value, after⟩
  · exact (escapes key error after ended).proceed fun _ left raises => raises
  · exact (leaves key value after ended).proceed fun _ left returns => returns

theorem Ensures.mono {Pre' : σ → Prop} {Returns' : α → σ → Prop} {Raises' : ε → σ → Prop}
    {program : Program σ ε α} (ensures : Ensures scope Pre program Returns Raises)
    (pre : ∀ state, Pre' state → Pre state)
    (returns : ∀ value state, Returns value state → Returns' value state)
    (raises : ∀ error state, Raises error state → Raises' error state) :
    Ensures scope Pre' program Returns' Raises' :=
  fun state holds => (ensures state (pre state holds)).mono returns raises

theorem ensures_true (program : Program σ ε α) :
    Ensures scope Pre program (fun _ _ => True) fun _ _ => True := by
  intro state _
  rcases program.run scope state with ⟨error | value, after⟩
  · trivial
  · trivial

theorem Ensures.of_run {program : Program σ ε α} {state after : σ} {value : α}
    (ensures : Ensures scope Pre program Returns Raises) (pre : Pre state)
    (returned : program.run scope state = (.ok value, after)) : Returns value after := by
  have ended := ensures state pre
  rw [returned] at ended
  exact ended

end Triples

end Program

end SupernoteTaskService.Foundation
