import SupernoteTaskService.Foundation.Locks
import SupernoteTaskService.Db.Cursor

/-!
# The cached user id

`Database.get_user_id` as the steps that threads take: the look at `_user_id` without the
lock, the wait for `_user_lock`, the second look, the resolution, the assignment and the
read of what is returned.  A thread that looked too early waits for the one that resolves,
and then finds its result.
-/

set_option autoImplicit false

namespace SupernoteTaskService

open Foundation

/-- `_user_id`, and whether `_user_lock` is taken. -/
structure UserCache where
  userId : Option ℤ
  locked : Bool
  deriving DecidableEq

/-- Where a thread is in `get_user_id`.  What is returned is `_user_id` as it is read then,
so it could be `None`. -/
inductive CachePhase where
  | outside
  | found
  | locking
  | checking
  | resolving
  | rereading
  | unlocking (result : Except Failure (Option ℤ))
  deriving DecidableEq

namespace CachePhase

def holdsLock : CachePhase → Bool
  | .checking | .resolving | .rereading | .unlocking _ => true
  | _ => false

def advance (resolved : Except Failure ℤ) (cache : UserCache) : CachePhase → CachePhase × UserCache
  | .outside =>
      match cache.userId with
      | some _ => (.found, cache)
      | none => (.locking, cache)
  | .found => (.outside, cache)
  | .locking => if cache.locked then (.locking, cache) else (.checking, { cache with locked := true })
  | .checking =>
      match cache.userId with
      | some _ => (.rereading, cache)
      | none => (.resolving, cache)
  | .resolving =>
      match resolved with
      | .ok userId => (.rereading, { cache with userId := some userId })
      | .error e => (.unlocking (.error e), cache)
  | .rereading => (.unlocking (.ok cache.userId), cache)
  | .unlocking _ => (.outside, { cache with locked := false })

def returns (cache : UserCache) : CachePhase → Option (Except Failure (Option ℤ))
  | .found => some (.ok cache.userId)
  | .unlocking result => some result
  | _ => none

def remaining : CachePhase → ℕ
  | .checking => 3
  | .resolving => 2
  | .rereading => 1
  | _ => 0

end CachePhase

structure CacheState (ι : Type) where
  cache : UserCache
  phase : ι → CachePhase

structure CacheTurn (ι : Type) where
  thread : ι
  resolved : Except Failure ℤ

section Threads
variable {ι : Type}

def CacheState.init : CacheState ι := ⟨⟨none, false⟩, fun _ => .outside⟩

def cacheReturns (state : CacheState ι) (turn : CacheTurn ι) :
    Option (ι × Except Failure (Option ℤ)) :=
  ((state.phase turn.thread).returns state.cache).map fun result => (turn.thread, result)

def resolves (state : CacheState ι) (turn : CacheTurn ι) : Bool :=
  decide (state.phase turn.thread = .resolving) && turn.resolved.isOk

variable [DecidableEq ι]

def cacheStep (state : CacheState ι) (turn : CacheTurn ι) : CacheState ι :=
  let (next, cache) := (state.phase turn.thread).advance turn.resolved state.cache
  ⟨cache, Function.update state.phase turn.thread next⟩

end Threads

/-! ## What holds in every interleaving -/

def CachePhase.Justified (cache : UserCache) : CachePhase → Prop
  | .found | .rereading => cache.userId.isSome = true
  | .resolving => cache.userId = none
  | .unlocking (.ok value) => value.isSome = true ∧ value = cache.userId
  | _ => True

structure CacheEffect (cache : UserCache) (phase : CachePhase) (resolved : Except Failure ℤ)
    (next : CachePhase) (cache' : UserCache) : Prop where
  lock : next.holdsLock.toNat + cache.locked.toNat = phase.holdsLock.toNat + cache'.locked.toNat
  userId : cache'.userId = cache.userId ∨
    phase = .resolving ∧ ∃ userId, resolved = .ok userId ∧ cache'.userId = some userId
  next : next.Justified cache'

theorem advance_cacheEffect {cache : UserCache} {phase : CachePhase} (resolved : Except Failure ℤ)
    (justified : phase.Justified cache) (locked : phase.holdsLock = true → cache.locked = true) :
    CacheEffect cache phase resolved (phase.advance resolved cache).1
      (phase.advance resolved cache).2 := by
  cases phase with
  | outside =>
      rw [CachePhase.advance]
      cases known : cache.userId with
      | none => exact ⟨rfl, Or.inl rfl, trivial⟩
      | some userId =>
          refine ⟨rfl, Or.inl rfl, ?_⟩
          rw [CachePhase.Justified, known]
          rfl
  | found => exact ⟨rfl, Or.inl rfl, trivial⟩
  | locking =>
      rw [CachePhase.advance]
      cases taken : cache.locked with
      | true => exact ⟨rfl, Or.inl rfl, trivial⟩
      | false =>
          refine ⟨?_, Or.inl rfl, trivial⟩
          rw [taken]
          rfl
  | checking =>
      rw [CachePhase.advance]
      cases known : cache.userId with
      | none => exact ⟨rfl, Or.inl rfl, known⟩
      | some userId =>
          refine ⟨rfl, Or.inl rfl, ?_⟩
          rw [CachePhase.Justified, known]
          rfl
  | resolving =>
      cases resolved with
      | ok userId => exact ⟨rfl, Or.inr ⟨rfl, userId, rfl, rfl⟩, rfl⟩
      | error e => exact ⟨rfl, Or.inl rfl, trivial⟩
  | rereading => exact ⟨rfl, Or.inl rfl, justified, rfl⟩
  | unlocking result =>
      refine ⟨?_, Or.inl rfl, trivial⟩
      rw [locked rfl]
      rfl

section Phases
variable {cache : UserCache} {phase : CachePhase} {resolved : Except Failure ℤ}

theorem failed_of_advance {e : Failure}
    (failed : (phase.advance resolved cache).1 = .unlocking (.error e)) :
    phase = .resolving ∧ resolved = .error e := by
  cases phase with
  | resolving =>
      cases resolved with
      | ok userId => cases failed
      | error raised =>
          cases failed
          exact ⟨rfl, rfl⟩
  | outside =>
      rw [CachePhase.advance] at failed
      cases known : cache.userId <;> rw [known] at failed <;> cases failed
  | checking =>
      rw [CachePhase.advance] at failed
      cases known : cache.userId <;> rw [known] at failed <;> cases failed
  | locking =>
      rw [CachePhase.advance] at failed
      cases taken : cache.locked <;> simp [taken] at failed
  | _ => cases failed

theorem waits_of_advance (stays : (phase.advance resolved cache).1 = phase) :
    phase = .locking ∧ cache.locked = true := by
  cases phase with
  | locking =>
      refine ⟨rfl, ?_⟩
      rw [CachePhase.advance] at stays
      cases taken : cache.locked with
      | true => rfl
      | false => simp [taken] at stays
  | resolving => cases resolved <;> cases stays
  | outside =>
      rw [CachePhase.advance] at stays
      cases known : cache.userId <;> rw [known] at stays <;> cases stays
  | checking =>
      rw [CachePhase.advance] at stays
      cases known : cache.userId <;> rw [known] at stays <;> cases stays
  | _ => cases stays

theorem CachePhase.Justified.of_returns (justified : phase.Justified cache) {value : Option ℤ}
    (returned : phase.returns cache = some (.ok value)) :
    value.isSome = true ∧ value = cache.userId := by
  cases phase with
  | found =>
      cases returned
      exact ⟨justified, rfl⟩
  | unlocking result =>
      cases returned
      exact justified
  | _ => cases returned

theorem failed_of_returns {e : Failure} (returned : phase.returns cache = some (.error e)) :
    phase = .unlocking (.error e) := by
  cases phase with
  | unlocking result =>
      cases returned
      rfl
  | _ => cases returned

end Phases

section Invariant
variable {ι : Type} [Fintype ι] {state : CacheState ι}

structure CacheSound (state : CacheState ι) : Prop where
  excludes : Excludes CachePhase.holdsLock state.phase state.cache.locked
  justified : ∀ thread, (state.phase thread).Justified state.cache

theorem cacheSound_init : CacheSound (.init : CacheState ι) :=
  ⟨excludes_free fun _ => rfl, fun _ => trivial⟩

variable [DecidableEq ι] {turn : CacheTurn ι}

theorem CacheSound.effect (sound : CacheSound state) (turn : CacheTurn ι) :
    CacheEffect state.cache (state.phase turn.thread) turn.resolved
      ((state.phase turn.thread).advance turn.resolved state.cache).1
      (cacheStep state turn).cache :=
  advance_cacheEffect turn.resolved (sound.justified turn.thread) sound.excludes.locked_of_inside

/-- What is cached stays: whoever resolves has seen under the lock that nothing was. -/
theorem CacheSound.userId_stays (sound : CacheSound state) {userId : ℤ}
    (cached : state.cache.userId = some userId) :
    (cacheStep state turn).cache.userId = some userId := by
  rcases (sound.effect turn).userId with same | ⟨resolving, -⟩
  · rw [same, cached]
  · have justified := sound.justified turn.thread
    rw [resolving, CachePhase.Justified, cached] at justified
    cases justified

theorem CacheSound.others_justified (sound : CacheSound state) {thread : ι}
    (other : thread ≠ turn.thread) : (state.phase thread).Justified (cacheStep state turn).cache := by
  have before := sound.justified thread
  rcases (sound.effect turn).userId with same | ⟨resolving, userId, -, -⟩
  · unfold CachePhase.Justified at before ⊢
    rw [same]
    exact before
  · have nothing := sound.justified turn.thread
    rw [resolving, CachePhase.Justified] at nothing
    -- Nothing was cached, so nobody outside relied on it, and only one is inside.
    cases at_ : state.phase thread with
    | found =>
        rw [at_, CachePhase.Justified, nothing] at before
        cases before
    | resolving =>
        have same : thread = turn.thread :=
          sound.excludes.unique (by rw [at_]; rfl) (by rw [resolving]; rfl)
        exact absurd same other
    | rereading =>
        rw [at_, CachePhase.Justified, nothing] at before
        cases before
    | unlocking result =>
        have same : thread = turn.thread :=
          sound.excludes.unique (by rw [at_]; rfl) (by rw [resolving]; rfl)
        exact absurd same other
    | _ => trivial

theorem CacheSound.step (sound : CacheSound state) (turn : CacheTurn ι) :
    CacheSound (cacheStep state turn) := by
  have effect := sound.effect turn
  refine ⟨sound.excludes.move effect.lock, fun thread => ?_⟩
  by_cases same : thread = turn.thread
  · subst same
    simp only [cacheStep, Function.update_self]
    exact effect.next
  · have kept := sound.others_justified same
    simp only [cacheStep, Function.update_of_ne same] at kept ⊢
    exact kept

end Invariant

/-! ## Whole runs -/

section Runs
variable {ι : Type} [Fintype ι] [DecidableEq ι] {start : CacheState ι}

theorem cacheSound_throughout (sound : CacheSound start) (run : List (CacheTurn ι)) :
    ∀ state ∈ run.scanl cacheStep start, CacheSound state :=
  invariant_of_scanl CacheSound sound fun _ turn _ _ sound => sound.step turn

theorem userId_stays (sound : CacheSound start) {userId : ℤ}
    (cached : start.cache.userId = some userId) (run : List (CacheTurn ι)) :
    (run.foldl cacheStep start).cache.userId = some userId := by
  have kept : CacheSound (run.foldl cacheStep start) ∧
      (run.foldl cacheStep start).cache.userId = some userId :=
    (invariant_of_steps (fun state => CacheSound state ∧ state.cache.userId = some userId)
      ⟨sound, cached⟩ fun state turn _ _ both => ⟨both.1.step turn, both.1.userId_stays both.2⟩).2
  exact kept.2

theorem CacheSound.counts (sound : CacheSound start) (turn : CacheTurn ι) :
    (resolves start turn).toNat + start.cache.userId.isSome.toNat =
      (cacheStep start turn).cache.userId.isSome.toNat := by
  have justified := sound.justified turn.thread
  unfold resolves cacheStep
  cases at_ : start.phase turn.thread with
  | resolving =>
      rw [at_, CachePhase.Justified] at justified
      cases outcome : turn.resolved with
      | ok userId =>
          simp only [CachePhase.advance, justified, decide_true]
          rfl
      | error e =>
          simp only [CachePhase.advance, justified, decide_true]
          rfl
  | outside =>
      simp only [CachePhase.advance]
      cases known : start.cache.userId <;> simp [known]
  | checking =>
      simp only [CachePhase.advance]
      cases known : start.cache.userId <;> simp [known]
  | locking =>
      simp only [CachePhase.advance]
      cases start.cache.locked <;> simp
  | _ => simp [CachePhase.advance]

theorem resolutions_eq (run : List (CacheTurn ι)) : ∀ start : CacheState ι, CacheSound start →
    eventCount cacheStep resolves start run + start.cache.userId.isSome.toNat =
      (run.foldl cacheStep start).cache.userId.isSome.toNat := by
  induction run with
  | nil => exact fun start _ => Nat.zero_add _
  | cons turn run ih =>
      intro start sound
      have rest := ih (cacheStep start turn) (sound.step turn)
      have first := sound.counts turn
      rw [eventCount, List.foldl_cons]
      omega

omit [Fintype ι] in
theorem failed_in_resolution {thread : ι} {e : Failure} (run : List (CacheTurn ι))
    (failing : (run.foldl cacheStep .init).phase thread = .unlocking (.error e)) :
    ∃ front resolution between, run = front ++ resolution :: between ∧
      resolution.thread = thread ∧ (front.foldl cacheStep .init).phase thread = .resolving ∧
      resolution.resolved = .error e ∧ ∀ other ∈ between, other.thread ≠ thread := by
  have moved : (run.foldl cacheStep .init).phase thread ≠ CacheState.init.phase thread := by
    rw [failing]
    nofun
  obtain ⟨front, resolution, between, split, rfl, none, led⟩ := exists_last_turn CacheState.phase
    CacheTurn.thread (fun state turn other => Function.update_of_ne (Ne.symm other) ..) run moved
  rw [failing] at led
  simp only [cacheStep, Function.update_self] at led
  obtain ⟨resolving, raised⟩ := failed_of_advance led
  exact ⟨front, resolution, between, split, rfl, resolving, raised, none⟩

/-- In every interleaving of `get_user_id` by any number of threads: one thread at a time is
under the lock, at most one resolution succeeds, and a call returns what that one found,
never `None`.  A call raises only what its own resolution raised, the turn that its thread
took last. -/
theorem user_resolved_once (run : List (CacheTurn ι)) :
    (∀ state ∈ run.scanl cacheStep .init, ∀ first second,
      (state.phase first).holdsLock = true → (state.phase second).holdsLock = true →
        first = second) ∧
    eventCount cacheStep resolves .init run ≤ 1 ∧
    (∀ thread value, (thread, .ok value) ∈ outputs cacheStep cacheReturns .init run →
      value.isSome = true ∧ value = (run.foldl cacheStep .init).cache.userId) ∧
    ∀ before turn rest e, run = before ++ turn :: rest →
      cacheReturns (before.foldl cacheStep .init) turn = some (turn.thread, .error e) →
      ∃ front resolution between, before = front ++ resolution :: between ∧
        resolution.thread = turn.thread ∧
        (front.foldl cacheStep .init).phase turn.thread = .resolving ∧
        resolution.resolved = .error e ∧ ∀ other ∈ between, other.thread ≠ turn.thread := by
  have sound := cacheSound_throughout cacheSound_init run
  refine ⟨fun state reached first second => (sound state reached).excludes.unique, ?_, ?_, ?_⟩
  · have counted := resolutions_eq run .init cacheSound_init
    have atMost := Bool.toNat_le (run.foldl cacheStep .init).cache.userId.isSome
    omega
  · intro thread value returned
    obtain ⟨state, turn, rest, occurs, emitted⟩ := happens_of_mem_outputs run _ returned
    have soundThen := sound state occurs.state_mem_scanl
    obtain ⟨result, returns, same⟩ := Option.map_eq_some_iff.mp emitted
    cases same
    have isCached := (soundThen.justified turn.thread).of_returns returns
    obtain ⟨userId, isUser⟩ := Option.isSome_iff_exists.mp isCached.1
    refine ⟨isCached.1, ?_⟩
    rw [occurs.foldl_eq, isUser]
    rw [isUser] at isCached
    exact (userId_stays (soundThen.step turn) (soundThen.userId_stays isCached.2.symm) rest).symm
  · intro before turn rest e _ returned
    obtain ⟨result, returns, same⟩ := Option.map_eq_some_iff.mp returned
    cases same
    exact failed_in_resolution before (failed_of_returns returns)

omit [Fintype ι] in
theorem inside_turn_advances (state : CacheState ι) (turn : CacheTurn ι)
    (inside : (state.phase turn.thread).holdsLock = true) :
    ((cacheStep state turn).phase turn.thread).holdsLock = false ∨
      ((cacheStep state turn).phase turn.thread).remaining <
        (state.phase turn.thread).remaining := by
  simp only [cacheStep, Function.update_self]
  cases at_ : state.phase turn.thread with
  | checking =>
      right
      rw [CachePhase.advance]
      cases state.cache.userId with
      | none => exact Nat.lt_succ_self 2
      | some userId => exact Nat.lt_of_lt_of_le Nat.one_lt_two (Nat.le_succ 2)
  | resolving =>
      right
      cases turn.resolved with
      | ok userId => exact Nat.lt_succ_self 1
      | error e => exact Nat.zero_lt_succ 1
  | rereading => exact Or.inr Nat.zero_lt_one
  | unlocking result => exact Or.inl rfl
  | _ =>
      rw [at_] at inside
      cases inside

/-- Nobody is stuck in `get_user_id`.  A thread under the lock leaves it within four of its own
turns, whatever the others do; and a thread that its turn does not move waits for the lock
while another thread is under it. -/
theorem user_lock_released (run : List (CacheTurn ι)) :
    (∀ (thread : ι) (later : List (CacheTurn ι)),
      ((run.foldl cacheStep .init).phase thread).holdsLock = true →
      3 < later.countP (fun turn => decide (turn.thread = thread)) →
        ∃ state ∈ later.scanl cacheStep (run.foldl cacheStep .init),
          (state.phase thread).holdsLock = false) ∧
    ∀ turn : CacheTurn ι, (cacheStep (run.foldl cacheStep .init) turn).phase turn.thread =
        (run.foldl cacheStep .init).phase turn.thread →
      (run.foldl cacheStep .init).phase turn.thread = .locking ∧
        ∃ other, other ≠ turn.thread ∧
          ((run.foldl cacheStep .init).phase other).holdsLock = true := by
  have sound := cacheSound_throughout cacheSound_init run _ foldl_mem_scanl
  generalize run.foldl cacheStep .init = state at sound ⊢
  constructor
  · intro thread later inside turns
    have few : (state.phase thread).remaining ≤ 3 := by
      cases state.phase thread with
      | unlocking result => exact Nat.zero_le 3
      | _ => decide
    refine done_within_turns CacheState.phase CacheTurn.thread
      (fun phase => phase.holdsLock = false) CachePhase.remaining ?_ ?_ later state (by omega)
    · intro state turn other
      simp only [cacheStep, Function.update_of_ne (Ne.symm other)]
    · intro state turn isOwn notDone
      subst isOwn
      rw [Bool.not_eq_false] at notDone
      exact inside_turn_advances state turn notDone
  · intro turn unmoved
    simp only [cacheStep, Function.update_self] at unmoved
    have waits := waits_of_advance unmoved
    refine ⟨waits.1, ?_⟩
    have excludes := sound.excludes
    rw [waits.2] at excludes
    obtain ⟨other, inside⟩ := excludes.exists_inside
    refine ⟨other, ?_, inside⟩
    rintro rfl
    rw [waits.1] at inside
    cases inside

end Runs

end SupernoteTaskService
