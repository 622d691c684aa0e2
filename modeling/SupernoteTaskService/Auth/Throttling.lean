import SupernoteTaskService.RateLimit

/-!
# The limiter over whole runs

A run is a list of checks, of any keys, whose times do not go back.  What the limiter
answers for one key is what a single fixed-window counter answers for the times of that
key: a bucket that the eviction dropped had expired, and a bucket that has expired is
as good as none.  Other keys therefore do not matter, nor does the eviction, and the
counter's bounds are the limiter's.
-/

set_option autoImplicit false

namespace SupernoteTaskService

open Foundation

structure Check (κ K : Type) where
  key : κ
  time : K
  deriving DecidableEq

namespace RateLimiter

variable {κ K : Type}

def Nondecreasing [LE K] (run : List (Check κ K)) : Prop :=
  run.Pairwise fun earlier later => earlier.time ≤ later.time

variable [DecidableEq κ]

def timesOf (key : κ) (run : List (Check κ K)) : List K :=
  (run.filter fun c => c.key = key).map Check.time

theorem timesOf_concat (key : κ) (run : List (Check κ K)) (c : Check κ K) :
    timesOf key (run ++ [c]) = timesOf key run ++ if c.key = key then [c.time] else [] := by
  by_cases onKey : c.key = key
  · simp [timesOf, onKey]
  · simp [timesOf, onKey]

section Runs
variable (check : RateLimiter κ K → κ → K → RateLimitResult × RateLimiter κ K)

def runStep (limiter : RateLimiter κ K) (c : Check κ K) : RateLimiter κ K :=
  (check limiter c.key c.time).2

def afterRun (limit windowSeconds : ℤ) (run : List (Check κ K)) : RateLimiter κ K :=
  run.foldl (runStep check) (new limit windowSeconds)

def results (limiter : RateLimiter κ K) (run : List (Check κ K)) : List RateLimitResult :=
  outputs (runStep check) (fun limiter c => some (check limiter c.key c.time).1) limiter run

def resultsOn (key : κ) (limiter : RateLimiter κ K) (run : List (Check κ K)) :
    List RateLimitResult :=
  outputs (runStep check)
    (fun limiter c => if c.key = key then some (check limiter c.key c.time).1 else none)
    limiter run

def allowedTimes (key : κ) (limiter : RateLimiter κ K) (run : List (Check κ K)) : List K :=
  outputs (runStep check)
    (fun limiter c =>
      if c.key = key ∧ (check limiter c.key c.time).1.allowed = true then some c.time else none)
    limiter run

omit [DecidableEq κ] in
theorem results_concat (limiter : RateLimiter κ K) (run : List (Check κ K)) (c : Check κ K) :
    results check limiter (run ++ [c]) =
      results check limiter run ++ [(check (run.foldl (runStep check) limiter) c.key c.time).1] := by
  rw [results, outputs_append]
  rfl

theorem resultsOn_concat (limiter : RateLimiter κ K) (run : List (Check κ K)) (c : Check κ K) :
    resultsOn check c.key limiter (run ++ [c]) =
      resultsOn check c.key limiter run ++
        [(check (run.foldl (runStep check) limiter) c.key c.time).1] := by
  rw [resultsOn, outputs_append, outputs, if_pos rfl]
  rfl

end Runs

variable [CommRing K] [LinearOrder K]

/-! ## Buckets and spans -/

def windowOf (windowSeconds : ℤ) (span : Span K) : Window K :=
  ⟨span.count, span.opened + windowSeconds⟩

/-- The limiter holds the span of the key, or has forgotten one that ended by `now`. -/
def Remembers (limiter : RateLimiter κ K) (key : κ) (span : Option (Span K)) (now : K) : Prop :=
  limiter.buckets.lookup key = span.map (windowOf limiter.window) ∨
    limiter.buckets.lookup key = none ∧ ∀ s, span = some s → s.opened + limiter.window ≤ now

/-- An eviction that drops no bucket before it has expired. -/
structure DropsExpired (evict : RateLimiter κ K → K → RateLimiter κ K) : Prop where
  limit : ∀ limiter now, (evict limiter now).limit = limiter.limit
  window : ∀ limiter now, (evict limiter now).window = limiter.window
  lookup : ∀ limiter now other,
    (evict limiter now).buckets.lookup other = limiter.buckets.lookup other ∨
      (evict limiter now).buckets.lookup other = none ∧
        ∃ window, limiter.buckets.lookup other = some window ∧ window.resetAt ≤ now

omit [CommRing K] in
theorem evictExpired_dropsExpired :
    DropsExpired fun (limiter : RateLimiter κ K) now => limiter.evictExpired now :=
  ⟨evictExpired_limit, evictExpired_window, lookup_evictExpired⟩

omit [CommRing K] in
theorem keep_dropsExpired : DropsExpired fun (limiter : RateLimiter κ K) _ => limiter :=
  ⟨fun _ _ => rfl, fun _ _ => rfl, fun _ _ _ => Or.inl rfl⟩

section Remembering
variable {limiter : RateLimiter κ K} {key : κ} {span : Option (Span K)} {now : K}

theorem Remembers.mono {later : K} (remembers : limiter.Remembers key span now)
    (noEarlier : now ≤ later) : limiter.Remembers key span later := by
  rcases remembers with held | ⟨forgotten, ended⟩
  · exact Or.inl held
  · exact Or.inr ⟨forgotten, fun s isSpan => (ended s isSpan).trans noEarlier⟩

theorem Remembers.evict {evict : RateLimiter κ K → K → RateLimiter κ K}
    (drops : DropsExpired evict) (remembers : limiter.Remembers key span now) :
    (evict limiter now).Remembers key span now := by
  unfold Remembers at remembers ⊢
  rw [drops.window]
  rcases drops.lookup limiter now key with same | ⟨dropped, window, held, expired⟩
  · rw [same]
    exact remembers
  · rcases remembers with kept | ⟨forgotten, _⟩
    · refine Or.inr ⟨dropped, fun s isSpan => ?_⟩
      rw [held, isSpan, Option.map_some, Option.some.injEq] at kept
      rwa [kept] at expired
    · rw [forgotten] at held
      cases held

theorem Remembers.windowAt_eq (remembers : limiter.Remembers key span now) :
    limiter.windowAt key now =
      windowOf limiter.window (Span.current (limiter.window : K) span now) := by
  rcases remembers with held | ⟨forgotten, ended⟩
  · cases span with
    | none => exact windowAt_of_none limiter key now held
    | some s =>
        rw [windowAt_of_some limiter key now held, Span.current]
        by_cases ended : s.opened + limiter.window ≤ now
        · have expired : (windowOf limiter.window s).resetAt ≤ now := ended
          rw [if_pos expired, if_pos ended]
          rfl
        · have live : ¬ (windowOf limiter.window s).resetAt ≤ now := ended
          rw [if_neg live, if_neg ended]
  · rw [windowAt_of_none limiter key now forgotten]
    cases span with
    | none => rfl
    | some s =>
        rw [Span.current, if_pos (ended s rfl)]
        rfl

variable [FloorRing K]

theorem Remembers.count_other {other : κ} (different : key ≠ other)
    (remembers : limiter.Remembers key span now) :
    (limiter.countRequest other now).2.Remembers key span now := by
  unfold Remembers at remembers ⊢
  rwa [countRequest_window, lookup_countRequest, if_neg different]

theorem Remembers.count_self (remembers : limiter.Remembers key span now) :
    (limiter.countRequest key now).2.Remembers key
      (Span.tick limiter.limit (limiter.window : K) span now) now := by
  refine Or.inl ?_
  rw [countRequest_window, lookup_countRequest, if_pos rfl, remembers.windowAt_eq, Span.tick,
    Option.map_some, Span.counted]
  by_cases room : (Span.current (limiter.window : K) span now).count < limiter.limit
  · have notFull : ¬ (windowOf limiter.window
        (Span.current (limiter.window : K) span now)).count ≥ limiter.limit := not_le.mpr room
    rw [if_neg notFull, if_pos room]
    rfl
  · have full : (windowOf limiter.window
        (Span.current (limiter.window : K) span now)).count ≥ limiter.limit := not_lt.mp room
    rw [if_pos full, if_neg room]

end Remembering

/-! ## The simulation -/

section Simulation
variable [FloorRing K] {evict : RateLimiter κ K → K → RateLimiter κ K}

def checkAfter (evict : RateLimiter κ K → K → RateLimiter κ K) (limiter : RateLimiter κ K)
    (key : κ) (now : K) : RateLimitResult × RateLimiter κ K :=
  (evict limiter now).countRequest key now

theorem afterRun_concat (limit windowSeconds : ℤ) (run : List (Check κ K)) (c : Check κ K) :
    afterRun (checkAfter evict) limit windowSeconds (run ++ [c]) =
      ((evict (afterRun (checkAfter evict) limit windowSeconds run) c.time).countRequest c.key c.time).2 := by
  rw [afterRun, List.foldl_append]
  rfl

theorem afterRun_limits (drops : DropsExpired evict) (limit windowSeconds : ℤ)
    (run : List (Check κ K)) :
    (afterRun (checkAfter evict) limit windowSeconds run).limit = max 1 limit ∧
      (afterRun (checkAfter evict) limit windowSeconds run).window = max 1 windowSeconds := by
  induction run using List.reverseRecOn with
  | nil => exact ⟨rfl, rfl⟩
  | append_singleton run c ih =>
      rw [afterRun_concat, countRequest_limit, countRequest_window, drops.limit, drops.window]
      exact ih

/-- The simulation: after a run the limiter remembers, for each key, the span that the
times of that key alone have opened. -/
theorem afterRun_remembers (drops : DropsExpired evict) (limit windowSeconds : ℤ) (key : κ)
    (run : List (Check κ K)) (monotone : Nondecreasing run) :
    ∀ now, (∀ c ∈ run, c.time ≤ now) →
      (afterRun (checkAfter evict) limit windowSeconds run).Remembers key
        (Span.after (max 1 limit) ((max 1 windowSeconds : ℤ) : K) (timesOf key run)) now := by
  induction run using List.reverseRecOn with
  | nil => exact fun now _ => Or.inl (AList.lookup_empty key)
  | append_singleton run c ih =>
      intro now past
      obtain ⟨earlier, -, beforeLast⟩ := List.pairwise_append.mp monotone
      obtain ⟨sameLimit, sameWindow⟩ := afterRun_limits drops limit windowSeconds run
      have remembers := (ih earlier c.time fun c' member =>
        beforeLast c' member c List.mem_cons_self).evict drops
      have noEarlier := past c (List.mem_append_right run List.mem_cons_self)
      rw [afterRun_concat, timesOf_concat]
      by_cases onKey : c.key = key
      · subst onKey
        have stepped := remembers.count_self.mono noEarlier
        rw [drops.limit, drops.window, sameLimit, sameWindow] at stepped
        rwa [if_pos rfl, Span.after_concat]
      · rw [if_neg onKey, List.append_nil]
        exact (remembers.count_other (Ne.symm onKey)).mono noEarlier

theorem afterRun_windowAt (drops : DropsExpired evict) (limit windowSeconds : ℤ)
    {run : List (Check κ K)} {c : Check κ K} (monotone : Nondecreasing (run ++ [c])) :
    (evict (afterRun (checkAfter evict) limit windowSeconds run) c.time).windowAt c.key c.time =
      windowOf (max 1 windowSeconds) (Span.current ((max 1 windowSeconds : ℤ) : K)
        (Span.after (max 1 limit) ((max 1 windowSeconds : ℤ) : K) (timesOf c.key run)) c.time) := by
  obtain ⟨earlier, -, beforeLast⟩ := List.pairwise_append.mp monotone
  have remembers := (afterRun_remembers drops limit windowSeconds c.key run earlier c.time
    fun c' member => beforeLast c' member c List.mem_cons_self).evict drops
  have decides := remembers.windowAt_eq
  rwa [drops.window, (afterRun_limits drops limit windowSeconds run).2] at decides

theorem outputs_onKey {ω : Type} (drops : DropsExpired evict) (limit windowSeconds : ℤ) (key : κ)
    (show_ : ℤ → Window K → K → Option ω) (run : List (Check κ K)) (monotone : Nondecreasing run) :
    outputs (runStep (checkAfter evict))
        (fun limiter c => if c.key = key then show_ (evict limiter c.time).limit
          ((evict limiter c.time).windowAt c.key c.time) c.time else none)
        (new limit windowSeconds) run =
      outputs (Span.tick (max 1 limit) ((max 1 windowSeconds : ℤ) : K))
        (fun span now => show_ (max 1 limit) (windowOf (max 1 windowSeconds)
          (Span.current ((max 1 windowSeconds : ℤ) : K) span now)) now)
        none (timesOf key run) := by
  induction run using List.reverseRecOn with
  | nil => rfl
  | append_singleton run c ih =>
      have earlier : Nondecreasing run := (List.pairwise_append.mp monotone).1
      rw [outputs_append, ← afterRun, ih earlier, timesOf_concat, outputs, outputs, List.append_nil]
      by_cases onKey : c.key = key
      · subst onKey
        rw [if_pos rfl, if_pos rfl, outputs_append, ← Span.after, drops.limit,
          (afterRun_limits drops limit windowSeconds run).1,
          afterRun_windowAt drops limit windowSeconds monotone, outputs, outputs, List.append_nil]
      · rw [if_neg onKey, if_neg onKey, Option.toList_none, List.append_nil, List.append_nil]

theorem resultsOn_eq (drops : DropsExpired evict) (limit windowSeconds : ℤ) (key : κ)
    {run : List (Check κ K)} (monotone : Nondecreasing run) :
    resultsOn (checkAfter evict) key (new limit windowSeconds) run =
      outputs (Span.tick (max 1 limit) ((max 1 windowSeconds : ℤ) : K))
        (fun span now => some (answer (max 1 limit) (windowOf (max 1 windowSeconds)
          (Span.current ((max 1 windowSeconds : ℤ) : K) span now)) now))
        none (timesOf key run) := by
  have shown := outputs_onKey drops limit windowSeconds key
    (fun limit window now => some (answer limit window now)) run monotone
  refine Eq.trans ?_ shown
  unfold resultsOn checkAfter
  simp only [countRequest_result]

theorem allowedTimes_eq (drops : DropsExpired evict) (limit windowSeconds : ℤ) (key : κ)
    {run : List (Check κ K)} (monotone : Nondecreasing run) :
    allowedTimes (checkAfter evict) key (new limit windowSeconds) run =
      Span.admitted (max 1 limit) ((max 1 windowSeconds : ℤ) : K) (timesOf key run) := by
  have shown := outputs_onKey drops limit windowSeconds key
    (fun limit window now => if window.count < limit then some now else none) run monotone
  refine Eq.trans ?_ shown
  unfold allowedTimes checkAfter
  simp only [countRequest_result, answer_allowed_iff, ite_and]

end Simulation

/-! ## Isolation -/

section Isolation
variable [FloorRing K]

/-- A limiter that never evicts. -/
def checkKeeping (limiter : RateLimiter κ K) (key : κ) (now : K) :
    RateLimitResult × RateLimiter κ K :=
  limiter.countRequest key now

/-- On every run the eviction makes no difference to any result. -/
theorem results_check_eq (limit windowSeconds : ℤ) (run : List (Check κ K))
    (monotone : Nondecreasing run) :
    results check (new limit windowSeconds) run =
      results checkKeeping (new limit windowSeconds) run := by
  induction run using List.reverseRecOn with
  | nil => rfl
  | append_singleton run c ih =>
      have earlier : Nondecreasing run := (List.pairwise_append.mp monotone).1
      have evicting := resultsOn_eq evictExpired_dropsExpired limit windowSeconds c.key monotone
      have keeping := resultsOn_eq keep_dropsExpired limit windowSeconds c.key monotone
      have lastResults : resultsOn check c.key (new limit windowSeconds) (run ++ [c]) =
          resultsOn checkKeeping c.key (new limit windowSeconds) (run ++ [c]) :=
        evicting.trans keeping.symm
      rw [resultsOn_concat, resultsOn_concat] at lastResults
      rw [results_concat, results_concat, ih earlier]
      exact congrArg _ (List.append_inj_right' lastResults rfl)

/-- The results of one key depend on the times of its own checks, and the eviction
makes no difference to anyone. -/
theorem clients_do_not_interfere (limit windowSeconds : ℤ) (key : κ) (run run' : List (Check κ K))
    (monotone : Nondecreasing run) (monotone' : Nondecreasing run')
    (same : (run.filter fun c => c.key = key) = run'.filter fun c => c.key = key) :
    resultsOn check key (new limit windowSeconds) run =
        resultsOn check key (new limit windowSeconds) run' ∧
      results check (new limit windowSeconds) run =
        results checkKeeping (new limit windowSeconds) run := by
  have onKey := resultsOn_eq evictExpired_dropsExpired limit windowSeconds key monotone
  have onKey' := resultsOn_eq evictExpired_dropsExpired limit windowSeconds key monotone'
  have sameTimes : timesOf key run = timesOf key run' := congrArg (List.map Check.time) same
  rw [← sameTimes] at onKey'
  exact ⟨onKey.trans onKey'.symm, results_check_eq limit windowSeconds run monotone⟩

def busyRun : List (Check String ℚ) :=
  [⟨"ip:10.0.0.1", 0⟩, ⟨"ip:10.0.0.2", 0⟩, ⟨"ip:10.0.0.1", 1⟩]

def quietRun : List (Check String ℚ) := [⟨"ip:10.0.0.1", 0⟩, ⟨"ip:10.0.0.1", 1⟩]

theorem busyRun_quietRun_agree :
    resultsOn check "ip:10.0.0.1" (new 1 60) busyRun =
        resultsOn check "ip:10.0.0.1" (new 1 60) quietRun ∧
      results check (new 1 60) busyRun = results checkKeeping (new 1 60) busyRun :=
  clients_do_not_interfere 1 60 "ip:10.0.0.1" busyRun quietRun (by unfold Nondecreasing; decide)
    (by unfold Nondecreasing; decide) (by decide)

end Isolation

/-! ## Bounds -/

section Bounds
variable [FloorRing K] [IsStrictOrderedRing K]

omit [CommRing K] [FloorRing K] [IsStrictOrderedRing K] in
theorem timesOf_monotone {key : κ} {run : List (Check κ K)} (monotone : Nondecreasing run) :
    (timesOf key run).Pairwise (· ≤ ·) :=
  List.Pairwise.map Check.time (fun _ _ noEarlier => noEarlier) (monotone.filter _)

theorem window_pos (windowSeconds : ℤ) : (0 : K) < ((max 1 windowSeconds : ℤ) : K) :=
  Int.cast_pos.mpr (lt_of_lt_of_le Int.one_pos (le_max_left 1 windowSeconds))

theorem limit_nonneg (limit : ℤ) : 0 ≤ max 1 limit := le_max_of_le_left Int.one_nonneg

/-- No half-open stretch of one window's length lets a key through more than twice its
limit. -/
theorem allowed_burst_le (limit windowSeconds : ℤ) (key : κ) {run : List (Check κ K)}
    (monotone : Nondecreasing run) (start : K) :
    ((allowedTimes check key (new limit windowSeconds) run).countP fun t =>
        start ≤ t ∧ t < start + (max 1 windowSeconds : ℤ) : ℤ) ≤ 2 * max 1 limit ∧
      ((allowedTimes check key (new limit windowSeconds) run).countP fun t =>
        start < t ∧ t ≤ start + (max 1 windowSeconds : ℤ) : ℤ) ≤ 2 * max 1 limit := by
  have allowed : allowedTimes check key (new limit windowSeconds) run = _ :=
    allowedTimes_eq evictExpired_dropsExpired limit windowSeconds key monotone
  have burst := Span.burst_le (limit_nonneg limit) (window_pos windowSeconds) (timesOf key run)
    (timesOf_monotone monotone) start
  rw [← allowed] at burst
  constructor
  · refine le_trans (Int.ofNat_le.mpr (List.countP_mono_left fun t _ inside => ?_)) burst
    simp only [decide_eq_true_eq, Bool.and_eq_true] at inside ⊢
    exact ⟨inside.1, inside.2.le⟩
  · refine le_trans (Int.ofNat_le.mpr (List.countP_mono_left fun t _ inside => ?_)) burst
    simp only [decide_eq_true_eq, Bool.and_eq_true] at inside ⊢
    exact ⟨inside.1.le, inside.2⟩

omit [IsStrictOrderedRing K] in
theorem check_allowed_iff (limit windowSeconds : ℤ) {run : List (Check κ K)} {c : Check κ K}
    (monotone : Nondecreasing (run ++ [c])) :
    ((afterRun check limit windowSeconds run).check c.key c.time).1.allowed = true ↔
      (Span.current ((max 1 windowSeconds : ℤ) : K) (Span.after (max 1 limit)
        ((max 1 windowSeconds : ℤ) : K) (timesOf c.key run)) c.time).count < max 1 limit := by
  have decides := afterRun_windowAt evictExpired_dropsExpired limit windowSeconds monotone
  have sameLimit := (afterRun_limits evictExpired_dropsExpired limit windowSeconds run).1
  rw [check, countRequest_result, answer_allowed_iff, evictExpired_limit]
  have room := congrArg Window.count decides
  exact ⟨fun few => (room.symm.trans_lt few).trans_eq sameLimit,
    fun few => (room.trans_lt few).trans_eq sameLimit.symm⟩

omit [IsStrictOrderedRing K] in
theorem denied_span (limit windowSeconds : ℤ) {before : List (Check κ K)} {c : Check κ K}
    (monotone : Nondecreasing (before ++ [c]))
    (denied : ((afterRun check limit windowSeconds before).check c.key c.time).1.allowed = false) :
    ∃ span : Span K,
      (afterRun check limit windowSeconds before).buckets.lookup c.key =
        some (windowOf (max 1 windowSeconds) span) ∧
      Span.current ((max 1 windowSeconds : ℤ) : K) (Span.after (max 1 limit)
        ((max 1 windowSeconds : ℤ) : K) (timesOf c.key before)) c.time = span ∧
      c.time < span.opened + (max 1 windowSeconds : ℤ) ∧ ¬ span.count < max 1 limit := by
  obtain ⟨earlier, -, beforeLast⟩ := List.pairwise_append.mp monotone
  obtain ⟨sameLimit, sameWindow⟩ :=
    afterRun_limits evictExpired_dropsExpired limit windowSeconds before
  have full : ¬ (Span.current ((max 1 windowSeconds : ℤ) : K) (Span.after (max 1 limit)
      ((max 1 windowSeconds : ℤ) : K) (timesOf c.key before)) c.time).count < max 1 limit := by
    rw [← check_allowed_iff limit windowSeconds monotone, denied]
    exact Bool.false_ne_true
  have notFresh : ∀ now : K, Span.current ((max 1 windowSeconds : ℤ) : K) (Span.after (max 1 limit)
      ((max 1 windowSeconds : ℤ) : K) (timesOf c.key before)) c.time ≠ ⟨now, 0⟩ := by
    intro now fresh
    rw [fresh] at full
    exact full (lt_of_lt_of_le Int.one_pos (le_max_left 1 limit))
  rcases Span.current_cases _ c.time with fresh | ⟨span, held, live, same⟩
  · exact absurd fresh (notFresh c.time)
  · refine ⟨span, ?_, same, live, same ▸ full⟩
    have remembers := afterRun_remembers evictExpired_dropsExpired limit windowSeconds c.key before
      earlier c.time fun c' member => beforeLast c' member c List.mem_cons_self
    rcases remembers with kept | ⟨-, ended⟩
    · rw [held, Option.map_some, sameWindow] at kept
      exact kept
    · have passed := ended span held
      rw [sameWindow] at passed
      exact absurd live (not_lt.mpr passed)

theorem denied_window (limit windowSeconds : ℤ) {before : List (Check κ K)} {c : Check κ K}
    (monotone : Nondecreasing (before ++ [c]))
    (denied : ((afterRun check limit windowSeconds before).check c.key c.time).1.allowed = false) :
    ∃ window, (afterRun check limit windowSeconds before).buckets.lookup c.key = some window ∧
      c.time < window.resetAt ∧
      ((allowedTimes check c.key (new limit windowSeconds) before).countP fun t =>
        (c.time - (max 1 windowSeconds : ℤ) < t ∧ t ≤ c.time) ∧
          window.resetAt - (max 1 windowSeconds : ℤ) ≤ t : ℤ) = max 1 limit := by
  obtain ⟨span, held, same, live, full⟩ := denied_span limit windowSeconds monotone denied
  refine ⟨_, held, live, ?_⟩
  obtain ⟨earlier, -, beforeLast⟩ := List.pairwise_append.mp monotone
  have allowed : allowedTimes check c.key (new limit windowSeconds) before = _ :=
    allowedTimes_eq evictExpired_dropsExpired limit windowSeconds c.key earlier
  have past : ∀ t ∈ timesOf c.key before, t ≤ c.time := by
    intro t member
    obtain ⟨c', checked, rfl⟩ := List.mem_map.mp member
    exact beforeLast c' (List.mem_of_mem_filter checked) c List.mem_cons_self
  have count := Span.refused_span (limit_nonneg limit) (window_pos windowSeconds)
    (Span.pairwise_concat_iff.mpr ⟨timesOf_monotone earlier, past⟩) (same ▸ full)
  rw [same, ← allowed] at count
  rw [← count]
  refine congrArg Int.ofNat (List.countP_congr fun t member => ?_)
  rw [allowed] at member
  have arrived := past t (Span.mem_of_mem_admitted _ _ member)
  simp only [windowOf, add_sub_cancel_right, decide_eq_true_eq]
  constructor
  · exact fun inside => inside.2
  · exact fun inSpan => ⟨⟨by linarith, arrived⟩, inSpan⟩

/-- The limiter over every run: in a half-open stretch of one window's length a key is
allowed at most twice its limit, a denied check meets a live window that let through as
many as it may, and a key that has not been let through that often is not denied. -/
theorem checks_bounded (limit windowSeconds : ℤ) (run : List (Check κ K))
    (monotone : Nondecreasing run) :
    (∀ (key : κ) (start : K),
      ((allowedTimes check key (new limit windowSeconds) run).countP fun t =>
          start ≤ t ∧ t < start + (max 1 windowSeconds : ℤ) : ℤ) ≤ 2 * max 1 limit ∧
        ((allowedTimes check key (new limit windowSeconds) run).countP fun t =>
          start < t ∧ t ≤ start + (max 1 windowSeconds : ℤ) : ℤ) ≤ 2 * max 1 limit) ∧
      ∀ (before : List (Check κ K)) (c : Check κ K) rest, run = before ++ c :: rest →
        (((afterRun check limit windowSeconds before).check c.key c.time).1.allowed = false →
          ∃ window, (afterRun check limit windowSeconds before).buckets.lookup c.key = some window ∧
            c.time < window.resetAt ∧
            ((allowedTimes check c.key (new limit windowSeconds) before).countP fun t =>
              (c.time - (max 1 windowSeconds : ℤ) < t ∧ t ≤ c.time) ∧
                window.resetAt - (max 1 windowSeconds : ℤ) ≤ t : ℤ) = max 1 limit) ∧
        (((allowedTimes check c.key (new limit windowSeconds) before).countP fun t =>
            c.time - (max 1 windowSeconds : ℤ) < t ∧ t ≤ c.time : ℤ) < max 1 limit →
          ((afterRun check limit windowSeconds before).check c.key c.time).1.allowed = true) := by
  refine ⟨fun key start => allowed_burst_le limit windowSeconds key monotone start, ?_⟩
  intro before c rest split
  have upTo : Nondecreasing (before ++ [c]) := by
    rw [split, List.append_cons] at monotone
    exact (List.pairwise_append.mp monotone).1
  refine ⟨denied_window limit windowSeconds upTo, fun few => ?_⟩
  by_contra notAllowed
  obtain ⟨window, -, -, count⟩ :=
    denied_window limit windowSeconds upTo (Bool.eq_false_iff.mpr notAllowed)
  rw [← count] at few
  refine absurd few (not_lt.mpr (Int.ofNat_le.mpr (List.countP_mono_left fun t _ inside => ?_)))
  rw [decide_eq_true_eq] at inside ⊢
  exact inside.1

theorem busyRun_third_check_denied :
    ∃ window, (afterRun check 2 60 busyRun).buckets.lookup "ip:10.0.0.1" = some window ∧
      2 < window.resetAt ∧
      ((allowedTimes check "ip:10.0.0.1" (new 2 60) busyRun).countP fun t =>
        (2 - ((max 1 60 : ℤ) : ℚ) < t ∧ t ≤ 2) ∧
          window.resetAt - ((max 1 60 : ℤ) : ℚ) ≤ t : ℤ) = max 1 2 :=
  ((checks_bounded 2 60 (busyRun ++ [⟨"ip:10.0.0.1", 2⟩]) (by unfold Nondecreasing; decide)).2
    busyRun ⟨"ip:10.0.0.1", 2⟩ [] rfl).1 (by decide +kernel)

/-- Two checks at one time: the first is not in the open interval before the second. -/
theorem simultaneous_check_denied :
    ¬ ∀ (run : List (Check String ℚ)), Nondecreasing run →
      ∀ (before : List (Check String ℚ)) (c : Check String ℚ) rest, run = before ++ c :: rest →
        ((allowedTimes check c.key (new 1 60) before).countP fun t =>
            c.time - ((max 1 60 : ℤ) : ℚ) < t ∧ t < c.time : ℤ) < max 1 1 →
          ((afterRun check 1 60 before).check c.key c.time).1.allowed = true := by
  intro never
  have allowed := never [⟨"ip:10.0.0.1", 0⟩, ⟨"ip:10.0.0.1", 0⟩] (by unfold Nondecreasing; decide)
    [⟨"ip:10.0.0.1", 0⟩] ⟨"ip:10.0.0.1", 0⟩ [] rfl (by decide +kernel)
  exact absurd allowed (by decide +kernel)

end Bounds

end RateLimiter

end SupernoteTaskService
