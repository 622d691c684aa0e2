import SupernoteTaskService.Auth.Throttling

/-!
# The buckets of the limiter

Expired buckets are dropped only when a check finds 1024 of them or more, and the check
adds its own bucket after that.  So either there are few buckets, or all of them are alive,
and then each of their keys has opened a window less than one window's length ago.
`Accounted` is the invariant: every bucket has let something through, no more than the
limit, and was opened by a check of its key.
-/

set_option autoImplicit false

namespace SupernoteTaskService

open Foundation

namespace RateLimiter

variable {κ K : Type} [DecidableEq κ]

/-! ## Sizes -/

omit [DecidableEq κ] in
theorem keys_length_le_succ {buckets after : AList fun _ : κ => Window K} {key : κ}
    (covered : ∀ other, other ∈ after → other = key ∨ other ∈ buckets) :
    after.keys.length ≤ buckets.keys.length + 1 := by
  have inside : after.keys ⊆ key :: buckets.keys := by
    intro other member
    rcases covered other (AList.mem_keys.mpr member) with same | held
    · exact same ▸ List.mem_cons_self
    · exact List.mem_cons_of_mem key (AList.mem_keys.mp held)
  exact (after.keys_nodup.subperm inside).length_le

theorem mem_buckets_iff (buckets : AList fun _ : κ => Window K) (key : κ) :
    key ∈ buckets ↔ ∃ window, buckets.lookup key = some window := by
  rw [← AList.lookup_isSome, Option.isSome_iff_exists]

section Eviction
variable [LinearOrder K] (limiter : RateLimiter κ K) (now : K)

theorem evictExpired_cases :
    (limiter.evictExpired now = limiter ∧ limiter.buckets.keys.length < 1024) ∨
      ∀ key window, (limiter.evictExpired now).buckets.lookup key = some window →
        now < window.resetAt := by
  unfold evictExpired
  split
  · rename_i few
    exact Or.inl ⟨rfl, few⟩
  · right
    intro key window kept
    dsimp only at kept
    rw [lookup_foldl_erase] at kept
    by_contra ended
    split at kept
    · cases kept
    · rename_i notEvicted
      refine notEvicted (List.mem_map.mpr ⟨⟨key, window⟩, List.mem_filter.mpr ⟨?_, ?_⟩, rfl⟩)
      · exact AList.mem_lookup_iff.mp kept
      · exact decide_eq_true (not_lt.mp ended)

theorem lookup_of_lookup_evictExpired {key : κ} {window : Window K}
    (kept : (limiter.evictExpired now).buckets.lookup key = some window) :
    limiter.buckets.lookup key = some window := by
  rcases lookup_evictExpired limiter now key with same | ⟨dropped, -⟩
  · exact same ▸ kept
  · rw [dropped] at kept
    cases kept

end Eviction

/-! ## Starts of windows -/

section Starts
variable [CommRing K] [LinearOrder K]

def opensWindow (limiter : RateLimiter κ K) (key : κ) (now : K) : Bool :=
  (limiter.buckets.lookup key).all fun window => window.resetAt ≤ now

theorem windowAt_cases (limiter : RateLimiter κ K) (key : κ) (now : K) :
    (limiter.opensWindow key now = true ∧
        limiter.windowAt key now = ⟨0, now + limiter.window⟩) ∨
      ∃ window, limiter.buckets.lookup key = some window ∧ now < window.resetAt ∧
        limiter.windowAt key now = window := by
  unfold opensWindow
  cases found : limiter.buckets.lookup key with
  | none => exact Or.inl ⟨rfl, windowAt_of_none limiter key now found⟩
  | some window =>
      rw [windowAt_of_some limiter key now found]
      by_cases ended : window.resetAt ≤ now
      · rw [if_pos ended]
        exact Or.inl ⟨decide_eq_true ended, rfl⟩
      · rw [if_neg ended]
        exact Or.inr ⟨window, rfl, not_le.mp ended, rfl⟩

variable [FloorRing K]

def startOf (limiter : RateLimiter κ K) (c : Check κ K) : Option (Check κ K) :=
  if (limiter.evictExpired c.time).opensWindow c.key c.time then some c else none

def windowStarts (limit windowSeconds : ℤ) (run : List (Check κ K)) : List (Check κ K) :=
  outputs (runStep check) startOf (new limit windowSeconds) run

def recentKeys (limit windowSeconds : ℤ) (run : List (Check κ K)) (now : K) : Finset κ :=
  (((windowStarts limit windowSeconds run).filter fun start =>
    now - (max 1 windowSeconds : ℤ) < start.time).map Check.key).toFinset

theorem windowStarts_concat (limit windowSeconds : ℤ) (run : List (Check κ K)) (c : Check κ K) :
    windowStarts limit windowSeconds (run ++ [c]) =
      windowStarts limit windowSeconds run ++
        (startOf (afterRun check limit windowSeconds run) c).toList := by
  rw [windowStarts, outputs_append, ← windowStarts, outputs, outputs, List.append_nil]
  rfl

end Starts

/-! ## The invariant -/

section Invariant
variable [CommRing K] [LinearOrder K]

/-- What holds of every bucket: it has let through at least one request, and no more than
the limit, and one of `starts` has opened it, no later than `now`. -/
structure Accounted (limiter : RateLimiter κ K) (starts : List (Check κ K)) (now : K) : Prop where
  counts : ∀ key window, limiter.buckets.lookup key = some window →
    1 ≤ window.count ∧ window.count ≤ limiter.limit
  opened : ∀ key window, limiter.buckets.lookup key = some window →
    ∃ start ∈ starts, start.key = key ∧ start.time ≤ now ∧
      window.resetAt = start.time + limiter.window

theorem accounted_new (limit windowSeconds : ℤ) (now : K) :
    (new limit windowSeconds : RateLimiter κ K).Accounted [] now := by
  have empty : ∀ key, (new limit windowSeconds : RateLimiter κ K).buckets.lookup key = none :=
    fun key => AList.lookup_empty key
  constructor
  · intro key window found
    rw [empty] at found
    cases found
  · intro key window found
    rw [empty] at found
    cases found

section Steps
variable {limiter : RateLimiter κ K} {starts : List (Check κ K)} {earlier now : K}

theorem Accounted.mono (accounted : limiter.Accounted starts earlier) (noEarlier : earlier ≤ now) :
    limiter.Accounted starts now := by
  refine ⟨accounted.counts, fun key window found => ?_⟩
  obtain ⟨start, member, onKey, past, resets⟩ := accounted.opened key window found
  exact ⟨start, member, onKey, past.trans noEarlier, resets⟩

theorem Accounted.evict (accounted : limiter.Accounted starts now) :
    (limiter.evictExpired now).Accounted starts now := by
  constructor
  · intro key window kept
    rw [evictExpired_limit]
    exact accounted.counts key window (lookup_of_lookup_evictExpired limiter now kept)
  · intro key window kept
    rw [evictExpired_window]
    exact accounted.opened key window (lookup_of_lookup_evictExpired limiter now kept)

variable [FloorRing K]

theorem Accounted.countRequest {c : Check κ K} (accounted : limiter.Accounted starts c.time) :
    (limiter.countRequest c.key c.time).2.Accounted
      (starts ++ (if limiter.opensWindow c.key c.time then some c else none).toList) c.time := by
  have positive := limiter.limitPositive
  constructor
  · intro key window found
    rw [countRequest_limit]
    rw [lookup_countRequest] at found
    split at found
    · rw [← Option.some.inj found]
      rcases windowAt_cases limiter c.key c.time with ⟨-, fresh⟩ | ⟨live, held, -, same⟩
      · rw [fresh]
        dsimp only
        split
        · omega
        · dsimp only
          omega
      · have bounds := accounted.counts c.key live held
        rw [same]
        split
        · exact bounds
        · dsimp only
          omega
    · exact accounted.counts key window found
  · intro key window found
    rw [countRequest_window]
    rw [lookup_countRequest] at found
    split at found
    · rename_i onKey
      have resets : window.resetAt = (limiter.windowAt c.key c.time).resetAt := by
        rw [← Option.some.inj found]
        split <;> rfl
      rw [resets]
      rcases windowAt_cases limiter c.key c.time with ⟨opens, fresh⟩ | ⟨live, held, -, same⟩
      · refine ⟨c, ?_, onKey.symm, le_rfl, by rw [fresh]⟩
        rw [if_pos opens]
        exact List.mem_append_right starts List.mem_cons_self
      · obtain ⟨start, member, sameKey, past, ends⟩ := accounted.opened c.key live held
        exact ⟨start, List.mem_append_left _ member, sameKey.trans onKey.symm, past, same ▸ ends⟩
    · obtain ⟨start, member, sameKey, past, ends⟩ := accounted.opened key window found
      exact ⟨start, List.mem_append_left _ member, sameKey, past, ends⟩

end Steps

variable [FloorRing K]

theorem afterRun_check_concat (limit windowSeconds : ℤ) (run : List (Check κ K)) (c : Check κ K) :
    afterRun check limit windowSeconds (run ++ [c]) =
      ((afterRun check limit windowSeconds run).check c.key c.time).2 :=
  afterRun_concat limit windowSeconds run c

theorem accounted_afterRun (limit windowSeconds : ℤ) (run : List (Check κ K))
    (monotone : Nondecreasing run) :
    ∀ now, (∀ c ∈ run, c.time ≤ now) →
      (afterRun check limit windowSeconds run).Accounted (windowStarts limit windowSeconds run)
        now := by
  induction run using List.reverseRecOn with
  | nil => exact fun now _ => accounted_new limit windowSeconds now
  | append_singleton run c ih =>
      intro now past
      obtain ⟨earlier, -, beforeLast⟩ := List.pairwise_append.mp monotone
      have before := ih earlier c.time fun c' member => beforeLast c' member c List.mem_cons_self
      have noEarlier := past c (List.mem_append_right run List.mem_cons_self)
      rw [windowStarts_concat, afterRun_check_concat]
      exact before.evict.countRequest.mono noEarlier

end Invariant

/-! ## The size -/

section Size
variable [CommRing K] [LinearOrder K] [FloorRing K] [IsStrictOrderedRing K]
  (limiter : RateLimiter κ K) (key : κ) (now : K)

theorem now_lt_windowAt : now < (limiter.windowAt key now).resetAt := by
  rcases windowAt_cases limiter key now with ⟨-, fresh⟩ | ⟨window, -, live, same⟩
  · rw [fresh]
    exact lt_add_of_pos_right now (Int.cast_pos.mpr limiter.windowPositive)
  · rw [same]
    exact live

theorem check_few_or_live :
    (limiter.check key now).2.buckets.keys.length ≤ 1024 ∨
      ∀ other window, (limiter.check key now).2.buckets.lookup other = some window →
        now < window.resetAt := by
  unfold check
  rcases evictExpired_cases limiter now with ⟨same, few⟩ | live
  · left
    rw [same]
    have oneMore : (limiter.countRequest key now).2.buckets.keys.length ≤
        limiter.buckets.keys.length + 1 := by
      refine keys_length_le_succ (fun other member => ?_ : ∀ other, _ → other = key ∨ _)
      obtain ⟨window, found⟩ := (mem_buckets_iff _ other).mp member
      rw [lookup_countRequest] at found
      by_cases onKey : other = key
      · exact Or.inl onKey
      · rw [if_neg onKey] at found
        exact Or.inr ((mem_buckets_iff _ other).mpr ⟨window, found⟩)
    omega
  · right
    intro other window found
    rw [lookup_countRequest] at found
    split at found
    · have lasts := now_lt_windowAt (limiter.evictExpired now) key now
      rw [← Option.some.inj found]
      split
      · exact lasts
      · exact lasts
    · exact live other window found

omit [IsStrictOrderedRing K] in
theorem check_result :
    ∃ window, (limiter.check key now).2.buckets.lookup key = some window ∧
      ((limiter.check key now).1.allowed = true →
        (limiter.check key now).1.remaining = limiter.limit - window.count) ∧
      0 ≤ (limiter.check key now).1.remaining ∧
      ((limiter.check key now).1.allowed = false → 1 ≤ (limiter.check key now).1.retryAfter) := by
  unfold check
  rw [lookup_countRequest, if_pos rfl, countRequest_result, evictExpired_limit]
  refine ⟨_, rfl, ?_⟩
  generalize (limiter.evictExpired now).windowAt key now = window
  unfold answer
  dsimp only
  by_cases full : window.count ≥ limiter.limit
  · rw [if_pos full]
    exact ⟨fun allowed => absurd allowed Bool.false_ne_true, le_rfl, fun _ => le_max_left 1 _⟩
  · rw [if_neg full, if_neg full]
    dsimp only
    exact ⟨fun _ => rfl, by omega, fun denied => absurd denied.symm Bool.false_ne_true⟩

end Size

section Bound
variable [CommRing K] [LinearOrder K] [FloorRing K] [IsStrictOrderedRing K]

theorem live_buckets_le_recent {limit windowSeconds : ℤ} {run : List (Check κ K)} {now : K}
    {buckets : AList fun _ : κ => Window K}
    (opened : ∀ key window, buckets.lookup key = some window →
      ∃ start ∈ windowStarts limit windowSeconds run, start.key = key ∧
        start.time ≤ now ∧ window.resetAt = start.time + (max 1 windowSeconds : ℤ))
    (live : ∀ key window, buckets.lookup key = some window → now < window.resetAt) :
    buckets.keys.length ≤ (recentKeys limit windowSeconds run now).card := by
  rw [← List.toFinset_card_of_nodup (AList.keys_nodup _)]
  refine Finset.card_le_card (fun key member => ?_)
  obtain ⟨window, found⟩ :=
    (mem_buckets_iff _ key).mp (AList.mem_keys.mpr (List.mem_toFinset.mp member))
  obtain ⟨start, started, onKey, -, resets⟩ := opened key window found
  have lasts := live key window found
  rw [resets] at lasts
  rw [recentKeys, List.mem_toFinset]
  exact List.mem_map.mpr ⟨start, List.mem_filter.mpr
    ⟨started, decide_eq_true (sub_lt_iff_lt_add.mpr lasts)⟩, onKey⟩

/-- After every check of every run the buckets keep their bounds, the answer fits the bucket
of its key, and there are at most 1024 buckets or all of them are alive, so that no more
keys are held than 1024 or those that opened a window within its length. -/
theorem buckets_bounded (limit windowSeconds : ℤ) {run : List (Check κ K)} {c : Check κ K}
    (monotone : Nondecreasing (run ++ [c])) :
    (∀ key window,
      (afterRun check limit windowSeconds (run ++ [c])).buckets.lookup key = some window →
        1 ≤ window.count ∧ window.count ≤ max 1 limit ∧
          window.resetAt ≤ c.time + (max 1 windowSeconds : ℤ)) ∧
    (∃ window,
      (afterRun check limit windowSeconds (run ++ [c])).buckets.lookup c.key = some window ∧
        (((afterRun check limit windowSeconds run).check c.key c.time).1.allowed = true →
          ((afterRun check limit windowSeconds run).check c.key c.time).1.remaining =
            max 1 limit - window.count) ∧
        0 ≤ ((afterRun check limit windowSeconds run).check c.key c.time).1.remaining ∧
        (((afterRun check limit windowSeconds run).check c.key c.time).1.allowed = false →
          1 ≤ ((afterRun check limit windowSeconds run).check c.key c.time).1.retryAfter)) ∧
    ((afterRun check limit windowSeconds (run ++ [c])).buckets.keys.length ≤ 1024 ∨
      ∀ key window,
        (afterRun check limit windowSeconds (run ++ [c])).buckets.lookup key = some window →
          c.time < window.resetAt) ∧
    (afterRun check limit windowSeconds (run ++ [c])).buckets.keys.length ≤
      max 1024 (recentKeys limit windowSeconds (run ++ [c]) c.time).card := by
  have past : ∀ c' ∈ run ++ [c], c'.time ≤ c.time := by
    intro c' member
    rcases List.mem_append.mp member with before | last
    · exact (List.pairwise_append.mp monotone).2.2 c' before c List.mem_cons_self
    · rw [List.mem_singleton.mp last]
  have accounted := accounted_afterRun limit windowSeconds (run ++ [c]) monotone c.time past
  obtain ⟨sameLimit, sameWindow⟩ :=
    afterRun_limits evictExpired_dropsExpired limit windowSeconds (run ++ [c])
  have limitBefore := (afterRun_limits evictExpired_dropsExpired limit windowSeconds run).1
  have stepped := afterRun_check_concat limit windowSeconds run c
  have fewOrLive : (afterRun check limit windowSeconds (run ++ [c])).buckets.keys.length ≤ 1024 ∨
      ∀ key window,
        (afterRun check limit windowSeconds (run ++ [c])).buckets.lookup key = some window →
          c.time < window.resetAt := by
    rw [stepped]
    exact check_few_or_live (afterRun check limit windowSeconds run) c.key c.time
  have result := check_result (afterRun check limit windowSeconds run) c.key c.time
  have opened : ∀ key window,
      (afterRun check limit windowSeconds (run ++ [c])).buckets.lookup key = some window →
        ∃ start ∈ windowStarts limit windowSeconds (run ++ [c]), start.key = key ∧
          start.time ≤ c.time ∧ window.resetAt = start.time + (max 1 windowSeconds : ℤ) := by
    intro key window found
    obtain ⟨start, member, onKey, started, resets⟩ := accounted.opened key window found
    exact ⟨start, member, onKey, started, resets.trans (congrArg (fun w : ℤ => start.time + w) sameWindow)⟩
  refine ⟨fun key window found => ?_, ?_, fewOrLive, ?_⟩
  · obtain ⟨atLeast, atMost⟩ := accounted.counts key window found
    obtain ⟨start, -, -, started, resets⟩ := opened key window found
    exact ⟨atLeast, atMost.trans_eq sameLimit, resets.trans_le (add_le_add_left started _)⟩
  · obtain ⟨window, found, remaining, nonneg, retry⟩ := result
    rw [← stepped] at found
    exact ⟨window, found, fun allowed => (remaining allowed).trans
      (congrArg (fun l : ℤ => l - window.count) limitBefore), nonneg, retry⟩
  · rcases fewOrLive with few | live
    · exact few.trans (le_max_left 1024 _)
    · exact (live_buckets_le_recent opened live).trans (le_max_right 1024 _)

theorem busyRun_buckets_bounded :
    (∀ key window,
      (afterRun check 2 60 (busyRun ++ [⟨"ip:10.0.0.1", 2⟩])).buckets.lookup key = some window →
        1 ≤ window.count ∧ window.count ≤ max 1 2 ∧
          window.resetAt ≤ 2 + ((max 1 60 : ℤ) : ℚ)) ∧
    (afterRun check 2 60 (busyRun ++ [⟨"ip:10.0.0.1", 2⟩])).buckets.keys.length ≤
      max 1024 (recentKeys 2 60 (busyRun ++ [⟨"ip:10.0.0.1", 2⟩]) 2).card :=
  have monotone : Nondecreasing (busyRun ++ [⟨"ip:10.0.0.1", 2⟩]) := by
    unfold Nondecreasing
    decide
  ⟨(buckets_bounded 2 60 monotone).1, (buckets_bounded 2 60 monotone).2.2.2⟩

end Bound

end RateLimiter

end SupernoteTaskService
