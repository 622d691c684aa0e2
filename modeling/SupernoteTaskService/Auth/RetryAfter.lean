import SupernoteTaskService.Auth.Throttling

/-!
# The advice of a denied check

A denied check is told after how many seconds to come back: the rest of its window,
rounded to a whole number of seconds and at least one.  The window stays as it is until
the key is checked again, so the advice is good when the rounding does not cut off a part
of that rest.
-/

set_option autoImplicit false

namespace SupernoteTaskService

open Foundation

namespace RateLimiter

section Rounding
variable {K : Type} [CommRing K] [LinearOrder K] [FloorRing K]

/-- The rest of a window that its rounding covers: at most a second, a whole number of
seconds, or one whose fraction rounds up. -/
def RoundsUp (rest : K) : Prop :=
  rest ≤ 1 ∨ Int.fract rest = 0 ∨ 1 < Int.fract rest + Int.fract rest ∨
    Int.fract rest + Int.fract rest = 1 ∧ ¬ Even ⌊rest⌋

instance (rest : K) : Decidable (RoundsUp rest) :=
  inferInstanceAs (Decidable (_ ∨ _ ∨ _ ∨ _))

variable [IsStrictOrderedRing K]

theorem le_floor_iff (x : K) : x ≤ ⌊x⌋ ↔ Int.fract x = 0 := by
  have parts := Int.floor_add_fract x
  have nonneg := Int.fract_nonneg x
  constructor
  · intro whole
    linarith
  · intro noFraction
    linarith

theorem le_pyRound_iff (x : K) :
    x ≤ pyRound x ↔
      Int.fract x = 0 ∨ 1 < 2 * Int.fract x ∨ 2 * Int.fract x = 1 ∧ ¬ Even ⌊x⌋ := by
  have up : x ≤ ((⌊x⌋ + 1 : ℤ) : K) := by
    rw [Int.cast_add, Int.cast_one]
    exact (Int.lt_floor_add_one x).le
  unfold pyRound
  by_cases low : 2 * Int.fract x < 1
  · rw [if_pos low, le_floor_iff]
    constructor
    · exact Or.inl
    · rintro (noFraction | high | ⟨half, -⟩)
      · exact noFraction
      · exact absurd high (not_lt.mpr low.le)
      · exact absurd half low.ne
  · rw [if_neg low]
    by_cases high : 1 < 2 * Int.fract x
    · rw [if_pos high]
      exact iff_of_true up (Or.inr (Or.inl high))
    · have half : 2 * Int.fract x = 1 := le_antisymm (not_lt.mp high) (not_lt.mp low)
      have fraction : Int.fract x ≠ 0 := by
        intro noFraction
        rw [noFraction, mul_zero] at half
        exact zero_ne_one half
      rw [if_neg high]
      by_cases even : Even ⌊x⌋
      · rw [if_pos even, le_floor_iff]
        refine iff_of_false fraction ?_
        rintro (noFraction | above | ⟨-, odd⟩)
        · exact fraction noFraction
        · exact high above
        · exact odd even
      · rw [if_neg even]
        exact iff_of_true up (Or.inr (Or.inr ⟨half, even⟩))

theorem le_advice_iff (rest : K) :
    rest ≤ ((max 1 (max 0 (pyRound rest)) : ℤ) : K) ↔ RoundsUp rest := by
  rw [RoundsUp, ← two_mul, ← le_pyRound_iff, Int.cast_max, Int.cast_max, Int.cast_one,
    Int.cast_zero, le_max_iff, le_max_iff]
  constructor
  · rintro (second | past | rounded)
    · exact Or.inl second
    · exact Or.inl (past.trans zero_le_one)
    · exact Or.inr rounded
  · exact Or.imp_right Or.inr

example : ¬ RoundsUp (57 / 5 : ℚ) := by decide +kernel

end Rounding

variable {κ K : Type} [DecidableEq κ] [CommRing K] [LinearOrder K] [FloorRing K]

section Spans
variable (limit windowSeconds : ℤ)

theorem retryAfter_eq {before : List (Check κ K)} {c : Check κ K} {span : Span K}
    (monotone : Nondecreasing (before ++ [c]))
    (falls : Span.current ((max 1 windowSeconds : ℤ) : K) (Span.after (max 1 limit)
      ((max 1 windowSeconds : ℤ) : K) (timesOf c.key before)) c.time = span)
    (full : ¬ span.count < max 1 limit) :
    ((afterRun check limit windowSeconds before).check c.key c.time).1.retryAfter =
      max 1 (max 0 (pyRound (span.opened + (max 1 windowSeconds : ℤ) - c.time))) := by
  have decides := afterRun_windowAt evictExpired_dropsExpired limit windowSeconds monotone
  have sameLimit := (afterRun_limits evictExpired_dropsExpired limit windowSeconds before).1
  have noRoom : (windowOf (max 1 windowSeconds) span).count ≥ max 1 limit := not_lt.mp full
  have result : ((afterRun check limit windowSeconds before).check c.key c.time).1 =
      answer (max 1 limit) (windowOf (max 1 windowSeconds) span) c.time := by
    rw [check, countRequest_result, evictExpired_limit]
    exact congrArg₂ (fun limit window => answer limit window c.time) sameLimit
      (decides.trans (congrArg _ falls))
  rw [result, answer, if_pos noRoom]
  rfl

end Spans

omit [CommRing K] [LinearOrder K] [FloorRing K] in
theorem timesOf_append_others {key : κ} {others : List (Check κ K)}
    (silent : ∀ c ∈ others, c.key ≠ key) (run : List (Check κ K)) :
    timesOf key (run ++ others) = timesOf key run := by
  have none_ : (others.filter fun c => c.key = key) = [] :=
    List.filter_eq_nil_iff.mpr fun c member => by simpa using silent c member
  rw [timesOf, List.filter_append, none_, List.append_nil, ← timesOf]

theorem again_allowed_iff (limit windowSeconds : ℤ) {before between : List (Check κ K)}
    {c again : Check κ K} {span : Span K}
    (falls : Span.current ((max 1 windowSeconds : ℤ) : K) (Span.after (max 1 limit)
      ((max 1 windowSeconds : ℤ) : K) (timesOf c.key before)) c.time = span)
    (full : ¬ span.count < max 1 limit)
    (monotone : Nondecreasing (before ++ [c] ++ between ++ [again]))
    (silent : ∀ other ∈ between, other.key ≠ c.key) (sameKey : again.key = c.key) :
    ((afterRun check limit windowSeconds (before ++ [c] ++ between)).check
        again.key again.time).1.allowed = true ↔
      span.opened + (max 1 windowSeconds : ℤ) ≤ again.time := by
  have unchanged : span.counted (max 1 limit) = span := by
    rw [Span.counted, if_neg full]
  rw [check_allowed_iff limit windowSeconds monotone, sameKey, timesOf_append_others silent,
    timesOf_concat, if_pos rfl, Span.after_concat, Span.tick, falls, unchanged, Span.current]
  by_cases ended : span.opened + (max 1 windowSeconds : ℤ) ≤ again.time
  · rw [if_pos ended]
    exact iff_of_true (lt_of_lt_of_le Int.one_pos (le_max_left 1 limit)) ended
  · rw [if_neg ended]
    exact iff_of_false full ended

section Advice
variable (limit windowSeconds : ℤ)

/-- From the advised time on, a check of the key is allowed, if it is the key's first since. -/
def AdviceHolds (before : List (Check κ K)) (c : Check κ K) : Prop :=
  ∀ (between : List (Check κ K)) (again : Check κ K),
    Nondecreasing (before ++ [c] ++ between ++ [again]) →
    (∀ other ∈ between, other.key ≠ c.key) → again.key = c.key →
    c.time + ((afterRun check limit windowSeconds before).check c.key c.time).1.retryAfter ≤
      again.time →
    ((afterRun check limit windowSeconds (before ++ [c] ++ between)).check
      again.key again.time).1.allowed = true

variable [IsStrictOrderedRing K]

/-- The advice of a denied check is good exactly when the rest of the key's window does not
lose a part in the rounding. -/
theorem adviceHolds_iff {before : List (Check κ K)} {c : Check κ K}
    (monotone : Nondecreasing (before ++ [c]))
    (denied : ((afterRun check limit windowSeconds before).check c.key c.time).1.allowed = false) :
    AdviceHolds limit windowSeconds before c ↔
      ∃ window, (afterRun check limit windowSeconds before).buckets.lookup c.key = some window ∧
        RoundsUp (window.resetAt - c.time) := by
  obtain ⟨span, held, falls, -, full⟩ := denied_span limit windowSeconds monotone denied
  have advice := retryAfter_eq limit windowSeconds monotone falls full
  have covered := le_advice_iff (span.opened + (max 1 windowSeconds : ℤ) - c.time)
  rw [← advice, sub_le_iff_le_add'] at covered
  have onState : (∃ window,
      (afterRun check limit windowSeconds before).buckets.lookup c.key = some window ∧
        RoundsUp (window.resetAt - c.time)) ↔
      RoundsUp (span.opened + (max 1 windowSeconds : ℤ) - c.time) := by
    rw [held]
    constructor
    · rintro ⟨window, found, roundsUp⟩
      rw [← Option.some.inj found] at roundsUp
      exact roundsUp
    · exact fun roundsUp => ⟨_, rfl, roundsUp⟩
  rw [onState, ← covered]
  constructor
  · intro holds
    -- the earliest check that follows the advice, with nothing in between
    have later : c.time ≤ c.time +
        ((afterRun check limit windowSeconds before).check c.key c.time).1.retryAfter := by
      rw [advice]
      exact le_add_of_nonneg_right
        (Int.cast_nonneg (le_trans Int.one_nonneg (le_max_left 1 _)))
    have stillMonotone : Nondecreasing (before ++ [c] ++ [] ++ [⟨c.key, c.time +
        ((afterRun check limit windowSeconds before).check c.key c.time).1.retryAfter⟩]) := by
      rw [List.append_nil]
      refine List.pairwise_append.mpr ⟨monotone, List.pairwise_singleton _ _, ?_⟩
      rintro earlier member again isAgain
      rw [List.mem_singleton.mp isAgain]
      rcases List.mem_append.mp member with inBefore | isLast
      · have past := (List.pairwise_append.mp monotone).2.2 earlier inBefore c List.mem_cons_self
        exact past.trans later
      · rw [List.mem_singleton.mp isLast]
        exact later
    have silent : ∀ other ∈ ([] : List (Check κ K)), other.key ≠ c.key :=
      fun other member => absurd member List.not_mem_nil
    exact (again_allowed_iff limit windowSeconds falls full stillMonotone silent rfl).mp
      (holds [] _ stillMonotone silent rfl le_rfl)
  · intro covers between again stillMonotone silent sameKey advised
    exact (again_allowed_iff limit windowSeconds falls full stillMonotone silent sameKey).mpr
      (covers.trans advised)

/-- One request a minute: the second check comes after 59 seconds. -/
theorem adviceHolds_after_a_minute :
    AdviceHolds 1 60 [⟨"ip:10.0.0.1", 0⟩] (⟨"ip:10.0.0.1", 59⟩ : Check String ℚ) ↔
      ∃ window, (afterRun check 1 60 [⟨"ip:10.0.0.1", (0 : ℚ)⟩]).buckets.lookup "ip:10.0.0.1" =
          some window ∧ RoundsUp (window.resetAt - 59) :=
  adviceHolds_iff 1 60 (by unfold Nondecreasing; decide) (by decide +kernel)

/-- With 11.4 seconds left the advice is 11, and the check after these is denied again. -/
theorem advice_too_short :
    ¬ ∀ (before : List (Check String ℚ)) (c : Check String ℚ), Nondecreasing (before ++ [c]) →
      ((afterRun check 1 60 before).check c.key c.time).1.allowed = false →
        AdviceHolds 1 60 before c := by
  intro always
  have holds := always [⟨"ip:10.0.0.1", 0⟩] ⟨"ip:10.0.0.1", 243 / 5⟩
    (by unfold Nondecreasing; decide +kernel) (by decide +kernel)
  have allowed := holds [] ⟨"ip:10.0.0.1", 298 / 5⟩ (by unfold Nondecreasing; decide +kernel)
    (fun other member => absurd member List.not_mem_nil) rfl (by decide +kernel)
  exact absurd allowed (by decide +kernel)

end Advice

end RateLimiter

end SupernoteTaskService
