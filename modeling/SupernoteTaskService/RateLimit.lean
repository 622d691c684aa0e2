import SupernoteTaskService.Foundation.FixedWindow

/-!
# In-memory fixed-window rate limiting

One bucket for each key, with the number of requests its window has let through and
the time at which the window ends.  Expired buckets are dropped on access, and only
once there are many.  The clock is exact here: times are the elements of an ordered ring
with a floor, and the length of a window is a whole number of seconds.
-/

set_option autoImplicit false

namespace SupernoteTaskService

open Foundation

structure Window (K : Type) where
  count : ℤ
  resetAt : K
  deriving DecidableEq

structure RateLimitResult where
  allowed : Bool
  remaining : ℤ
  retryAfter : ℤ
  deriving DecidableEq

structure RateLimiter (κ K : Type) where
  limit : ℤ
  window : ℤ
  buckets : AList fun _ : κ => Window K
  limitPositive : 1 ≤ limit
  windowPositive : 1 ≤ window

namespace RateLimiter

section Buckets
variable {κ K : Type} [DecidableEq κ]

def new (limit windowSeconds : ℤ) : RateLimiter κ K where
  limit := max 1 limit
  window := max 1 windowSeconds
  buckets := ∅
  limitPositive := le_max_left 1 limit
  windowPositive := le_max_left 1 windowSeconds

def store (limiter : RateLimiter κ K) (key : κ) (window : Window K) : RateLimiter κ K :=
  { limiter with buckets := limiter.buckets.insert key window }

theorem lookup_store (limiter : RateLimiter κ K) (key other : κ) (window : Window K) :
    (limiter.store key window).buckets.lookup other =
      if other = key then some window else limiter.buckets.lookup other := by
  unfold store
  split
  · rename_i same
    rw [same, AList.lookup_insert]
  · rename_i different
    exact AList.lookup_insert_ne different

theorem lookup_foldl_erase (expired : List κ) (other : κ) :
    ∀ buckets : AList fun _ : κ => Window K,
      (expired.foldl (fun buckets key => buckets.erase key) buckets).lookup other =
        if other ∈ expired then none else buckets.lookup other := by
  induction expired with
  | nil => exact fun buckets => rfl
  | cons key expired ih =>
      intro buckets
      rw [List.foldl_cons, ih]
      by_cases later : other ∈ expired
      · rw [if_pos later, if_pos (List.mem_cons_of_mem key later)]
      · rw [if_neg later]
        by_cases here : other = key
        · rw [if_pos (here ▸ List.mem_cons_self), here, AList.lookup_erase]
        · rw [if_neg (by simp [here, later]), AList.lookup_erase_ne here]

end Buckets

section Eviction
variable {κ K : Type} [DecidableEq κ] [LinearOrder K]

/-- `_evict_expired` -/
def evictExpired (limiter : RateLimiter κ K) (now : K) : RateLimiter κ K :=
  if limiter.buckets.keys.length < 1024 then limiter
  else
    let expired := (limiter.buckets.entries.filter fun entry => entry.2.resetAt ≤ now).map Sigma.fst
    { limiter with buckets := expired.foldl (fun buckets key => buckets.erase key) limiter.buckets }

variable (limiter : RateLimiter κ K) (now : K)

theorem evictExpired_limit : (limiter.evictExpired now).limit = limiter.limit := by
  unfold evictExpired
  split <;> rfl

theorem evictExpired_window : (limiter.evictExpired now).window = limiter.window := by
  unfold evictExpired
  split <;> rfl

theorem lookup_evictExpired (other : κ) :
    (limiter.evictExpired now).buckets.lookup other = limiter.buckets.lookup other ∨
      (limiter.evictExpired now).buckets.lookup other = none ∧
        ∃ window, limiter.buckets.lookup other = some window ∧ window.resetAt ≤ now := by
  unfold evictExpired
  split
  · exact Or.inl rfl
  · dsimp only
    rw [lookup_foldl_erase]
    split
    · rename_i evicted
      obtain ⟨⟨key, window⟩, member, rfl⟩ := List.mem_map.mp evicted
      obtain ⟨stored, expired⟩ := List.mem_filter.mp member
      exact Or.inr ⟨rfl, window, AList.mem_lookup_iff.mpr stored, of_decide_eq_true expired⟩
    · exact Or.inl rfl

end Eviction

section Check
variable {κ K : Type} [DecidableEq κ] [CommRing K] [LinearOrder K]

def openWindow (limiter : RateLimiter κ K) (key : κ) (now : K) : Window K × RateLimiter κ K :=
  let fresh : Window K := ⟨0, now + limiter.window⟩
  match limiter.buckets.lookup key with
  | none => (fresh, limiter.store key fresh)
  | some window =>
      if window.resetAt ≤ now then (fresh, limiter.store key fresh) else (window, limiter)

def windowAt (limiter : RateLimiter κ K) (key : κ) (now : K) : Window K :=
  (limiter.openWindow key now).1

section OpenWindow
variable (limiter : RateLimiter κ K) (key : κ) (now : K)

theorem openWindow_limit : (limiter.openWindow key now).2.limit = limiter.limit := by
  unfold openWindow
  dsimp only
  split
  · rfl
  · split <;> rfl

theorem openWindow_window : (limiter.openWindow key now).2.window = limiter.window := by
  unfold openWindow
  dsimp only
  split
  · rfl
  · split <;> rfl

theorem lookup_openWindow (other : κ) :
    (limiter.openWindow key now).2.buckets.lookup other =
      if other = key then some (limiter.windowAt key now) else limiter.buckets.lookup other := by
  unfold windowAt openWindow
  dsimp only
  split
  · exact lookup_store limiter key other _
  · rename_i window found
    split
    · exact lookup_store limiter key other _
    · by_cases same : other = key
      · rw [if_pos same, same, found]
      · rw [if_neg same]

theorem windowAt_of_none (absent : limiter.buckets.lookup key = none) :
    limiter.windowAt key now = ⟨0, now + limiter.window⟩ := by
  unfold windowAt openWindow
  rw [absent]

theorem windowAt_of_some {window : Window K} (found : limiter.buckets.lookup key = some window) :
    limiter.windowAt key now =
      if window.resetAt ≤ now then ⟨0, now + limiter.window⟩ else window := by
  unfold windowAt openWindow
  rw [found]
  dsimp only
  split <;> rfl

end OpenWindow

variable [FloorRing K]

/-- `round(x)`: to the nearest integer, ties to the even one. -/
def pyRound (x : K) : ℤ :=
  if 2 * Int.fract x < 1 then ⌊x⌋
  else if 1 < 2 * Int.fract x then ⌊x⌋ + 1
  else if Even ⌊x⌋ then ⌊x⌋ else ⌊x⌋ + 1

def answer (limit : ℤ) (window : Window K) (now : K) : RateLimitResult :=
  let resetIn := max 0 (pyRound (window.resetAt - now))
  if window.count ≥ limit then ⟨false, 0, max 1 resetIn⟩
  else ⟨true, limit - (window.count + 1), 0⟩

/-- The body of `check` once the eviction has run. -/
def countRequest (limiter : RateLimiter κ K) (key : κ) (now : K) :
    RateLimitResult × RateLimiter κ K :=
  let (window, limiter) := limiter.openWindow key now
  let result := answer limiter.limit window now
  if window.count ≥ limiter.limit then (result, limiter)
  else (result, limiter.store key { window with count := window.count + 1 })

def check (limiter : RateLimiter κ K) (key : κ) (now : K) : RateLimitResult × RateLimiter κ K :=
  (limiter.evictExpired now).countRequest key now

variable (limiter : RateLimiter κ K) (key : κ) (now : K)

theorem countRequest_limit : (limiter.countRequest key now).2.limit = limiter.limit := by
  rw [← openWindow_limit limiter key now]
  unfold countRequest
  dsimp only
  split <;> rfl

theorem countRequest_window : (limiter.countRequest key now).2.window = limiter.window := by
  rw [← openWindow_window limiter key now]
  unfold countRequest
  dsimp only
  split <;> rfl

theorem countRequest_result :
    (limiter.countRequest key now).1 = answer limiter.limit (limiter.windowAt key now) now := by
  unfold countRequest
  dsimp only
  rw [openWindow_limit, ← windowAt]
  split <;> rfl

theorem lookup_countRequest (other : κ) :
    (limiter.countRequest key now).2.buckets.lookup other =
      if other = key then
        some (if (limiter.windowAt key now).count ≥ limiter.limit then limiter.windowAt key now
          else { limiter.windowAt key now with count := (limiter.windowAt key now).count + 1 })
      else limiter.buckets.lookup other := by
  unfold countRequest
  dsimp only
  rw [openWindow_limit, ← windowAt]
  split
  · rw [lookup_openWindow]
  · rw [lookup_store, lookup_openWindow]
    by_cases same : other = key
    · rw [if_pos same, if_pos same]
    · rw [if_neg same, if_neg same, if_neg same]

theorem answer_allowed_iff (limit : ℤ) (window : Window K) :
    (answer limit window now).allowed = true ↔ window.count < limit := by
  unfold answer
  dsimp only
  by_cases full : window.count ≥ limit
  · rw [if_pos full]
    exact iff_of_false Bool.false_ne_true (not_lt.mpr full)
  · rw [if_neg full]
    exact iff_of_true rfl (not_le.mp full)

end Check

end RateLimiter

end SupernoteTaskService
