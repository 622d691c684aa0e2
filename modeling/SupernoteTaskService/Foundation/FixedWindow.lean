import SupernoteTaskService.Foundation.Runs

/-!
# A fixed-window counter

Requests arrive at points of a linearly ordered time.  The first one opens a span of
a fixed width, a span admits at most `limit` requests, and the first request at or
past its end opens the next one.  Spans therefore start at times that depend on the
requests.

`Accounts` says what a span knows of the requests admitted so far: how many fell into
it, and that those of one width before it were not too many.  Both bounds on the
admitted requests follow from it.
-/

set_option autoImplicit false

namespace SupernoteTaskService.Foundation

structure Span (K : Type) where
  opened : K
  count : ℤ
  deriving DecidableEq

namespace Span

theorem countP_le_countP_add {α : Type} (items : List α) (p q r : α → Bool)
    (covered : ∀ a ∈ items, p a = true → q a = true ∨ r a = true) :
    items.countP p ≤ items.countP q + items.countP r := by
  induction items with
  | nil => exact Nat.le_refl 0
  | cons a items ih =>
      have rest := ih fun b member => covered b (List.mem_cons_of_mem a member)
      have first := covered a List.mem_cons_self
      simp only [List.countP_cons]
      by_cases counted : p a = true
      · rcases first counted with inQ | inR
        · rw [if_pos counted, if_pos inQ]
          omega
        · rw [if_pos counted, if_pos inR]
          omega
      · rw [if_neg counted]
        omega

variable {K : Type}

def counted (limit : ℤ) (span : Span K) : Span K :=
  if span.count < limit then ⟨span.opened, span.count + 1⟩ else span

theorem counted_opened (limit : ℤ) (span : Span K) :
    (span.counted limit).opened = span.opened := by
  unfold counted
  split <;> rfl

theorem pairwise_concat_iff [LinearOrder K] {times : List K} {now : K} :
    (times ++ [now]).Pairwise (· ≤ ·) ↔ times.Pairwise (· ≤ ·) ∧ ∀ t ∈ times, t ≤ now := by
  simp [List.pairwise_append]

variable [CommRing K] [LinearOrder K] (limit : ℤ) (width : K)

def current (span : Option (Span K)) (now : K) : Span K :=
  match span with
  | none => ⟨now, 0⟩
  | some span => if span.opened + width ≤ now then ⟨now, 0⟩ else span

def tick (span : Option (Span K)) (now : K) : Option (Span K) :=
  some ((current width span now).counted limit)

def admission (span : Option (Span K)) (now : K) : Option K :=
  if (current width span now).count < limit then some now else none

def after (times : List K) : Option (Span K) := times.foldl (tick limit width) none

def admitted (times : List K) : List K :=
  outputs (tick limit width) (admission limit width) none times

theorem after_concat (times : List K) (now : K) :
    after limit width (times ++ [now]) = tick limit width (after limit width times) now := by
  rw [after, List.foldl_append, List.foldl_cons, List.foldl_nil, ← after]

theorem admitted_concat (times : List K) (now : K) :
    admitted limit width (times ++ [now]) = admitted limit width times ++
      (if (current width (after limit width times) now).count < limit
        then some now else none).toList := by
  rw [admitted, outputs_append, ← admitted, ← after, outputs, outputs, List.append_nil, admission]

theorem mem_of_mem_admitted {times : List K} {t : K} (member : t ∈ admitted limit width times) :
    t ∈ times := by
  obtain ⟨span, now, rest, occurs, emitted⟩ := happens_of_mem_outputs times none member
  have arrived := occurs.mem
  unfold admission at emitted
  split at emitted
  · rwa [← Option.some.inj emitted]
  · cases emitted

/-! ## What a span knows -/

/-- The span's count is that of the admitted requests since it was opened, and one width
before it there were no more than a span admits. -/
structure Accounts (history : List K) (span : Span K) : Prop where
  count_eq : span.count = history.countP fun t => decide (span.opened ≤ t)
  count_le : span.count ≤ limit
  before_le : (history.countP fun t =>
    decide (span.opened - width ≤ t) && decide (t < span.opened) : ℤ) ≤ limit

structure Tracks (history : List K) (span : Option (Span K)) : Prop where
  fresh : span = none → history = []
  accounts : ∀ s, span = some s → Accounts limit width history s
  before_end : ∀ s, span = some s → ∀ t ∈ history, t < s.opened + width

section Ordered
variable {limit} {width} [IsStrictOrderedRing K] {history : List K} {span : Option (Span K)} {now : K}

theorem now_lt_current_end (positive : 0 < width) (span : Option (Span K)) (now : K) :
    now < (current width span now).opened + width := by
  unfold current
  split
  · exact lt_add_of_pos_right now positive
  · split
    · exact lt_add_of_pos_right now positive
    · rename_i live
      exact not_le.mp live

/-- Opening a span keeps the account: the requests before it are those of the span that
ended, or of none. -/
theorem Tracks.current (tracks : Tracks limit width history span) (nonneg : 0 ≤ limit) (now : K) :
    Accounts limit width history (current width span now) := by
  unfold Span.current
  split
  · rw [tracks.fresh rfl]
    exact ⟨rfl, nonneg, nonneg⟩
  · rename_i s
    have account := tracks.accounts s rfl
    have early := tracks.before_end s rfl
    split
    · rename_i ended
      have none_ : (history.countP fun t => decide (now ≤ t)) = 0 := by
        rw [List.countP_eq_zero]
        intro t member late
        exact absurd (of_decide_eq_true late) (not_le.mpr ((early t member).trans_le ended))
      have fewer : (history.countP fun t => decide (now - width ≤ t) && decide (t < now)) ≤
          history.countP fun t => decide (s.opened ≤ t) := by
        refine List.countP_mono_left fun t _ inside => ?_
        simp only [Bool.and_eq_true, decide_eq_true_eq] at inside ⊢
        linarith [inside.1]
      refine ⟨?_, nonneg, ?_⟩
      · rw [none_]
        rfl
      · have total := account.count_eq
        have most := account.count_le
        dsimp only
        omega
    · exact account

omit [IsStrictOrderedRing K] in
theorem Accounts.counted {s : Span K} (account : Accounts limit width history s)
    (started : s.opened ≤ now) :
    Accounts limit width
      (history ++ (if s.count < limit then some now else none).toList) (s.counted limit) := by
  unfold Span.counted
  by_cases room : s.count < limit
  · have total := account.count_eq
    rw [if_pos room, if_pos room, Option.toList_some]
    refine ⟨?_, by dsimp only; omega, ?_⟩
    · rw [List.countP_append, List.countP_singleton, if_pos (decide_eq_true started)]
      dsimp only
      omega
    · have late : (decide (s.opened - width ≤ now) && decide (now < s.opened)) = false := by
        rw [decide_eq_false (not_lt.mpr started), Bool.and_false]
      rw [List.countP_append, List.countP_singleton, late]
      exact account.before_le
  · rw [if_neg room, if_neg room, Option.toList_none, List.append_nil]
    exact account

omit [IsStrictOrderedRing K] in
theorem current_cases (s : Option (Span K)) (now : K) :
    Span.current width s now = ⟨now, 0⟩ ∨
      ∃ live, s = some live ∧ now < live.opened + width ∧ Span.current width s now = live := by
  unfold Span.current
  split
  · exact Or.inl rfl
  · rename_i live
    split
    · exact Or.inl rfl
    · rename_i notEnded
      exact Or.inr ⟨live, rfl, not_le.mp notEnded, rfl⟩

omit [IsStrictOrderedRing K] in
theorem opened_mem (times : List K) : ∀ s, after limit width times = some s → s.opened ∈ times := by
  induction times using List.reverseRecOn with
  | nil => exact fun s none_ => absurd none_ (Option.some_ne_none s).symm
  | append_singleton times now ih =>
      intro s reached
      rw [after_concat, tick, Option.some.injEq] at reached
      rw [← reached, counted_opened, List.mem_append, List.mem_singleton]
      rcases current_cases (after limit width times) now with new | ⟨live, found, -, same⟩
      · rw [new]
        exact Or.inr rfl
      · rw [same]
        exact Or.inl (ih live found)

omit [IsStrictOrderedRing K] in
theorem current_opened_le {times : List K} (past : ∀ t ∈ times, t ≤ now) :
    (Span.current width (after limit width times) now).opened ≤ now := by
  rcases current_cases (after limit width times) now with new | ⟨live, found, -, same⟩
  · rw [new]
  · rw [same]
    exact past _ (opened_mem times live found)

theorem tracks_after (nonneg : 0 ≤ limit) (positive : 0 < width) (times : List K)
    (monotone : times.Pairwise (· ≤ ·)) :
    Tracks limit width (admitted limit width times) (after limit width times) := by
  induction times using List.reverseRecOn with
  | nil => exact ⟨fun _ => rfl, fun s none_ => absurd none_ (Option.some_ne_none s).symm,
      fun s none_ => absurd none_ (Option.some_ne_none s).symm⟩
  | append_singleton times now ih =>
      obtain ⟨earlier, past⟩ := pairwise_concat_iff.mp monotone
      have account := (ih earlier).current nonneg now
      have live := now_lt_current_end positive (after limit width times) now
      rw [admitted_concat, after_concat, tick]
      refine ⟨fun none_ => absurd none_ (Option.some_ne_none _), ?_, ?_⟩
      · intro s reached
        rw [← Option.some.inj reached]
        exact account.counted (current_opened_le past)
      · intro s reached t member
        rw [← Option.some.inj reached, counted_opened]
        refine lt_of_le_of_lt ?_ live
        have arrived : t ∈ times ++ [now] :=
          mem_of_mem_admitted limit width (by rwa [admitted_concat])
        rcases List.mem_append.mp arrived with before | last
        · exact past t before
        · exact (List.mem_singleton.mp last).le

/-- No stretch of time of one width holds more admitted requests than two spans. -/
theorem burst_le (nonneg : 0 ≤ limit) (positive : 0 < width) (times : List K)
    (monotone : times.Pairwise (· ≤ ·)) (start : K) :
    ((admitted limit width times).countP fun t =>
      decide (start ≤ t) && decide (t ≤ start + width) : ℤ) ≤ 2 * limit := by
  induction times using List.reverseRecOn with
  | nil => exact mul_nonneg (by decide) nonneg
  | append_singleton times now ih =>
      obtain ⟨earlier, past⟩ := pairwise_concat_iff.mp monotone
      have before := ih earlier
      have account := (tracks_after nonneg positive times earlier).current nonneg now
      have started : (Span.current width (after limit width times) now).opened ≤ now :=
        current_opened_le past
      rw [admitted_concat, List.countP_append]
      by_cases counts : (Span.current width (after limit width times) now).count < limit ∧
          start ≤ now ∧ now ≤ start + width
      · obtain ⟨room, afterStart, beforeEnd⟩ := counts
        rw [if_pos room, Option.toList_some, List.countP_singleton,
          if_pos (by rw [decide_eq_true afterStart, decide_eq_true beforeEnd, Bool.and_true])]
        have covered := countP_le_countP_add (admitted limit width times)
          (fun t => decide (start ≤ t) && decide (t ≤ start + width))
          (fun t => decide ((Span.current width (after limit width times) now).opened ≤ t))
          (fun t =>
            decide ((Span.current width (after limit width times) now).opened - width ≤ t) &&
              decide (t < (Span.current width (after limit width times) now).opened)) <| by
          intro t _ inside
          simp only [Bool.and_eq_true, decide_eq_true_eq] at inside ⊢
          rcases le_or_gt (Span.current width (after limit width times) now).opened t with inSpan | early
          · exact Or.inl inSpan
          · exact Or.inr ⟨by linarith [inside.1], early⟩
        have total := account.count_eq
        have previous := account.before_le
        omega
      · have silent : (if (Span.current width (after limit width times) now).count < limit
            then some now else none).toList.countP
              (fun t => decide (start ≤ t) && decide (t ≤ start + width)) = 0 := by
          rw [List.countP_eq_zero]
          intro t member
          split at member
          · rename_i room
            rw [Option.toList_some, List.mem_singleton] at member
            subst member
            simpa [room] using counts
          · cases member
        rw [silent]
        exact before

theorem refused_span (nonneg : 0 ≤ limit) (positive : 0 < width) {times : List K}
    (monotone : (times ++ [now]).Pairwise (· ≤ ·))
    (refused : ¬ (Span.current width (after limit width times) now).count < limit) :
    ((admitted limit width times).countP fun t => decide
        ((Span.current width (after limit width times) now).opened ≤ t) : ℤ) = limit := by
  obtain ⟨earlier, -⟩ := pairwise_concat_iff.mp monotone
  have account := (tracks_after nonneg positive times earlier).current nonneg now
  have total := account.count_eq
  have most := account.count_le
  omega

end Ordered

end Span

end SupernoteTaskService.Foundation
