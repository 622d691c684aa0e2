import SupernoteTaskService.Foundation.KeysetPaging

/-!
# Following a cursor

What a delta page delivers, what its cursor promises, and what a client has
received after the loop "call again from the returned cursor while more rows are
announced" over rows that do not change.

The loop stops on the first crowded stamp it meets, if there is one: the drained
page announces nothing more although later rows may exist.  `followCursor_mem_iff`
is the exact account of what has been delivered by then.
-/

set_option autoImplicit false

namespace SupernoteTaskService.Foundation

section Window
variable {ρ ι : Type} (keys : Keyset ρ ι)

def windowOf (rows : List ρ) (since now : ℤ) : List ρ :=
  rows.filter fun row => decide (since ≤ keys.stamp row) && decide (keys.stamp row ≤ now)

variable {keys}

theorem mem_windowOf {rows : List ρ} {since now : ℤ} {row : ρ} :
    row ∈ windowOf keys rows since now ↔
      row ∈ rows ∧ since ≤ keys.stamp row ∧ keys.stamp row ≤ now := by
  simp [windowOf]

theorem windowOf_ties_nodup {rows : List ρ} (distinct : (rows.map keys.tie).Nodup)
    (since now : ℤ) : ((windowOf keys rows since now).map keys.tie).Nodup :=
  distinct.sublist (List.filter_sublist.map keys.tie)

theorem crowded_windowOf_iff {rows : List ρ} {since now m : ℤ} (limit : ℕ)
    (lower : since ≤ m) (upper : m ≤ now) :
    Crowded keys limit (windowOf keys rows since now) m ↔ Crowded keys limit rows m := by
  have sameCount : atStamp keys (windowOf keys rows since now) m = atStamp keys rows m := by
    unfold atStamp windowOf
    rw [List.countP_filter]
    apply List.countP_congr
    intro row _
    simp only [Bool.and_eq_true, decide_eq_true_eq]
    constructor
    · exact fun both => both.1
    · rintro rfl
      exact ⟨rfl, lower, upper⟩
  rw [Crowded, Crowded, sameCount]

end Window

section Delivery
variable {ρ ι : Type} {keys : Keyset ρ ι} {limit : ℕ} {now : ℤ}
  {window : List ρ} {page : Page ρ}

theorem DeltaShape.items_subset (shape : DeltaShape keys limit now window page) :
    ∀ row ∈ page.items, row ∈ window := by
  intro row member
  cases shape with
  | tail items short all => exact all.mem_iff.mp member
  | drained items m crowded least group => exact ((group row).mp member).1
  | capped items first last firstMem lastMem filled spread least inside below sparse =>
      exact (inside row member).1

theorem DeltaShape.of_short (shape : DeltaShape keys limit now window page)
    (short : window.length < limit) : page.items.Perm window ∧ page.cursor = now := by
  cases shape with
  | tail items _ all => exact ⟨all, rfl⟩
  | drained items m crowded least group =>
      have bounded := atStamp_le_length keys window m
      rw [Crowded] at crowded
      omega
  | capped items first last firstMem lastMem filled spread least inside below sparse => omega

variable (keys limit window) in
/-- The earliest stamp of the window fills a page by itself, with later rows behind it. -/
def StopsEarly : Prop :=
  ∃ m, (∀ row ∈ window, m ≤ keys.stamp row) ∧ Crowded keys limit window m ∧
    ∃ row ∈ window, m < keys.stamp row

/-- A page that announces no more rows is the whole window, unless it drained a
crowded stamp with later rows behind it. -/
theorem DeltaShape.complete_iff (positive : 0 < limit)
    (shape : DeltaShape keys limit now window page) :
    (page.hasMore = false → ∀ row ∈ window, row ∈ page.items) ↔
      ¬ StopsEarly keys limit window := by
  cases shape with
  | tail items short all =>
      constructor
      · rintro - ⟨m, -, crowded, -⟩
        have bounded := atStamp_le_length keys window m
        rw [Crowded] at crowded
        omega
      · intro _ _ row member
        exact all.mem_iff.mpr member
  | drained items m crowded least group =>
      constructor
      · rintro complete ⟨m', least', crowded', late, lateMem, later⟩
        obtain ⟨witness, witnessMem, witnessStamp⟩ :=
          (atStamp_pos_iff window m').mp (lt_of_lt_of_le positive crowded')
        have lateGroup := ((group late).mp (complete rfl late lateMem)).2
        have lower := least witness witnessMem
        omega
      · intro noneLater _ row member
        refine (group row).mpr ⟨member, le_antisymm ?_ (least row member)⟩
        by_contra later
        exact noneLater ⟨m, least, crowded, row, member, not_le.mp later⟩
  | capped items first last firstMem lastMem filled spread least inside below sparse =>
      constructor
      · rintro - ⟨m, least', crowded, -⟩
        refine sparse m ?_ crowded
        exact lt_of_le_of_lt (least' first (inside first firstMem).1) spread
      · intro _ more
        exact absurd more Bool.noConfusion

theorem DeltaShape.delivers_or_advances {since : ℤ} {row : ρ} (positive : 0 < limit)
    (shape : DeltaShape keys limit now window page)
    (fromSince : ∀ other ∈ window, since ≤ keys.stamp other) (member : row ∈ window) :
    row ∈ page.items ∨ since < page.cursor ∧ page.cursor ≤ keys.stamp row := by
  cases shape with
  | tail items short all => exact Or.inl (all.mem_iff.mpr member)
  | drained items m crowded least group =>
      by_cases onStamp : keys.stamp row = m
      · exact Or.inl ((group row).mpr ⟨member, onStamp⟩)
      · right
        obtain ⟨witness, witnessMem, witnessStamp⟩ :=
          (atStamp_pos_iff window m).mp (lt_of_lt_of_le positive crowded)
        have lower := least row member
        have sinceLe := fromSince witness witnessMem
        constructor <;> dsimp only <;> omega
  | capped items first last firstMem lastMem filled spread least inside below sparse =>
      by_cases early : keys.stamp row < keys.stamp last
      · exact Or.inl (below row member early)
      · right
        have lower := fromSince first (inside first firstMem).1
        exact ⟨lt_of_le_of_lt lower spread, not_lt.mp early⟩

variable (keys limit window) in
def FillsClock (now : ℤ) : Prop :=
  Crowded keys limit window now ∧ ∀ row ∈ window, keys.stamp row = now

/-- Against a stamp that is not before the clock, only a drain of the clock's own
stamp takes the cursor too far. -/
theorem DeltaShape.cursor_le_iff (positive : 0 < limit)
    (shape : DeltaShape keys limit now window page)
    (untilNow : ∀ row ∈ window, keys.stamp row ≤ now) {m : ℤ} (nowLe : now ≤ m) :
    page.cursor ≤ m ↔ (FillsClock keys limit window now → now < m) := by
  cases shape with
  | tail items short all =>
      refine iff_of_true nowLe ?_
      intro ⟨crowded, _⟩
      have bounded := atStamp_le_length keys window now
      rw [Crowded] at crowded
      omega
  | drained items group crowded least members =>
      obtain ⟨witness, witnessMem, witnessStamp⟩ :=
        (atStamp_pos_iff window group).mp (lt_of_lt_of_le positive crowded)
      have upper := untilNow witness witnessMem
      dsimp only
      constructor
      · intro reached ⟨_, allNow⟩
        have atNow := allNow witness witnessMem
        omega
      · intro strict
        by_cases isNow : group = now
        · subst isNow
          exact strict ⟨crowded, fun row member =>
            le_antisymm (untilNow row member) (least row member)⟩
        · omega
  | capped items first last firstMem lastMem filled spread least inside below sparse =>
      refine iff_of_true ((untilNow last (inside last lastMem).1).trans nowLe) ?_
      intro ⟨_, allNow⟩
      have firstNow := allNow first (inside first firstMem).1
      have lastNow := allNow last (inside last lastMem).1
      omega

theorem DeltaShape.since_le_cursor {since : ℤ} (positive : 0 < limit)
    (shape : DeltaShape keys limit now window page)
    (fromSince : ∀ row ∈ window, since ≤ keys.stamp row) (reached : since ≤ now) :
    since ≤ page.cursor := by
  cases shape with
  | tail items short all => exact reached
  | drained items m crowded least group =>
      obtain ⟨witness, witnessMem, witnessStamp⟩ :=
        (atStamp_pos_iff window m).mp (lt_of_lt_of_le positive crowded)
      have lower := fromSince witness witnessMem
      dsimp only
      omega
  | capped items first last firstMem lastMem filled spread least inside below sparse =>
      exact fromSince last (inside last lastMem).1

theorem DeltaShape.since_le_cursor_of_more {since : ℤ}
    (shape : DeltaShape keys limit now window page)
    (fromSince : ∀ row ∈ window, since ≤ keys.stamp row) (more : page.hasMore = true) :
    since ≤ page.cursor := by
  cases shape with
  | tail items short all => cases more
  | drained items m crowded least group => cases more
  | capped items first last firstMem lastMem filled spread least inside below sparse =>
      exact fromSince last (inside last lastMem).1

end Delivery

/-! ## The client loop -/

section Loop
variable {ε α β : Type}

structure Followed (α : Type) where
  items : List α
  stoppedAt : ℤ
  deriving DecidableEq

/-- Call again from the returned cursor while more rows are announced.  The list
supplies the clock readings of the calls; the loop is unfinished when it runs out. -/
def followCursor (call : ℤ → ℤ → Except ε (Page α)) : ℤ → List ℤ → Except ε (Option (Followed α))
  | _, [] => .ok none
  | since, now :: later =>
      match call since now with
      | .error e => .error e
      | .ok page =>
          if page.hasMore then
            match followCursor call page.cursor later with
            | .error e => .error e
            | .ok none => .ok none
            | .ok (some rest) => .ok (some ⟨page.items ++ rest.items, rest.stoppedAt⟩)
          else .ok (some ⟨page.items, now⟩)

theorem followCursor_cons_eq_some {call : ℤ → ℤ → Except ε (Page α)} {since now : ℤ}
    {later : List ℤ} {result : Followed α}
    (stopped : followCursor call since (now :: later) = .ok (some result)) :
    ∃ page, call since now = .ok page ∧
      (page.hasMore = false ∧ result = ⟨page.items, now⟩ ∨
        page.hasMore = true ∧ ∃ rest, followCursor call page.cursor later = .ok (some rest) ∧
          result = ⟨page.items ++ rest.items, rest.stoppedAt⟩) := by
  rw [followCursor] at stopped
  cases called : call since now with
  | error e => simp [called] at stopped
  | ok page =>
      rw [called] at stopped
      refine ⟨page, rfl, ?_⟩
      cases more : page.hasMore with
      | false =>
          simp only [more, Bool.false_eq_true, if_false, Except.ok.injEq, Option.some.injEq]
            at stopped
          exact Or.inl ⟨rfl, stopped.symm⟩
      | true =>
          simp only [more, if_true] at stopped
          cases continued : followCursor call page.cursor later with
          | error e => simp [continued] at stopped
          | ok outcome =>
              cases outcome with
              | none => simp [continued] at stopped
              | some rest =>
                  simp only [continued, Except.ok.injEq, Option.some.injEq] at stopped
                  exact Or.inr ⟨rfl, rest, rfl, stopped.symm⟩

theorem followCursor_congr {guarded plain : ℤ → ℤ → Except ε (Page α)} (Reached : ℤ → Prop)
    (nows : List ℤ)
    (same : ∀ since now, now ∈ nows → Reached since → guarded since now = plain since now)
    (stays : ∀ since now page, Reached since → plain since now = .ok page →
      page.hasMore = true → Reached page.cursor) :
    ∀ since, Reached since → followCursor guarded since nows = followCursor plain since nows := by
  induction nows with
  | nil => exact fun _ _ => rfl
  | cons now later ih =>
      intro since reached
      rw [followCursor, followCursor, same since now List.mem_cons_self reached]
      cases called : plain since now with
      | error e => rfl
      | ok page =>
          dsimp only
          cases more : page.hasMore with
          | false => rfl
          | true =>
              rw [ih (fun since now member => same since now (List.mem_cons_of_mem _ member))
                page.cursor (stays since now page reached called more)]

def Renders (render : α → Except ε β) (raw : Page α) (page : Page β) : Prop :=
  raw.items.mapM render = .ok page.items ∧ page.cursor = raw.cursor ∧ page.hasMore = raw.hasMore

theorem followCursor_render {render : α → Except ε β} {raw : ℤ → ℤ → Page α}
    {call : ℤ → ℤ → Except ε (Page β)}
    (renders : ∀ since now page, call since now = .ok page →
      Renders render (raw since now) page)
    (nows : List ℤ) : ∀ (since : ℤ) (result : Followed β),
      followCursor call since nows = .ok (some result) →
        ∃ items, items.mapM render = .ok result.items ∧
          followCursor (fun since now => .ok (raw since now)) since nows =
            (.ok (some ⟨items, result.stoppedAt⟩) : Except ε _) := by
  induction nows with
  | nil => intro since result stopped; simp [followCursor] at stopped
  | cons now later ih =>
      intro since result stopped
      obtain ⟨page, called, shape⟩ := followCursor_cons_eq_some stopped
      obtain ⟨rendered, cursorEq, moreEq⟩ := renders since now page called
      rcases shape with ⟨last, rfl⟩ | ⟨more, rest, continued, rfl⟩
      · refine ⟨(raw since now).items, rendered, ?_⟩
        rw [moreEq] at last
        simp [followCursor, last]
      · obtain ⟨items, restRendered, restFollowed⟩ := ih page.cursor rest continued
        refine ⟨(raw since now).items ++ items, ?_, ?_⟩
        · simp [List.mapM_append, rendered, restRendered, bind, Except.bind, pure, Except.pure]
        · rw [moreEq] at more
          rw [cursorEq] at restFollowed
          simp [followCursor, more, restFollowed]

end Loop

section Stops
variable {ε α ρ ι : Type} {keys : Keyset ρ ι}

/-- A loop stops when every page that announces more leaves a row behind its cursor.
It only asks for cursors that it can reach. -/
theorem followCursor_stops_of_progress {call : ℤ → ℤ → Except ε (Page α)} (stamp : ρ → ℤ)
    (rows : List ρ) (nows : List ℤ) :
    ∀ start : ℤ, (∀ since now, start ≤ since → now ∈ nows → ∃ page, call since now = .ok page ∧
        (page.hasMore = true → since ≤ page.cursor ∧
          ∃ row ∈ rows, since ≤ stamp row ∧ stamp row < page.cursor)) →
      (rows.countP fun row => decide (start ≤ stamp row)) < nows.length →
      ∃ result, followCursor call start nows = .ok (some result) := by
  induction nows with
  | nil => exact fun start _ enough => absurd enough (Nat.not_lt_zero _)
  | cons now later ih =>
      intro start answers enough
      obtain ⟨page, called, progress⟩ := answers start now le_rfl List.mem_cons_self
      simp only [followCursor, called]
      cases more : page.hasMore with
      | false => exact ⟨⟨page.items, now⟩, rfl⟩
      | true =>
          obtain ⟨startLe, row, inRows, lower, passed⟩ := progress more
          have fewer : (rows.countP fun row => decide (page.cursor ≤ stamp row)) <
              rows.countP fun row => decide (start ≤ stamp row) := by
            have counted : (rows.countP fun row => decide (page.cursor ≤ stamp row)) =
                (rows.filter fun row => decide (start ≤ stamp row)).countP fun row =>
                  decide (page.cursor ≤ stamp row) := by
              rw [List.countP_filter]
              apply List.countP_congr
              intro row _
              simp only [Bool.and_eq_true, decide_eq_true_eq]
              omega
            rw [counted, List.countP_eq_length_filter (p := fun row => decide (start ≤ stamp row)),
              List.countP_lt_length_iff]
            refine ⟨row, List.mem_filter.mpr ⟨inRows, decide_eq_true lower⟩, ?_⟩
            rw [decide_eq_false_iff_not]
            omega
          rw [List.length_cons] at enough
          obtain ⟨rest, continued⟩ := ih page.cursor
            (fun since now above member => answers since now (startLe.trans above)
              (List.mem_cons_of_mem _ member)) (by omega)
          exact ⟨⟨page.items ++ rest.items, rest.stoppedAt⟩, by simp [continued]⟩

theorem followCursor_stops {call : ℤ → ℤ → Except ε (Page α)} {rows : List ρ} {limit : ℕ}
    (answers : ∀ since now, ∃ page, call since now = .ok page ∧ ∃ raw : Page ρ,
      DeltaShape keys limit now (windowOf keys rows since now) raw ∧
        page.cursor = raw.cursor ∧ page.hasMore = raw.hasMore)
    (nows : List ℤ) (since : ℤ)
    (enough : (rows.countP fun row => decide (since ≤ keys.stamp row)) < nows.length) :
    ∃ result, followCursor call since nows = .ok (some result) := by
  refine followCursor_stops_of_progress keys.stamp rows nows since ?_ enough
  intro since now _ _
  obtain ⟨page, called, raw, shape, cursorEq, moreEq⟩ := answers since now
  refine ⟨page, called, fun more => ?_⟩
  rw [moreEq] at more
  rw [cursorEq]
  cases shape with
  | tail items short all => cases more
  | drained items m crowded least group => cases more
  | capped items first last firstMem lastMem filled spread least inside below sparse =>
      obtain ⟨inRows, lower, -⟩ := mem_windowOf.mp (inside first firstMem).1
      exact ⟨lower.trans spread.le, first, inRows, lower, spread⟩

end Stops

section Received
variable {ε ρ ι : Type} {keys : Keyset ρ ι}

section Pages
variable {rows items : List ρ} {limit : ℕ} {since now : ℤ}

theorem tail_received_iff (short : (windowOf keys rows since now).length < limit)
    (all : items.Perm (windowOf keys rows since now)) (row : ρ) :
    row ∈ items ↔ row ∈ rows ∧ since ≤ keys.stamp row ∧ keys.stamp row ≤ now ∧
      ∀ m, since ≤ m → m < keys.stamp row → ¬ Crowded keys limit rows m := by
  rw [all.mem_iff, mem_windowOf]
  constructor
  · rintro ⟨member, lower, upper⟩
    refine ⟨member, lower, upper, fun m sinceLe below crowded => ?_⟩
    have inWindow : Crowded keys limit (windowOf keys rows since now) m :=
      (crowded_windowOf_iff limit sinceLe (below.le.trans upper)).mpr crowded
    have bounded := atStamp_le_length keys (windowOf keys rows since now) m
    rw [Crowded] at inWindow
    omega
  · rintro ⟨member, lower, upper, -⟩
    exact ⟨member, lower, upper⟩

theorem drained_received_iff (positive : 0 < limit) {m : ℤ}
    (crowded : Crowded keys limit (windowOf keys rows since now) m)
    (least : ∀ row ∈ windowOf keys rows since now, m ≤ keys.stamp row)
    (group : ∀ row, row ∈ items ↔ row ∈ windowOf keys rows since now ∧ keys.stamp row = m)
    (row : ρ) :
    row ∈ items ↔ row ∈ rows ∧ since ≤ keys.stamp row ∧ keys.stamp row ≤ now ∧
      ∀ m, since ≤ m → m < keys.stamp row → ¬ Crowded keys limit rows m := by
  obtain ⟨witness, witnessMem, witnessStamp⟩ :=
    (atStamp_pos_iff _ m).mp (lt_of_lt_of_le positive crowded)
  obtain ⟨-, sinceLe, leNow⟩ := mem_windowOf.mp witnessMem
  rw [witnessStamp] at sinceLe leNow
  rw [group, mem_windowOf]
  constructor
  · rintro ⟨⟨member, lower, upper⟩, onStamp⟩
    refine ⟨member, lower, upper, fun m' sinceLe' below crowded' => ?_⟩
    -- Nothing of the window lies under the drained stamp.
    obtain ⟨other, otherMem, otherStamp⟩ :=
      (atStamp_pos_iff rows m').mp (lt_of_lt_of_le positive crowded')
    have atLeast := least other (mem_windowOf.mpr ⟨otherMem, by omega, by omega⟩)
    omega
  · rintro ⟨member, lower, upper, noneBefore⟩
    have atLeast := least row (mem_windowOf.mpr ⟨member, lower, upper⟩)
    refine ⟨⟨member, lower, upper⟩, le_antisymm ?_ atLeast⟩
    by_contra later
    exact noneBefore m sinceLe (not_le.mp later)
      ((crowded_windowOf_iff limit sinceLe leNow).mp crowded)

theorem capped_received_iff {stop : ℤ} (nowLe : now ≤ stop) {last : ρ}
    (lastMem : last ∈ windowOf keys rows since now)
    (inside : ∀ row ∈ items,
      row ∈ windowOf keys rows since now ∧ keys.stamp row ≤ keys.stamp last)
    (below : ∀ row ∈ windowOf keys rows since now, keys.stamp row < keys.stamp last → row ∈ items)
    (sparse : ∀ m, m < keys.stamp last → ¬ Crowded keys limit (windowOf keys rows since now) m)
    (row : ρ) :
    (row ∈ items ∨ row ∈ rows ∧ keys.stamp last ≤ keys.stamp row ∧ keys.stamp row ≤ stop ∧
        ∀ m, keys.stamp last ≤ m → m < keys.stamp row → ¬ Crowded keys limit rows m) ↔
      row ∈ rows ∧ since ≤ keys.stamp row ∧ keys.stamp row ≤ stop ∧
        ∀ m, since ≤ m → m < keys.stamp row → ¬ Crowded keys limit rows m := by
  obtain ⟨-, sinceLast, lastNow⟩ := mem_windowOf.mp lastMem
  have notCrowded : ∀ m, since ≤ m → m < keys.stamp last → ¬ Crowded keys limit rows m := by
    intro m sinceLe lower crowded
    exact sparse m lower ((crowded_windowOf_iff limit sinceLe (lower.le.trans lastNow)).mpr crowded)
  constructor
  · rintro (inPage | ⟨member, lower, upper, noneBefore⟩)
    · obtain ⟨inWindow, atMost⟩ := inside row inPage
      obtain ⟨member, lower, upper⟩ := mem_windowOf.mp inWindow
      exact ⟨member, lower, upper.trans nowLe, fun m sinceLe before =>
        notCrowded m sinceLe (lt_of_lt_of_le before atMost)⟩
    · refine ⟨member, sinceLast.trans lower, upper, fun m sinceLe before => ?_⟩
      by_cases early : m < keys.stamp last
      · exact notCrowded m sinceLe early
      · exact noneBefore m (not_lt.mp early) before
  · rintro ⟨member, lower, upper, noneBefore⟩
    by_cases early : keys.stamp row < keys.stamp last
    · exact Or.inl (below row (mem_windowOf.mpr ⟨member, lower, early.le.trans lastNow⟩) early)
    · exact Or.inr ⟨member, not_lt.mp early, upper, fun m lastLe before =>
        noneBefore m (sinceLast.trans lastLe) before⟩

end Pages

/-- Exactly which of the unchanging rows a client has received when its loop stops:
those up to the last clock reading with no crowded stamp on the way to them. -/
theorem followCursor_mem_iff [LinearOrder ι] {rows : List ρ} (distinct : (rows.map keys.tie).Nodup)
    {limit : ℕ} (positive : 0 < limit) (nows : List ℤ) :
    ∀ (since : ℤ) (result : Followed ρ), nows.Pairwise (· ≤ ·) →
      followCursor (ε := ε)
        (fun since now => .ok (deltaPage keys limit now (windowOf keys rows since now)))
        since nows = .ok (some result) →
      result.stoppedAt ∈ nows ∧
      ∀ row, row ∈ result.items ↔
        row ∈ rows ∧ since ≤ keys.stamp row ∧ keys.stamp row ≤ result.stoppedAt ∧
          ∀ m, since ≤ m → m < keys.stamp row → ¬ Crowded keys limit rows m := by
  induction nows with
  | nil => intro since result _ stopped; simp [followCursor] at stopped
  | cons now later ih =>
      intro since result monotone stopped
      obtain ⟨page, called, outcome⟩ := followCursor_cons_eq_some stopped
      have shape := deltaPage_shape limit positive now (windowOf keys rows since now)
        (windowOf_ties_nodup distinct since now)
      rw [Except.ok.inj called] at shape
      obtain ⟨nowLe, laterMonotone⟩ := List.pairwise_cons.mp monotone
      cases shape with
      | tail items short all =>
          rcases outcome with ⟨-, rfl⟩ | ⟨more, -⟩
          · exact ⟨List.mem_cons_self, tail_received_iff short all⟩
          · exact absurd more Bool.noConfusion
      | drained items m crowded least group =>
          rcases outcome with ⟨-, rfl⟩ | ⟨more, -⟩
          · exact ⟨List.mem_cons_self, drained_received_iff positive crowded least group⟩
          · exact absurd more Bool.noConfusion
      | capped items first last firstMem lastMem filled spread least inside below sparse =>
          rcases outcome with ⟨more, -⟩ | ⟨-, rest, continued, rfl⟩
          · exact absurd more Bool.noConfusion
          · obtain ⟨stoppedMem, restMem⟩ := ih (keys.stamp last) rest laterMonotone continued
            refine ⟨List.mem_cons_of_mem _ stoppedMem, fun row => ?_⟩
            rw [List.mem_append, restMem]
            exact capped_received_iff (nowLe rest.stoppedAt stoppedMem) (inside last lastMem).1
              inside below sparse row

end Received

end SupernoteTaskService.Foundation
