import SupernoteTaskService.Routers.Tasks
import SupernoteTaskService.Routers.Lists
import SupernoteTaskService.Sync.Delivery

/-!
# Expired cursors

The cursor of a full snapshot page is the stamp of its last row, however old that row
is, and the freshness check compares a cursor with the clock.  The two agree exactly
when the row at the limit is not older than the retention.
-/

set_option autoImplicit false

namespace SupernoteTaskService

open Foundation

/-! ## The rest of a resync -/

section Resume
variable (db : Database) (store : Store) (settings : Settings)

/-- The documented loop through the endpoint, with its freshness check. -/
def resumeTasks (query : TaskQuery) : ℤ → List ℤ → Except Raised (Option (Followed Task)) :=
  followCursor fun since now =>
    Routers.Tasks.listTasks db store settings now now { query with since := some since }

def resumeLists (limit : Option ℤ) : ℤ → List ℤ → Except Raised (Option (Followed TaskList)) :=
  followCursor fun since now =>
    Routers.Lists.listLists db store settings now now ⟨some since, limit⟩ none

variable {settings} {since later : ℤ} {nows : List ℤ}

/-- A cursor that is fresh at the last call is fresh at every call before it. -/
theorem ensureCursorFresh_of_le (enabled : 0 < settings.cursorMaxAgeMs)
    (fresh : later - settings.cursorMaxAgeMs ≤ since) {now : ℤ} (before : now ≤ later) :
    ensureCursorFresh (some since) settings now = .ok () := by
  rw [ensureCursorFresh_ok_iff enabled]
  omega

theorem resumeTasks_eq_followTasks (query : TaskQuery) (enabled : 0 < settings.cursorMaxAgeMs)
    (fresh : later - settings.cursorMaxAgeMs ≤ since) (before : ∀ now ∈ nows, now ≤ later) :
    resumeTasks db store settings query since nows = followTasks db store query since nows := by
  refine followCursor_congr (fun since => later - settings.cursorMaxAgeMs ≤ since) nows ?_ ?_ since
    fresh
  · intro since now member fresh
    rw [Routers.Tasks.listTasks, ensureCursorFresh_of_le enabled fresh (before now member)]
    rfl
  · intro since now page fresh called more
    obtain ⟨raw, shape, -, cursorEq, moreEq⟩ := listTasks_page rfl called
    rw [moreEq] at more
    rw [cursorEq]
    exact fresh.trans (shape.since_le_cursor_of_more
      (fun row member => (mem_windowOf.mp member).2.1) more)

theorem resumeLists_eq_followLists (limit : Option ℤ) (enabled : 0 < settings.cursorMaxAgeMs)
    (fresh : later - settings.cursorMaxAgeMs ≤ since) (before : ∀ now ∈ nows, now ≤ later) :
    resumeLists db store settings limit since nows = followLists db store limit since nows := by
  refine followCursor_congr (fun since => later - settings.cursorMaxAgeMs ≤ since) nows ?_ ?_ since
    fresh
  · intro since now member fresh
    simp only [Routers.Lists.listLists, ensureCursorFresh_of_le enabled fresh (before now member)]
    rfl
  · intro since now page fresh called more
    obtain ⟨raw, shape, -, cursorEq, moreEq⟩ := listLists_page rfl called
    rw [moreEq] at more
    rw [cursorEq]
    exact fresh.trans (shape.since_le_cursor_of_more
      (fun row member => (mem_windowOf.mp member).2.1) more)

end Resume

/-! ## The law -/

/-- The row at the limit, if there is one, is not older than the retention. -/
def LimitRowFresh {ρ : Type} (lastModified : ρ → Option ℤ) (rows : List ρ) (limit : ℕ)
    (settings : Settings) (now : ℤ) : Prop :=
  ∀ row, rows[limit - 1]? = some row →
    now - settings.cursorMaxAgeMs ≤ (lastModified row).getD 0

instance {ρ : Type} (lastModified : ρ → Option ℤ) (rows : List ρ) (limit : ℕ)
    (settings : Settings) (now : ℤ) : Decidable (LimitRowFresh lastModified rows limit settings now) :=
  match found : rows[limit - 1]? with
  | none => isTrue fun row isRow => by simp [found] at isRow
  | some row => decidable_of_iff (now - settings.cursorMaxAgeMs ≤ (lastModified row).getD 0)
      (by simp [LimitRowFresh, found])

section Law
variable {ρ : Type} {lastModified : ρ → Option ℤ} {rows : List ρ} {limit : ℕ} {hasMore : Bool}
  {cursor : ℤ} {settings : Settings}

/-- A page cut at the limit hands out a fresh cursor exactly when the row there is fresh. -/
theorem cursor_accepted_iff (later : ℤ) (enabled : 0 < settings.cursorMaxAgeMs)
    (form : hasMore = false ∧ rows[limit - 1]? = none ∨
      ∃ row, rows[limit - 1]? = some row ∧ hasMore = true ∧
        cursor = (lastModified row).getD 0) :
    (hasMore = true → ensureCursorFresh (some cursor) settings later = .ok ()) ↔
      LimitRowFresh lastModified rows limit settings later := by
  rw [ensureCursorFresh_ok_iff enabled]
  rcases form with ⟨noMore, noRow⟩ | ⟨row, atLimit, more, isStamp⟩
  · refine iff_of_true (fun more => ?_) (fun row isRow => ?_)
    · rw [noMore] at more
      cases more
    · rw [noRow] at isRow
      cases isRow
  · rw [isStamp, LimitRowFresh, atLimit]
    simp only [more, true_imp_iff, Option.some.injEq, forall_eq']

end Law

/-- A snapshot cursor that announces more is accepted at `later` exactly when the row
at the limit is fresh by then, for tasks and for lists.  The calls up to `later` then
complete the resync as if there were no check. -/
theorem snapshot_cursor_accepted_iff (db : Database) (store : Store) (settings : Settings)
    (checkedAt serverNow later : ℤ) (enabled : 0 < settings.cursorMaxAgeMs) :
    (∀ query page, query.since = none →
      Routers.Tasks.listTasks db store settings checkedAt serverNow query = .ok page →
      ((page.hasMore = true → ensureCursorFresh (some page.cursor) settings later = .ok ()) ↔
        LimitRowFresh TaskRow.lastModified (snapshotTasks db store serverNow query)
          (clampLimit query.limit) settings later) ∧
      (page.hasMore = true →
        LimitRowFresh TaskRow.lastModified (snapshotTasks db store serverNow query)
          (clampLimit query.limit) settings later →
        ∀ nows : List ℤ, (∀ now ∈ nows, now ≤ later) →
          resumeTasks db store settings query page.cursor nows =
            followTasks db store query page.cursor nows)) ∧
    (∀ query page, query.since = none →
      Routers.Lists.listLists db store settings checkedAt serverNow query none = .ok page →
      ((page.hasMore = true → ensureCursorFresh (some page.cursor) settings later = .ok ()) ↔
        LimitRowFresh ListRow.lastModified (snapshotLists db store)
          (clampLimit query.limit) settings later) ∧
      (page.hasMore = true →
        LimitRowFresh ListRow.lastModified (snapshotLists db store)
          (clampLimit query.limit) settings later →
        ∀ nows : List ℤ, (∀ now ∈ nows, now ≤ later) →
          resumeLists db store settings query.limit page.cursor nows =
            followLists db store query.limit page.cursor nows)) := by
  constructor
  · intro query page snapshot answered
    rw [Routers.Tasks.listTasks, snapshot, ensureCursorFresh] at answered
    have accepted := cursor_accepted_iff later enabled
      (listTasks_snapshot snapshot answered)
    refine ⟨accepted, fun more limitFresh nows before => ?_⟩
    have fresh := (ensureCursorFresh_ok_iff enabled).mp (accepted.mpr limitFresh more)
    exact resumeTasks_eq_followTasks db store query enabled fresh before
  · intro query page snapshot answered
    simp only [Routers.Lists.listLists, snapshot, ensureCursorFresh] at answered
    have accepted := cursor_accepted_iff later enabled
      (listLists_snapshot snapshot answered).2
    refine ⟨accepted, fun more limitFresh nows before => ?_⟩
    have fresh := (ensureCursorFresh_ok_iff enabled).mp (accepted.mpr limitFresh more)
    exact resumeLists_eq_followLists db store query.limit enabled fresh before

/-- With a retention of one second, the cursor of `twoTasks` holds until 2000. -/
theorem snapshot_cursor_accepted_at_2000 :
    ∃ page, Routers.Tasks.listTasks singleUser twoTasks ⟨1000⟩ 1500 1500 { limit := some 1 } =
        .ok page ∧
      page.hasMore = true ∧ ensureCursorFresh (some page.cursor) ⟨1000⟩ 2000 = .ok () := by
  have law := (snapshot_cursor_accepted_iff singleUser twoTasks ⟨1000⟩ 1500 1500 2000
    (by decide)).1 { limit := some 1 } _ rfl rfl
  exact ⟨_, rfl, rfl, law.1.mpr (by decide) rfl⟩

/-- A snapshot taken long after the last change hands out a cursor that is refused
at once, and the same resync is refused however often the client starts it. -/
theorem snapshot_cursor_refused :
    ∃ page, Routers.Tasks.listTasks singleUser twoTasks ⟨1000⟩ 10000 10000 { limit := some 1 } =
        .ok page ∧
      page.hasMore = true ∧
      ensureCursorFresh (some page.cursor) ⟨1000⟩ 10000 = .error (.http cursorExpired) ∧
      resumeTasks singleUser twoTasks ⟨1000⟩ { limit := some 1 } page.cursor [10000] =
        .error (.http cursorExpired) :=
  ⟨_, rfl, rfl, rfl, rfl⟩

end SupernoteTaskService
