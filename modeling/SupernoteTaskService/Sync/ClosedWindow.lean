import SupernoteTaskService.Foundation.PageExtent
import SupernoteTaskService.Sync.Delivery

/-!
# The closed window of a delta read

A delta read announces the window from `since` to its cursor, and a client that takes
that literally resumes one millisecond after the cursor.  The page covers the window
exactly when the limit does not cut a millisecond in two behind an earlier one, and when
nothing is stamped one millisecond after a millisecond that was drained: the cursor of a
drained page stands there already.
-/

set_option autoImplicit false

namespace SupernoteTaskService

open Foundation

section Covered
variable {db : Database} {store : Store} {since serverNow : ℤ} {query : TaskQuery}
  {page : Page Task}

theorem listTasks_deltaPage (delta : query.since = some since)
    (answered : listTasks db store serverNow query = .ok page) :
    (∀ row ∈ matchingTasks db store query, DeliversTask db store page.items row ↔
      row ∈ (deltaPage taskKeys (clampLimit query.limit) serverNow
        (windowOf taskKeys (matchingTasks db store query) since serverNow)).items) ∧
      page.cursor = (deltaPage taskKeys (clampLimit query.limit) serverNow
        (windowOf taskKeys (matchingTasks db store query) since serverNow)).cursor := by
  rw [listTasks_delta delta, renderPage_eq_ok_iff] at answered
  obtain ⟨mapped, cursorEq, -⟩ := answered
  have shape := deltaPage_shape (clampLimit query.limit) (clampLimit_pos _) serverNow _
    (windowOf_ties_nodup (matchingTasks_ties_nodup db store query) since serverNow)
  refine ⟨fun row member => deliversTask_iff ?_ mapped (mem_matchingTasks.mp member).1, cursorEq⟩
  intro other otherMem
  exact (mem_matchingTasks.mp (mem_windowOf.mp (shape.items_subset other otherMem)).1).1

theorem listTasks_covers_iff (delta : query.since = some since)
    (answered : listTasks db store serverNow query = .ok page) :
    (∀ row ∈ matchingTasks db store query, since ≤ taskKeys.stamp row →
        taskKeys.stamp row ≤ min page.cursor serverNow → DeliversTask db store page.items row) ↔
      Closes taskKeys (clampLimit query.limit)
        (windowOf taskKeys (matchingTasks db store query) since serverNow)
        (windowOf taskKeys (matchingTasks db store query) since serverNow) := by
  obtain ⟨delivers, cursorEq⟩ := listTasks_deltaPage delta answered
  rw [← closed_iff (clampLimit_pos query.limit)
    (windowOf_ties_nodup (matchingTasks_ties_nodup db store query) since serverNow)
    (fun row member => (mem_windowOf.mp member).2.2) _ (fun _ member => member)
    fun _ member _ => member, ← cursorEq]
  constructor
  · intro covers row member early
    obtain ⟨matching, lower, upper⟩ := mem_windowOf.mp member
    exact (delivers row matching).mp (covers row matching lower (le_min early upper))
  · intro covers row matching lower early
    obtain ⟨beforeCursor, upper⟩ := le_min_iff.mp early
    exact (delivers row matching).mpr
      (covers row (mem_windowOf.mpr ⟨matching, lower, upper⟩) beforeCursor)

theorem listTasks_resumes_iff (delta : query.since = some since)
    (answered : listTasks db store serverNow query = .ok page) :
    (∀ row ∈ matchingTasks db store query, since ≤ taskKeys.stamp row →
        DeliversTask db store page.items row ∨ page.cursor + 1 ≤ taskKeys.stamp row) ↔
      Closes taskKeys (clampLimit query.limit)
        (windowOf taskKeys (matchingTasks db store query) since serverNow)
        ((matchingTasks db store query).filter fun row => since ≤ taskKeys.stamp row) := by
  obtain ⟨delivers, cursorEq⟩ := listTasks_deltaPage delta answered
  have mem_filter : ∀ row, row ∈ ((matchingTasks db store query).filter fun row =>
      since ≤ taskKeys.stamp row) ↔
        row ∈ matchingTasks db store query ∧ since ≤ taskKeys.stamp row := by
    intro row
    rw [List.mem_filter, decide_eq_true_eq]
  rw [← closed_iff (clampLimit_pos query.limit)
    (windowOf_ties_nodup (matchingTasks_ties_nodup db store query) since serverNow)
    (fun row member => (mem_windowOf.mp member).2.2) _ (fun row member => ?_)
    fun row member upper => ?_, ← cursorEq]
  · constructor
    · intro resumes row member early
      obtain ⟨matching, lower⟩ := (mem_filter row).mp member
      rcases resumes row matching lower with delivered | later
      · exact (delivers row matching).mp delivered
      · omega
    · intro covers row matching lower
      by_cases early : taskKeys.stamp row ≤ page.cursor
      · exact Or.inl ((delivers row matching).mpr
          (covers row ((mem_filter row).mpr ⟨matching, lower⟩) early))
      · exact Or.inr (by omega)
  · obtain ⟨matching, lower, -⟩ := mem_windowOf.mp member
    exact (mem_filter row).mpr ⟨matching, lower⟩
  · obtain ⟨matching, lower⟩ := (mem_filter row).mp member
    exact mem_windowOf.mpr ⟨matching, lower, upper⟩

end Covered

/-- A delta read returns the whole window that it announces exactly when that window
closes; a client that resumes strictly after the cursor misses nothing exactly when, in
addition, no row beyond the clock stands one millisecond after a drained one. -/
theorem delta_window_closed_iff (db : Database) (store : Store) (since serverNow : ℤ)
    (query : TaskQuery) (page : Page Task) (delta : query.since = some since)
    (answered : listTasks db store serverNow query = .ok page) :
    ((∀ row ∈ matchingTasks db store query, since ≤ taskKeys.stamp row →
        taskKeys.stamp row ≤ min page.cursor serverNow → DeliversTask db store page.items row) ↔
      Closes taskKeys (clampLimit query.limit)
        (windowOf taskKeys (matchingTasks db store query) since serverNow)
        (windowOf taskKeys (matchingTasks db store query) since serverNow)) ∧
    ((∀ row ∈ matchingTasks db store query, since ≤ taskKeys.stamp row →
        DeliversTask db store page.items row ∨ page.cursor + 1 ≤ taskKeys.stamp row) ↔
      Closes taskKeys (clampLimit query.limit)
        (windowOf taskKeys (matchingTasks db store query) since serverNow)
        ((matchingTasks db store query).filter fun row => since ≤ taskKeys.stamp row)) :=
  ⟨listTasks_covers_iff delta answered, listTasks_resumes_iff delta answered⟩

theorem tiedTasks_window_closed_iff :
    ∃ page, listTasks singleUser tiedTasks 3000 { since := some 0, limit := some 3 } = .ok page ∧
      ((∀ row ∈ matchingTasks singleUser tiedTasks { since := some 0, limit := some 3 },
          0 ≤ taskKeys.stamp row → taskKeys.stamp row ≤ min page.cursor 3000 →
            DeliversTask singleUser tiedTasks page.items row) ↔
        Closes taskKeys 3
          (windowOf taskKeys
            (matchingTasks singleUser tiedTasks { since := some 0, limit := some 3 }) 0 3000)
          (windowOf taskKeys
            (matchingTasks singleUser tiedTasks { since := some 0, limit := some 3 }) 0 3000)) :=
  ⟨_, rfl, (delta_window_closed_iff singleUser tiedTasks 0 3000
    { since := some 0, limit := some 3 } _ rfl rfl).1⟩

/-- The limit cuts the later millisecond in two: the cursor announces it, and its second
row neither came nor will come to a client that resumes after the cursor. -/
theorem tiedTasks_second_missed :
    ∃ page, listTasks singleUser tiedTasks 3000 { since := some 0, limit := some 2 } = .ok page ∧
      ¬ ∀ row ∈ matchingTasks singleUser tiedTasks { since := some 0, limit := some 2 },
        0 ≤ taskKeys.stamp row → taskKeys.stamp row ≤ min page.cursor 3000 →
          DeliversTask singleUser tiedTasks page.items row := by
  refine ⟨_, rfl, fun covers => ?_⟩
  exact absurd (covers (plainTask ['c'] 2000) (by decide) (by decide) (by decide)) (by decide)

end SupernoteTaskService
