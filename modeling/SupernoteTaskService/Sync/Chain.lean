import SupernoteTaskService.Foundation.FullPages
import SupernoteTaskService.Sync.Delivery

/-!
# Chains of delta calls

A client that passes each cursor on as the next `since`, until a page comes below the
limit.  On tables that do not change every full page moves the cursor, and the pages
of a finished chain are the window from the first `since` to the last clock reading.
A task that cannot be shown stops the chain with an error; a list can always be shown.
-/

set_option autoImplicit false

namespace SupernoteTaskService

open Foundation

/-- Exactly these rows came out, as these items. -/
structure ComesOut {ρ α : Type} (render : ρ → Except Raised α) (rows : List ρ)
    (items : List α) : Prop where
  sound : ∀ item ∈ items, ∃ row ∈ rows, render row = .ok item
  complete : ∀ row ∈ rows, ∃ item ∈ items, render row = .ok item

/-! ## Rendered pages -/

section Rendered
variable {ρ α : Type} {keys : Keyset ρ Text} {render : ρ → Except Raised α} {rows : List ρ}
  {limit : ℕ} {since serverNow : ℤ} {page : Page α}

theorem renderPage_advances (distinct : (rows.map keys.tie).Nodup) (positive : 0 < limit)
    (answered : renderPage render (deltaPage keys limit serverNow
      (windowOf keys rows since serverNow)) = .ok page) (full : limit ≤ page.items.length) :
    since < page.cursor := by
  have renders := renderPage_eq_ok_iff.mp answered
  have shape := deltaPage_shape limit positive serverNow _
    (windowOf_ties_nodup distinct since serverNow)
  rw [renders.length_eq, deltaPage_full_iff] at full
  obtain ⟨row, member, passed⟩ := shape.passes_row positive full
  rw [renders.2.1]
  exact lt_of_le_of_lt (mem_windowOf.mp member).2.1 passed

variable {call : ℤ → ℤ → Except Raised (Page α)}

theorem followFull_stops (distinct : (rows.map keys.tie).Nodup) (positive : 0 < limit)
    (isPage : ∀ since now, call since now =
      renderPage render (deltaPage keys limit now (windowOf keys rows since now)))
    (nows : List ℤ) (start : ℤ)
    (rendered : ∀ row ∈ rows, start ≤ keys.stamp row → (∃ now ∈ nows, keys.stamp row ≤ now) →
      ∃ item, render row = .ok item)
    (enough : (rows.countP fun row => decide (start ≤ keys.stamp row)) < nows.length) :
    ∃ received, followFull limit call start nows = .ok (some received) := by
  refine followCursor_stops_of_progress keys.stamp rows nows start ?_ enough
  intro since now above inNows
  have shape := deltaPage_shape limit positive now _ (windowOf_ties_nodup distinct since now)
  have allRender : ∀ row ∈ (deltaPage keys limit now (windowOf keys rows since now)).items,
      ∃ item, render row = .ok item := by
    intro row member
    obtain ⟨inRows, lower, upper⟩ := mem_windowOf.mp (shape.items_subset row member)
    exact rendered row inRows (above.trans lower) ⟨now, inNows, upper⟩
  obtain ⟨items, mapped⟩ := mapM_ok_iff_forall.mpr allRender
  have answered : call since now = .ok ⟨items, _, _⟩ :=
    (isPage since now).trans (renderPage_eq_ok_iff.mpr ⟨mapped, rfl, rfl⟩)
  refine ⟨_, map_eq_ok_iff.mpr ⟨_, answered, rfl⟩, fun full => ?_⟩
  rw [announceFull, decide_eq_true_eq] at full
  rw [isPage] at answered
  have fullWindow := full
  rw [(renderPage_eq_ok_iff.mp answered).length_eq, deltaPage_full_iff] at fullWindow
  obtain ⟨row, member, passed⟩ := shape.passes_row positive fullWindow
  obtain ⟨inRows, lower, -⟩ := mem_windowOf.mp member
  exact ⟨(renderPage_advances distinct positive answered full).le, row, inRows, lower, passed⟩

theorem followFull_comesOut (distinct : (rows.map keys.tie).Nodup) (positive : 0 < limit)
    (isPage : ∀ since now, call since now =
      renderPage render (deltaPage keys limit now (windowOf keys rows since now)))
    {nows : List ℤ} (monotone : nows.Pairwise (· ≤ ·)) {received : Followed α}
    (stopped : followFull limit call since nows = .ok (some received)) :
    received.stoppedAt ∈ nows ∧
      ComesOut render (windowOf keys rows since received.stoppedAt) received.items := by
  have renders : ∀ since now page, call since now = .ok page →
      Renders render (deltaPage keys limit now (windowOf keys rows since now)) page := by
    intro since now page called
    exact renderPage_eq_ok_iff.mp ((isPage since now).symm.trans called)
  obtain ⟨items, mapped, followed⟩ := followFull_render limit renders nows since received stopped
  obtain ⟨stoppedMem, account⟩ := followFull_mem_iff distinct positive nows since _ monotone followed
  refine ⟨stoppedMem, fun item member => ?_, fun row member => ?_⟩
  · obtain ⟨row, rowMem, rowMapped⟩ := (mem_of_mapM_ok mapped item).mp member
    exact ⟨row, (account row).mp rowMem, rowMapped⟩
  · have rowMem := (account row).mpr member
    obtain ⟨item, rowMapped⟩ := mapM_ok_iff_forall.mp ⟨_, mapped⟩ row rowMem
    exact ⟨item, (mem_of_mapM_ok mapped item).mpr ⟨row, rowMem, rowMapped⟩, rowMapped⟩

end Rendered

/-! ## The two chains -/

section Chains
variable (db : Database) (store : Store)

/-- Call with `since = cursor` until a page has fewer tasks than the limit. -/
def chainTasks (query : TaskQuery) : ℤ → List ℤ → Except Raised (Option (Followed Task)) :=
  followFull (clampLimit query.limit) fun since now =>
    listTasks db store now { query with since := some since }

def chainLists (limit : Option ℤ) : ℤ → List ℤ → Except Raised (Option (Followed TaskList)) :=
  followFull (clampLimit limit) fun since now => listLists db store now ⟨some since, limit⟩

end Chains

/-- Full pages move the cursor; a chain with more calls than rows ahead stops, of tasks
when all that it can meet are readable; and a chain that stopped has received the rows
from its first `since` to its last clock reading. -/
theorem delta_chain_law (db : Database) (store : Store) (since : ℤ) :
    (∀ query serverNow page, query.since = some since →
      listTasks db store serverNow query = .ok page →
      clampLimit query.limit ≤ page.items.length → since < page.cursor) ∧
    (∀ query serverNow page, query.since = some since →
      listLists db store serverNow query = .ok page →
      clampLimit query.limit ≤ page.items.length → since < page.cursor) ∧
    (∀ query nows, nows.Pairwise (· ≤ ·) →
      ((∀ row ∈ matchingTasks db store query, since ≤ taskKeys.stamp row →
          (∃ now ∈ nows, taskKeys.stamp row ≤ now) → Readable db.linkModel row) →
        ((matchingTasks db store query).countP fun row => decide (since ≤ taskKeys.stamp row)) <
          nows.length →
        ∃ received, chainTasks db store query since nows = .ok (some received)) ∧
      ∀ received, chainTasks db store query since nows = .ok (some received) →
        received.stoppedAt ∈ nows ∧
          ComesOut (store.task db)
            (windowOf taskKeys (matchingTasks db store query) since received.stoppedAt)
            received.items) ∧
    (∀ limit nows, nows.Pairwise (· ≤ ·) →
      (((matchingLists db store).countP fun row => decide (since ≤ listKeys.stamp row)) <
          nows.length →
        ∃ received, chainLists db store limit since nows = .ok (some received)) ∧
      ∀ received, chainLists db store limit since nows = .ok (some received) →
        received.stoppedAt ∈ nows ∧
          ComesOut listOfRow
            (windowOf listKeys (matchingLists db store) since received.stoppedAt)
            received.items) := by
  have tasksDistinct := matchingTasks_ties_nodup db store
  have listsDistinct := matchingLists_ties_nodup db store
  refine ⟨?_, ?_, ?_, ?_⟩
  · intro query serverNow page delta answered full
    rw [listTasks_delta delta] at answered
    exact renderPage_advances (tasksDistinct query) (clampLimit_pos query.limit) answered full
  · intro query serverNow page delta answered full
    rw [listLists_delta delta] at answered
    exact renderPage_advances listsDistinct (clampLimit_pos query.limit) answered full
  · intro query nows monotone
    have isPage : ∀ since now, listTasks db store now { query with since := some since } =
        renderPage (store.task db) (deltaPage taskKeys (clampLimit query.limit) now
          (windowOf taskKeys (matchingTasks db store query) since now)) := by
      intro since now
      have delta : ({ query with since := some since } : TaskQuery).since = some since := rfl
      exact listTasks_delta delta
    refine ⟨fun readable enough => ?_, fun received stopped => ?_⟩
    · refine followFull_stops (tasksDistinct query) (clampLimit_pos query.limit) isPage nows since
        (fun row member lower reached => ?_) enough
      exact (rowToTask_ok_iff (store.join row)).mpr (readable row member lower reached)
    · exact followFull_comesOut (tasksDistinct query) (clampLimit_pos query.limit) isPage monotone
        stopped
  · intro limit nows monotone
    have isPage : ∀ since now, listLists db store now ⟨some since, limit⟩ =
        renderPage listOfRow (deltaPage listKeys (clampLimit limit) now
          (windowOf listKeys (matchingLists db store) since now)) := by
      intro since now
      have delta : (⟨some since, limit⟩ : ListQuery).since = some since := rfl
      exact listLists_delta delta
    refine ⟨fun enough => ?_, fun received stopped => ?_⟩
    · exact followFull_stops listsDistinct (clampLimit_pos limit) isPage nows since
        (fun row _ _ _ => ⟨rowToList row, rfl⟩) enough
    · exact followFull_comesOut listsDistinct (clampLimit_pos limit) isPage monotone stopped

/-- The second call receives two tasks of one millisecond. -/
theorem tiedTasks_chain_stops :
    ∃ received, chainTasks singleUser tiedTasks { limit := some 1 } 0 (List.replicate 4 3000) =
        .ok (some received) ∧ received.items.map Task.id = [['a'], ['b'], ['c']] ∧
      ComesOut (tiedTasks.task singleUser)
        (windowOf taskKeys (matchingTasks singleUser tiedTasks { limit := some 1 }) 0
          received.stoppedAt) received.items := by
  have readable : ∀ row ∈ matchingTasks singleUser tiedTasks { limit := some 1 },
      Readable singleUser.linkModel row := by
    intro row member
    have stored := (mem_matchingTasks.mp member).1
    simp only [tiedTasks, List.mem_cons, List.not_mem_nil, or_false] at stored
    rcases stored with rfl | rfl | rfl
    · exact plainTask_readable _ _ _
    · exact plainTask_readable _ _ _
    · exact plainTask_readable _ _ _
  have law := (delta_chain_law singleUser tiedTasks 0).2.2.1 { limit := some 1 }
    (List.replicate 4 3000) (by decide)
  obtain ⟨received, stopped⟩ := law.1 (fun row member _ _ => readable row member) (by decide)
  refine ⟨received, stopped, ?_, (law.2 received stopped).2⟩
  cases stopped
  rfl

def strangeStatus : Store :=
  ⟨⟨[{ plainTask ['a'] 1000 with status := some ['?'] }], by decide⟩, .empty⟩

/-- However often the client calls, the row stops its chain with an error. -/
theorem strange_status_stops_chain :
    ¬ ∃ calls received, chainTasks singleUser strangeStatus { limit := some 1 } 0
      (List.replicate calls 2000) = .ok (some received) := by
  intro ⟨calls, received, stopped⟩
  cases calls with
  | zero => cases stopped
  | succ calls => cases stopped

end SupernoteTaskService
