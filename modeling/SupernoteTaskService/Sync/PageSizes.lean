import SupernoteTaskService.Foundation.FullPages
import SupernoteTaskService.Foundation.PageExtent
import SupernoteTaskService.Repository.Lists
import SupernoteTaskService.Repository.Tasks

/-!
# How many rows one read loads

`list_tasks` and `list_lists` fetch the rows of a capped query, map them, and in delta mode
fetch what is left of the last millisecond when the page has only that one.  The second
query has no limit, so a read is capped exactly when it has not that many rows to drain.
-/

set_option autoImplicit false

namespace SupernoteTaskService

open Foundation

theorem clampLimit_le (limit : Option ℤ) : clampLimit limit ≤ MAX_PAGE_LIMIT := by
  cases limit with
  | none => decide
  | some limit =>
      unfold clampLimit MAX_PAGE_LIMIT
      dsimp only
      omega

/-! ## The rows that a read fetches -/

section Loaded
variable {ρ α : Type}

/-- The rows of the page, and those of the drain where the page asks for one.  A page with
a row that does not map has raised before that. -/
def loadedRows (render : ρ → Except Raised α) (stamp : α → ℤ) (effectiveLimit : ℕ) (delta : Bool)
    (rows : List ρ) (drain : α → List ρ) : List ρ :=
  match rows.mapM render with
  | .error _ => rows
  | .ok items =>
      match if delta && isSingleMsFullPage (items.map stamp) effectiveLimit then items.getLast?
        else none with
      | some last => rows ++ drain last
      | none => rows

variable {render : ρ → Except Raised α} {stamp : α → ℤ} {effectiveLimit : ℕ} {rows : List ρ}
  {drain : α → List ρ}

theorem assemblePage_items (serverNow : ℤ) (delta : Bool) :
    Except.map Page.items (assemblePage render stamp effectiveLimit serverNow delta rows drain) =
      (loadedRows render stamp effectiveLimit delta rows drain).mapM render := by
  unfold assemblePage loadedRows
  cases mapped : rows.mapM render with
  | error e =>
      dsimp only
      rw [mapped]
      rfl
  | ok items =>
      simp only [bind, Except.bind]
      cases (if (delta && isSingleMsFullPage (items.map stamp) effectiveLimit) = true then
          items.getLast? else none) with
      | some last =>
          dsimp only
          rw [List.mapM_append, mapped]
          simp only [bind, Except.bind]
          cases (drain last).mapM render with
          | error e => rfl
          | ok drained => rfl
      | none =>
          dsimp only
          rw [mapped]
          rfl

theorem assemblePage_mapped {serverNow : ℤ} {delta : Bool} {page : Page α}
    (answered : assemblePage render stamp effectiveLimit serverNow delta rows drain = .ok page) :
    (loadedRows render stamp effectiveLimit delta rows drain).mapM render = .ok page.items := by
  have items : Except.map Page.items
      (assemblePage render stamp effectiveLimit serverNow delta rows drain) =
        (loadedRows render stamp effectiveLimit delta rows drain).mapM render :=
    assemblePage_items serverNow delta
  rw [← items, answered]
  rfl

theorem assemblePage_length {serverNow : ℤ} {delta : Bool} {page : Page α}
    (answered : assemblePage render stamp effectiveLimit serverNow delta rows drain = .ok page) :
    page.items.length = (loadedRows render stamp effectiveLimit delta rows drain).length :=
  length_of_mapM_ok (assemblePage_mapped answered)

theorem loadedRows_snapshot : loadedRows render stamp effectiveLimit false rows drain = rows := by
  unfold loadedRows
  cases rows.mapM render with
  | error e => rfl
  | ok items => rfl

end Loaded

section Window
variable {ρ α : Type} {keys : Keyset ρ Text} {render : ρ → Except Raised α} {stamp : α → ℤ}

def PageRenders (keys : Keyset ρ Text) (limit : ℕ) (renders : ρ → Prop) (window : List ρ) : Prop :=
  ∀ row ∈ window, (window.countP fun other => keys.before other row) < limit → renders row

/-- The earliest stamp of the window carries more rows than the bound, behind a page that
maps. -/
def Overfull (keys : Keyset ρ Text) (limit bound : ℕ) (renders : ρ → Prop) (window : List ρ) :
    Prop :=
  (∃ m, (∀ row ∈ window, m ≤ keys.stamp row) ∧ bound < atStamp keys window m) ∧
    PageRenders keys limit renders window

/-- A delta read whose page maps fetches the rows of its keyset page. -/
theorem loadedRows_of_mapped (serverNow : ℤ)
    (keepsStamp : ∀ row item, render row = .ok item → stamp item = keys.stamp row)
    (limit : ℕ) (window : List ρ) {drain : α → List ρ}
    (drains : ∀ last item, last ∈ window → render last = .ok item →
      drain item = remainder keys window last) {items : List α}
    (mapped : ((keys.sort window).take limit).mapM render = .ok items) :
    loadedRows render stamp limit true ((keys.sort window).take limit) drain =
      (deltaPage keys limit serverNow window).items := by
  have inWindow : ∀ row ∈ (keys.sort window).take limit, row ∈ window := by
    intro row member
    exact keys.mem_sort.mp (List.mem_of_mem_take member)
  rw [deltaPage_eq_rowPage]
  unfold loadedRows rowPage
  generalize (keys.sort window).take limit = rows at *
  have stamps := map_eq_of_mapM_ok keepsStamp mapped
  rw [mapped]
  dsimp only
  rw [stamps]
  cases isSingleMsFullPage (rows.map keys.stamp) limit with
  | false => rfl
  | true =>
      simp only [Bool.and_self, if_true]
      cases ends : rows.getLast? with
      | none =>
          rw [List.getLast?_eq_none_iff] at ends
          subst ends
          cases mapped
          rfl
      | some last =>
          obtain ⟨item, itemsEnd, itemMapped⟩ := getLast_of_mapM_ok mapped ends
          rw [itemsEnd]
          dsimp only
          rw [drains last item (inWindow last (List.mem_of_getLast? ends)) itemMapped]

/-- A delta read fetches more rows than a bound, which its limit keeps, exactly when its
window is overfull. -/
theorem loadedRows_length_le_iff
    (keepsStamp : ∀ row item, render row = .ok item → stamp item = keys.stamp row)
    {limit bound : ℕ} (positive : 0 < limit) (atLeast : limit ≤ bound) {window : List ρ}
    (distinct : (window.map keys.tie).Nodup) {drain : α → List ρ}
    (drains : ∀ last item, last ∈ window → render last = .ok item →
      drain item = remainder keys window last)
    {renders : ρ → Prop} (rendersIff : ∀ row, (∃ item, render row = .ok item) ↔ renders row) :
    (loadedRows render stamp limit true ((keys.sort window).take limit) drain).length ≤ bound ↔
      ¬ Overfull keys limit bound renders window := by
  have pageRenders : PageRenders keys limit renders window ↔
      ∃ items, ((keys.sort window).take limit).mapM render = .ok items := by
    rw [mapM_ok_iff_forall]
    constructor
    · intro all row onPage
      obtain ⟨member, few⟩ := (mem_take_sort_iff limit distinct row).mp onPage
      exact (rendersIff row).mpr (all row member few)
    · intro all row member few
      exact (rendersIff row).mp (all row ((mem_take_sort_iff limit distinct row).mpr ⟨member, few⟩))
  unfold Overfull
  rw [pageRenders]
  cases mapped : ((keys.sort window).take limit).mapM render with
  | error e =>
      have fetched : loadedRows render stamp limit true ((keys.sort window).take limit) drain =
          (keys.sort window).take limit := by
        unfold loadedRows
        rw [mapped]
      rw [fetched]
      apply iff_of_true ((List.length_take_le _ _).trans atLeast)
      intro ⟨_, items, impossible⟩
      cases impossible
  | ok items =>
      rw [loadedRows_of_mapped 0 keepsStamp limit window drains mapped,
        deltaPage_length_le_iff positive atLeast distinct]
      simp

end Window

/-! ## Tasks and lists -/

section Reads
variable (db : Database) (store : Store) (serverNow : ℤ)

/-- The rows that `list_tasks` fetches. -/
def loadedTaskRows (query : TaskQuery) : List TaskRow :=
  loadedRows (store.task db) Task.lastModified (clampLimit query.limit) query.since.isSome
    (taskPageRows db store serverNow query)
    fun last => drainTasksAt db store query last.lastModified last.id

def loadedListRows (query : ListQuery) : List ListRow :=
  loadedRows listOfRow TaskList.lastModified (clampLimit query.limit) query.since.isSome
    (listPageRows db store serverNow query)
    fun last => drainListsAt db store last.lastModified last.id

variable {db store serverNow}

theorem loadedTaskRows_length_le_iff (query : TaskQuery) {bound : ℕ}
    (atLeast : clampLimit query.limit ≤ bound) :
    (loadedTaskRows db store serverNow query).length ≤ bound ↔
      ∀ since, query.since = some since →
        ¬ Overfull taskKeys (clampLimit query.limit) bound (Readable db.linkModel)
          (windowOf taskKeys (matchingTasks db store query) since serverNow) := by
  unfold loadedTaskRows taskPageRows
  cases mode : query.since with
  | none =>
      rw [Option.isSome_none, loadedRows_snapshot]
      apply iff_of_true ((List.length_take_le _ _).trans atLeast)
      intro since impossible
      cases impossible
  | some since =>
      have stamped : ∀ row ∈ windowOf taskKeys (matchingTasks db store query) since serverNow,
          ∃ m, row.lastModified = some m := by
        intro row member
        obtain ⟨-, -, -, rowStamped⟩ := mem_matchingTasks.mp (mem_windowOf.mp member).1
        exact rowStamped
      have keepsStamp : ∀ row task, store.task db row = .ok task →
          task.lastModified = taskKeys.stamp row := by
        intro row task mapped
        exact rowToTask_lastModified mapped
      have maps : ∀ row, (∃ task, store.task db row = .ok task) ↔ Readable db.linkModel row := by
        intro row
        exact rowToTask_ok_iff (store.join row)
      rw [select_where_delta mode, orderByStamp_eq_sort stamped, Option.isSome_some,
        loadedRows_length_le_iff keepsStamp (clampLimit_pos _) atLeast
          (windowOf_ties_nodup (matchingTasks_ties_nodup db store query) since serverNow)
          (fun last task member mapped => drainTasksAt_eq_remainder member mapped) maps]
      simp

theorem listTasks_length {query : TaskQuery} {page : Page Task}
    (answered : listTasks db store serverNow query = .ok page) :
    page.items.length = (loadedTaskRows db store serverNow query).length :=
  assemblePage_length answered

theorem loadedListRows_length_le_iff (query : ListQuery) {bound : ℕ}
    (atLeast : clampLimit query.limit ≤ bound) :
    (loadedListRows db store serverNow query).length ≤ bound ↔
      ∀ since, query.since = some since →
        ¬ Overfull listKeys (clampLimit query.limit) bound (fun _ => True)
          (windowOf listKeys (matchingLists db store) since serverNow) := by
  unfold loadedListRows
  cases mode : query.since with
  | none =>
      rw [Option.isSome_none, loadedRows_snapshot]
      apply iff_of_true ((List.length_take_le _ _).trans atLeast)
      intro since impossible
      cases impossible
  | some since =>
      rw [listPageRows_delta mode, Option.isSome_some,
        loadedRows_length_le_iff (fun row list mapped => by cases mapped; rfl)
          (clampLimit_pos _) atLeast
          (windowOf_ties_nodup (matchingLists_ties_nodup db store) since serverNow)
          (fun last list member mapped => drainListsAt_eq_remainder member mapped)
          fun row => iff_true_intro ⟨rowToList row, rfl⟩]
      simp

theorem listLists_length {query : ListQuery} {page : Page TaskList}
    (answered : listLists db store serverNow query = .ok page) :
    page.items.length = (loadedListRows db store serverNow query).length +
      if query.since.isNone then 1 else 0 := by
  rw [listLists, bind_eq_ok_iff] at answered
  obtain ⟨rowsPage, assembled, same⟩ := answered
  rw [pure_eq_ok_iff] at same
  rw [loadedListRows, ← assemblePage_length assembled, ← same]
  cases query.since with
  | none => rfl
  | some since => rfl

end Reads

/-- A read keeps its limit, in what it fetches and in what it answers, exactly when it is
no delta read of a window overfull for that limit; and it keeps the greatest limit exactly
when its window is not overfull for that one. -/
theorem reads_capped_iff (db : Database) (store : Store) (serverNow : ℤ) :
    (∀ query : TaskQuery,
      ((loadedTaskRows db store serverNow query).length ≤ clampLimit query.limit ∧
          (∀ page, listTasks db store serverNow query = .ok page →
            page.items.length ≤ clampLimit query.limit) ↔
        ∀ since, query.since = some since →
          ¬ Overfull taskKeys (clampLimit query.limit) (clampLimit query.limit) (Readable db.linkModel)
            (windowOf taskKeys (matchingTasks db store query) since serverNow)) ∧
      ((loadedTaskRows db store serverNow query).length ≤ MAX_PAGE_LIMIT ↔
        ∀ since, query.since = some since →
          ¬ Overfull taskKeys (clampLimit query.limit) MAX_PAGE_LIMIT (Readable db.linkModel)
            (windowOf taskKeys (matchingTasks db store query) since serverNow))) ∧
    ∀ query : ListQuery,
      ((loadedListRows db store serverNow query).length ≤ clampLimit query.limit ∧
          (∀ page, listLists db store serverNow query = .ok page →
            page.items.length ≤ clampLimit query.limit + if query.since.isNone then 1 else 0) ↔
        ∀ since, query.since = some since →
          ¬ Overfull listKeys (clampLimit query.limit) (clampLimit query.limit) (fun _ => True)
            (windowOf listKeys (matchingLists db store) since serverNow)) ∧
      ((loadedListRows db store serverNow query).length ≤ MAX_PAGE_LIMIT ↔
        ∀ since, query.since = some since →
          ¬ Overfull listKeys (clampLimit query.limit) MAX_PAGE_LIMIT (fun _ => True)
            (windowOf listKeys (matchingLists db store) since serverNow)) := by
  constructor
  · intro query
    constructor
    · rw [← loadedTaskRows_length_le_iff query le_rfl]
      constructor
      · intro ⟨fetched, _⟩
        exact fetched
      · intro fetched
        apply And.intro fetched
        intro page answered
        rw [listTasks_length answered]
        exact fetched
    · exact loadedTaskRows_length_le_iff query (clampLimit_le query.limit)
  · intro query
    constructor
    · rw [← loadedListRows_length_le_iff query le_rfl]
      constructor
      · intro ⟨fetched, _⟩
        exact fetched
      · intro fetched
        apply And.intro fetched
        intro page answered
        rw [listLists_length answered]
        exact Nat.add_le_add_right fetched _
    · exact loadedListRows_length_le_iff query (clampLimit_le query.limit)

/-- A page of one row drains the other row of its millisecond. -/
theorem sameMillisecond_exceeds_limit :
    let query : TaskQuery := { since := some 0, limit := some 1 }
    clampLimit query.limit = 1 ∧ (loadedTaskRows singleUser sameMillisecond 3000 query).length = 2 ∧
      ∃ page, listTasks singleUser sameMillisecond 3000 query = .ok page ∧ page.items.length = 2 := by
  intro query
  exact ⟨rfl, rfl, _, rfl, rfl⟩

end SupernoteTaskService
