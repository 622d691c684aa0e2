import SupernoteTaskService.Repository.Paging
import SupernoteTaskService.Repository.Rows

/-!
# List statements

Each operation of the repository on lists.  A snapshot is ordered by title and
starts with the implicit Inbox, which is no row; a delta read is ordered by stamp
and id like the one of the tasks.
-/

set_option autoImplicit false

namespace SupernoteTaskService

open Foundation

/-! ## Reads -/

structure ListQuery where
  since : Option ℤ := none
  limit : Option ℤ := none
  deriving DecidableEq

/-- The list that no row stands for. -/
def inbox : TaskList := ⟨none, "Inbox".toList, 0, false⟩

section Reads
variable (db : Database) (store : Store)

/-- The order of titles, NULL first. -/
def titleOrder (left right : ListRow) : Bool :=
  match left.title, right.title with
  | none, _ => true
  | some _, none => false
  | some left, some right => db.collation.le left right

def orderByTitle (rows : List ListRow) : List ListRow :=
  rows.insertionSort fun left right => titleOrder db left right = true

/-- The rows of the query of `list_lists`. -/
def listPageRows (serverNow : ℤ) (query : ListQuery) : List ListRow :=
  let rows := match query.since with
    | some since =>
        orderByStamp ListRow.lastModified ListRow.taskListId (store.lists.select fun row =>
          decide (row.userId = some db.userId) &&
            stampedWithin since serverNow row.lastModified)
    | none => orderByTitle db (store.lists.select (ListRow.isActive db.userId))
  rows.take (clampLimit query.limit)

def drainListsAt (boundary : ℤ) (afterId : Option Text) : List ListRow :=
  orderById ListRow.taskListId (store.lists.select fun row =>
    decide (row.userId = some db.userId) && decide (row.lastModified = some boundary) &&
      (match afterId with
        | some afterId => decide (afterId < row.taskListId)
        | none => false))

def listOfRow (row : ListRow) : Except Raised TaskList := .ok (rowToList row)

def listLists (serverNow : ℤ) (query : ListQuery) : Except Raised (Page TaskList) := do
  let page ← assemblePage listOfRow TaskList.lastModified (clampLimit query.limit) serverNow
    query.since.isSome (listPageRows db store serverNow query)
    fun last => drainListsAt db store last.lastModified last.id
  let includeInbox := query.since.isNone
  return { page with items := if includeInbox then inbox :: page.items else page.items }

def activeList (listId : Text) : Option ListRow :=
  (store.lists.get listId).filter (ListRow.isActive db.userId)

def getList (listId : Text) : Option TaskList := (activeList db store listId).map rowToList

def listExists (listId : Text) : Bool := (activeList db store listId).isSome

/-- The oldest active list whose stored title is the encoded one. -/
def getListByTitle (title : Text) : Option TaskList :=
  (orderByStamp ListRow.lastModified ListRow.taskListId (store.lists.select fun row =>
    decide (row.title = some (encodeEmoji title)) && row.isActive db.userId)).head?.map rowToList

variable {db store}

theorem mem_listPageRows {serverNow : ℤ} {query : ListQuery} {row : ListRow}
    (onPage : row ∈ listPageRows db store serverNow query) : row ∈ store.lists.rows := by
  have selected := List.mem_of_mem_take onPage
  split at selected
  · exact ((store.lists.mem_select _ row).mp (mem_orderByStamp.mp selected)).1
  · exact ((store.lists.mem_select _ row).mp ((List.mem_insertionSort _).mp selected)).1

theorem mem_drainListsAt {boundary : ℤ} {afterId : Option Text} {row : ListRow}
    (drained : row ∈ drainListsAt db store boundary afterId) : row ∈ store.lists.rows := by
  have selected := (List.mem_insertionSort _).mp drained
  exact ((store.lists.mem_select _ row).mp selected).1

theorem activeList_eq_some_iff {listId : Text} {row : ListRow} :
    activeList db store listId = some row ↔
      store.lists.get listId = some row ∧ row.isActive db.userId = true := by
  rw [activeList, Option.filter_eq_some_iff]

theorem getListByTitle_eq_none_iff {title : Text} :
    getListByTitle db store title = none ↔
      ∀ row ∈ store.lists.rows, row.isActive db.userId = true →
        row.title ≠ some (encodeEmoji title) := by
  rw [getListByTitle, Option.map_eq_none_iff, List.head?_eq_none_iff,
    List.eq_nil_iff_forall_not_mem]
  simp only [mem_orderByStamp, KeyedTable.mem_select, Bool.and_eq_true, decide_eq_true_eq]
  constructor
  · intro nothing row member active stored
    exact nothing row ⟨member, stored, active⟩
  · intro unused row ⟨member, stored, active⟩
    exact unused row member active stored

theorem getListByTitle_eq_some {title : Text} {list : TaskList}
    (found : getListByTitle db store title = some list) :
    ∃ row ∈ store.lists.rows, row.isActive db.userId = true ∧
      row.title = some (encodeEmoji title) ∧ list = rowToList row := by
  rw [getListByTitle, Option.map_eq_some_iff] at found
  obtain ⟨row, isHead, rfl⟩ := found
  have member := mem_orderByStamp.mp (List.mem_of_head? isHead)
  simp only [KeyedTable.mem_select, Bool.and_eq_true, decide_eq_true_eq] at member
  exact ⟨row, member.1, member.2.2, member.2.1, rfl⟩

end Reads

/-! ## Writes -/

def newListRow (db : Database) (listId : Text) (ts : ℤ) (title : Text) : ListRow where
  taskListId := listId
  userId := some db.userId
  title := some (encodeEmoji title)
  lastModified := some ts
  isDeleted := some NO
  createTime := some ts

section Writes
variable (db : Database) (store : Store)

def createList (listId : Text) (ts : ℤ) (title : Text) : Except Raised (Text × Store) :=
  match store.lists.insert (newListRow db listId ts title) with
  | some lists => .ok (listId, { store with lists := lists })
  | none => .error .databaseError

def updateList (now : ℤ) (listId title : Text) (expectedLastModified : Option ℤ) : Bool × Store :=
  executeListUpdate db store expectedLastModified
    [.title (encodeEmoji title), .lastModified now] listId

def deleteList (now : ℤ) (listId : Text) (expectedLastModified : Option ℤ) : Bool × Store :=
  executeListUpdate db store expectedLastModified [.isDeleted YES, .lastModified now] listId

end Writes

/-! ## A delta read is a keyset page -/

section Delta
variable {db : Database} {store : Store} {serverNow since : ℤ} {query : ListQuery}

abbrev listKeys : Keyset ListRow Text := stampKeys ListRow.lastModified ListRow.taskListId

variable (db store) in
def matchingLists : List ListRow :=
  store.lists.select fun row => decide (row.userId = some db.userId) && row.lastModified.isSome

theorem mem_matchingLists {row : ListRow} :
    row ∈ matchingLists db store ↔
      row ∈ store.lists.rows ∧ row.userId = some db.userId ∧ ∃ m, row.lastModified = some m := by
  simp only [matchingLists, KeyedTable.mem_select, Bool.and_eq_true, decide_eq_true_eq,
    Option.isSome_iff_exists]

variable (db store) in
theorem matchingLists_ties_nodup : ((matchingLists db store).map listKeys.tie).Nodup :=
  store.lists.select_keys_nodup _

theorem drainListsAt_eq_remainder {last : ListRow} {list : TaskList}
    (member : last ∈ windowOf listKeys (matchingLists db store) since serverNow)
    (mapped : listOfRow last = .ok list) :
    drainListsAt db store list.lastModified list.id =
      remainder listKeys (windowOf listKeys (matchingLists db store) since serverNow) last := by
  obtain ⟨lastMatching, lower, upper⟩ := mem_windowOf.mp member
  obtain ⟨-, -, m, stamped⟩ := mem_matchingLists.mp lastMatching
  cases mapped
  rw [stampKeys_stamp stamped] at lower upper
  unfold matchingLists KeyedTable.select
  rw [← drain_eq_remainder store.lists.rows (fun row => decide (row.userId = some db.userId))
    stamped lower upper, drainListsAt]
  simp only [rowToList, stamped, Option.getD_some]
  rfl

theorem listPageRows_delta (delta : query.since = some since) :
    listPageRows db store serverNow query =
      (listKeys.sort (windowOf listKeys (matchingLists db store) since serverNow)).take
        (clampLimit query.limit) := by
  have stamped : ∀ row ∈ windowOf listKeys (matchingLists db store) since serverNow,
      ∃ m, row.lastModified = some m := by
    intro row member
    exact (mem_matchingLists.mp (mem_windowOf.mp member).1).2.2
  rw [← orderByStamp_eq_sort stamped]
  simp only [listPageRows, delta, matchingLists, KeyedTable.select, ← filter_stampedWithin]

theorem listLists_delta (delta : query.since = some since) :
    listLists db store serverNow query =
      renderPage listOfRow (deltaPage listKeys (clampLimit query.limit) serverNow
        (windowOf listKeys (matchingLists db store) since serverNow)) := by
  have page : assemblePage listOfRow TaskList.lastModified (clampLimit query.limit) serverNow true
      ((listKeys.sort (windowOf listKeys (matchingLists db store) since serverNow)).take
        (clampLimit query.limit))
      (fun last => drainListsAt db store last.lastModified last.id) =
      renderPage listOfRow (deltaPage listKeys (clampLimit query.limit) serverNow
        (windowOf listKeys (matchingLists db store) since serverNow)) :=
    assemblePage_delta (fun row list mapped => by cases mapped; rfl) _ _ _
      fun last list member mapped => drainListsAt_eq_remainder member mapped
  unfold listLists
  rw [listPageRows_delta delta, delta, Option.isSome_some, page]
  cases renderPage listOfRow (deltaPage listKeys (clampLimit query.limit) serverNow
      (windowOf listKeys (matchingLists db store) since serverNow)) with
  | error e => rfl
  | ok page => rfl

end Delta

end SupernoteTaskService
