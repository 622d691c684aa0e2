import SupernoteTaskService.Foundation.PageExtent
import SupernoteTaskService.Repository.Operations
import SupernoteTaskService.Sync.Delivery

/-!
# Delta reads query by query

A delta call reads the clock, selects a page, and completes a full page on one millisecond with
a second query.  Other requests change the tables before, between and after the queries.  The
two queries of one call may so see different tables, and still the cursors of a client never
pass a row that it has not received, as long as no millisecond is written to after the page on
it was selected.
-/

set_option autoImplicit false

namespace SupernoteTaskService

open Foundation

/-- What the delta modes of `list_tasks` and `list_lists` differ in: the two queries, and the
mapping of their rows. -/
structure DeltaRead (ρ α : Type) where
  pageRows : Store → (serverNow since : ℤ) → (limit : Option ℤ) → List ρ
  drainAt : Store → α → List ρ
  render : Store → ρ → Except Raised α
  stamp : α → ℤ

def taskRead (db : Database) (query : TaskQuery) : DeltaRead TaskRow Task where
  pageRows store serverNow since limit :=
    taskPageRows db store serverNow { query with since := some since, limit := limit }
  drainAt store last := drainTasksAt db store query last.lastModified last.id
  render := Store.task db
  stamp := Task.lastModified

def listRead (db : Database) : DeltaRead ListRow TaskList where
  pageRows store serverNow since limit := listPageRows db store serverNow ⟨some since, limit⟩
  drainAt store last := drainListsAt db store last.lastModified last.id
  render _ := listOfRow
  stamp := TaskList.lastModified

inductive CallStage (α : Type) where
  | idle
  | begun (serverNow : ℤ) (limit : Option ℤ)
  | draining (items : List α) (last : α)

structure ReadState (α : Type) where
  store : Store
  since : ℤ
  received : List α
  stage : CallStage α

/-- A call that is not answered yet is given up for a new one. -/
inductive ReadEvent where
  | operation (operation : Operation)
  | call (limit : Option ℤ)
  | query
  deriving DecidableEq

section Model
variable {ρ α : Type}

def ReadState.answer (state : ReadState α) (page : Page α) : ReadState α :=
  { state with since := page.cursor, received := state.received ++ page.items, stage := .idle }

def ReadState.finish (state : ReadState α) : Except Raised (Page α) → ReadState α
  | .ok page => state.answer page
  | .error _ => { state with stage := .idle }

/-- The next query of the call.  A row that cannot be mapped ends the call with an error. -/
def DeltaRead.query (read : DeltaRead ρ α) (state : ReadState α) : ReadState α :=
  match state.stage with
  | .idle => state
  | .begun serverNow limit =>
      match (read.pageRows state.store serverNow state.since limit).mapM
          (read.render state.store) with
      | .error _ => { state with stage := .idle }
      | .ok items =>
          let stamps := items.map read.stamp
          match if isSingleMsFullPage stamps (clampLimit limit) then items.getLast? else none with
          | some last => { state with stage := .draining items last }
          | none => state.answer ⟨items, pageCursor stamps (clampLimit limit) serverNow,
              isFullPage stamps (clampLimit limit)⟩
  | .draining items last =>
      match (read.drainAt state.store last).mapM (read.render state.store) with
      | .error _ => { state with stage := .idle }
      | .ok drained => state.answer ⟨items ++ drained, read.stamp last + 1, false⟩

variable (db : Database) (read : DeltaRead ρ α)

def readStep (state : ReadState α) (step : Timed ReadEvent) : ReadState α :=
  match step.event with
  | .operation operation => { state with store := (operation.run db state.store step.clock).2 }
  | .call limit => { state with stage := .begun step.clock limit }
  | .query => read.query state

/-! ## A call alone -/

variable {db read}

/-- With nobody between its queries, a call is the one that reads the tables once. -/
theorem readStep_alone (state : ReadState α) (limit : Option ℤ) (now later latest : ℤ) :
    [⟨now, .call limit⟩, ⟨later, .query⟩, ⟨latest, .query⟩].foldl (readStep db read) state =
      state.finish (assemblePage (read.render state.store) read.stamp (clampLimit limit) now true
        (read.pageRows state.store now state.since limit) (read.drainAt state.store)) := by
  simp only [List.foldl_cons, List.foldl_nil, readStep, DeltaRead.query, assemblePage,
    Bool.true_and, bind, Except.bind]
  cases (read.pageRows state.store now state.since limit).mapM (read.render state.store) with
  | error raised => rfl
  | ok items =>
      dsimp only
      generalize (if isSingleMsFullPage (items.map read.stamp) (clampLimit limit) = true
        then items.getLast? else none) = boundary
      cases boundary with
      | none => rfl
      | some last =>
          dsimp only
          cases (read.drainAt state.store last).mapM (read.render state.store) with
          | error raised => rfl
          | ok drained => rfl

theorem taskRead_alone (query : TaskQuery) (state : ReadState Task) (limit : Option ℤ)
    (now later latest : ℤ) :
    [⟨now, .call limit⟩, ⟨later, .query⟩, ⟨latest, .query⟩].foldl
        (readStep db (taskRead db query)) state =
      state.finish (listTasks db state.store now
        { query with since := some state.since, limit := limit }) :=
  readStep_alone state limit now later latest

theorem listRead_alone (state : ReadState TaskList) (limit : Option ℤ) (now later latest : ℤ) :
    [⟨now, .call limit⟩, ⟨later, .query⟩, ⟨latest, .query⟩].foldl
        (readStep db (listRead db)) state =
      state.finish (listLists db state.store now ⟨some state.since, limit⟩) := by
  rw [readStep_alone]
  have whole : listLists db state.store now ⟨some state.since, limit⟩ =
      assemblePage listOfRow TaskList.lastModified (clampLimit limit) now true
        (listPageRows db state.store now ⟨some state.since, limit⟩)
        (fun last => drainListsAt db state.store last.lastModified last.id) := by
    simp only [listLists, Option.isSome_some]
    generalize assemblePage listOfRow TaskList.lastModified (clampLimit limit) now true
      (listPageRows db state.store now ⟨some state.since, limit⟩)
      (fun last => drainListsAt db state.store last.lastModified last.id) = page
    cases page with
    | error raised => rfl
    | ok page => rfl
  rw [whole]
  rfl

end Model

/-! ## What both reads rely on -/

section Laws
variable {ρ α : Type} (db : Database) (read : DeltaRead ρ α) (keys : Keyset ρ Text)
  (rowsOf : Store → List ρ) (behind : α → ρ → Prop)

/-- The queries select from the matching rows by stamp and id, and an operation leaves a
matching row as it was or stamps it with its clock. -/
structure DeltaRead.Lawful : Prop where
  page : ∀ store serverNow since limit, read.pageRows store serverNow since limit =
    (keys.sort (windowOf keys (rowsOf store) since serverNow)).take (clampLimit limit)
  drain : ∀ store last row, row ∈ read.drainAt store last ↔
    row ∈ rowsOf store ∧ keys.stamp row = read.stamp last ∧ behind last row
  behind : ∀ store row item other, read.render store row = .ok item →
    (behind item other ↔ keys.tie row < keys.tie other)
  stamp : ∀ store row item, read.render store row = .ok item → read.stamp item = keys.stamp row
  distinct : ∀ store, ((rowsOf store).map keys.tie).Nodup
  writes : ∀ (operation : Operation) store now row,
    row ∈ rowsOf (operation.run db store now).2 → row ∈ rowsOf store ∨ keys.stamp row = now

def DeltaRead.Shows (row : ρ) (item : α) : Prop := ∃ store, read.render store row = .ok item

end Laws

section Lawful
variable {db : Database}

theorem taskRead_lawful (query : TaskQuery) :
    (taskRead db query).Lawful db taskKeys (fun store => matchingTasks db store query)
      fun last row => last.id < row.taskId where
  page store serverNow since limit := by
    have delta : ({ query with since := some since, limit := limit } : TaskQuery).since =
        some since := rfl
    have stamped : ∀ row ∈ windowOf taskKeys (matchingTasks db store query) since serverNow,
        ∃ m, row.lastModified = some m := by
      intro row member
      exact (mem_matchingTasks.mp (mem_windowOf.mp member).1).2.2.2
    rw [← orderByStamp_eq_sort stamped]
    exact congrArg (fun rows => (orderByStamp _ _ rows).take _) (select_where_delta delta)
  drain store last row := by
    rw [mem_matchingTasks]
    simp only [taskRead, drainTasksAt, orderById, List.mem_insertionSort, KeyedTable.mem_select,
      Bool.and_eq_true, decide_eq_true_eq]
    constructor
    · rintro ⟨stored, ⟨⟨owned, stamped⟩, after⟩, filtered⟩
      exact ⟨⟨stored, owned, filtered, _, stamped⟩, stampKeys_stamp stamped, after⟩
    · rintro ⟨⟨stored, owned, filtered, m, stamped⟩, same, after⟩
      rw [stampKeys_stamp stamped] at same
      rw [same] at stamped
      exact ⟨stored, ⟨⟨owned, stamped⟩, after⟩, filtered⟩
  behind store row item other mapped := by
    rw [rowToTask_id mapped]
    exact Iff.rfl
  stamp store row item mapped := rowToTask_lastModified mapped
  distinct store := matchingTasks_ties_nodup db store query
  writes operation store now row member := by
    obtain ⟨stored, owned, filtered, m, stamped⟩ := mem_matchingTasks.mp member
    have found := ((operation.run db store now).2.tasks.get_eq_some_iff row.taskId row).mpr
      ⟨stored, rfl⟩
    rcases operation.get_task_cases db store now row.taskId with same | ⟨new, isNew, -, clocked⟩
    · rw [same] at found
      have before := ((store.tasks.get_eq_some_iff row.taskId row).mp found).1
      exact Or.inl (mem_matchingTasks.mpr ⟨before, owned, filtered, m, stamped⟩)
    · rw [isNew] at found
      cases found
      exact Or.inr (stampKeys_stamp clocked)

theorem listRead_lawful :
    (listRead db).Lawful db listKeys (matchingLists db)
      fun last row => ∃ id, last.id = some id ∧ id < row.taskListId where
  page store serverNow since limit := by
    have delta : (⟨some since, limit⟩ : ListQuery).since = some since := rfl
    exact listPageRows_delta delta
  drain store last row := by
    rw [mem_matchingLists]
    simp only [listRead, drainListsAt, orderById, List.mem_insertionSort, KeyedTable.mem_select,
      Bool.and_eq_true, decide_eq_true_eq]
    constructor
    · rintro ⟨stored, ⟨owned, stamped⟩, after⟩
      refine ⟨⟨stored, owned, _, stamped⟩, stampKeys_stamp stamped, ?_⟩
      cases named : last.id with
      | none =>
          rw [named] at after
          cases after
      | some id =>
          rw [named] at after
          exact ⟨id, rfl, decide_eq_true_eq.mp after⟩
    · rintro ⟨⟨stored, owned, m, stamped⟩, same, id, named, after⟩
      rw [stampKeys_stamp stamped] at same
      rw [same] at stamped
      rw [named]
      exact ⟨stored, ⟨owned, stamped⟩, decide_eq_true_eq.mpr after⟩
  behind store row item other mapped := by
    cases mapped
    constructor
    · rintro ⟨id, named, after⟩
      cases named
      exact after
    · exact fun after => ⟨row.taskListId, rfl, after⟩
  stamp store row item mapped := by
    cases mapped
    rfl
  distinct store := matchingLists_ties_nodup db store
  writes operation store now row member := by
    obtain ⟨stored, owned, m, stamped⟩ := mem_matchingLists.mp member
    have found := ((operation.run db store now).2.lists.get_eq_some_iff row.taskListId row).mpr
      ⟨stored, rfl⟩
    rcases operation.get_list_cases db store now row.taskListId with same | ⟨new, isNew, -, clocked⟩
    · rw [same] at found
      have before := ((store.lists.get_eq_some_iff row.taskListId row).mp found).1
      exact Or.inl (mem_matchingLists.mpr ⟨before, owned, m, stamped⟩)
    · rw [isNew] at found
      cases found
      exact Or.inr (stampKeys_stamp clocked)

end Lawful

/-! ## One query -/

section Query
variable {ρ α : Type} {db : Database} {read : DeltaRead ρ α} {keys : Keyset ρ Text}
  {rowsOf : Store → List ρ} {behind : α → ρ → Prop} {store : Store} {serverNow since : ℤ}
  {limit : Option ℤ} {items : List α}

/-- What a query makes of the call. -/
inductive QueryEffect (read : DeltaRead ρ α) (state : ReadState α) : ReadState α → Prop
  | givenUp : QueryEffect read state { state with stage := .idle }
  | answered (serverNow : ℤ) (limit : Option ℤ) (items : List α)
      (begun : state.stage = .begun serverNow limit)
      (mapped : (read.pageRows state.store serverNow state.since limit).mapM
        (read.render state.store) = .ok items) (hasMore : Bool) :
      QueryEffect read state
        (state.answer
          ⟨items, pageCursor (items.map read.stamp) (clampLimit limit) serverNow, hasMore⟩)
  | draining (serverNow : ℤ) (limit : Option ℤ) (items : List α) (last : α)
      (begun : state.stage = .begun serverNow limit)
      (mapped : (read.pageRows state.store serverNow state.since limit).mapM
        (read.render state.store) = .ok items) (ends : items.getLast? = some last) :
      QueryEffect read state { state with stage := .draining items last }
  | drained (items : List α) (last : α) (drained : List α) (begun : state.stage = .draining items last)
      (mapped : (read.drainAt state.store last).mapM (read.render state.store) = .ok drained) :
      QueryEffect read state (state.answer ⟨items ++ drained, read.stamp last + 1, false⟩)

variable (read) in
theorem query_effect (state : ReadState α) : QueryEffect read state (read.query state) := by
  unfold DeltaRead.query
  cases stage : state.stage with
  | idle =>
      have same : state = { state with stage := .idle } := by rw [← stage]
      dsimp only
      nth_rewrite 2 [same]
      exact .givenUp
  | begun serverNow limit =>
      dsimp only
      cases mapped : (read.pageRows state.store serverNow state.since limit).mapM
          (read.render state.store) with
      | error raised => exact .givenUp
      | ok items =>
          dsimp only
          cases boundary : if isSingleMsFullPage (items.map read.stamp) (clampLimit limit) = true
              then items.getLast? else none with
          | none => exact .answered serverNow limit items stage mapped _
          | some last =>
              refine .draining serverNow limit items last stage mapped ?_
              split at boundary
              · exact boundary
              · cases boundary
  | draining items last =>
      dsimp only
      cases mapped : (read.drainAt state.store last).mapM (read.render state.store) with
      | error raised => exact .givenUp
      | ok drained => exact .drained items last drained stage mapped

theorem stamp_le_clock (lawful : read.Lawful db keys rowsOf behind)
    (mapped : (read.pageRows store serverNow since limit).mapM (read.render store) = .ok items)
    {item : α} (member : item ∈ items) : read.stamp item ≤ serverNow := by
  rw [lawful.page] at mapped
  obtain ⟨row, onPage, itemMapped⟩ := (mem_of_mapM_ok mapped item).mp member
  rw [lawful.stamp store row item itemMapped]
  exact (mem_windowOf.mp (keys.mem_sort.mp (List.mem_of_mem_take onPage))).2.2

theorem pageCursor_le (lawful : read.Lawful db keys rowsOf behind)
    (mapped : (read.pageRows store serverNow since limit).mapM (read.render store) = .ok items) :
    pageCursor (items.map read.stamp) (clampLimit limit) serverNow ≤ serverNow := by
  rw [pageCursor]
  split
  · rename_i last ends
    split
    · obtain ⟨item, member, rfl⟩ := List.mem_map.mp (List.mem_of_getLast? ends)
      exact stamp_le_clock lawful mapped member
    · exact le_rfl
  · exact le_rfl

/-- Up to its cursor, a page has the rows of the tables that it was selected from. -/
theorem page_covers (lawful : read.Lawful db keys rowsOf behind)
    (mapped : (read.pageRows store serverNow since limit).mapM (read.render store) = .ok items)
    {row : ρ} (matching : row ∈ rowsOf store) (lower : since ≤ keys.stamp row)
    (upper : keys.stamp row < pageCursor (items.map read.stamp) (clampLimit limit) serverNow) :
    ∃ item ∈ items, read.Shows row item := by
  have cursorLe := pageCursor_le lawful mapped
  rw [lawful.page] at mapped
  rw [map_eq_of_mapM_ok (lawful.stamp store) mapped] at upper cursorLe
  have member : row ∈ windowOf keys (rowsOf store) since serverNow :=
    mem_windowOf.mpr ⟨matching, lower, (upper.trans_le cursorLe).le⟩
  rcases page_or_behind (clampLimit limit) (windowOf_ties_nodup (lawful.distinct store) since serverNow)
    member with onPage | ⟨full, behindAll⟩
  · obtain ⟨item, itemMapped⟩ := mapM_ok_iff_forall.mp ⟨items, mapped⟩ row onPage
    exact ⟨item, (mem_of_mapM_ok mapped item).mpr ⟨row, onPage, itemMapped⟩, store, itemMapped⟩
  · -- A full page resumes at its last row, and the row does not come before that one.
    exfalso
    generalize (keys.sort (windowOf keys (rowsOf store) since serverNow)).take (clampLimit limit) =
      page at full behindAll upper
    obtain ⟨last, ends⟩ : ∃ last, page.getLast? = some last := by
      have positive := clampLimit_pos limit
      cases ends : page.getLast? with
      | some last => exact ⟨last, rfl⟩
      | none =>
          rw [List.getLast?_eq_none_iff.mp ends, List.length_nil] at full
          omega
    have before := behindAll last (List.mem_of_getLast? ends)
    simp only [pageCursor, List.getLast?_map, ends, Option.map_some, List.length_map, full,
      if_true] at upper
    simp only [Keyset.before, Bool.or_eq_true, Bool.and_eq_true, decide_eq_true_eq] at before
    omega

/-- Up to the stamp of its last row, a page has the rows of the tables that it was selected
from, or the drain of that row would read them there. -/
theorem page_covers_to_last (lawful : read.Lawful db keys rowsOf behind)
    (mapped : (read.pageRows store serverNow since limit).mapM (read.render store) = .ok items)
    {last : α} (ends : items.getLast? = some last) {row : ρ} (matching : row ∈ rowsOf store)
    (lower : since ≤ keys.stamp row) (upper : keys.stamp row ≤ read.stamp last) :
    (∃ item ∈ items, read.Shows row item) ∨ row ∈ read.drainAt store last := by
  have lastMem := List.mem_of_getLast? ends
  have lastLe := stamp_le_clock lawful mapped lastMem
  rw [lawful.page] at mapped
  obtain ⟨lastRow, lastOnPage, lastMapped⟩ := (mem_of_mapM_ok mapped last).mp lastMem
  have stamp := lawful.stamp store lastRow last lastMapped
  have member : row ∈ windowOf keys (rowsOf store) since serverNow :=
    mem_windowOf.mpr ⟨matching, lower, upper.trans lastLe⟩
  rcases page_or_behind (clampLimit limit) (windowOf_ties_nodup (lawful.distinct store) since serverNow)
    member with onPage | ⟨-, behindAll⟩
  · obtain ⟨item, itemMapped⟩ := mapM_ok_iff_forall.mp ⟨items, mapped⟩ row onPage
    exact Or.inl ⟨item, (mem_of_mapM_ok mapped item).mpr ⟨row, onPage, itemMapped⟩, store,
      itemMapped⟩
  · have before := behindAll lastRow lastOnPage
    simp only [Keyset.before, Bool.or_eq_true, Bool.and_eq_true, decide_eq_true_eq] at before
    rcases before with lower | ⟨same, after⟩
    · omega
    · exact Or.inr ((lawful.drain store last row).mpr ⟨matching, by omega,
        (lawful.behind store lastRow last row lastMapped).mpr after⟩)

end Query

/-! ## Whole runs -/

section Runs
variable {ρ α : Type} (db : Database) (read : DeltaRead ρ α)

def ChangesAfter (bound : ℤ) (state : ReadState α) (rest : List (Timed ReadEvent)) : Prop :=
  ∀ later step remaining, Happens (readStep db read) state rest later step remaining →
    (readStep db read later step).store ≠ later.store → bound < step.clock

/-- Once a full page on one millisecond is selected, no change of the tables reads that
millisecond. -/
def DrainsClosed (start : ReadState α) (run : List (Timed ReadEvent)) : Prop :=
  ∀ state step rest, Happens (readStep db read) start run state step rest →
    ∀ items last, (readStep db read state step).stage = .draining items last →
      ChangesAfter db read (read.stamp last) (readStep db read state step) rest

variable (keys : Keyset ρ Text) (rowsOf : Store → List ρ)

/-- The client has what is stamped from `lower` up to its cursor, and between the two queries of
a call the rows up to the drained millisecond are selected or still to be drained. -/
structure Gapless (lower : ℤ) (state : ReadState α) : Prop where
  received : ∀ row ∈ rowsOf state.store, lower ≤ keys.stamp row → keys.stamp row < state.since →
    ∃ item ∈ state.received, read.Shows row item
  draining : ∀ items last, state.stage = .draining items last → ∀ row ∈ rowsOf state.store,
    state.since ≤ keys.stamp row → keys.stamp row ≤ read.stamp last →
      (∃ item ∈ items, read.Shows row item) ∨ row ∈ read.drainAt state.store last

/-- What still changes the tables stays ahead of the cursor, and of the one to come. -/
structure Ahead (lower : ℤ) (state : ReadState α) (rest : List (Timed ReadEvent)) : Prop where
  since : state.since ≤ lower ∨ ChangesAfter db read (state.since - 1) state rest
  begun : ∀ serverNow limit, state.stage = .begun serverNow limit →
    ChangesAfter db read (serverNow - 1) state rest
  draining : ∀ items last, state.stage = .draining items last →
    ChangesAfter db read (read.stamp last) state rest

variable {db read keys rowsOf} {behind : α → ρ → Prop} {state : ReadState α} {lower bound : ℤ}
  {first : Timed ReadEvent} {rest : List (Timed ReadEvent)}

theorem ChangesAfter.tail (changes : ChangesAfter db read bound state (first :: rest)) :
    ChangesAfter db read bound (readStep db read state first) rest :=
  fun later next remaining occurs changed => changes later next remaining occurs.cons changed

theorem ChangesAfter.mono {bound' : ℤ} (changes : ChangesAfter db read bound state rest)
    (le : bound' ≤ bound) : ChangesAfter db read bound' state rest :=
  fun later next remaining occurs changed => le.trans_lt (changes later next remaining occurs changed)

theorem Gapless.operation (lawful : read.Lawful db keys rowsOf behind)
    (gapless : Gapless read keys rowsOf lower state) {clock : ℤ} {operation : Operation}
    (ahead : Ahead db read lower state (⟨clock, .operation operation⟩ :: rest)) :
    Gapless read keys rowsOf lower (readStep db read state ⟨clock, .operation operation⟩) := by
  by_cases changed : (operation.run db state.store clock).2 = state.store
  · have same : readStep db read state ⟨clock, .operation operation⟩ = state := by
      simp only [readStep, changed]
    rw [same]
    exact gapless
  · have old := lawful.writes operation state.store clock
    refine ⟨fun row matching above below => ?_, fun items last stage row matching above upto => ?_⟩
    · rcases old row matching with before | stamped
      · exact gapless.received row before above below
      · rcases ahead.since with sinceLe | changes
        · exact absurd (below.trans_le sinceLe) (not_lt.mpr above)
        · have behindCursor : state.since - 1 < clock := changes _ _ _ happens_head changed
          have isBelow : keys.stamp row < state.since := below
          rw [stamped] at isBelow
          omega
    · rcases old row matching with before | stamped
      · rcases gapless.draining items last stage row before above upto with selected | inDrain
        · exact Or.inl selected
        · obtain ⟨-, same, after⟩ := (lawful.drain _ last row).mp inDrain
          exact Or.inr ((lawful.drain _ last row).mpr ⟨matching, same, after⟩)
      · have behindDrain := ahead.draining items last stage _ _ _ happens_head changed
        rw [stamped] at upto
        exact absurd upto (not_le.mpr behindDrain)

theorem Gapless.answer (gapless : Gapless read keys rowsOf lower state) {page : Page α}
    (covers : ∀ row ∈ rowsOf state.store, state.since ≤ keys.stamp row →
      keys.stamp row < page.cursor → ∃ item ∈ page.items, read.Shows row item) :
    Gapless read keys rowsOf lower (state.answer page) where
  received row matching above below := by
    by_cases passed : keys.stamp row < state.since
    · obtain ⟨item, member, isShown⟩ := gapless.received row matching above passed
      exact ⟨item, List.mem_append_left _ member, isShown⟩
    · obtain ⟨item, member, isShown⟩ := covers row matching (not_lt.mp passed) below
      exact ⟨item, List.mem_append_right _ member, isShown⟩
  draining items last stage := by cases stage

theorem Gapless.query (lawful : read.Lawful db keys rowsOf behind)
    (gapless : Gapless read keys rowsOf lower state) :
    Gapless read keys rowsOf lower (read.query state) := by
  have effect := query_effect read state
  generalize read.query state = next at effect ⊢
  cases effect with
  | givenUp => exact ⟨gapless.received, fun items last stage => by cases stage⟩
  | answered serverNow limit items begun mapped hasMore =>
      exact gapless.answer fun row matching above below =>
        page_covers lawful mapped matching above below
  | draining serverNow limit items last begun mapped ends =>
      refine ⟨gapless.received, fun items' last' stage row matching above upto => ?_⟩
      cases stage
      exact page_covers_to_last lawful mapped ends matching above upto
  | drained items last drained begun mapped =>
      refine gapless.answer fun row matching above below => ?_
      rcases gapless.draining items last begun row matching above (Int.lt_add_one_iff.mp below) with
        ⟨item, member, isShown⟩ | inDrain
      · exact ⟨item, List.mem_append_left _ member, isShown⟩
      · obtain ⟨item, itemMapped⟩ := mapM_ok_iff_forall.mp ⟨drained, mapped⟩ row inDrain
        have isDrained := (mem_of_mapM_ok mapped item).mpr ⟨row, inDrain, itemMapped⟩
        exact ⟨item, List.mem_append_right _ isDrained, state.store, itemMapped⟩

theorem Gapless.step (lawful : read.Lawful db keys rowsOf behind)
    (gapless : Gapless read keys rowsOf lower state)
    (ahead : Ahead db read lower state (first :: rest)) :
    Gapless read keys rowsOf lower (readStep db read state first) := by
  obtain ⟨clock, event⟩ := first
  cases event with
  | operation operation => exact gapless.operation lawful ahead
  | call limit => exact ⟨gapless.received, fun items last stage => by cases stage⟩
  | query => exact gapless.query lawful

theorem Ahead.since_tail (ahead : Ahead db read lower state (first :: rest))
    (same : (readStep db read state first).since = state.since) :
    (readStep db read state first).since ≤ lower ∨
      ChangesAfter db read ((readStep db read state first).since - 1) (readStep db read state first)
        rest := by
  rw [same]
  exact ahead.since.imp_right ChangesAfter.tail

theorem Ahead.since_next (lawful : read.Lawful db keys rowsOf behind)
    (ahead : Ahead db read lower state (first :: rest)) :
    (readStep db read state first).since ≤ lower ∨
      ChangesAfter db read ((readStep db read state first).since - 1) (readStep db read state first)
        rest := by
  obtain ⟨clock, event⟩ := first
  cases event with
  | operation operation => exact ahead.since_tail rfl
  | call limit => exact ahead.since_tail rfl
  | query =>
      have tail : ∀ bound, ChangesAfter db read bound state (⟨clock, .query⟩ :: rest) →
          ChangesAfter db read bound (read.query state) rest := fun _ => ChangesAfter.tail
      have before := ahead.since.imp_right (tail (state.since - 1))
      have effect := query_effect read state
      change (read.query state).since ≤ lower ∨
        ChangesAfter db read ((read.query state).since - 1) (read.query state) rest
      generalize read.query state = next at effect before tail ⊢
      cases effect with
      | givenUp => exact before
      | answered serverNow limit items begun mapped hasMore =>
          have cursorLe := pageCursor_le lawful mapped
          exact Or.inr ((tail _ (ahead.begun serverNow limit begun)).mono
            (Int.sub_le_sub_right cursorLe 1))
      | draining serverNow limit items last begun mapped ends => exact before
      | drained items last drained begun mapped =>
          refine Or.inr ((tail _ (ahead.draining items last begun)).mono ?_)
          exact le_of_eq (add_sub_cancel_right _ _)

theorem Ahead.begun_next (ahead : Ahead db read lower state (first :: rest))
    (monotone : ClockMonotone (first :: rest)) {serverNow : ℤ} {limit : Option ℤ}
    (stage : (readStep db read state first).stage = .begun serverNow limit) :
    ChangesAfter db read (serverNow - 1) (readStep db read state first) rest := by
  obtain ⟨clock, event⟩ := first
  cases event with
  | operation operation => exact (ahead.begun serverNow limit stage).tail
  | call limit' =>
      cases stage
      intro later next remaining occurs changed
      have fromCall := (List.pairwise_cons.mp monotone).1 next occurs.mem
      exact Int.sub_one_lt_iff.mpr fromCall
  | query =>
      have effect := query_effect read state
      change (read.query state).stage = .begun serverNow limit at stage
      generalize read.query state = next at effect stage
      cases effect <;> cases stage

theorem Ahead.step (lawful : read.Lawful db keys rowsOf behind)
    (ahead : Ahead db read lower state (first :: rest)) (monotone : ClockMonotone (first :: rest))
    (closed : ∀ items last, (readStep db read state first).stage = .draining items last →
      ChangesAfter db read (read.stamp last) (readStep db read state first) rest) :
    Ahead db read lower (readStep db read state first) rest where
  since := ahead.since_next lawful
  begun _ _ stage := ahead.begun_next monotone stage
  draining := closed

/-- However operations come between the queries, no row falls between the cursors. -/
theorem gapless_run (lawful : read.Lawful db keys rowsOf behind) (run : List (Timed ReadEvent)) :
    ∀ start : ReadState α, ClockMonotone run → DrainsClosed db read start run →
      Ahead db read lower start run → Gapless read keys rowsOf lower start →
        Gapless read keys rowsOf lower (run.foldl (readStep db read) start) := by
  induction run with
  | nil => exact fun start _ _ _ gapless => gapless
  | cons step run ih =>
      intro start monotone closed ahead gapless
      refine ih (readStep db read start step) monotone.tail ?_ ?_ (gapless.step lawful ahead)
      · exact fun state next rest occurs => closed state next rest occurs.cons
      · exact ahead.step lawful monotone (closed start step run happens_head)

/-- A client that begins with a cursor has received, in the end, whatever is stamped from that
cursor up to the one it holds then. -/
theorem received_below_cursor (lawful : read.Lawful db keys rowsOf behind) (store : Store)
    (since : ℤ) (run : List (Timed ReadEvent)) (monotone : ClockMonotone run)
    (closed : DrainsClosed db read ⟨store, since, [], .idle⟩ run) :
    ∀ row ∈ rowsOf (run.foldl (readStep db read) ⟨store, since, [], .idle⟩).store,
      since ≤ keys.stamp row →
      keys.stamp row < (run.foldl (readStep db read) ⟨store, since, [], .idle⟩).since →
        ∃ item ∈ (run.foldl (readStep db read) ⟨store, since, [], .idle⟩).received,
          read.Shows row item := by
  refine (gapless_run lawful run _ monotone closed ?_ ?_).received
  · exact ⟨Or.inl le_rfl, nofun, nofun⟩
  · exact ⟨fun row _ above below => absurd below (not_lt.mpr above), nofun⟩

structure StageBehind (read : DeltaRead ρ α) (state : ReadState α) (rest : List (Timed ReadEvent)) :
    Prop where
  begun : ∀ serverNow limit, state.stage = .begun serverNow limit →
    ∀ later ∈ rest, serverNow < later.clock
  draining : ∀ items last, state.stage = .draining items last →
    ∀ later ∈ rest, read.stamp last < later.clock

theorem stageBehind_idle {store : Store} {since : ℤ} {received : List α} :
    StageBehind read ⟨store, since, received, .idle⟩ rest :=
  ⟨nofun, nofun⟩

theorem StageBehind.next (lawful : read.Lawful db keys rowsOf behind)
    (stages : StageBehind read state (first :: rest))
    (strict : ∀ later ∈ rest, first.clock < later.clock) :
    StageBehind read (readStep db read state first) rest := by
  have tail : ∀ later ∈ rest, later ∈ first :: rest := fun later => List.mem_cons_of_mem first
  obtain ⟨clock, event⟩ := first
  cases event with
  | operation operation =>
      exact ⟨fun serverNow limit stage later member =>
          stages.begun serverNow limit stage later (tail later member),
        fun items last stage later member =>
          stages.draining items last stage later (tail later member)⟩
  | call limit =>
      refine ⟨fun serverNow limit' stage => ?_, nofun⟩
      cases stage
      exact strict
  | query =>
      have effect := query_effect read state
      change StageBehind read (read.query state) rest
      generalize read.query state = next at effect ⊢
      cases effect with
      | draining serverNow limit items last begun mapped ends =>
          refine ⟨nofun, fun items' last' stage later member => ?_⟩
          cases stage
          exact (stamp_le_clock lawful mapped (List.mem_of_getLast? ends)).trans_lt
            (stages.begun serverNow limit begun later (tail later member))
      | _ => exact ⟨nofun, nofun⟩

/-- No two events in one millisecond: what is drained is not written to again. -/
theorem drainsClosed_of_strict (lawful : read.Lawful db keys rowsOf behind)
    (run : List (Timed ReadEvent)) : ∀ start : ReadState α, StageBehind read start run →
      (run.Pairwise fun earlier later => earlier.clock < later.clock) →
        DrainsClosed db read start run := by
  induction run with
  | nil => exact fun start _ _ => forall_happens_nil
  | cons step run ih =>
      intro start stages strict
      obtain ⟨fromStep, strictLater⟩ := List.pairwise_cons.mp strict
      have next := stages.next lawful fromStep
      refine forall_happens_cons_iff.mpr ⟨fun items last stage => ?_, ih _ next strictLater⟩
      exact fun later event remaining occurs _ => next.draining items last stage event occurs.mem

end Runs

/-- Whatever atomic operations run before, between and after the queries of a client's delta calls,
on a clock that never goes back: a task of its filter that is stamped from its first cursor up to
the one it holds was received as it is, and so was a list. -/
theorem torn_reads_leave_no_gap (db : Database) (store : Store) (since : ℤ)
    (run : List (Timed ReadEvent)) (monotone : ClockMonotone run) :
    (∀ query, DrainsClosed db (taskRead db query) ⟨store, since, [], .idle⟩ run →
      let final := run.foldl (readStep db (taskRead db query)) ⟨store, since, [], .idle⟩
      ∀ row ∈ final.store.tasks.rows, row.userId = some db.userId → query.inFilter row = true →
        ∀ m, row.lastModified = some m → since ≤ m → m < final.since →
          ∃ task ∈ final.received, ∃ joined : Store, joined.task db row = .ok task) ∧
    (DrainsClosed db (listRead db) ⟨store, since, [], .idle⟩ run →
      let final := run.foldl (readStep db (listRead db)) ⟨store, since, [], .idle⟩
      ∀ row ∈ final.store.lists.rows, row.userId = some db.userId →
        ∀ m, row.lastModified = some m → since ≤ m → m < final.since →
          ∃ list ∈ final.received, listOfRow row = .ok list) := by
  constructor
  · intro query closed final row stored owned filtered m stamped above below
    refine received_below_cursor (taskRead_lawful query) store since run monotone closed row
      (mem_matchingTasks.mpr ⟨stored, owned, filtered, m, stamped⟩) ?_ ?_
    · rwa [stampKeys_stamp stamped]
    · rwa [stampKeys_stamp stamped]
  · intro closed final row stored owned m stamped above below
    obtain ⟨list, received, _, mapped⟩ := received_below_cursor listRead_lawful store since run
      monotone closed row (mem_matchingLists.mpr ⟨stored, owned, m, stamped⟩)
      (by rwa [stampKeys_stamp stamped]) (by rwa [stampKeys_stamp stamped])
    exact ⟨list, received, mapped⟩

def deletedWhileDraining : List (Timed ReadEvent) :=
  [⟨1500, .call (some 1)⟩, ⟨1501, .query⟩, ⟨1502, .operation (.deleteTask ['b'] none)⟩,
    ⟨1503, .query⟩, ⟨1504, .call (some 1)⟩, ⟨1505, .query⟩, ⟨1506, .query⟩]

def deletedTaskB : TaskRow :=
  { plainTask ['b'] 1000 with isDeleted := some YES, lastModified := some 1502 }

theorem deletedWhileDraining_received :
    let final := deletedWhileDraining.foldl (readStep singleUser (taskRead singleUser {}))
      ⟨sameMillisecond, 0, [], .idle⟩
    ∃ task ∈ final.received, ∃ joined : Store, joined.task singleUser deletedTaskB = .ok task := by
  have closed : DrainsClosed singleUser (taskRead singleUser {}) ⟨sameMillisecond, 0, [], .idle⟩
      deletedWhileDraining :=
    drainsClosed_of_strict (taskRead_lawful {}) _ _ stageBehind_idle (by decide)
  have law := torn_reads_leave_no_gap singleUser sameMillisecond 0 deletedWhileDraining (by decide)
  exact law.1 {} closed deletedTaskB (by decide) rfl rfl 1502 rfl (by decide) (by decide)

end SupernoteTaskService
