import SupernoteTaskService.Sync.Delivery

/-!
# A full fetch of the lists

The first page of a full fetch is ordered by title, the pages that follow it by stamp.
A list behind the first page comes out only when its stamp lies at or above the one
that the first page happens to end on, and no drained millisecond stops the loop on
the way to it.
-/

set_option autoImplicit false

namespace SupernoteTaskService

open Foundation

section Fetch
variable (db : Database) (store : Store)

/-- A snapshot, then the delta loop from its cursor while more rows are announced. -/
def fetchLists (limit : Option ℤ) (first : ℤ) (nows : List ℤ) :
    Except Raised (Option (Followed TaskList)) := do
  let page ← listLists db store first ⟨none, limit⟩
  if page.hasMore then
    let rest ← followLists db store limit page.cursor nows
    return rest.map fun rest => ⟨page.items ++ rest.items, rest.stoppedAt⟩
  else return some ⟨page.items, first⟩

/-- No list behind the first page is out of reach of the loop that follows it. -/
def TitlesFollowStamps (limit : ℕ) : Prop :=
  ∀ limitRow, (snapshotLists db store)[limit - 1]? = some limitRow →
    ∀ row ∈ (snapshotLists db store).drop limit,
      ∃ m, row.lastModified = some m ∧ limitRow.lastModified.getD 0 ≤ m ∧
        ∀ m', limitRow.lastModified.getD 0 ≤ m' → m' < m →
          ¬ Crowded listKeys limit (matchingLists db store) m'

variable {db store}

theorem mem_snapshotLists {row : ListRow} :
    row ∈ snapshotLists db store ↔ row ∈ store.lists.rows ∧ row.isActive db.userId = true := by
  rw [snapshotLists, orderByTitle, List.mem_insertionSort, KeyedTable.mem_select]

theorem snapshotLists_nodup : (snapshotLists db store).Nodup :=
  (List.perm_insertionSort _ _).nodup_iff.mpr (List.Nodup.of_map _ (store.lists.select_keys_nodup _))

/-! ## What the two parts deliver -/

theorem deliversList_append {front back : List TaskList} {row : ListRow} :
    DeliversList (front ++ back) row ↔ DeliversList front row ∨ DeliversList back row := by
  simp only [DeliversList, List.mem_append, or_and_right, exists_or]

theorem deliversList_inbox_cons {lists : List TaskList} {row : ListRow} :
    DeliversList (inbox :: lists) row ↔ DeliversList lists row := by
  have notInbox : listOfRow row ≠ .ok inbox := by
    intro same
    have sameId := congrArg TaskList.id (Except.ok.inj same)
    cases sameId
  simp only [DeliversList, List.mem_cons, exists_eq_or_imp, notInbox, false_or]

theorem deliversList_snapshot {limit : ℕ} {row : ListRow} (member : row ∈ store.lists.rows) :
    DeliversList (inbox :: ((snapshotLists db store).take limit).map rowToList) row ↔
      row ∈ (snapshotLists db store).take limit := by
  rw [deliversList_inbox_cons]
  refine deliversList_iff ?_ (mapM_ok_of_total _) member
  intro other otherMem
  exact (mem_snapshotLists.mp (List.mem_of_mem_take otherMem)).1

theorem fetchLists_eq_some {limit : Option ℤ} {first : ℤ} {nows : List ℤ}
    {fetched : Followed TaskList}
    (stopped : fetchLists db store limit first nows = .ok (some fetched)) :
    ∃ page, listLists db store first ⟨none, limit⟩ = .ok page ∧
      (page.hasMore = false ∧ fetched = ⟨page.items, first⟩ ∨
        page.hasMore = true ∧ ∃ rest,
          followLists db store limit page.cursor nows = .ok (some rest) ∧
          fetched = ⟨page.items ++ rest.items, rest.stoppedAt⟩) := by
  rw [fetchLists, bind_eq_ok_iff] at stopped
  obtain ⟨page, answered, continued⟩ := stopped
  refine ⟨page, answered, ?_⟩
  cases more : page.hasMore with
  | false =>
      simp only [more, Bool.false_eq_true, if_false, pure_eq_ok_iff, Option.some.injEq] at continued
      exact Or.inl ⟨rfl, continued.symm⟩
  | true =>
      simp only [more, if_true, bind_eq_ok_iff, pure_eq_ok_iff] at continued
      obtain ⟨outcome, followed, mapped⟩ := continued
      obtain ⟨rest, rfl, same⟩ := Option.map_eq_some_iff.mp mapped
      exact Or.inr ⟨rfl, rest, followed, same.symm⟩

theorem listLists_answers (db : Database) (store : Store) (serverNow : ℤ) (query : ListQuery) :
    ∃ page, listLists db store serverNow query = .ok page := by
  have renders : ∀ row, ∃ list, listOfRow row = .ok list := fun row => ⟨rowToList row, rfl⟩
  have assembled : ∃ page, assemblePage listOfRow TaskList.lastModified (clampLimit query.limit)
      serverNow query.since.isSome (listPageRows db store serverNow query)
      (fun last => drainListsAt db store last.lastModified last.id) = .ok page :=
    assemblePage_answers _ _ _ _ (fun row _ => renders row) fun _ row _ => renders row
  obtain ⟨page, assembled⟩ := assembled
  rw [listLists, assembled]
  exact ⟨_, rfl⟩

theorem fetchLists_stops (limit : Option ℤ) (first : ℤ) {nows : List ℤ}
    (enough : store.lists.rows.length < nows.length) :
    ∃ fetched, fetchLists db store limit first nows = .ok (some fetched) := by
  have answers : ∀ since now, ∃ page, listLists db store now ⟨some since, limit⟩ = .ok page ∧
      ∃ raw : Page ListRow, DeltaShape listKeys (clampLimit limit) now
          (windowOf listKeys (matchingLists db store) since now) raw ∧
        page.cursor = raw.cursor ∧ page.hasMore = raw.hasMore := by
    intro since now
    obtain ⟨page, answered⟩ := listLists_answers db store now ⟨some since, limit⟩
    obtain ⟨raw, shape, -, cursorEq, moreEq⟩ := listLists_page rfl answered
    exact ⟨page, answered, raw, shape, cursorEq, moreEq⟩
  obtain ⟨page, answered⟩ := listLists_answers db store first ⟨none, limit⟩
  simp only [fetchLists, answered, bind, Except.bind]
  cases page.hasMore with
  | false => exact ⟨_, rfl⟩
  | true =>
      have fewer : (matchingLists db store).countP
          (fun row => decide (page.cursor ≤ listKeys.stamp row)) < nows.length :=
        (List.countP_le_length.trans (List.length_filter_le _ _)).trans_lt enough
      obtain ⟨rest, followed⟩ := followCursor_stops answers nows page.cursor fewer
      simp only [if_true, followLists, followed]
      exact ⟨_, rfl⟩

/-! ## Which lists come -/

/-- Behind the first page, the loop brings the rows that `TitlesFollowStamps` is about. -/
theorem delivers_behind_iff {limit : Option ℤ} {first : ℤ} {nows : List ℤ} {front : List TaskList}
    {rest : Followed TaskList} {limitRow row : ListRow}
    (monotone : (first :: nows).Pairwise (· ≤ ·))
    (settled : ∀ row ∈ store.lists.rows, ∀ m, row.lastModified = some m → m ≤ first)
    (items : front = inbox :: ((snapshotLists db store).take (clampLimit limit)).map rowToList)
    (followed : followLists db store limit (limitRow.lastModified.getD 0) nows = .ok (some rest))
    (inDrop : row ∈ (snapshotLists db store).drop (clampLimit limit)) :
    DeliversList (front ++ rest.items) row ↔
      ∃ m, row.lastModified = some m ∧ limitRow.lastModified.getD 0 ≤ m ∧
        ∀ m', limitRow.lastModified.getD 0 ≤ m' → m' < m →
          ¬ Crowded listKeys (clampLimit limit) (matchingLists db store) m' := by
  obtain ⟨firstLe, laterMonotone⟩ := List.pairwise_cons.mp monotone
  obtain ⟨stoppedMem, account⟩ := followLists_delivers_iff laterMonotone followed
  have stoppedAfter := firstLe rest.stoppedAt stoppedMem
  obtain ⟨member, active⟩ := mem_snapshotLists.mp (List.mem_of_mem_drop inDrop)
  have notTaken : row ∉ (snapshotLists db store).take (clampLimit limit) := fun inTake =>
    List.disjoint_take_drop snapshotLists_nodup le_rfl inTake inDrop
  rw [deliversList_append, items, deliversList_snapshot member, or_iff_right notTaken,
    account row member, mem_matchingLists]
  constructor
  · intro ⟨⟨_, _, m, stamped⟩, lower, _, clear⟩
    rw [stampKeys_stamp stamped] at lower clear
    exact ⟨m, stamped, lower, clear⟩
  · intro ⟨m, stamped, lower, clear⟩
    rw [stampKeys_stamp stamped]
    exact ⟨⟨member, (ListRow.isActive_iff.mp active).1, m, stamped⟩, lower,
      (settled row member m stamped).trans stoppedAfter, clear⟩

theorem delivers_active_iff {limit : Option ℤ} {first : ℤ} {nows : List ℤ}
    {fetched : Followed TaskList} (monotone : (first :: nows).Pairwise (· ≤ ·))
    (settled : ∀ row ∈ store.lists.rows, ∀ m, row.lastModified = some m → m ≤ first)
    (stopped : fetchLists db store limit first nows = .ok (some fetched)) :
    (∀ row ∈ store.lists.rows, row.isActive db.userId = true → DeliversList fetched.items row) ↔
      TitlesFollowStamps db store (clampLimit limit) := by
  obtain ⟨page, answered, outcome⟩ := fetchLists_eq_some stopped
  obtain ⟨items, form⟩ := listLists_snapshot rfl answered
  dsimp only at items form
  rcases outcome with ⟨noMore, rfl⟩ | ⟨more, rest, followed, rfl⟩
  · rcases form with ⟨-, noRow⟩ | ⟨limitRow, -, more, -⟩
    · have whole : (snapshotLists db store).length ≤ clampLimit limit := by
        have bounded := List.getElem?_eq_none_iff.mp noRow
        omega
      refine iff_of_true (fun row member active => ?_) (fun limitRow atLimit => ?_)
      · dsimp only
        rw [items, deliversList_snapshot member, List.take_of_length_le whole]
        exact mem_snapshotLists.mpr ⟨member, active⟩
      · rw [noRow] at atLimit
        cases atLimit
    · rw [noMore] at more
      cases more
  · rcases form with ⟨noMore, -⟩ | ⟨limitRow, atLimit, -, cursorEq⟩
    · rw [noMore] at more
      cases more
    · rw [cursorEq] at followed
      constructor
      · intro complete other isLimit row inDrop
        cases atLimit.symm.trans isLimit
        obtain ⟨member, active⟩ := mem_snapshotLists.mp (List.mem_of_mem_drop inDrop)
        exact (delivers_behind_iff monotone settled items followed inDrop).mp
          (complete row member active)
      · intro follows row member active
        have inSnapshot : row ∈ snapshotLists db store := mem_snapshotLists.mpr ⟨member, active⟩
        rw [← List.take_append_drop (clampLimit limit) (snapshotLists db store),
          List.mem_append] at inSnapshot
        rcases inSnapshot with inTake | inDrop
        · rw [deliversList_append, items]
          exact Or.inl ((deliversList_snapshot member).mpr inTake)
        · exact (delivers_behind_iff monotone settled items followed inDrop).mpr
            (follows limitRow atLimit row inDrop)

end Fetch

/-! ## The law -/

/-- Of lists that are not stamped after the first call, a full fetch brings all the
active ones exactly when the title order does not hide one from the stamp order.  It
stops within as many delta calls as there are rows, and one more. -/
theorem full_fetch_complete_iff (db : Database) (store : Store) (limit : Option ℤ) (first : ℤ)
    (nows : List ℤ) (monotone : (first :: nows).Pairwise (· ≤ ·))
    (settled : ∀ row ∈ store.lists.rows, ∀ m, row.lastModified = some m → m ≤ first) :
    (store.lists.rows.length < nows.length →
      ∃ fetched, fetchLists db store limit first nows = .ok (some fetched)) ∧
    ∀ fetched, fetchLists db store limit first nows = .ok (some fetched) →
      ((∀ row ∈ store.lists.rows, row.isActive db.userId = true →
          DeliversList fetched.items row) ↔
        TitlesFollowStamps db store (clampLimit limit)) :=
  ⟨fetchLists_stops limit first, fun _ stopped =>
    delivers_active_iff monotone settled stopped⟩

/-- Two lists whose titles and stamps are in opposite orders. -/
def oppositeOrders : Store :=
  ⟨.empty, ⟨[newListRow singleUser ['x'] 2000 ['A'], newListRow singleUser ['y'] 1000 ['B']],
    by decide⟩⟩

def sameOrders : Store :=
  ⟨.empty, ⟨[newListRow singleUser ['x'] 1000 ['A'], newListRow singleUser ['y'] 2000 ['B'],
    newListRow singleUser ['z'] 3000 ['C']], by decide⟩⟩

theorem titlesFollowStamps_sameOrders : TitlesFollowStamps singleUser sameOrders 2 := by
  intro limitRow atLimit row behind
  have isSecond : newListRow singleUser ['y'] 2000 ['B'] = limitRow := Option.some.inj atLimit
  have isThird : row = newListRow singleUser ['z'] 3000 ['C'] := List.mem_singleton.mp behind
  subst isSecond isThird
  refine ⟨3000, rfl, by decide, fun m lower _ crowded => ?_⟩
  have counted : atStamp listKeys (matchingLists singleUser sameOrders) m =
      ([1000, 2000, 3000] : List ℤ).count m := rfl
  have atMostOne := List.nodup_iff_count_le_one.mp
    (by decide : ([1000, 2000, 3000] : List ℤ).Nodup) m
  rw [Crowded, counted] at crowded
  omega

theorem full_fetch_complete_with_same_orders :
    ∃ fetched, fetchLists singleUser sameOrders (some 2) 3000 [3001, 3002, 3003, 3004] =
        .ok (some fetched) ∧
      ∀ row ∈ sameOrders.lists.rows, row.isActive singleUser.userId = true →
        DeliversList fetched.items row := by
  have law := full_fetch_complete_iff singleUser sameOrders (some 2) 3000
    [3001, 3002, 3003, 3004] (by decide) (by decide)
  obtain ⟨fetched, stopped⟩ := law.1 (by decide)
  exact ⟨fetched, stopped, (law.2 fetched stopped).mpr titlesFollowStamps_sameOrders⟩

/-- With one list a page, the first page ends on the newest list, and the older one
behind it never comes. -/
theorem full_fetch_misses_a_list :
    ∃ fetched, fetchLists singleUser oppositeOrders (some 1) 3000 [3001] = .ok (some fetched) ∧
      ∃ row ∈ oppositeOrders.lists.rows, row.isActive singleUser.userId = true ∧
        ¬ DeliversList fetched.items row :=
  ⟨_, rfl, newListRow singleUser ['y'] 1000 ['B'], by decide, by decide, by decide⟩

end SupernoteTaskService
