import SupernoteTaskService.Sync.Delivery

/-!
# The tail of delta paging

A client takes `has_more = false` for the end of the window it asked about.  It is
the end unless the earliest stamp of the window fills the page by itself: that page
is drained, announces nothing more, and the later rows of the window are left for a
call the client has no reason to make.
-/

set_option autoImplicit false

namespace SupernoteTaskService

open Foundation

section OneCall
variable {db : Database} {store : Store} {since serverNow : ℤ}

theorem listTasks_tail_iff {query : TaskQuery} {page : Page Task}
    (delta : query.since = some since) (answered : listTasks db store serverNow query = .ok page) :
    (page.hasMore = false →
        ∀ row ∈ windowOf taskKeys (matchingTasks db store query) since serverNow,
          DeliversTask db store page.items row) ↔
      ¬ StopsEarly taskKeys (clampLimit query.limit)
        (windowOf taskKeys (matchingTasks db store query) since serverNow) := by
  obtain ⟨raw, shape, delivers, -, moreEq⟩ := listTasks_page delta answered
  rw [← shape.complete_iff (clampLimit_pos _), moreEq]
  apply imp_congr_right
  intro _
  apply forall₂_congr
  intro row member
  exact delivers row (mem_matchingTasks.mp (mem_windowOf.mp member).1).1

theorem listLists_tail_iff {query : ListQuery} {page : Page TaskList}
    (delta : query.since = some since) (answered : listLists db store serverNow query = .ok page) :
    (page.hasMore = false →
        ∀ row ∈ windowOf listKeys (matchingLists db store) since serverNow,
          DeliversList page.items row) ↔
      ¬ StopsEarly listKeys (clampLimit query.limit)
        (windowOf listKeys (matchingLists db store) since serverNow) := by
  obtain ⟨raw, shape, delivers, -, moreEq⟩ := listLists_page delta answered
  rw [← shape.complete_iff (clampLimit_pos _), moreEq]
  apply imp_congr_right
  intro _
  apply forall₂_congr
  intro row member
  exact delivers row (mem_matchingLists.mp (mem_windowOf.mp member).1).1

end OneCall

section Loop
variable {db : Database} {store : Store} {since : ℤ} {nows : List ℤ}

/-- A stamp that fills a page by itself, with later rows up to the end of the loop. -/
def CutsOff {ρ : Type} (keys : Keyset ρ Text) (limit : ℕ) (rows : List ρ) (since stoppedAt : ℤ) :
    Prop :=
  ∃ m, since ≤ m ∧ Crowded keys limit rows m ∧
    ∃ row ∈ windowOf keys rows since stoppedAt, m < keys.stamp row

/-- A loop that receives up to the first crowded stamp receives all of its window
when no stamp cuts it off. -/
theorem forall_reached_iff_not_cutsOff {ρ : Type} {keys : Keyset ρ Text} {limit : ℕ}
    {rows : List ρ} {stoppedAt : ℤ} :
    (∀ row ∈ windowOf keys rows since stoppedAt, ∀ m, since ≤ m → m < keys.stamp row →
        ¬ Crowded keys limit rows m) ↔ ¬ CutsOff keys limit rows since stoppedAt := by
  constructor
  · intro clear ⟨m, sinceLe, crowded, row, member, later⟩
    exact clear row member m sinceLe later crowded
  · intro whole row member m sinceLe later crowded
    exact whole ⟨m, sinceLe, crowded, row, member, later⟩

theorem followTasks_complete_iff {query : TaskQuery} {received : Followed Task}
    (monotone : nows.Pairwise (· ≤ ·))
    (stopped : followTasks db store query since nows = .ok (some received)) :
    (∀ row ∈ windowOf taskKeys (matchingTasks db store query) since received.stoppedAt,
        DeliversTask db store received.items row) ↔
      ¬ CutsOff taskKeys (clampLimit query.limit) (matchingTasks db store query) since
        received.stoppedAt := by
  rw [← forall_reached_iff_not_cutsOff]
  apply forall₂_congr
  intro row member
  obtain ⟨matching, lower, upper⟩ := mem_windowOf.mp member
  rw [(followTasks_delivers_iff monotone stopped).2 row (mem_matchingTasks.mp matching).1]
  simp only [matching, lower, upper, true_and]

theorem followLists_complete_iff {limit : Option ℤ} {received : Followed TaskList}
    (monotone : nows.Pairwise (· ≤ ·))
    (stopped : followLists db store limit since nows = .ok (some received)) :
    (∀ row ∈ windowOf listKeys (matchingLists db store) since received.stoppedAt,
        DeliversList received.items row) ↔
      ¬ CutsOff listKeys (clampLimit limit) (matchingLists db store) since
        received.stoppedAt := by
  rw [← forall_reached_iff_not_cutsOff]
  apply forall₂_congr
  intro row member
  obtain ⟨matching, lower, upper⟩ := mem_windowOf.mp member
  rw [(followLists_delivers_iff monotone stopped).2 row (mem_matchingLists.mp matching).1]
  simp only [matching, lower, upper, true_and]

end Loop

/-- The tail law, for one call and for the documented loop, of tasks and of lists. -/
theorem delta_tail_law (db : Database) (store : Store) (since : ℤ) :
    (∀ query serverNow page, query.since = some since →
      listTasks db store serverNow query = .ok page →
      ((page.hasMore = false →
          ∀ row ∈ windowOf taskKeys (matchingTasks db store query) since serverNow,
            DeliversTask db store page.items row) ↔
        ¬ StopsEarly taskKeys (clampLimit query.limit)
          (windowOf taskKeys (matchingTasks db store query) since serverNow))) ∧
    (∀ query serverNow page, query.since = some since →
      listLists db store serverNow query = .ok page →
      ((page.hasMore = false →
          ∀ row ∈ windowOf listKeys (matchingLists db store) since serverNow,
            DeliversList page.items row) ↔
        ¬ StopsEarly listKeys (clampLimit query.limit)
          (windowOf listKeys (matchingLists db store) since serverNow))) ∧
    (∀ query nows received, nows.Pairwise (· ≤ ·) →
      followTasks db store query since nows = .ok (some received) →
      ((∀ row ∈ windowOf taskKeys (matchingTasks db store query) since received.stoppedAt,
          DeliversTask db store received.items row) ↔
        ¬ CutsOff taskKeys (clampLimit query.limit) (matchingTasks db store query) since
          received.stoppedAt)) ∧
    (∀ limit nows received, nows.Pairwise (· ≤ ·) →
      followLists db store limit since nows = .ok (some received) →
      ((∀ row ∈ windowOf listKeys (matchingLists db store) since received.stoppedAt,
          DeliversList received.items row) ↔
        ¬ CutsOff listKeys (clampLimit limit) (matchingLists db store) since
          received.stoppedAt)) :=
  ⟨fun _ _ _ delta answered => listTasks_tail_iff delta answered,
    fun _ _ _ delta answered => listLists_tail_iff delta answered,
    fun _ _ _ monotone stopped => followTasks_complete_iff monotone stopped,
    fun _ _ _ monotone stopped => followLists_complete_iff monotone stopped⟩

/-- With one row a page, the second task comes with neither the page nor the loop. -/
theorem delta_tail_law_fails :
    (∃ page, listTasks singleUser twoTasks 3000 { since := some 0, limit := some 1 } = .ok page ∧
      page.hasMore = false ∧
      plainTask ['b'] 2000 ∈
        windowOf taskKeys (matchingTasks singleUser twoTasks { limit := some 1 }) 0 3000 ∧
      ¬ DeliversTask singleUser twoTasks page.items (plainTask ['b'] 2000)) ∧
    ∃ received, followTasks singleUser twoTasks { limit := some 1 } 0 [3000] =
        .ok (some received) ∧
      ¬ DeliversTask singleUser twoTasks received.items (plainTask ['b'] 2000) := by
  refine ⟨⟨_, rfl, rfl, ?_, ?_⟩, _, rfl, ?_⟩
  · decide
  · decide
  · decide

end SupernoteTaskService
