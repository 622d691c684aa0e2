import SupernoteTaskService.Repository.Writes
import SupernoteTaskService.Routers.Lists

/-!
# One list for each title

`POST /v1/lists` looks a title up and then, in a statement of its own, inserts a list.
Between the two any other request may insert a list of that title, and no constraint
of the table stops the second insert.  The titles stay unique, and equal titles get
equal answers, exactly as long as every insert would still find nothing.
-/

set_option autoImplicit false

namespace SupernoteTaskService

open Foundation

/-! ## Requests in two statements -/

inductive PostPhase where
  | idle
  | absent (title : Text)
  | replied (title : Text) (list : TaskList)
  | failed
  deriving DecidableEq

structure PostState where
  store : Store
  phase : ℕ → PostPhase

inductive PostEvent where
  | lookup (request : ℕ) (body : TaskListCreate)
  | insert (request : ℕ) (listId : Text)
  deriving DecidableEq

def PostState.initial (store : Store) : PostState := ⟨store, fun _ => .idle⟩

def PostState.advance (state : PostState) (request : ℕ) (phase : PostPhase) : PostState :=
  { state with phase := Function.update state.phase request phase }

theorem PostState.advance_phase (state : PostState) (client : ℕ) (phase : PostPhase)
    (request : ℕ) : (state.advance client phase).phase request =
      if request = client then phase else state.phase request := by
  simp only [PostState.advance, Function.update_apply]

section Step
variable (db : Database)

/-- A request looks its title up once, and inserts once if it found nothing. -/
def postStep (state : PostState) (step : Timed PostEvent) : PostState :=
  match step.event with
  | .lookup request body =>
      match state.phase request with
      | .idle =>
          match getListByTitle db state.store body.title.text with
          | some existing => state.advance request (.replied body.title.text existing)
          | none => state.advance request (.absent body.title.text)
      | _ => state
  | .insert request listId =>
      match state.phase request with
      | .absent title =>
          match createList db state.store listId step.clock title with
          | .error _ => state.advance request .failed
          | .ok (listId, after) =>
              match Routers.Lists.requireList db after listId with
              | .error _ => { state.advance request .failed with store := after }
              | .ok created => { state.advance request (.replied title created) with store := after }
      | _ => state

variable {db} in
theorem requireList_of_created {store after : Store} {now : ℤ} {listId title : Text}
    (effect : ListEffect db store after now (newListRow db listId now title)) :
    Routers.Lists.requireList db after listId = .ok (rowToList (newListRow db listId now title)) := by
  have found : activeList db after listId = some (newListRow db listId now title) := by
    rw [activeList_eq_some_iff, effect.frame, ListRow.isActive_iff]
    exact ⟨if_pos rfl, rfl, rfl⟩
  rw [Routers.Lists.requireList, getList, found, Option.map_some]

def PostPhase.ofReply (title : Text) : Except Raised (ℕ × TaskList) → PostPhase
  | .ok reply => .replied title reply.2
  | .error _ => .failed

/-- A request without interference does what the endpoint does. -/
theorem postStep_alone (store : Store) (request : ℕ) (body : TaskListCreate) (listId : Text)
    (looked now : ℤ) :
    let final := [⟨looked, .lookup request body⟩, ⟨now, .insert request listId⟩].foldl
      (postStep db) (.initial store)
    final.store = (Routers.Lists.createList db store listId now body).2 ∧
      final.phase request =
        .ofReply body.title.text (Routers.Lists.createList db store listId now body).1 := by
  cases found : getListByTitle db store body.title.text with
  | some existing =>
      simp [postStep, found, Routers.Lists.createList, PostState.advance,
        PostPhase.ofReply, PostState.initial]
  | none =>
      rcases createList_cases db store now listId body.title.text with
        ⟨refused, -⟩ | ⟨after, created, -, effect⟩
      · simp [postStep, found, Routers.Lists.createList, PostState.advance,
          PostPhase.ofReply, PostState.initial, refused]
      · simp [postStep, found, Routers.Lists.createList, PostState.advance,
          PostPhase.ofReply, PostState.initial, created, requireList_of_created effect]

variable {state : PostState} {step : Timed PostEvent}

/-- The insert of a request that found nothing, under an id that is free. -/
theorem postStep_insert {request : ℕ} {listId title : Text}
    (isInsert : step.event = .insert request listId) (looked : state.phase request = .absent title)
    (free : state.store.lists.get listId = none) :
    ∃ after, ListEffect db state.store after step.clock (newListRow db listId step.clock title) ∧
      postStep db state step =
        { state.advance request
            (.replied title (rowToList (newListRow db listId step.clock title))) with
          store := after } := by
  rcases createList_cases db state.store step.clock listId title with
    ⟨-, taken⟩ | ⟨after, created, -, effect⟩
  · exact absurd free taken
  · refine ⟨after, effect, ?_⟩
    simp only [postStep, isInsert, looked, created, requireList_of_created effect]

theorem postStep_other (state : PostState) (step : Timed PostEvent)
    (other : ∀ request listId title, step.event = .insert request listId →
      state.phase request = .absent title → state.store.lists.get listId ≠ none) :
    (postStep db state step).store = state.store ∧
      ∀ request title list, (postStep db state step).phase request = .replied title list →
        state.phase request = .replied title list ∨
          getListByTitle db state.store title = some list := by
  have keeps : ∀ client phase, (∀ title list, phase = PostPhase.replied title list →
      getListByTitle db state.store title = some list) →
      ∀ request title list, (state.advance client phase).phase request = .replied title list →
        state.phase request = .replied title list ∨
          getListByTitle db state.store title = some list := by
    intro client phase lookedUp request title list replied
    rw [PostState.advance_phase] at replied
    by_cases same : request = client
    · rw [if_pos same] at replied
      exact Or.inr (lookedUp title list replied)
    · rw [if_neg same] at replied
      exact Or.inl replied
  obtain ⟨clock, event⟩ := step
  cases event with
  | lookup client body =>
      simp only [postStep]
      cases state.phase client with
      | idle =>
          cases found : getListByTitle db state.store body.title.text with
          | none => exact ⟨rfl, keeps client _ fun title list same => by cases same⟩
          | some existing =>
              refine ⟨rfl, keeps client _ fun title list same => ?_⟩
              cases same
              exact found
      | absent _ => exact ⟨rfl, fun _ _ _ replied => Or.inl replied⟩
      | replied _ _ => exact ⟨rfl, fun _ _ _ replied => Or.inl replied⟩
      | failed => exact ⟨rfl, fun _ _ _ replied => Or.inl replied⟩
  | insert client listId =>
      cases looked : state.phase client with
      | absent title =>
          rcases createList_cases db state.store clock listId title with
            ⟨refused, -⟩ | ⟨after, -, free, -⟩
          · simp only [postStep, looked, refused]
            exact ⟨rfl, keeps client _ fun title list same => by cases same⟩
          · exact absurd free (other client listId title rfl looked)
      | idle =>
          simp only [postStep, looked]
          exact ⟨trivial, fun _ _ _ replied => Or.inl replied⟩
      | replied _ _ =>
          simp only [postStep, looked]
          exact ⟨trivial, fun _ _ _ replied => Or.inl replied⟩
      | failed =>
          simp only [postStep, looked]
          exact ⟨trivial, fun _ _ _ replied => Or.inl replied⟩

end Step

/-! ## Unique titles -/

section Titles
variable (db : Database)

def TitlesUnique (store : Store) : Prop :=
  ∀ left ∈ store.lists.rows, ∀ right ∈ store.lists.rows,
    left.isActive db.userId = true → right.isActive db.userId = true →
    ∀ title, left.title = some title → right.title = some title → left = right

/-- Titles that are stored alike are answered with one list. -/
def RepliesAgree (state : PostState) : Prop :=
  ∀ left right leftTitle rightTitle leftList rightList,
    state.phase left = .replied leftTitle leftList →
    state.phase right = .replied rightTitle rightList →
    encodeEmoji leftTitle = encodeEmoji rightTitle → leftList.id = rightList.id

/-- What was answered is still the active list of its title. -/
def RepliesStand (state : PostState) : Prop :=
  ∀ request title list, state.phase request = .replied title list →
    ∃ row ∈ state.store.lists.rows, row.isActive db.userId = true ∧
      row.title = some (encodeEmoji title) ∧ list = rowToList row

def PostsIdempotent (start : PostState) (run : List (Timed PostEvent)) : Prop :=
  ∀ reached ∈ run.scanl (postStep db) start, TitlesUnique db reached.store ∧ RepliesAgree reached

/-- Every insert that the table accepts meets no active list of its title. -/
def InsertsFindNothing (start : PostState) (run : List (Timed PostEvent)) : Prop :=
  ∀ state step rest, Happens (postStep db) start run state step rest →
    ∀ request listId title, step.event = .insert request listId →
      state.phase request = .absent title → state.store.lists.get listId = none →
      getListByTitle db state.store title = none

variable {db}

/-- An insert keeps the titles unique exactly when the title was not in use. -/
theorem titlesUnique_insert_iff {store after : Store} {now : ℤ} {listId title : Text}
    (free : store.lists.get listId = none)
    (effect : ListEffect db store after now (newListRow db listId now title))
    (unique : TitlesUnique db store) :
    TitlesUnique db after ↔ getListByTitle db store title = none := by
  have active : (newListRow db listId now title).isActive db.userId = true :=
    ListRow.isActive_iff.mpr ⟨rfl, rfl⟩
  have absent : ∀ row ∈ store.lists.rows, row.taskListId ≠ listId := by
    intro row member same
    rw [(store.lists.get_eq_some_iff listId row).mpr ⟨member, same⟩] at free
    cases free
  rw [getListByTitle_eq_none_iff]
  constructor
  · intro uniqueAfter row member rowActive stored
    have same := uniqueAfter row ((effect.mem_iff row).mpr (Or.inr ⟨member, absent row member⟩))
      _ ((effect.mem_iff _).mpr (Or.inl rfl)) rowActive active _ stored rfl
    exact absent row member (congrArg ListRow.taskListId same)
  · intro unused left leftMem right rightMem leftActive rightActive stored leftTitle rightTitle
    rw [effect.mem_iff] at leftMem rightMem
    rcases leftMem with rfl | ⟨leftMem, -⟩
    · rcases rightMem with rfl | ⟨rightMem, -⟩
      · rfl
      · cases leftTitle
        exact absurd rightTitle (unused right rightMem rightActive)
    · rcases rightMem with rfl | ⟨rightMem, -⟩
      · cases rightTitle
        exact absurd leftTitle (unused left leftMem leftActive)
      · exact unique left leftMem right rightMem leftActive rightActive stored leftTitle rightTitle

theorem repliesAgree_of_stand {state : PostState} (unique : TitlesUnique db state.store)
    (stand : RepliesStand db state) : RepliesAgree state := by
  intro left right leftTitle rightTitle leftList rightList leftReply rightReply sameTitle
  obtain ⟨leftRow, leftMem, leftActive, leftStored, rfl⟩ := stand left leftTitle leftList leftReply
  obtain ⟨rightRow, rightMem, rightActive, rightStored, rfl⟩ :=
    stand right rightTitle rightList rightReply
  rw [← sameTitle] at rightStored
  rw [unique leftRow leftMem rightRow rightMem leftActive rightActive _ leftStored rightStored]

/-- One step keeps the answers standing, and the titles unique unless it inserts a
title that is in use. -/
theorem postStep_keeps {state : PostState} {step : Timed PostEvent}
    (finds : ∀ request listId title, step.event = .insert request listId →
      state.phase request = .absent title → state.store.lists.get listId = none →
      getListByTitle db state.store title = none)
    (held : TitlesUnique db state.store ∧ RepliesStand db state) :
    TitlesUnique db (postStep db state step).store ∧ RepliesStand db (postStep db state step) := by
  obtain ⟨unique, stand⟩ := held
  by_cases inserts : ∃ request listId title, step.event = .insert request listId ∧
      state.phase request = .absent title ∧ state.store.lists.get listId = none
  · obtain ⟨client, listId, title, isInsert, looked, free⟩ := inserts
    obtain ⟨after, effect, stepped⟩ := postStep_insert db isInsert looked free
    rw [stepped]
    refine ⟨(titlesUnique_insert_iff free effect unique).mpr
      (finds client listId title isInsert looked free), ?_⟩
    intro request replyTitle list replied
    have phase : (if request = client then PostPhase.replied title
        (rowToList (newListRow db listId step.clock title)) else state.phase request) =
        .replied replyTitle list := by
      rw [← PostState.advance_phase]
      exact replied
    by_cases same : request = client
    · rw [if_pos same] at phase
      cases phase
      exact ⟨_, (effect.mem_iff _).mpr (Or.inl rfl), ListRow.isActive_iff.mpr ⟨rfl, rfl⟩, rfl, rfl⟩
    · rw [if_neg same] at phase
      obtain ⟨row, member, active, stored, isRow⟩ := stand request replyTitle list phase
      refine ⟨row, (effect.mem_iff row).mpr (Or.inr ⟨member, fun sameId => ?_⟩), active, stored,
        isRow⟩
      have taken := (state.store.lists.get_eq_some_iff listId row).mpr ⟨member, sameId⟩
      rw [free] at taken
      cases taken
  · obtain ⟨sameStore, answers⟩ := postStep_other db state step
      fun request listId title isInsert looked free =>
        inserts ⟨request, listId, title, isInsert, looked, free⟩
    rw [RepliesStand, sameStore]
    refine ⟨unique, fun request title list replied => ?_⟩
    rcases answers request title list replied with earlier | lookedUp
    · exact stand request title list earlier
    · exact getListByTitle_eq_some lookedUp

end Titles

/-! ## The law -/

/-- From a store with unique titles, every interleaving of requests keeps them unique
and answers equal titles alike, exactly when no insert comes after one of its title. -/
theorem posts_idempotent_iff (db : Database) (store : Store) (run : List (Timed PostEvent))
    (unique : TitlesUnique db store) :
    PostsIdempotent db (.initial store) run ↔ InsertsFindNothing db (.initial store) run := by
  constructor
  · intro idempotent state step rest occurs request listId title isInsert looked free
    obtain ⟨after, effect, stepped⟩ := postStep_insert db isInsert looked free
    have uniqueBefore := (idempotent state occurs.state_mem_scanl).1
    have uniqueAfter := (idempotent _ occurs.next_mem_scanl).1
    rw [stepped] at uniqueAfter
    exact (titlesUnique_insert_iff free effect uniqueBefore).mp uniqueAfter
  · intro finds reached member
    have held := invariant_of_scanl
      (fun state : PostState => TitlesUnique db state.store ∧ RepliesStand db state)
      ⟨unique, fun request title list replied => by cases replied⟩
      (fun state step rest occurs held => postStep_keeps (finds state step rest occurs) held)
      reached member
    exact ⟨held.1, repliesAgree_of_stand held.1 held.2⟩

def groceries : TaskListCreate := ⟨⟨['g'], by decide⟩⟩

def postsInTurn : List (Timed PostEvent) :=
  [⟨1000, .lookup 0 groceries⟩, ⟨1001, .insert 0 ['x']⟩, ⟨1002, .lookup 1 groceries⟩,
    ⟨1003, .insert 1 ['y']⟩]

/-- Both requests look up before either inserts. -/
def postsInterleaved : List (Timed PostEvent) :=
  [⟨1000, .lookup 0 groceries⟩, ⟨1000, .lookup 1 groceries⟩, ⟨1001, .insert 0 ['x']⟩,
    ⟨1001, .insert 1 ['y']⟩]

theorem posts_in_turn_idempotent : PostsIdempotent singleUser (.initial .empty) postsInTurn := by
  refine (posts_idempotent_iff singleUser .empty postsInTurn
    fun left member => absurd member List.not_mem_nil).mpr ?_
  refine forall_happens_cons_iff.mpr ⟨?_, forall_happens_cons_iff.mpr ⟨?_, ?_⟩⟩
  · intro request listId title isInsert
    cases isInsert
  · intro request listId title isInsert looked free
    cases isInsert
    cases looked
    rfl
  refine forall_happens_cons_iff.mpr ⟨?_, forall_happens_cons_iff.mpr ⟨?_, forall_happens_nil⟩⟩
  · intro request listId title isInsert
    cases isInsert
  · intro request listId title isInsert looked
    cases isInsert
    cases looked

/-- Both inserts succeed: two active lists carry the title, and the requests are
answered with different ids. -/
theorem interleaved_posts_duplicate :
    TitlesUnique singleUser .empty ∧
    ¬ TitlesUnique singleUser
      (postsInterleaved.foldl (postStep singleUser) (.initial .empty)).store ∧
    ¬ RepliesAgree (postsInterleaved.foldl (postStep singleUser) (.initial .empty)) := by
  refine ⟨fun left member => absurd member List.not_mem_nil, ?_, ?_⟩
  · intro unique
    have same := unique (newListRow singleUser ['x'] 1001 ['g']) (by decide)
      (newListRow singleUser ['y'] 1001 ['g']) (by decide) rfl rfl ['g'] rfl rfl
    exact absurd same (by decide)
  · intro agree
    have same := agree 0 1 ['g'] ['g'] _ _ rfl rfl rfl
    exact absurd same (by decide)

end SupernoteTaskService
