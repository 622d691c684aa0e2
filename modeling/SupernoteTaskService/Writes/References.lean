import SupernoteTaskService.Routers.Requests

/-!
# Tasks and their lists

The task endpoints refuse a `list_id` that names no active list, and the list endpoints
never look at the tasks.  An active task points at an active list for as long as no
list is deleted while there are active tasks in it.
-/

set_option autoImplicit false

namespace SupernoteTaskService

open Foundation

section References
variable (db : Database)

def HasList (store : Store) (listId : Text) : Prop :=
  ∃ list ∈ store.lists.rows, list.taskListId = listId ∧ list.isActive db.userId = true

instance (store : Store) (listId : Text) : Decidable (HasList db store listId) :=
  inferInstanceAs (Decidable (∃ list ∈ store.lists.rows, _))

/-- Every active task that names a list names an active one. -/
def ReferencesHold (store : Store) : Prop :=
  ∀ row ∈ store.tasks.rows, row.isActive db.userId = true →
    ∀ listId, row.taskListId = some listId → HasList db store listId

/-- A `DELETE` that finds its list finds no active task in it. -/
def DeletesEmptyList (store : Store) (step : Timed Request) : Prop :=
  match step.event with
  | .deleteList listId ifUnmodifiedSince =>
      ∀ list, store.lists.get listId = some list → list.isActive db.userId = true →
        versionMatches ifUnmodifiedSince list.lastModified = true →
        ∀ row ∈ store.tasks.rows, row.isActive db.userId = true → row.taskListId ≠ some listId
  | _ => True

variable {db} {store after : Store} {now : ℤ}

/-! ## What a write does to the references -/

theorem TaskEffect.referencesHold {row : TaskRow} (effect : TaskEffect db store after now row)
    (hold : ReferencesHold db store)
    (placed : row.isActive db.userId = true →
      ∀ listId, row.taskListId = some listId → HasList db store listId) :
    ReferencesHold db after := by
  intro other member active listId inList
  rw [HasList, effect.lists]
  rcases (effect.mem_iff other).mp member with rfl | ⟨stored, -⟩
  · exact placed active listId inList
  · exact hold other stored active listId inList

theorem ListEffect.referencesHold {list : ListRow} (effect : ListEffect db store after now list)
    (hold : ReferencesHold db store) (stays : list.isActive db.userId = true) :
    ReferencesHold db after := by
  intro row member active listId inList
  rw [effect.tasks] at member
  obtain ⟨old, oldStored, isOld, oldActive⟩ := hold row member active listId inList
  by_cases sameKey : old.taskListId = list.taskListId
  · exact ⟨list, (effect.mem_iff list).mpr (Or.inl rfl), sameKey.symm.trans isOld, stays⟩
  · exact ⟨old, (effect.mem_iff old).mpr (Or.inr ⟨oldStored, sameKey⟩), isOld, oldActive⟩

theorem Request.rewrite_placed {request : Request} {rewrite : TaskRow → TaskRow} {row : TaskRow}
    (admitted : request.admitted db store = true)
    (isRewrite : request.operation.rewriteTask now = some rewrite)
    (placed : ∀ listId, row.taskListId = some listId → HasList db store listId) :
    ∀ listId, (rewrite row).taskListId = some listId → HasList db store listId := by
  cases request with
  | updateTask statusNow taskId body ifUnmodifiedSince =>
      simp only [Request.operation, Operation.rewriteTask] at isRewrite
      split at isRewrite
      · cases isRewrite
      · cases isRewrite
        intro listId inList
        rw [updatedRow_taskListId] at inList
        cases named : body.target with
        | none =>
            rw [named] at inList
            exact placed listId inList
        | some target =>
            rw [named] at inList
            rw [Option.getD_some] at inList
            rw [inList] at named
            exact listExists_iff.mp (ensureTargetList_isOk_iff.mp admitted listId named)
  | completeTask statusNow taskId ifUnmodifiedSince =>
      cases isRewrite
      exact placed
  | uncompleteTask statusNow taskId ifUnmodifiedSince =>
      cases isRewrite
      exact placed
  | deleteTask taskId ifUnmodifiedSince =>
      cases isRewrite
      exact placed
  | _ => cases isRewrite

theorem Operation.rewriteList_active {operation : Operation} {rewrite : ListRow → ListRow}
    (isRewrite : operation.rewriteList now = some rewrite)
    (isRename : ∀ listId expected, operation ≠ .deleteList listId expected) {list : ListRow}
    (active : list.isActive db.userId = true) : (rewrite list).isActive db.userId = true := by
  cases operation with
  | updateList listId title expected =>
      cases isRewrite
      exact active
  | deleteList listId expected => exact absurd rfl (isRename listId expected)
  | _ => cases isRewrite

/-! ## One request -/

theorem referencesHold_step {step : Timed Request}
    (isOther : ∀ listId expected, step.event.operation ≠ .deleteList listId expected)
    (hold : ReferencesHold db store) : ReferencesHold db (requestStep db store step) := by
  rcases requestStep_cases db store step with same | ⟨admitted, ran⟩
  · rw [same]
    exact hold
  · rw [ran]
    have shape := step.event.operation.step_shape db store step.clock
    generalize (step.event.operation.run db store step.clock).2 = after at shape ⊢
    cases shape with
    | unchanged => exact hold
    | taskCreated taskId data after isCreate free effect =>
        refine effect.referencesHold hold fun _ listId inList => ?_
        obtain ⟨clock, event⟩ := step
        cases event with
        | createTask taskId body =>
            cases isCreate
            exact listExists_iff.mp (ensureListExists_isOk_iff.mp admitted listId inList)
        | _ => cases isCreate
    | taskRewritten taskId rewrite old after isTarget isRewrite found active version effect =>
        have stored := ((store.tasks.get_eq_some_iff taskId old).mp found).1
        exact effect.referencesHold hold fun _ =>
          Request.rewrite_placed admitted isRewrite (hold old stored active)
    | listCreated listId title after isCreate free effect =>
        exact effect.referencesHold hold (ListRow.isActive_iff.mpr ⟨rfl, rfl⟩)
    | listRewritten listId rewrite old after isTarget isRewrite found active version effect =>
        exact effect.referencesHold hold (Operation.rewriteList_active isRewrite isOther active)

/-- A `DELETE` of a list keeps the references exactly when the list is empty. -/
theorem referencesHold_deleteList_iff {listId : Text} {ifUnmodifiedSince : Option ℤ}
    (hold : ReferencesHold db store) :
    ReferencesHold db (requestStep db store ⟨now, .deleteList listId ifUnmodifiedSince⟩) ↔
      DeletesEmptyList db store ⟨now, .deleteList listId ifUnmodifiedSince⟩ := by
  have ran : requestStep db store ⟨now, .deleteList listId ifUnmodifiedSince⟩ =
      (executeListUpdate db store ifUnmodifiedSince [.isDeleted YES, .lastModified now] listId).2 :=
    rfl
  rw [ran]
  rcases executeListUpdate_cases db store ifUnmodifiedSince
      [.isDeleted YES, .lastModified now] listId with
    refused | ⟨list, after, found, active, matched, -, executed, tasks, frame⟩
  · rw [refused]
    refine iff_of_true hold fun list found active matched => ?_
    -- A `DELETE` that matched would have changed the row.
    have same := executeListUpdate_refused (congrArg Prod.fst refused) found active matched
    have deleted := congrArg ListRow.isDeleted same
    rw [(ListRow.isActive_iff.mp active).2] at deleted
    cases deleted
  · rw [executed]
    constructor
    · intro holdAfter other isOther _ _ row member rowActive inList
      rw [← tasks] at member
      obtain ⟨list', stored, isList, active'⟩ := holdAfter row member rowActive listId inList
      have isDeleted := (after.lists.get_eq_some_iff listId list').mpr ⟨stored, isList⟩
      rw [frame, if_pos rfl] at isDeleted
      cases isDeleted
      cases (ListRow.isActive_iff.mp active').2
    · intro emptyList row member rowActive otherId inList
      rw [tasks] at member
      obtain ⟨other, stored, isOther, otherActive⟩ := hold row member rowActive otherId inList
      have kept : after.lists.get otherId = some other := by
        rw [frame, if_neg, store.lists.get_eq_some_iff]
        · exact ⟨stored, isOther⟩
        · rintro rfl
          exact emptyList list found active matched row member rowActive inList
      exact ⟨other, ((after.lists.get_eq_some_iff otherId other).mp kept).1, isOther, otherActive⟩

theorem referencesHold_step_iff {step : Timed Request} (hold : ReferencesHold db store) :
    ReferencesHold db (requestStep db store step) ↔ DeletesEmptyList db store step := by
  obtain ⟨clock, event⟩ := step
  cases event with
  | deleteList listId ifUnmodifiedSince => exact referencesHold_deleteList_iff hold
  | _ =>
      exact iff_of_true (referencesHold_step (fun listId expected => by nofun) hold) trivial

end References

/-! ## Runs of requests -/

/-- From tables in which every active task has its list, the references hold throughout
a run of requests exactly when every `DELETE` of a list finds it empty. -/
theorem references_hold_iff (db : Database) {start : Store} (run : List (Timed Request))
    (initial : ReferencesHold db start) :
    (∀ reached ∈ run.scanl (requestStep db) start, ReferencesHold db reached) ↔
      ∀ state step rest, Happens (requestStep db) start run state step rest →
        DeletesEmptyList db state step :=
  scanl_invariant_iff (ReferencesHold db) (DeletesEmptyList db) initial
    fun _ _ _ _ hold => referencesHold_step_iff hold

def deleteShopping : Timed Request := ⟨4000, .deleteList shoppingId.value none⟩

theorem empty_referencesHold : ReferencesHold singleUser .empty :=
  fun _ member => absurd member List.not_mem_nil

/-- The list is deleted after its only task. -/
theorem list_deleted_when_empty :
    ReferencesHold singleUser .empty ∧
    ∀ reached ∈ [createShopping, createInShopping, ⟨3000, .deleteTask ['a'] none⟩,
        deleteShopping].scanl (requestStep singleUser) .empty,
      ReferencesHold singleUser reached := by
  refine ⟨empty_referencesHold,
    (references_hold_iff singleUser _ empty_referencesHold).mpr ?_⟩
  refine forall_happens_cons_iff.mpr ⟨trivial, forall_happens_cons_iff.mpr ⟨trivial, ?_⟩⟩
  refine forall_happens_cons_iff.mpr ⟨trivial, forall_happens_cons_iff.mpr ⟨?_, ?_⟩⟩
  · exact fun _ _ _ _ => by decide
  · exact forall_happens_nil

/-- The list is deleted while its task is active, and the task points at it from then on. -/
theorem list_deleted_under_its_task :
    ReferencesHold singleUser .empty ∧
    ¬ ∀ reached ∈ [createShopping, createInShopping, deleteShopping].scanl
        (requestStep singleUser) .empty, ReferencesHold singleUser reached := by
  refine ⟨empty_referencesHold, fun throughout => ?_⟩
  have final := throughout ([createShopping, createInShopping, deleteShopping].foldl
    (requestStep singleUser) .empty) (by decide)
  have pointed := final _ (List.mem_singleton.mpr rfl) rfl shoppingId.value rfl
  exact absurd pointed (by decide)

end SupernoteTaskService
