import SupernoteTaskService.Repository.Writes
import SupernoteTaskService.Routers.Tasks
import SupernoteTaskService.Routers.Lists

/-!
# The answer to a write

An endpoint infers what happened from the number of rows that its statement changed.
A statement that matches its row and changes nothing looks like one that matched no
row, and is answered as a missing row or a conflict.
-/

set_option autoImplicit false

namespace SupernoteTaskService

open Foundation

/-! ## Classified answers -/

section Classified
variable {α : Type}

def RefusedWith (reply : Reply α Store) (status : ℕ) : Prop :=
  ∃ raised, reply.1 = .error raised ∧ raised.status = status

def Succeeds (reply : Reply α Store) : Prop := ∃ answer, reply.1 = .ok answer

/-- The answer says what became of the request; `stamp` is the `last_modified` of the
active row of the id, if there is one. -/
structure Classified (store : Store) (stamp : Option (Option ℤ)) (ifUnmodifiedSince : Option ℤ)
    (reply : Reply α Store) : Prop where
  missing : RefusedWith reply 404 ↔ stamp = none
  conflict : RefusedWith reply 409 ↔
    ∃ lastModified, stamp = some lastModified ∧
      versionMatches ifUnmodifiedSince lastModified = false
  success : Succeeds reply ↔
    ∃ lastModified, stamp = some lastModified ∧
      versionMatches ifUnmodifiedSince lastModified = true
  unchanged : RefusedWith reply 404 ∨ RefusedWith reply 409 → reply.2 = store

theorem refusedWith_error_iff {raised : Raised} {after : Store} {status : ℕ} :
    RefusedWith ((.error raised, after) : Reply α Store) status ↔ raised.status = status := by
  simp [RefusedWith]

theorem not_refusedWith_ok {answer : α} {after : Store} {status : ℕ} :
    ¬ RefusedWith ((.ok answer, after) : Reply α Store) status := by
  simp [RefusedWith]

theorem not_succeeds_error {raised : Raised} {after : Store} :
    ¬ Succeeds ((.error raised, after) : Reply α Store) := by
  simp [Succeeds]

theorem classified_missing (store : Store) (version : Option ℤ) (detail : String) :
    Classified store none version
      ((.error (.http (httpException 404 detail)), store) : Reply α Store) where
  missing := iff_of_true (refusedWith_error_iff.mpr rfl) rfl
  conflict := by
    rw [refusedWith_error_iff]
    refine iff_of_false (by decide : (404 : ℕ) ≠ 409) ?_
    intro ⟨lastModified, impossible, _⟩
    cases impossible
  success := by
    refine iff_of_false not_succeeds_error ?_
    intro ⟨lastModified, impossible, _⟩
    cases impossible
  unchanged := fun _ => rfl

theorem classified_conflict (store : Store) {version lastModified : Option ℤ} (detail : String)
    (differs : versionMatches version lastModified = false) :
    Classified store (some lastModified) version
      ((.error (.http ⟨409, detail, "conflict"⟩), store) : Reply α Store) where
  missing := by
    rw [refusedWith_error_iff]
    exact iff_of_false (by decide : (409 : ℕ) ≠ 404) (Option.some_ne_none _)
  conflict := iff_of_true (refusedWith_error_iff.mpr rfl) ⟨lastModified, rfl, differs⟩
  success := by
    refine iff_of_false not_succeeds_error ?_
    intro ⟨other, same, matched⟩
    cases same
    rw [differs] at matched
    cases matched
  unchanged := fun _ => rfl

theorem classified_success (store after : Store) {version lastModified : Option ℤ} (answer : α)
    (matched : versionMatches version lastModified = true) :
    Classified store (some lastModified) version ((.ok answer, after) : Reply α Store) where
  missing := iff_of_false not_refusedWith_ok (Option.some_ne_none _)
  conflict := by
    refine iff_of_false not_refusedWith_ok ?_
    intro ⟨other, same, differs⟩
    cases same
    rw [matched] at differs
    cases differs
  success := iff_of_true ⟨answer, rfl⟩ ⟨lastModified, rfl, matched⟩
  unchanged := by
    intro either
    rcases either with refusal | refusal
    · exact absurd refusal not_refusedWith_ok
    · exact absurd refusal not_refusedWith_ok

/-- An answer that follows the affected rows is right exactly when every matched row
is affected and can be answered with. -/
theorem classified_iff {store after : Store} {stamp : Option (Option ℤ)} {version : Option ℤ}
    {ok stillThere : Bool} (conflict missing : String) (answer : Except Raised α)
    (accepted : ok = true → ∃ lastModified, stamp = some lastModified ∧
      versionMatches version lastModified = true)
    (refused : ok = false → after = store ∧ stillThere = stamp.isSome) :
    Classified store stamp version
        (do resolveWriteWith conflict missing stillThere ok version.isSome; answer, after) ↔
      ∀ lastModified, stamp = some lastModified → versionMatches version lastModified = true →
        ok = true ∧ ∃ value, answer = .ok value := by
  cases ok with
  | true =>
      obtain ⟨lastModified, rfl, matched⟩ := accepted rfl
      cases answer with
      | error raised =>
          refine iff_of_false (fun classified => ?_) (fun all => ?_)
          · exact not_succeeds_error (classified.success.mpr ⟨lastModified, rfl, matched⟩)
          · obtain ⟨-, value, impossible⟩ := all lastModified rfl matched
            cases impossible
      | ok value =>
          exact iff_of_true (classified_success store after value matched)
            fun _ _ _ => ⟨rfl, value, rfl⟩
  | false =>
      obtain ⟨rfl, rfl⟩ := refused rfl
      cases stamp with
      | none =>
          have resolved : resolveWriteWith conflict missing false false version.isSome =
              .error (.http (httpException 404 missing)) := by
            simp [resolveWriteWith]
          rw [Option.isSome_none, resolved]
          refine iff_of_true (classified_missing after version missing) ?_
          intro lastModified impossible
          cases impossible
      | some lastModified =>
          cases matched : versionMatches version lastModified with
          | false =>
              -- Only a version that was sent can differ.
              obtain ⟨expected, rfl⟩ : ∃ expected, version = some expected := by
                cases version with
                | none => cases matched
                | some expected => exact ⟨expected, rfl⟩
              refine iff_of_true (classified_conflict after conflict matched) ?_
              intro other same otherMatched
              cases same
              rw [matched] at otherMatched
              cases otherMatched
          | true =>
              refine iff_of_false (fun classified => ?_) (fun all => ?_)
              · obtain ⟨value, impossible⟩ := classified.success.mpr ⟨lastModified, rfl, matched⟩
                cases version with
                | none => cases impossible
                | some expected => cases impossible
              · exact Bool.false_ne_true (all lastModified rfl matched).1

theorem bind_ok_unit (first : Except Raised Unit) : (do first; .ok ()) = first := by
  cases first <;> rfl

end Classified

/-! ## Tasks -/

section Tasks
variable {db : Database} {store : Store} {statusNow now : ℤ} {taskId : Text} {data : TaskUpdate}
  {version : Option ℤ}

def patchedRow (data : TaskUpdate) (statusNow now : ℤ) (row : TaskRow) : TaskRow :=
  if updateSets data statusNow = [] then row else updatedRow data statusNow now row

/-- The update sets nothing, or something that the row does not hold yet. -/
def PatchApplies (data : TaskUpdate) (statusNow now : ℤ) (row : TaskRow) : Prop :=
  updateSets data statusNow = [] ∨ updatedRow data statusNow now row ≠ row

theorem requireTask_ok_iff :
    (∃ task, Routers.Tasks.requireTask db store taskId = .ok task) ↔
      ∃ row, activeTask db store taskId = some row ∧ Readable db.linkModel row := by
  rw [← getTask_eq_some_iff, Routers.Tasks.requireTask]
  cases getTask db store taskId with
  | error raised => simp [bind, Except.bind]
  | ok found =>
      cases found with
      | none => simp [bind, Except.bind]
      | some task => simp [bind, Except.bind, pure, Except.pure]

variable (db store statusNow now taskId data version) in
theorem updateTask_cases :
    ((updateTask db store statusNow now taskId data version) = (false, store) ∧
        ∀ row, activeTask db store taskId = some row →
          versionMatches version row.lastModified = true →
            ¬ PatchApplies data statusNow now row) ∨
      ∃ row after, activeTask db store taskId = some row ∧
        versionMatches version row.lastModified = true ∧ PatchApplies data statusNow now row ∧
        updateTask db store statusNow now taskId data version =
          (true, after) ∧
        activeTask db after taskId = some (patchedRow data statusNow now row) := by
  unfold updateTask
  by_cases nothing : updateSets data statusNow = []
  · rw [nothing, List.isEmpty_nil, if_pos rfl]
    cases active : activeTask db store taskId with
    | none =>
        left
        cases version with
        | none => simp [taskExists, active]
        | some expected => simp [rowMatchesVersion, active]
    | some row =>
        have patched : patchedRow data statusNow now row = row := if_pos nothing
        cases version with
        | none =>
            refine Or.inr ⟨row, store, rfl, rfl, Or.inl nothing, ?_, ?_⟩
            · simp [taskExists, active]
            · rw [patched, active]
        | some expected =>
            by_cases matched : row.lastModified = some expected
            · refine Or.inr ⟨row, store, rfl, ?_, Or.inl nothing, ?_, ?_⟩
              · simp [versionMatches, matched]
              · simp [rowMatchesVersion, active, matched]
              · rw [patched, active]
            · left
              simp [rowMatchesVersion, active, versionMatches, matched]
  · have patched : ∀ row, patchedRow data statusNow now row = updatedRow data statusNow now row :=
      fun row => if_neg nothing
    have applies : ∀ row, PatchApplies data statusNow now row ↔
        updatedRow data statusNow now row ≠ row := fun row => or_iff_right nothing
    rw [if_neg (by rwa [List.isEmpty_iff])]
    rcases executeTaskUpdate_cases db store version
        (updateSets data statusNow ++ [.lastModified now]) taskId with
      refused | ⟨row, after, found, active, matched, changed, executed, -, frame⟩
    · refine Or.inl ⟨refused, fun row isActive matched patch => ?_⟩
      obtain ⟨found, active⟩ := activeTask_eq_some_iff.mp isActive
      have same := executeTaskUpdate_refused (congrArg Prod.fst refused) found active matched
      rw [assign_updateSets] at same
      exact (applies row).mp patch same
    · rw [assign_updateSets] at changed frame
      refine Or.inr ⟨row, after, activeTask_eq_some_iff.mpr ⟨found, active⟩, matched,
        (applies row).mpr changed, executed, ?_⟩
      rw [patched, activeTask_eq_some_iff, frame, if_pos rfl]
      exact ⟨rfl, active⟩

/-- Where the update matches a row, it applies and leaves a task that can be shown. -/
def PatchSettles (db : Database) (store : Store) (statusNow now : ℤ) (taskId : Text)
    (version : Option ℤ) (data : TaskUpdate) : Prop :=
  ∀ row, activeTask db store taskId = some row → versionMatches version row.lastModified = true →
    PatchApplies data statusNow now row ∧ Readable db.linkModel (patchedRow data statusNow now row)

theorem replyWithTask_classified_iff :
    Classified store ((activeTask db store taskId).map TaskRow.lastModified) version
        (Routers.Tasks.replyWithTask db taskId version
          (updateTask db store statusNow now taskId data version)) ↔
      PatchSettles db store statusNow now taskId version data := by
  rcases updateTask_cases db store statusNow now taskId data version with
    ⟨refused, none⟩ | ⟨row, after, active, matched, applies, updated, activeAfter⟩
  · rw [refused]
    refine (classified_iff _ _ _ (fun impossible => by cases impossible) fun _ => ?_).trans ?_
    · refine ⟨rfl, ?_⟩
      rw [taskExists, Option.isSome_map]
    · constructor
      · intro all row active matched
        have isStamp : (activeTask db store taskId).map TaskRow.lastModified =
            some row.lastModified := by rw [active, Option.map_some]
        exact absurd (all row.lastModified isStamp matched).1 Bool.false_ne_true
      · intro all lastModified isStamp matched
        obtain ⟨row, active, rfl⟩ := Option.map_eq_some_iff.mp isStamp
        exact absurd (all row active matched).1 (none row active matched)
  · rw [updated]
    have isStamp : (activeTask db store taskId).map TaskRow.lastModified =
        some row.lastModified := by rw [active, Option.map_some]
    refine (classified_iff _ _ _ (fun _ => ⟨row.lastModified, isStamp, matched⟩)
      fun impossible => by cases impossible).trans ?_
    constructor
    · intro all other isActive _
      cases active.symm.trans isActive
      obtain ⟨found, isPatched, readable⟩ :=
        requireTask_ok_iff.mp (all row.lastModified isStamp matched).2
      cases activeAfter.symm.trans isPatched
      exact ⟨applies, readable⟩
    · intro all lastModified _ _
      exact ⟨rfl, requireTask_ok_iff.mpr ⟨_, activeAfter, (all row active matched).2⟩⟩

theorem deleteTask_classified :
    Classified store ((activeTask db store taskId).map TaskRow.lastModified) version
      (Routers.Tasks.deleteTask db store now taskId version) := by
  rw [Routers.Tasks.deleteTask, ← bind_ok_unit (Routers.Tasks.resolveWrite _ _ _ _ _)]
  unfold deleteTask
  rcases executeTaskUpdate_cases db store version [.isDeleted YES, .lastModified now] taskId with
    refused | ⟨row, after, found, active, matched, -, executed, -, -⟩
  · rw [refused]
    refine (classified_iff _ _ _ (fun impossible => by cases impossible) fun _ => ?_).mpr ?_
    · refine ⟨rfl, ?_⟩
      rw [taskExists, Option.isSome_map]
    · intro lastModified isStamp matched
      obtain ⟨row, isActive, rfl⟩ := Option.map_eq_some_iff.mp isStamp
      obtain ⟨found, active⟩ := activeTask_eq_some_iff.mp isActive
      have same := executeTaskUpdate_refused (congrArg Prod.fst refused) found active matched
      have deleted : row.isDeleted = some YES := by
        rw [← same]
        rfl
      rw [(TaskRow.isActive_iff.mp active).2] at deleted
      exact absurd deleted (by decide)
  · rw [executed]
    refine (classified_iff _ _ _ (fun _ => ?_) fun impossible => by cases impossible).mpr ?_
    · refine ⟨row.lastModified, ?_, matched⟩
      rw [activeTask_eq_some_iff.mpr ⟨found, active⟩, Option.map_some]
    · exact fun _ _ _ => ⟨rfl, (), rfl⟩

end Tasks

/-! ## Lists -/

section Lists
variable {db : Database} {store : Store} {now : ℤ} {listId : Text} {version : Option ℤ}

theorem listUpdate_classified_iff {α : Type} (sets : List ListSet) (conflict missing : String)
    (answer : Except Raised α)
    (answers : ∀ row, store.lists.get listId = some row → row.isActive db.userId = true →
      versionMatches version row.lastModified = true → row.assign sets ≠ row →
      ∃ value, answer = .ok value) :
    Classified store ((activeList db store listId).map ListRow.lastModified) version
        (do
          resolveWriteWith conflict missing
            (listExists db (executeListUpdate db store version sets listId).2 listId)
            (executeListUpdate db store version sets listId).1 version.isSome
          answer, (executeListUpdate db store version sets listId).2) ↔
      ∀ row, activeList db store listId = some row → versionMatches version row.lastModified = true →
        row.assign sets ≠ row := by
  rcases executeListUpdate_cases db store version sets listId with
    refused | ⟨row, after, found, active, matched, changed, executed, -, -⟩
  · rw [refused]
    refine (classified_iff _ _ _ (fun impossible => by cases impossible) fun _ => ?_).trans ?_
    · refine ⟨rfl, ?_⟩
      rw [listExists, Option.isSome_map]
    · constructor
      · intro all row isActive matched
        have isStamp : (activeList db store listId).map ListRow.lastModified =
            some row.lastModified := by rw [isActive, Option.map_some]
        exact absurd (all row.lastModified isStamp matched).1 Bool.false_ne_true
      · intro all lastModified isStamp matched
        obtain ⟨row, isActive, rfl⟩ := Option.map_eq_some_iff.mp isStamp
        obtain ⟨found, active⟩ := activeList_eq_some_iff.mp isActive
        have same := executeListUpdate_refused (congrArg Prod.fst refused) found active matched
        exact absurd same (all row isActive matched)
  · rw [executed]
    have isActive := activeList_eq_some_iff.mpr ⟨found, active⟩
    have isStamp : (activeList db store listId).map ListRow.lastModified =
        some row.lastModified := by rw [isActive, Option.map_some]
    refine (classified_iff _ _ _ (fun _ => ⟨row.lastModified, isStamp, matched⟩)
      fun impossible => by cases impossible).trans ?_
    refine iff_of_true (fun _ _ _ => ⟨rfl, answers row found active matched changed⟩) ?_
    intro other isOther _
    cases isActive.symm.trans isOther
    exact changed

theorem updateList_classified_iff (body : TaskListUpdate) :
    Classified store ((activeList db store listId).map ListRow.lastModified) version
        (Routers.Lists.updateList db store now listId body version) ↔
      ∀ row, activeList db store listId = some row → versionMatches version row.lastModified = true →
        ¬ (row.title = some (encodeEmoji body.title.text) ∧ row.lastModified = some now) := by
  refine (listUpdate_classified_iff [.title (encodeEmoji body.title.text), .lastModified now] _ _ _
    ?_).trans ?_
  · intro row found active matched changed
    rcases executeListUpdate_cases db store version
        [.title (encodeEmoji body.title.text), .lastModified now] listId with
      refused | ⟨other, after, isOther, -, -, -, executed, -, frame⟩
    · exact absurd (executeListUpdate_refused (congrArg Prod.fst refused) found active matched)
        changed
    · have renamed : activeList db after listId =
          some (row.assign [.title (encodeEmoji body.title.text), .lastModified now]) := by
        cases found.symm.trans isOther
        rw [activeList_eq_some_iff, frame, if_pos rfl]
        exact ⟨rfl, active⟩
      rw [updateList, executed, Routers.Lists.requireList, getList, renamed]
      exact ⟨_, rfl⟩
  · apply forall₂_congr
    intro row _
    apply imp_congr_right
    intro _
    refine not_congr ⟨fun same => ?_, fun ⟨title, lastModified⟩ => ?_⟩
    · rw [← same]
      exact ⟨rfl, rfl⟩
    · cases row
      cases title
      cases lastModified
      rfl

theorem deleteList_classified :
    Classified store ((activeList db store listId).map ListRow.lastModified) version
      (Routers.Lists.deleteList db store now listId version) := by
  rw [Routers.Lists.deleteList, ← bind_ok_unit (Routers.Lists.resolveWrite _ _ _ _ _)]
  refine (listUpdate_classified_iff [.isDeleted YES, .lastModified now] _ _ (.ok ()) ?_).mpr ?_
  · exact fun _ _ _ _ _ => ⟨(), rfl⟩
  · intro row isActive _ same
    have active := (activeList_eq_some_iff.mp isActive).2
    have deleted : row.isDeleted = some YES := by
      rw [← same]
      rfl
    rw [(ListRow.isActive_iff.mp active).2] at deleted
    exact absurd deleted (by decide)

end Lists

/-! ## The law -/

/-- Every answer to a write is right exactly when the write finds something to change
in the row that it matches, and leaves a task that can be shown. -/
theorem write_outcomes_iff (db : Database) (store : Store) (statusNow now : ℤ) (id : Text)
    (ifUnmodifiedSince : Option ℤ) :
    (∀ body, Routers.Tasks.ensureTargetList db store body = .ok () →
      (Classified store ((activeTask db store id).map TaskRow.lastModified) ifUnmodifiedSince
          (Routers.Tasks.updateTask db store statusNow now id body ifUnmodifiedSince) ↔
        PatchSettles db store statusNow now id ifUnmodifiedSince body)) ∧
    (Classified store ((activeTask db store id).map TaskRow.lastModified) ifUnmodifiedSince
        (Routers.Tasks.completeTask db store statusNow now id ifUnmodifiedSince) ↔
      PatchSettles db store statusNow now id ifUnmodifiedSince (.ofStatus .completed)) ∧
    (Classified store ((activeTask db store id).map TaskRow.lastModified) ifUnmodifiedSince
        (Routers.Tasks.uncompleteTask db store statusNow now id ifUnmodifiedSince) ↔
      PatchSettles db store statusNow now id ifUnmodifiedSince (.ofStatus .needsAction)) ∧
    Classified store ((activeTask db store id).map TaskRow.lastModified) ifUnmodifiedSince
      (Routers.Tasks.deleteTask db store now id ifUnmodifiedSince) ∧
    (∀ body, Classified store ((activeList db store id).map ListRow.lastModified) ifUnmodifiedSince
        (Routers.Lists.updateList db store now id body ifUnmodifiedSince) ↔
      ∀ row, activeList db store id = some row →
        versionMatches ifUnmodifiedSince row.lastModified = true →
          ¬ (row.title = some (encodeEmoji body.title.text) ∧ row.lastModified = some now)) ∧
    Classified store ((activeList db store id).map ListRow.lastModified) ifUnmodifiedSince
      (Routers.Lists.deleteList db store now id ifUnmodifiedSince) := by
  refine ⟨fun body targeted => ?_, replyWithTask_classified_iff, replyWithTask_classified_iff,
    deleteTask_classified, updateList_classified_iff, deleteList_classified⟩
  rw [Routers.Tasks.updateTask, targeted]
  exact replyWithTask_classified_iff

/-- The title of `oneTask`, restated in the millisecond of its last change. -/
def restateTitle : TaskUpdate where
  toTaskFields := { title := .given titleT }
  requireAtLeastOneField := by
    intro same
    cases same

theorem restated_title_classified_at_1001 :
    Classified oneTask (some (some 1000)) (some 1000)
      (Routers.Tasks.updateTask singleUser oneTask 1001 1001 ['a'] restateTitle (some 1000)) := by
  refine ((write_outcomes_iff singleUser oneTask 1001 1001 ['a'] (some 1000)).1 restateTitle
    rfl).mpr ?_
  intro row isActive _
  cases isActive
  refine ⟨Or.inr (by decide), ⟨none, rfl⟩, ⟨.needsAction, rfl⟩, by decide, by decide⟩

/-- The row is there and the version is its own, and yet the answers are 404 without
the version and 409 with it. -/
theorem restated_title_refused :
    activeTask singleUser oneTask ['a'] = some (plainTask ['a'] 1000) ∧
    RefusedWith (Routers.Tasks.updateTask singleUser oneTask 1000 1000 ['a'] restateTitle none)
      404 ∧
    RefusedWith (Routers.Tasks.updateTask singleUser oneTask 1000 1000 ['a'] restateTitle
      (some 1000)) 409 :=
  ⟨rfl, ⟨_, rfl, rfl⟩, ⟨_, rfl, rfl⟩⟩

end SupernoteTaskService
