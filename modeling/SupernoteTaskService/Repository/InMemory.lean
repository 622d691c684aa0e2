import SupernoteTaskService.Foundation.Simulation
import SupernoteTaskService.Repository.Operations
import SupernoteTaskService.Repository.Reference

/-!
# The in-memory repository

The rest of `FakeRepository`: two dicts, and each operation as a few lines over them.  A
write looks its entry up, returns `False` where it is gone, deleted or on another version,
and assigns to the entry otherwise.
-/

set_option autoImplicit false

namespace SupernoteTaskService

open Foundation

structure FakeList where
  id : Text
  title : Text
  lastModified : ℤ
  isDeleted : Bool
  deriving DecidableEq

/-- `_tasks` and `_lists`. -/
structure FakeState extends FakeRepository where
  lists : KeyedTable FakeList.id

def FakeState.empty : FakeState := ⟨⟨.empty⟩, .empty⟩

def replaceEntry {ρ : Type} (key : ρ → Text) (entry : ρ) (entries : List ρ) : List ρ :=
  entries.map fun other => if key other = key entry then entry else other

theorem keys_replaceEntry {ρ : Type} (key : ρ → Text) (entry : ρ) {entries : List ρ}
    (nodup : (entries.map key).Nodup) : ((replaceEntry key entry entries).map key).Nodup := by
  have sameKeys : (replaceEntry key entry entries).map key = entries.map key := by
    rw [replaceEntry, List.map_map]
    apply List.map_congr_left
    intro other _
    by_cases same : key other = key entry
    · simp [same]
    · simp [same]
  rw [sameKeys]
  exact nodup

theorem mem_replaceEntry_of_ne {ρ : Type} {key : ρ → Text} {entry row : ρ} {entries : List ρ}
    (otherKey : key row ≠ key entry) : row ∈ replaceEntry key entry entries ↔ row ∈ entries := by
  have other : row ≠ entry := fun same => otherKey (congrArg key same)
  unfold replaceEntry
  rw [List.mem_map]
  constructor
  · intro ⟨before, member, isRow⟩
    by_cases same : key before = key entry
    · rw [if_pos same] at isRow
      exact absurd isRow.symm other
    · rw [if_neg same] at isRow
      exact isRow ▸ member
  · intro member
    exact ⟨row, member, if_neg otherKey⟩

theorem keys_append_entry {ρ : Type} {key : ρ → Text} {entry : ρ} {entries : List ρ}
    (nodup : (entries.map key).Nodup) (free : key entry ∉ entries.map key) :
    ((entries ++ [entry]).map key).Nodup := by
  rw [List.map_append, List.map_singleton, ← List.concat_eq_append]
  exact nodup.concat free

def putEntry {ρ : Type} {key : ρ → Text} (dict : KeyedTable key) (entry : ρ) : KeyedTable key :=
  if taken : key entry ∈ dict.rows.map key then
    ⟨replaceEntry key entry dict.rows, keys_replaceEntry key entry dict.keysNodup⟩
  else ⟨dict.rows ++ [entry], keys_append_entry dict.keysNodup taken⟩

/-- A write of an entry that is there, not deleted, and on the expected version. -/
def mutateEntry {ρ : Type} {key : ρ → Text} (isDeleted : ρ → Bool) (lastModified : ρ → ℤ)
    (dict : KeyedTable key) (id : Text) (expectedLastModified : Option ℤ) (assign : ρ → ρ)
    (keeps : ∀ entry, key (assign entry) = key entry) : Bool × KeyedTable key :=
  match dict.get id with
  | none => (false, dict)
  | some entry =>
      if isDeleted entry then (false, dict)
      else if versionMatches expectedLastModified (some (lastModified entry)) then
        (true, dict.update (fun entry => decide (key entry = id)) assign keeps)
      else (false, dict)

/-! ## Tasks -/

section Tasks
variable (fake : FakeState)

def FakeState.getTask (taskId : Text) : Except Raised (Option Task) :=
  match fake.tasks.get taskId with
  | none => .ok none
  | some t =>
      if t.isDeleted then .ok none
      else do
        let task ← t.toTask
        return some task

def FakeState.taskExists (taskId : Text) : Bool :=
  match fake.tasks.get taskId with
  | none => false
  | some t => !t.isDeleted

/-- `(max(siblings) + 1) if siblings else 0` -/
def FakeState.nextSort (listId : Option Text) : ℤ :=
  let siblings := (fake.tasks.rows.filter fun t =>
    !t.isDeleted && decide (t.listId = listId) && t.sort.isSome).filterMap FakeTask.sort
  match siblings.max? with
  | some greatest => greatest + 1
  | none => 0

def FakeState.newTask (tid : Text) (ts : ℤ) (data : TaskCreate) : FakeTask where
  id := tid
  listId := data.listId.map IdStr.value
  title := encodeEmoji data.title.text
  detail := data.detail.text
  status := data.status
  importance := data.importance.map fun importance => importance.value
  due := dtToMs data.due
  completed := if data.status = .completed then ts else 0
  sort := some (match data.sort with
    | some sort => sort
    | none => fake.nextSort (data.listId.map IdStr.value))
  lastModified := ts
  documentLink := data.documentLink
  isDeleted := false

def FakeState.createTask (tid : Text) (ts : ℤ) (data : TaskCreate) : Text × FakeState :=
  (tid, { fake with tasks := putEntry fake.tasks (fake.newTask tid ts data) })

def FakeTask.patch (data : TaskUpdate) (statusNow now : ℤ) (t : FakeTask) : FakeTask :=
  { t with
    title := match data.title with
      | .given title => encodeEmoji title.text
      | _ => t.title
    detail := match data.detail with
      | .given detail => detail.text
      | _ => t.detail
    status := match data.status with
      | .given status => status
      | _ => t.status
    completed := match data.status with
      | .given status => if status = .completed then statusNow else 0
      | _ => t.completed
    importance := match data.importance with
      | .given importance => some (importance.value : ℤ)
      | .null => none
      | .omitted => t.importance
    due := match data.due with
      | .given due => datetimeToMs due
      | .null => 0
      | .omitted => t.due
    sort := match data.sort with
      | .given sort => some (sort : ℤ)
      | _ => t.sort
    listId := match data.listId with
      | .given listId => some listId.value
      | .null => none
      | .omitted => t.listId
    documentLink := match data.documentLink with
      | .given link => some link
      | .null => none
      | .omitted => t.documentLink
    lastModified := now }

theorem FakeTask.patch_id (data : TaskUpdate) (statusNow now : ℤ) (t : FakeTask) :
    (t.patch data statusNow now).id = t.id := rfl

def FakeTask.delete (now : ℤ) (t : FakeTask) : FakeTask :=
  { t with isDeleted := true, lastModified := now }

theorem FakeTask.delete_id (now : ℤ) (t : FakeTask) : (t.delete now).id = t.id := rfl

def FakeState.mutateTask (taskId : Text) (expectedLastModified : Option ℤ)
    (assign : FakeTask → FakeTask) (keeps : ∀ t, (assign t).id = t.id) : Bool × FakeState :=
  let (ok, tasks) := mutateEntry FakeTask.isDeleted FakeTask.lastModified fake.tasks taskId
    expectedLastModified assign keeps
  (ok, { fake with tasks := tasks })

def FakeState.updateTask (statusNow now : ℤ) (taskId : Text) (data : TaskUpdate)
    (expectedLastModified : Option ℤ) : Bool × FakeState :=
  fake.mutateTask taskId expectedLastModified (FakeTask.patch data statusNow now)
    (FakeTask.patch_id data statusNow now)

def FakeState.setStatus (statusNow now : ℤ) (taskId : Text) (status : TaskStatus)
    (expectedLastModified : Option ℤ) : Bool × FakeState :=
  fake.updateTask statusNow now taskId (.ofStatus status) expectedLastModified

def FakeState.deleteTask (now : ℤ) (taskId : Text) (expectedLastModified : Option ℤ) :
    Bool × FakeState :=
  fake.mutateTask taskId expectedLastModified (FakeTask.delete now) (FakeTask.delete_id now)

end Tasks

/-! ## Lists -/

def FakeList.toList (ls : FakeList) : TaskList where
  id := some ls.id
  title := decodeEmoji (some ls.title)
  lastModified := ls.lastModified
  isDeleted := ls.isDeleted

def FakeList.selected (serverNow : ℤ) (since : Option ℤ) (ls : FakeList) : Bool :=
  match since with
  | some since => decide (since ≤ ls.lastModified) && decide (ls.lastModified ≤ serverNow)
  | none => !ls.isDeleted

/-- `key=lambda x: (x.last_modified, x.id or "")` -/
abbrev listResultKeys : Keyset TaskList Text := ⟨TaskList.lastModified, fun list => list.id.getD []⟩

section Lists
variable (fake : FakeState)

def FakeState.listLists (serverNow : ℤ) (query : ListQuery) : Page TaskList :=
  let effectiveLimit := fakeLimit query.limit
  let out := listResultKeys.sort
    ((fake.lists.select (FakeList.selected serverNow query.since)).map FakeList.toList)
  let page := sliceTo effectiveLimit out
  let full := decide ((page.length : ℤ) = effectiveLimit) && !page.isEmpty
  let singleMs := page.head?.map TaskList.lastModified == page.getLast?.map TaskList.lastModified
  let withInbox := fun page => if query.since.isNone then inbox :: page else page
  match page.getLast? with
  | none => ⟨withInbox page, serverNow, full⟩
  | some last =>
      if query.since.isSome && full && singleMs then
        let boundary := last.lastModified
        let rest := (out.drop effectiveLimit.toNat).filter fun list =>
          decide (list.lastModified = boundary)
        ⟨page ++ rest, boundary + 1, false⟩
      else ⟨withInbox page, if full then last.lastModified else serverNow, full⟩

def FakeState.listExists (listId : Text) : Bool :=
  match fake.lists.get listId with
  | none => false
  | some ls => !ls.isDeleted

def FakeState.getList (listId : Text) : Option TaskList :=
  match fake.lists.get listId with
  | none => none
  | some ls => if ls.isDeleted then none else some ls.toList

def FakeState.getListByTitle (title : Text) : Option TaskList :=
  let encoded := encodeEmoji title
  let found := (fake.lists.rows.filter fun ls =>
    !ls.isDeleted && decide (ls.title = encoded)).map FakeList.toList
  (listResultKeys.sort found).head?

def newFakeList (lid : Text) (ts : ℤ) (title : Text) : FakeList := ⟨lid, encodeEmoji title, ts, false⟩

def FakeState.createList (lid : Text) (ts : ℤ) (title : Text) : Text × FakeState :=
  (lid, { fake with lists := putEntry fake.lists (newFakeList lid ts title) })

def FakeState.mutateList (listId : Text) (expectedLastModified : Option ℤ)
    (assign : FakeList → FakeList) (keeps : ∀ ls, (assign ls).id = ls.id) : Bool × FakeState :=
  let (ok, lists) := mutateEntry FakeList.isDeleted FakeList.lastModified fake.lists listId
    expectedLastModified assign keeps
  (ok, { fake with lists := lists })

def FakeList.rename (now : ℤ) (title : Text) (ls : FakeList) : FakeList :=
  { ls with title := encodeEmoji title, lastModified := now }

theorem FakeList.rename_id (now : ℤ) (title : Text) (ls : FakeList) :
    (ls.rename now title).id = ls.id := rfl

def FakeList.delete (now : ℤ) (ls : FakeList) : FakeList :=
  { ls with isDeleted := true, lastModified := now }

theorem FakeList.delete_id (now : ℤ) (ls : FakeList) : (ls.delete now).id = ls.id := rfl

def FakeState.updateList (now : ℤ) (listId title : Text) (expectedLastModified : Option ℤ) :
    Bool × FakeState :=
  fake.mutateList listId expectedLastModified (FakeList.rename now title) (FakeList.rename_id now title)

def FakeState.deleteList (now : ℤ) (listId : Text) (expectedLastModified : Option ℤ) :
    Bool × FakeState :=
  fake.mutateList listId expectedLastModified (FakeList.delete now) (FakeList.delete_id now)

end Lists

/-! ## The operations as steps -/

section Step
variable (fake : FakeState) (now : ℤ)

def Operation.runFake : Operation → Except Raised Returned × FakeState
  | .listTasks query => ((fake.listTasks now query).map .tasks, fake)
  | .getTask taskId => ((fake.getTask taskId).map .task, fake)
  | .createTask taskId data =>
      let (created, after) := fake.createTask taskId now data
      (.ok (.id created), after)
  | .updateTask statusNow taskId data expected =>
      let (ok, after) := fake.updateTask statusNow now taskId data expected
      (.ok (.flag ok), after)
  | .setStatus statusNow taskId status expected =>
      let (ok, after) := fake.setStatus statusNow now taskId status expected
      (.ok (.flag ok), after)
  | .deleteTask taskId expected =>
      let (ok, after) := fake.deleteTask now taskId expected
      (.ok (.flag ok), after)
  | .taskExists taskId => (.ok (.flag (fake.taskExists taskId)), fake)
  | .listLists query => (.ok (.lists (fake.listLists now query)), fake)
  | .getList listId => (.ok (.list (fake.getList listId)), fake)
  | .listExists listId => (.ok (.flag (fake.listExists listId)), fake)
  | .getListByTitle title => (.ok (.list (fake.getListByTitle title)), fake)
  | .createList listId title =>
      let (created, after) := fake.createList listId now title
      (.ok (.id created), after)
  | .updateList listId title expected =>
      let (ok, after) := fake.updateList now listId title expected
      (.ok (.flag ok), after)
  | .deleteList listId expected =>
      let (ok, after) := fake.deleteList now listId expected
      (.ok (.flag ok), after)

def fakeStep (fake : FakeState) (step : Timed Operation) : FakeState :=
  (step.event.runFake fake step.clock).2

end Step

/-! ## What the dicts hold after a write -/

section Entries
variable {ρ : Type} {key : ρ → Text} {dict : KeyedTable key}

theorem get_putEntry (entry : ρ) (k : Text) :
    (putEntry dict entry).get k = if k = key entry then some entry else dict.get k := by
  by_cases isTarget : k = key entry
  · rw [if_pos isTarget, KeyedTable.get_eq_some_iff]
    refine ⟨?_, isTarget.symm⟩
    by_cases taken : key entry ∈ dict.rows.map key
    · obtain ⟨other, member, same⟩ := List.mem_map.mp taken
      rw [putEntry, dif_pos taken]
      exact List.mem_map.mpr ⟨other, member, if_pos same⟩
    · rw [putEntry, dif_neg taken]
      exact List.mem_append_right _ (List.mem_singleton_self entry)
  · rw [if_neg isTarget]
    have sameRow : ∀ row, key row = k → (row ∈ (putEntry dict entry).rows ↔ row ∈ dict.rows) := by
      intro row isKey
      have otherKey : key row ≠ key entry := fun same => isTarget (isKey.symm.trans same)
      by_cases taken : key entry ∈ dict.rows.map key
      · rw [putEntry, dif_pos taken]
        exact mem_replaceEntry_of_ne otherKey
      · have other : row ≠ entry := fun same => otherKey (congrArg key same)
        rw [putEntry, dif_neg taken, List.mem_append, List.mem_singleton, or_iff_left other]
    apply Option.ext
    intro row
    rw [KeyedTable.get_eq_some_iff, KeyedTable.get_eq_some_iff]
    exact and_congr_left (sameRow row)

theorem get_update_target {assign : ρ → ρ} (keeps : ∀ entry, key (assign entry) = key entry)
    {id : Text} {entry : ρ} (found : dict.get id = some entry) (k : Text) :
    (dict.update (fun entry => decide (key entry = id)) assign keeps).get k =
      if k = id then some (assign entry) else dict.get k := by
  rw [dict.get_update]
  by_cases isTarget : k = id
  · subst isTarget
    have isKey := ((dict.get_eq_some_iff k entry).mp found).2
    rw [if_pos rfl, found, Option.map_some, if_pos (decide_eq_true isKey)]
  · rw [if_neg isTarget]
    cases other : dict.get k with
    | none => rfl
    | some row =>
        have isKey := ((dict.get_eq_some_iff k row).mp other).2
        have notHere : ¬ decide (key row = id) = true := fun same =>
          isTarget (isKey.symm.trans (of_decide_eq_true same))
        rw [Option.map_some, if_neg notHere]

theorem mutateEntry_guarded {isDeleted : ρ → Bool} {lastModified : ρ → ℤ} (id : Text)
    (expectedLastModified : Option ℤ) {assign : ρ → ρ}
    (keeps : ∀ entry, key (assign entry) = key entry) :
    Guarded (fun entry => isDeleted entry = false ∧
        versionMatches expectedLastModified (some (lastModified entry)) = true) assign id dict
      (mutateEntry isDeleted lastModified dict id expectedLastModified assign keeps).1
      (mutateEntry isDeleted lastModified dict id expectedLastModified assign keeps).2 := by
  unfold mutateEntry
  cases found : dict.get id with
  | none =>
      apply Guarded.refused
      intro entry impossible
      rw [found] at impossible
      cases impossible
  | some entry =>
      dsimp only
      cases deleted : isDeleted entry with
      | true =>
          apply Guarded.refused
          intro entry' same passes
          rw [found] at same
          cases same
          rw [deleted] at passes
          cases passes.1
      | false =>
          cases version : versionMatches expectedLastModified (some (lastModified entry)) with
          | false =>
              apply Guarded.refused
              intro entry' same passes
              rw [found] at same
              cases same
              rw [version] at passes
              cases passes.2
          | true =>
              apply Guarded.taken entry _ found ⟨deleted, version⟩
              exact get_update_target keeps found

end Entries

end SupernoteTaskService
