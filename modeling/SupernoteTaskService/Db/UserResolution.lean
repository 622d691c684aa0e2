import SupernoteTaskService.Db.Alone

/-!
# Which user is exposed

The configured email decides when there is one, and otherwise the tables have to name a
single user: `u_user` when it names any, the task tables when it names none.  `resolvedUser`
is what the statements make of one state of the tables; a thread that resolves the user over
these tables, with the database answering, ends as it says.
-/

set_option autoImplicit false

namespace SupernoteTaskService

open Foundation Program

def normalizeUserEmail (value : Text) : Text := strip value

/-- One id is the user, several are an error. -/
def soleUserOf (ids : List ℤ) (several : ℕ → UserResolutionError)
    (otherwise : Except UserResolutionError ℤ) : Except UserResolutionError ℤ :=
  match ids with
  | [userId] => .ok userId
  | _ :: _ :: _ => .error (several ids.length)
  | [] => otherwise

def userFromTasks (server : Server) : Except UserResolutionError ℤ :=
  soleUserOf (taskUserIds server ++ listUserIds server).dedup .severalTaskUsers
    (.error .unresolvable)

/-- What one state of the tables says about the user. -/
def resolvedUser (email : Text) (server : Server) : Except UserResolutionError ℤ :=
  if email.isEmpty then
    soleUserOf (userIds server).reduceOption .severalUsers (userFromTasks server)
  else
    match (userOfEmail email server).bind UserRow.userId with
    | some userId => .ok userId
    | none => .error (.noSuchEmail email)

/-! ## The program and the tables -/

section Program
variable {env : Environment} {size : ℤ} {held : ℕ} {userId : Option ℤ} {server : Server}

def Answers (env : Environment) (size : ℤ) (held : ℕ) (userId : Option ℤ) (server : Server)
    (program : DbProgram ℤ) (answer : Except UserResolutionError ℤ) : Prop :=
  Ensures (cursorScope env) (At size held userId server) program
    (fun value after => answer = .ok value ∧ At size held userId server after)
    fun error after => ∃ reason, answer = .error reason ∧ error = .userUnresolved reason ∧
      At size held userId server after

theorem answers_pure (value : ℤ) :
    Answers env size held userId server (pure value) (.ok value) :=
  ensures_done fun _ state => ⟨rfl, state⟩

theorem answers_raise (reason : UserResolutionError) :
    Answers env size held userId server (Program.raise (.userUnresolved reason)) (.error reason) :=
  ensures_step fun _ state => ⟨reason, rfl, rfl, state⟩

theorem answers_soleUser {ids : List ℤ} {several : ℕ → UserResolutionError}
    {none : DbProgram ℤ} {otherwise : Except UserResolutionError ℤ}
    (answers : Answers env size held userId server none otherwise) :
    Answers env size held userId server (soleUser ids several none)
      (soleUserOf ids several otherwise) := by
  unfold soleUser soleUserOf
  split
  · exact answers_pure _
  · exact answers_raise _
  · exact answers

theorem answers_read_bind (alone : env.Alone) {α : Type} {query : Server → α}
    {rest : α → DbProgram ℤ} {answer : Except UserResolutionError ℤ}
    (answers : Answers env size held userId server (rest (query server)) answer) :
    Answers env size held userId server (execute env (.read query) >>= rest) answer := by
  refine Ensures.bind ((ensures_execute alone (.read query)).mono (fun _ pre => pre)
    (fun _ _ returned => returned) ?_) ?_
  · rintro error after ⟨raised, fails, -, -⟩
    cases fails
  · rintro value world ⟨returned, state⟩
    cases returned
    exact answers world state

theorem answers_cursor (alone : env.Alone) (room : held < size) {body : DbProgram ℤ}
    {answer : Except UserResolutionError ℤ}
    (inside : Answers env size (held + 1) userId server body answer) :
    Answers env size held userId server (cursor body) answer := by
  have placed := inside.mono (fun _ pre => pre)
    (fun value after returned => (⟨userId, server, ⟨returned.1, rfl, rfl⟩, returned.2⟩ :
      ∃ u s, (answer = .ok value ∧ u = userId ∧ s = server) ∧ At size (held + 1) u s after))
    fun error after raised => (⟨userId, server, ⟨raised.imp fun _ because => ⟨because.1, because.2.1⟩,
        rfl, rfl⟩, raised.elim fun _ because => because.2.2⟩ :
      ∃ u s, ((∃ reason, answer = .error reason ∧ error = .userUnresolved reason) ∧
        u = userId ∧ s = server) ∧ At size (held + 1) u s after)
  refine (ensures_cursor alone room placed).mono (fun _ pre => pre) ?_ ?_
  · rintro value after ⟨u, s, ⟨returned, rfl, rfl⟩, state⟩
    exact ⟨returned, state⟩
  · rintro error after ⟨u, s, ⟨⟨reason, fails, raised⟩, rfl, rfl⟩, state⟩
    exact ⟨reason, fails, raised, state⟩

theorem answers_resolveUserId (alone : env.Alone) (room : held < size) :
    Answers env size held userId server (resolveUserId env) (resolvedUser env.email server) := by
  rw [resolveUserId, resolvedUser]
  refine answers_cursor alone room ?_
  split
  · refine answers_read_bind alone (answers_soleUser ?_)
    refine answers_read_bind alone (answers_read_bind alone (answers_soleUser ?_))
    exact answers_raise _
  · refine answers_read_bind alone ?_
    cases (userOfEmail env.email server).bind UserRow.userId with
    | some found => exact answers_pure found
    | none => exact answers_raise _

theorem run_resolveUserId (alone : env.Alone) {world : World}
    (state : At size held userId server world) (room : held < size) :
    ((resolveUserId env).run (cursorScope env) world).1 =
      (resolvedUser env.email server).mapError .userUnresolved := by
  have ends := answers_resolveUserId alone room world state
  generalize (resolveUserId env).run (cursorScope env) world = ended at ends ⊢
  rcases ended with ⟨error | value, after⟩
  · obtain ⟨reason, fails, raised, -⟩ := ends
    rw [fails, raised]
    rfl
  · rw [ends.1]
    rfl

end Program

/-! ## What the tables say -/

section Tables

/-- What the schema promises of `u_user`: ids and emails are unique, where there are any. -/
structure WellKeyed (server : Server) : Prop where
  userIds : (server.users.filterMap UserRow.userId).Nodup
  emails : (server.users.filterMap UserRow.email).Nodup

def Referenced (server : Server) (userId : ℤ) : Prop :=
  (∃ task ∈ server.store.tasks.rows, task.userId = some userId) ∨
    ∃ list ∈ server.store.lists.rows, list.userId = some userId

/-- The tables name the user: by the email, as the only one that `u_user` has an id of, or,
where it has none, as the only one that the task tables refer to. -/
def NamesUser (email : Text) (server : Server) (userId : ℤ) : Prop :=
  (email ≠ [] ∧ ∃ row ∈ server.users, row.email = some email ∧ row.userId = some userId) ∨
  (email = [] ∧ (∃ row ∈ server.users, row.userId = some userId) ∧
    ∀ row ∈ server.users, ∀ other, row.userId = some other → other = userId) ∨
  (email = [] ∧ (∀ row ∈ server.users, row.userId = none) ∧
    Referenced server userId ∧ ∀ other, Referenced server other → other = userId)

theorem eq_singleton_iff {ids : List ℤ} (distinct : ids.Nodup) (userId : ℤ) :
    ids = [userId] ↔ userId ∈ ids ∧ ∀ other ∈ ids, other = userId := by
  constructor
  · rintro rfl
    exact ⟨List.mem_singleton_self userId, fun other member => List.mem_singleton.mp member⟩
  · rintro ⟨member, only⟩
    refine List.perm_singleton.mp ((List.perm_ext_iff_of_nodup distinct
      (List.nodup_singleton userId)).mpr fun other => ?_)
    rw [List.mem_singleton]
    exact ⟨only other, fun same => same ▸ member⟩

theorem soleUserOf_eq_ok_iff {ids : List ℤ} {several : ℕ → UserResolutionError}
    {otherwise : Except UserResolutionError ℤ} (userId : ℤ) :
    soleUserOf ids several otherwise = .ok userId ↔
      ids = [userId] ∨ ids = [] ∧ otherwise = .ok userId := by
  unfold soleUserOf
  split
  · simp
  · simp
  · simp

theorem reduceOption_userIds_perm (server : Server) :
    (userIds server).reduceOption.Perm (server.users.filterMap UserRow.userId) := by
  have sorted : (userIds server).Perm (server.users.map UserRow.userId) :=
    List.perm_insertionSort _ _
  have kept := sorted.filterMap id
  rw [List.filterMap_map] at kept
  exact kept

theorem mem_taskTableIds_iff (server : Server) (userId : ℤ) :
    userId ∈ (taskUserIds server ++ listUserIds server).dedup ↔ Referenced server userId := by
  rw [List.mem_dedup, List.mem_append, taskUserIds, listUserIds, List.mem_dedup, List.mem_dedup,
    List.mem_filterMap, List.mem_filterMap]
  rfl

theorem userFromTasks_eq_ok_iff (server : Server) (userId : ℤ) :
    userFromTasks server = .ok userId ↔
      Referenced server userId ∧ ∀ other, Referenced server other → other = userId := by
  rw [userFromTasks, soleUserOf_eq_ok_iff, eq_singleton_iff (List.nodup_dedup _)]
  simp only [mem_taskTableIds_iff, reduceCtorEq, and_false, or_false]

theorem eq_of_column_eq {column : UserRow → Option Text} {rows : List UserRow}
    (distinct : (rows.filterMap column).Nodup) {left right : UserRow} {value : Text}
    (leftMem : left ∈ rows) (rightMem : right ∈ rows) (isLeft : column left = some value)
    (isRight : column right = some value) : left = right := by
  let apart := fun left right : UserRow => ∀ value, column left = some value →
    ∀ value', column right = some value' → value ≠ value'
  have pairwise : rows.Pairwise apart := List.pairwise_filterMap.mp distinct
  have symmetric : Std.Symm apart := ⟨fun left right differ value isRight value' isLeft =>
    (differ value' isLeft value isRight).symm⟩
  by_contra different
  exact pairwise.forall leftMem rightMem different value isLeft value isRight rfl

variable {server : Server}

theorem userOfEmail_eq_some_iff (keyed : WellKeyed server) (email : Text) (row : UserRow) :
    userOfEmail email server = some row ↔ row ∈ server.users ∧ row.email = some email := by
  have sound : ∀ row, userOfEmail email server = some row →
      row ∈ server.users ∧ row.email = some email := by
    intro row found
    have matched := List.find?_some found
    rw [decide_eq_true_eq] at matched
    exact ⟨List.mem_of_find?_eq_some found, matched⟩
  constructor
  · exact sound row
  · rintro ⟨member, isEmail⟩
    cases found : userOfEmail email server with
    | none =>
        have absent := List.find?_eq_none.mp found row member
        rw [decide_eq_true_eq] at absent
        exact absurd isEmail absent
    | some other =>
        obtain ⟨otherMember, otherEmail⟩ := sound other found
        rw [eq_of_column_eq keyed.emails member otherMember isEmail otherEmail]

/-- The user is the one that the tables name, and an error where they name none. -/
theorem resolvedUser_eq_ok_iff (keyed : WellKeyed server) (email : Text) (userId : ℤ) :
    resolvedUser email server = .ok userId ↔ NamesUser email server userId := by
  have perm := reduceOption_userIds_perm server
  have named : ∀ other, other ∈ (userIds server).reduceOption ↔
      ∃ row ∈ server.users, row.userId = some other := fun other => by
    rw [perm.mem_iff, List.mem_filterMap]
  unfold resolvedUser NamesUser
  cases email with
  | nil =>
      rw [if_pos List.isEmpty_nil, soleUserOf_eq_ok_iff, userFromTasks_eq_ok_iff,
        eq_singleton_iff (perm.nodup_iff.mpr keyed.userIds), named]
      have only : (∀ other ∈ (userIds server).reduceOption, other = userId) ↔
          ∀ row ∈ server.users, ∀ other, row.userId = some other → other = userId := by
        constructor
        · exact fun same row member other isUser => same other ((named other).mpr ⟨row, member, isUser⟩)
        · intro same other listed
          obtain ⟨row, member, isUser⟩ := (named other).mp listed
          exact same row member other isUser
      have empty : (userIds server).reduceOption = [] ↔
          ∀ row ∈ server.users, row.userId = none := by
        rw [List.eq_nil_iff_forall_not_mem]
        constructor
        · intro absent row member
          cases isUser : row.userId with
          | none => rfl
          | some other => exact absurd ((named other).mpr ⟨row, member, isUser⟩) (absent other)
        · intro none_ other listed
          obtain ⟨row, member, isUser⟩ := (named other).mp listed
          rw [none_ row member] at isUser
          cases isUser
      rw [only, empty]
      simp
  | cons c email =>
      rw [if_neg (by simp)]
      simp only [ne_eq, reduceCtorEq, not_false_eq_true, true_and, false_and, or_false]
      constructor
      · intro returned
        split at returned
        · rename_i found isUser
          obtain ⟨row, isRow, hasId⟩ := Option.bind_eq_some_iff.mp isUser
          obtain ⟨member, isEmail⟩ := (userOfEmail_eq_some_iff keyed _ row).mp isRow
          exact ⟨row, member, isEmail, hasId.trans (congrArg some (Except.ok.inj returned))⟩
        · cases returned
      · rintro ⟨row, member, isEmail, hasId⟩
        rw [(userOfEmail_eq_some_iff keyed _ row).mpr ⟨member, isEmail⟩, Option.bind_some, hasId]

structure SameUsers (server server' : Server) : Prop where
  users : server.users.Perm server'.users
  tasks : ∀ userId, (∃ task ∈ server.store.tasks.rows, task.userId = some userId) ↔
    ∃ task ∈ server'.store.tasks.rows, task.userId = some userId
  lists : ∀ userId, (∃ list ∈ server.store.lists.rows, list.userId = some userId) ↔
    ∃ list ∈ server'.store.lists.rows, list.userId = some userId

theorem soleUserOf_perm {ids ids' : List ℤ} (perm : ids.Perm ids')
    (several : ℕ → UserResolutionError) (otherwise : Except UserResolutionError ℤ) :
    soleUserOf ids several otherwise = soleUserOf ids' several otherwise := by
  have sameLength := perm.length_eq
  cases ids with
  | nil => rw [List.nil_perm.mp perm]
  | cons first rest =>
      cases rest with
      | nil => rw [List.singleton_perm.mp perm]
      | cons second rest =>
          cases ids' with
          | nil => cases sameLength
          | cons first' rest' =>
              cases rest' with
              | nil => cases sameLength
              | cons second' rest' => rw [soleUserOf, soleUserOf, sameLength]

/-- Neither the order of the rows nor how often a user is referred to matters. -/
theorem resolvedUser_congr {server' : Server} (keyed : WellKeyed server)
    (same : SameUsers server server') (email : Text) :
    resolvedUser email server' = resolvedUser email server := by
  have keyed' : WellKeyed server' :=
    ⟨(same.users.filterMap _).nodup_iff.mp keyed.userIds,
      (same.users.filterMap _).nodup_iff.mp keyed.emails⟩
  have sameRow : userOfEmail email server' = userOfEmail email server := by
    refine Option.ext fun row => ?_
    rw [userOfEmail_eq_some_iff keyed', userOfEmail_eq_some_iff keyed, same.users.mem_iff]
  have sameIds : (userIds server').reduceOption.Perm (userIds server).reduceOption :=
    (reduceOption_userIds_perm server').trans
      ((same.users.symm.filterMap _).trans (reduceOption_userIds_perm server).symm)
  have sameReferences : (taskUserIds server' ++ listUserIds server').dedup.Perm
      (taskUserIds server ++ listUserIds server).dedup := by
    refine (List.perm_ext_iff_of_nodup (List.nodup_dedup _) (List.nodup_dedup _)).mpr fun userId => ?_
    rw [mem_taskTableIds_iff, mem_taskTableIds_iff]
    exact (or_congr (same.tasks userId) (same.lists userId)).symm
  have sameTasks : userFromTasks server' = userFromTasks server :=
    soleUserOf_perm sameReferences _ _
  rw [resolvedUser, resolvedUser, sameRow, sameTasks, soleUserOf_perm sameIds]

end Tables

/-! ## The call -/

section Call
variable {env : Environment} {size : ℤ} {held : ℕ} {userId : Option ℤ} {server : Server}
  {world : World}

/-- The call returns the user that the tables name, and otherwise raises the error made for
that; rows in another order, or more rows of the same users, make no difference. -/
theorem resolveUserId_never_guesses (alone : env.Alone)
    (state : At size held userId server world) (room : held < size) (keyed : WellKeyed server)
    {configured : Text} (reads : env.email = normalizeUserEmail configured) :
    (∀ found, ((resolveUserId env).run (cursorScope env) world).1 = .ok found ↔
      NamesUser (normalizeUserEmail configured) server found) ∧
    ((∀ found, ¬ NamesUser (normalizeUserEmail configured) server found) →
      ∃ error, ((resolveUserId env).run (cursorScope env) world).1 =
        .error (.userUnresolved error)) ∧
    ∀ (server' : Server) (world' : World), SameUsers server server' →
      At size held userId server' world' →
      ((resolveUserId env).run (cursorScope env) world').1 =
        ((resolveUserId env).run (cursorScope env) world).1 := by
  have result := run_resolveUserId alone state room
  have named := resolvedUser_eq_ok_iff keyed (normalizeUserEmail configured)
  rw [reads] at result
  refine ⟨fun found => ?_, fun unnamed => ?_, fun server' world' same state' => ?_⟩
  · rw [result, ← named]
    cases resolvedUser (normalizeUserEmail configured) server with
    | ok value => simp [Except.mapError]
    | error reason => simp [Except.mapError]
  · rw [result]
    cases tables : resolvedUser (normalizeUserEmail configured) server with
    | ok value => exact absurd ((named value).mp tables) (unnamed value)
    | error reason => exact ⟨reason, rfl⟩
  · rw [result, run_resolveUserId alone state' room, reads, resolvedUser_congr keyed same]

def answering : Environment where
  email := normalizeUserEmail " b@example.com ".toList
  collation := binaryCollation
  linkModel := strictLinks
  outcome := fun _ => .returns
  others := fun _ shared => shared

def twoUsers : Server :=
  ⟨[⟨some 11, some "a@example.com".toList⟩, ⟨some 22, some "b@example.com".toList⟩],
    ⟨.empty, .empty⟩⟩

theorem second_user_resolved :
    ((resolveUserId answering).run (cursorScope answering) ⟨twoUsers, { size := 1 }, none, 0⟩).1 =
      .ok 22 :=
  ((resolveUserId_never_guesses ⟨fun _ => rfl, fun _ _ => rfl⟩ ⟨rfl, rfl, by decide, rfl, rfl⟩
    (by decide : ((0 : ℕ) : ℤ) < 1) ⟨by decide, by decide⟩ rfl).1 22).mpr
      (Or.inl ⟨by decide, by decide⟩)

end Call

end SupernoteTaskService
