import SupernoteTaskService.Auth.Isolation
import SupernoteTaskService.Sync.FullFetch
import SupernoteTaskService.Writes.Readability

/-!
# What error replies say

Every error reply carries a code that belongs to its status, and none of them is a 500: a run of
requests raises nothing that the handlers inside the application do not expect.  The tables have
to be readable at the start, and what callers store in them has to be readable too.
-/

set_option autoImplicit false

namespace SupernoteTaskService

open Foundation

/-! ## Codes -/

/-- The code of the status, or the one that is more specific. -/
def CodeBelongs (statusCode : ℕ) (code : String) : Prop :=
  code = codeForStatus statusCode ∨ statusCode = 410 ∧ code = "cursor_expired"

def ApiError.Coded (error : ApiError) : Prop :=
  error.statusCode ≠ 500 ∧ CodeBelongs error.statusCode error.code

/-- An exception that a handler inside the middleware answers. -/
def Raised.Coded (raised : Raised) : Prop :=
  raised.unexpected = false ∧ (errorResponse raised).Coded

def Content.code : Content → Option String
  | .error _ code => some code
  | .validationErrors _ => some "validation_error"
  | _ => none

def HttpReply.Coded (reply : HttpReply) : Prop :=
  reply.statusCode ≠ 500 ∧ ∀ code, reply.content.code = some code → CodeBelongs reply.statusCode code

theorem httpException_coded {statusCode : ℕ} (notInternal : statusCode ≠ 500) (detail : String) :
    (Raised.http (httpException statusCode detail)).Coded :=
  ⟨rfl, notInternal, Or.inl rfl⟩

theorem errorReply_coded {error : ApiError} (coded : error.Coded) (headers : List (String × Text)) :
    (errorReply error headers).Coded := by
  refine ⟨coded.1, fun code same => ?_⟩
  cases same
  exact coded.2

theorem validationReply_coded {invalid : ValidationErrors} (encodable : invalid.encodable = true) :
    ∃ reply, validationReply invalid = .ok reply ∧ reply.Coded := by
  refine ⟨_, if_pos encodable, show 422 ≠ 500 by decide, fun code same => ?_⟩
  cases same
  exact Or.inl rfl

theorem coded_of_no_code {reply : HttpReply} (notInternal : reply.statusCode ≠ 500)
    (noCode : reply.content.code = none) : reply.Coded := by
  refine ⟨notInternal, fun code same => ?_⟩
  rw [noCode] at same
  cases same

theorem finish_coded {reply : HttpReply} (coded : reply.Coded) : (finish (.ok reply)).Coded := coded

theorem handleRaised_coded {raised : Raised} (coded : raised.Coded) :
    ∃ reply, handleRaised raised = .ok reply ∧ reply.Coded := by
  refine ⟨errorReply (errorResponse raised) [], ?_, errorReply_coded coded.2 []⟩
  rw [handleRaised, if_neg]
  rw [coded.1]
  exact Bool.false_ne_true

/-! ## Endpoints -/

section Endpoints
variable {db : Database} {store : Store}

theorem ensureCursorFresh_coded (since : Option ℤ) (settings : Settings) (now : ℤ) :
    RaisesOnly Raised.Coded (ensureCursorFresh since settings now) := by
  cases since with
  | none => exact raisesOnly_ok ()
  | some since =>
      simp only [ensureCursorFresh]
      split
      · exact raisesOnly_ok ()
      · split
        · exact raisesOnly_error ⟨rfl, by decide, Or.inr ⟨rfl, rfl⟩⟩
        · exact raisesOnly_ok ()

theorem resolveWriteWith_coded (conflict missing : String) (stillThere ok conditional : Bool) :
    RaisesOnly Raised.Coded (resolveWriteWith conflict missing stillThere ok conditional) := by
  unfold resolveWriteWith
  split
  · exact raisesOnly_ok ()
  · split
    · exact raisesOnly_error (httpException_coded (show 409 ≠ 500 by decide) conflict)
    · exact raisesOnly_error (httpException_coded (by decide) missing)

theorem ensureListExists_coded (listId : Option Text) :
    RaisesOnly Raised.Coded (Routers.Tasks.ensureListExists db store listId) := by
  cases listId with
  | none => exact raisesOnly_ok ()
  | some listId =>
      simp only [Routers.Tasks.ensureListExists]
      split
      · exact raisesOnly_ok ()
      · exact raisesOnly_error (httpException_coded (by decide) _)

theorem ensureTargetList_coded (body : TaskUpdate) :
    RaisesOnly Raised.Coded (Routers.Tasks.ensureTargetList db store body) := by
  rw [Routers.Tasks.ensureTargetList]
  cases body.listId with
  | omitted => exact raisesOnly_ok ()
  | null => exact ensureListExists_coded none
  | given listId => exact ensureListExists_coded (some listId.value)

theorem requireTask_coded (reads : ReadsSucceed db store) (taskId : Text) :
    RaisesOnly Raised.Coded (Routers.Tasks.requireTask db store taskId) := by
  obtain ⟨found, read⟩ := reads.getTask taskId
  rw [Routers.Tasks.requireTask, read]
  cases found with
  | none => exact raisesOnly_error (httpException_coded (by decide) _)
  | some task => exact raisesOnly_ok task

theorem requireList_coded (listId : Text) :
    RaisesOnly Raised.Coded (Routers.Lists.requireList db store listId) := by
  rw [Routers.Lists.requireList]
  cases getList db store listId with
  | none => exact raisesOnly_error (httpException_coded (by decide) _)
  | some list => exact raisesOnly_ok list

theorem databaseError_coded : Raised.databaseError.Coded := ⟨rfl, by decide, Or.inl (by decide)⟩

theorem replyWithTask_coded {taskId : Text} (ifUnmodifiedSince : Option ℤ) {written : Bool × Store}
    (reads : ReadsSucceed db written.2) :
    RaisesOnly Raised.Coded (Routers.Tasks.replyWithTask db taskId ifUnmodifiedSince written).1 := by
  rw [Routers.Tasks.replyWithTask, Routers.Tasks.resolveWrite]
  exact RaisesOnly.bind (resolveWriteWith_coded _ _ _ _ _) fun _ => requireTask_coded reads taskId

theorem createTask_coded {now : ℤ} {taskId : Text} {body : TaskCreate}
    (reads : ReadsSucceed db (Routers.Tasks.createTask db store taskId now body).2) :
    RaisesOnly Raised.Coded (Routers.Tasks.createTask db store taskId now body).1 := by
  unfold Routers.Tasks.createTask at reads ⊢
  cases checked : Routers.Tasks.ensureListExists db store (body.listId.map IdStr.value) with
  | error e => exact raisesOnly_error (ensureListExists_coded _ e checked)
  | ok passed =>
      rw [checked] at reads
      rcases createTask_cases db store now taskId body with ⟨refused, -⟩ | ⟨after, created, -, -⟩
      · rw [refused]
        exact raisesOnly_error databaseError_coded
      · rw [created] at reads ⊢
        exact requireTask_coded reads taskId

theorem updateTask_coded {now statusNow : ℤ} {taskId : Text} {body : TaskUpdate}
    {ifUnmodifiedSince : Option ℤ}
    (reads : ReadsSucceed db
      (Routers.Tasks.updateTask db store statusNow now taskId body ifUnmodifiedSince).2) :
    RaisesOnly Raised.Coded
      (Routers.Tasks.updateTask db store statusNow now taskId body ifUnmodifiedSince).1 := by
  unfold Routers.Tasks.updateTask at reads ⊢
  cases checked : Routers.Tasks.ensureTargetList db store body with
  | error e => exact raisesOnly_error (ensureTargetList_coded body e checked)
  | ok passed =>
      rw [checked] at reads
      exact replyWithTask_coded ifUnmodifiedSince reads

variable (db store) in
theorem createList_coded (now : ℤ) (listId : Text) (body : TaskListCreate) :
    RaisesOnly Raised.Coded (Routers.Lists.createList db store listId now body).1 := by
  rw [Routers.Lists.createList]
  cases getListByTitle db store body.title.text with
  | some existing => exact raisesOnly_ok _
  | none =>
      rcases createList_cases db store now listId body.title.text with
        ⟨refused, -⟩ | ⟨after, created, -, -⟩
      · rw [refused]
        exact raisesOnly_error databaseError_coded
      · rw [created]
        exact RaisesOnly.bind (requireList_coded listId) fun list => raisesOnly_ok (201, list)

variable (db store) in
theorem handle_coded (now : ℤ) (request : Request)
    (reads : ReadsSucceed db (request.handle db store now).2) :
    RaisesOnly Raised.Coded (request.handle db store now).1 := by
  cases request with
  | createTask taskId body => exact (createTask_coded reads).map _
  | updateTask statusNow taskId body ifUnmodifiedSince => exact (updateTask_coded reads).map _
  | completeTask statusNow taskId ifUnmodifiedSince =>
      exact (replyWithTask_coded ifUnmodifiedSince reads).map _
  | uncompleteTask statusNow taskId ifUnmodifiedSince =>
      exact (replyWithTask_coded ifUnmodifiedSince reads).map _
  | deleteTask taskId ifUnmodifiedSince => exact (resolveWriteWith_coded _ _ _ _ _).map _
  | createList listId body => exact (createList_coded db store now listId body).map _
  | updateList listId body ifUnmodifiedSince =>
      exact (RaisesOnly.bind (resolveWriteWith_coded _ _ _ _ _) fun _ =>
        requireList_coded listId).map _
  | deleteList listId ifUnmodifiedSince => exact (resolveWriteWith_coded _ _ _ _ _).map _

theorem postedList_status {now : ℤ} {request : Request} {statusCode : ℕ} {list : TaskList}
    (posted : (request.handle db store now).1 = .ok (.postedList statusCode list)) :
    statusCode = 200 ∨ statusCode = 201 := by
  cases request with
  | createList listId body =>
      obtain ⟨answer, created, same⟩ := map_eq_ok_iff.mp posted
      cases same
      rw [Routers.Lists.createList] at created
      cases existing : getListByTitle db store body.title.text with
      | some list =>
          rw [existing] at created
          cases created
          exact Or.inl rfl
      | none =>
          rw [existing] at created
          rcases createList_cases db store now listId body.title.text with
            ⟨refused, -⟩ | ⟨after, inserted, -, -⟩
          · rw [refused] at created
            cases created
          · rw [inserted] at created
            obtain ⟨list, -, same⟩ := bind_eq_ok_iff.mp created
            cases same
            exact Or.inr rfl
  | _ =>
      obtain ⟨answer, -, same⟩ := map_eq_ok_iff.mp posted
      cases same

theorem reply_coded {now : ℤ} {request : Request} {response : Response}
    (answered : (request.handle db store now).1 = .ok response) : (request.reply response).Coded := by
  cases response with
  | task task =>
      cases request with
      | createTask taskId body =>
          exact coded_of_no_code (show 201 ≠ 500 by decide) rfl
      | _ => exact coded_of_no_code (show 200 ≠ 500 by decide) rfl
  | list list => exact coded_of_no_code (show 200 ≠ 500 by decide) rfl
  | noContent => exact coded_of_no_code (show 204 ≠ 500 by decide) rfl
  | postedList statusCode list =>
      refine coded_of_no_code ?_ rfl
      rcases postedList_status answered with rfl | rfl
      · exact show 200 ≠ 500 by decide
      · exact show 201 ≠ 500 by decide

theorem call_coded (settings : Settings) (now : ℤ) (call : Call) (reads : ReadsSucceed db store)
    (readsAfter : ReadsSucceed db (call.run settings db store now).2) :
    RaisesOnly Raised.Coded (call.run settings db store now).1 ∧
      ∀ reply, (call.run settings db store now).1 = .ok reply → reply.Coded := by
  cases call with
  | listTasks checkedAt query =>
      obtain ⟨page, read⟩ := reads.listTasks now query
      refine ⟨RaisesOnly.map ?_ _, fun reply answered => ?_⟩
      · rw [Routers.Tasks.listTasks, read]
        exact RaisesOnly.bind (ensureCursorFresh_coded _ _ _) fun _ => raisesOnly_ok page
      · obtain ⟨page, -, rfl⟩ := map_eq_ok_iff.mp answered
        exact coded_of_no_code (show 200 ≠ 500 by decide) rfl
  | getTask taskId =>
      refine ⟨(requireTask_coded reads taskId).map _, fun reply answered => ?_⟩
      obtain ⟨task, -, rfl⟩ := map_eq_ok_iff.mp answered
      exact coded_of_no_code (show 200 ≠ 500 by decide) rfl
  | listLists checkedAt query title =>
      refine ⟨RaisesOnly.map ?_ _, fun reply answered => ?_⟩
      · cases title with
        | some title =>
            simp only [Routers.Lists.listLists]
            cases getListByTitle db store title with
            | some list => exact raisesOnly_ok _
            | none => exact raisesOnly_error (httpException_coded (by decide) _)
        | none =>
            obtain ⟨page, read⟩ := listLists_answers db store now query
            simp only [Routers.Lists.listLists, read]
            exact RaisesOnly.bind (ensureCursorFresh_coded _ _ _) fun _ => raisesOnly_ok page
      · obtain ⟨page, -, rfl⟩ := map_eq_ok_iff.mp answered
        exact coded_of_no_code (show 200 ≠ 500 by decide) rfl
  | mutate request =>
      refine ⟨(handle_coded db store now request readsAfter).map _, fun reply answered => ?_⟩
      obtain ⟨response, handled, rfl⟩ := map_eq_ok_iff.mp answered
      exact reply_coded handled

end Endpoints

/-! ## Readable tables -/

def Operation.InstantsInRange (now : ℤ) : Operation → Prop
  | .createTask _ data =>
      dtToMs data.due ≤ lastInstantMs ∧ (data.status = .completed → now ≤ lastInstantMs)
  | .updateTask statusNow _ data _ =>
      (∀ due, data.due = .given due → datetimeToMs due ≤ lastInstantMs) ∧
        (data.status = .given .completed → statusNow ≤ lastInstantMs)
  | .setStatus statusNow _ status _ => status = .completed → statusNow ≤ lastInstantMs
  | _ => True

section Tables
variable {db : Database} {store : Store} {now : ℤ}

theorem updatedRow_readable {row : TaskRow} (readable : Readable db.linkModel row) {data : TaskUpdate}
    {statusNow : ℤ} (due : ∀ due, data.due = .given due → datetimeToMs due ≤ lastInstantMs)
    (completed : data.status = .given .completed → statusNow ≤ lastInstantMs) :
    Readable db.linkModel (updatedRow data statusNow now row) := by
  obtain ⟨link, status, dueShown, completedShown⟩ :=
    (updatedRow_readable_iff readable data statusNow).mpr ⟨due, completed⟩
  exact ⟨link, status, dueShown, completedShown⟩

theorem rewriteTask_readable {operation : Operation} {rewrite : TaskRow → TaskRow}
    (isRewrite : operation.rewriteTask now = some rewrite) (inRange : operation.InstantsInRange now)
    {row : TaskRow} (readable : Readable db.linkModel row) : Readable db.linkModel (rewrite row) := by
  cases operation with
  | updateTask statusNow taskId data expected =>
      rw [Operation.rewriteTask] at isRewrite
      split at isRewrite
      · cases isRewrite
      · cases isRewrite
        exact updatedRow_readable readable inRange.1 inRange.2
  | setStatus statusNow taskId status expected =>
      cases isRewrite
      refine updatedRow_readable readable (fun due given => ?_) fun given => ?_
      · cases given
      · exact inRange (Field.given.inj given)
  | deleteTask taskId expected =>
      cases isRewrite
      exact ⟨readable.link, readable.status, readable.due, readable.completed⟩
  | _ => cases isRewrite

theorem sound_run (sound : ∀ taskId, Sound db store taskId) {operation : Operation}
    (inRange : operation.InstantsInRange now) (taskId : Text) :
    Sound db (operation.run db store now).2 taskId := by
  have ofEffect : ∀ {after : Store} {new : TaskRow}, TaskEffect db store after now new →
      Readable db.linkModel new → Sound db after taskId := by
    intro after new effect readable row found
    rw [effect.frame] at found
    split at found
    · cases found
      exact readable
    · exact sound taskId row found
  have shape := operation.step_shape db store now
  generalize (operation.run db store now).2 = after at shape ⊢
  cases shape with
  | unchanged => exact sound taskId
  | taskCreated id data after isCreate free effect =>
      subst isCreate
      exact ofEffect effect ((newTaskRow_readable_iff db store id now data).mpr inRange)
  | taskRewritten id rewrite old after isTarget isRewrite found active version effect =>
      exact ofEffect effect (rewriteTask_readable isRewrite inRange (sound id old found))
  | listCreated listId title after isCreate free effect =>
      intro row found
      rw [effect.tasks] at found
      exact sound taskId row found
  | listRewritten listId rewrite old after isTarget isRewrite found active version effect =>
      intro row found
      rw [effect.tasks] at found
      exact sound taskId row found

theorem sound_handle (sound : ∀ taskId, Sound db store taskId) {request : Request}
    (inRange : request.operation.InstantsInRange now) (taskId : Text) :
    Sound db (request.handle db store now).2 taskId := by
  rw [Request.handle_store]
  cases request.admitted db store with
  | false => exact sound taskId
  | true => exact sound_run sound inRange taskId

end Tables

/-! ## Runs of the application -/

section App
variable {K : Type} [CommRing K] [LinearOrder K] [FloorRing K] (sha256 : List ℕ → Text)
  (settings : AppSettings) (db : Database)

/-- What a request may be: the router raises at most an exception of its own for it, JSON can say
what is invalid in it, and what a caller stores with it can be shown. -/
structure HttpRequest.Regular (now : ℤ) (request : HttpRequest K) : Prop where
  routed : ∀ error, request.target = .unrouted error →
    ∃ statusCode detail, statusCode ≠ 500 ∧ error = httpException statusCode detail
  encodable : ∀ invalid, request.target = .undecodable invalid ∨
    request.target = .endpoint (.error invalid) → invalid.encodable = true
  inRange : request.hasKey sha256 settings = true → ∀ mutation,
    request.target = .endpoint (.ok (.mutate mutation)) → mutation.operation.InstantsInRange now

variable {sha256 settings db} {store : Store} {now : ℤ}

theorem sound_call (sound : ∀ taskId, Sound db store taskId) {call : Call}
    (inRange : ∀ mutation, call = .mutate mutation → mutation.operation.InstantsInRange now)
    (taskId : Text) : Sound db (call.run settings.toSettings db store now).2 taskId := by
  cases call with
  | mutate request => exact sound_handle sound (inRange request rfl) taskId
  | _ => exact sound taskId

theorem answerCall_coded (sound : ∀ taskId, Sound db store taskId) {call : Except ValidationErrors Call}
    (encodable : ∀ invalid, call = .error invalid → invalid.encodable = true)
    (inRange : ∀ mutation, call = .ok (.mutate mutation) → mutation.operation.InstantsInRange now) :
    (∃ reply, (answerCall settings db store now call).1 = .ok reply ∧ reply.Coded) ∧
      ∀ taskId, Sound db (answerCall settings db store now call).2 taskId := by
  cases call with
  | error invalid => exact ⟨validationReply_coded (encodable invalid rfl), sound⟩
  | ok call =>
      have soundAfter : ∀ taskId, Sound db (call.run settings.toSettings db store now).2 taskId :=
        sound_call sound fun mutation isMutation => inRange mutation (congrArg Except.ok isMutation)
      obtain ⟨raises, answers⟩ := call_coded settings.toSettings now call
        (readsSucceed_of_sound sound) (readsSucceed_of_sound soundAfter)
      simp only [answerCall]
      generalize call.run settings.toSettings db store now = ended at raises answers soundAfter ⊢
      obtain ⟨answer, after⟩ := ended
      cases answer with
      | ok reply => exact ⟨⟨reply, rfl, answers reply rfl⟩, soundAfter⟩
      | error raised => exact ⟨handleRaised_coded (raises raised rfl), soundAfter⟩

omit [CommRing K] [LinearOrder K] [FloorRing K] in
theorem limitBody_coded {request : HttpRequest K} {error : ApiError}
    (limited : limitBody settings request = some error) : error.Coded := by
  unfold limitBody at limited
  split at limited
  · split at limited
    · split at limited
      · cases limited
        exact ⟨by decide, Or.inl rfl⟩
      · cases limited
    · cases limited
      exact ⟨by decide, Or.inl rfl⟩
  · split at limited
    · cases limited
      exact ⟨by decide, Or.inl rfl⟩
    · cases limited

theorem refusalOf_coded (result : RateLimitResult) : (refusalOf result).error.Coded := by
  rw [refusalOf]
  split
  · exact ⟨by decide, Or.inl rfl⟩
  · exact ⟨show 429 ≠ 500 by decide, Or.inl rfl⟩

theorem callEndpoint_coded {service : Service K} {request : HttpRequest K}
    (sound : ∀ taskId, Sound db service.store taskId) (regular : request.Regular sha256 settings now)
    {call : Except ValidationErrors Call} (targets : request.target = .endpoint call) :
    (∃ reply, (callEndpoint sha256 settings db service now request call).1 = .ok reply ∧
        reply.Coded) ∧
      ∀ taskId, Sound db (callEndpoint sha256 settings db service now request call).2.store taskId := by
  rw [callEndpoint]
  cases keyed : validateApiKey sha256 settings.toAccessSettings request.authorization
      request.xApiKey with
  | some callerId =>
      have hasKey : request.hasKey sha256 settings = true := by
        rw [HttpRequest.hasKey, keyed, Option.isSome_some]
      simp only [enforceRateLimit, keyed]
      exact answerCall_coded sound
        (fun invalid isInvalid =>
          regular.encodable invalid (Or.inr (targets.trans (congrArg Target.endpoint isInvalid))))
        fun mutation isMutation =>
          regular.inRange hasKey mutation (targets.trans (congrArg Target.endpoint isMutation))
  | none =>
      rw [enforceRateLimit_stranger sha256 settings keyed]
      exact ⟨⟨_, rfl, errorReply_coded (refusalOf_coded _) _⟩, sound⟩

theorem serve_coded {service : Service K} {request : HttpRequest K}
    (sound : ∀ taskId, Sound db service.store taskId) (regular : request.Regular sha256 settings now) :
    (serve sha256 settings db service now request).1.Coded ∧
      ∀ taskId, Sound db (serve sha256 settings db service now request).2.store taskId := by
  have passes : (∃ reply, (callNext sha256 settings db service now request).1 = .ok reply ∧
        reply.Coded) ∧
      ∀ taskId, Sound db (callNext sha256 settings db service now request).2.store taskId := by
    rw [callNext]
    cases targets : request.target with
    | unrouted error =>
        obtain ⟨statusCode, detail, notInternal, rfl⟩ := regular.routed error targets
        exact ⟨⟨_, rfl, errorReply_coded ⟨notInternal, Or.inl rfl⟩ []⟩, sound⟩
    | undecodable invalid =>
        exact ⟨validationReply_coded (regular.encodable invalid (Or.inl targets)), sound⟩
    | healthz => exact ⟨⟨_, rfl, coded_of_no_code (by decide) rfl⟩, sound⟩
    | version => exact ⟨⟨_, rfl, coded_of_no_code (by decide) rfl⟩, sound⟩
    | readyz reachable =>
        cases reachable with
        | true =>
            exact ⟨⟨_, rfl, coded_of_no_code (by decide) rfl⟩, sound⟩
        | false =>
            exact ⟨⟨_, rfl, coded_of_no_code (by decide) rfl⟩, sound⟩
    | endpoint call => exact callEndpoint_coded sound regular targets
  rw [serve]
  cases limited : limitBody settings request with
  | some error => exact ⟨errorReply_coded (limitBody_coded limited) [], sound⟩
  | none =>
      obtain ⟨⟨reply, answered, coded⟩, soundAfter⟩ := passes
      generalize callNext sha256 settings db service now request = ended at answered soundAfter ⊢
      obtain ⟨answer, after⟩ := ended
      cases answered
      exact ⟨finish_coded coded, soundAfter⟩

/-- Over a whole run of requests, whoever sends them: no reply is a 500, every error reply has a
code that belongs to its status, and the tables stay readable. -/
theorem error_replies_coded (service : Service K) (run : List (Timed (HttpRequest K)))
    (sound : ∀ taskId, Sound db service.store taskId)
    (regular : ∀ step ∈ run, step.event.Regular sha256 settings step.clock) :
    (∀ reply ∈ outputs (serviceStep sha256 settings db) (serviceReply sha256 settings db) service
        run, reply.Coded) ∧
      ∀ taskId, Sound db (run.foldl (serviceStep sha256 settings db) service).store taskId := by
  obtain ⟨throughout, final⟩ := invariant_of_steps
    (fun service : Service K => ∀ taskId, Sound db service.store taskId) sound
    fun state step rest (occurs : Happens (serviceStep sha256 settings db) service run state step rest)
      soundBefore => (serve_coded soundBefore (regular step occurs.mem)).2
  refine ⟨fun reply answered => ?_, final⟩
  obtain ⟨state, step, rest, occurs, emitted⟩ := happens_of_mem_outputs run _ answered
  cases emitted
  exact (serve_coded (throughout state step rest occurs) (regular step occurs.mem)).1

end App

def keyed (request : Request) : HttpRequest ℚ :=
  ⟨"POST".toList, some "64".toList, none, none, some "k".toList, ⟨none, none⟩, 0,
    .endpoint (.ok (.mutate request))⟩

theorem keyed_regular {sha256 : List ℕ → Text} {settings : AppSettings} {now : ℤ} {request : Request}
    (inRange : request.operation.InstantsInRange now) :
    (keyed request).Regular sha256 settings now where
  routed := nofun
  encodable := by
    rintro invalid (none | none)
    · cases none
    · cases none
  inRange := by
    intro hasKey mutation same
    cases same
    exact inRange

def completeTwo : List (Timed (HttpRequest ℚ)) :=
  [⟨1000, keyed (.createTask ['a'] titleOnly)⟩,
    ⟨2000, keyed (.completeTask 2000 ['a'] none)⟩, ⟨3000, keyed (.completeTask 3000 ['b'] none)⟩,
    strangerAt "10.0.0.1" 0]

theorem completeTwo_replies_coded :
    let settings : AppSettings := { apiKeys := "k".toList }
    let sha256 : List ℕ → Text := fun bytes => bytes.map Char.ofNat
    let service : Service ℚ := ⟨Store.empty, unauthRateLimiter settings.toAccessSettings⟩
    (∀ reply ∈ outputs (serviceStep sha256 settings singleUser)
        (serviceReply sha256 settings singleUser) service completeTwo, reply.Coded) ∧
      ∀ taskId,
        Sound singleUser
          (completeTwo.foldl (serviceStep sha256 settings singleUser) service).store taskId := by
  refine error_replies_coded _ completeTwo (sound_empty _) fun step occurs => ?_
  simp only [completeTwo, List.mem_cons, List.not_mem_nil, or_false] at occurs
  rcases occurs with rfl | rfl | rfl | rfl
  · exact keyed_regular ⟨by decide, nofun⟩
  · exact keyed_regular fun _ => by decide
  · exact keyed_regular fun _ => by decide
  · exact ⟨nofun, fun invalid none => none.elim nofun nofun, nofun⟩

end SupernoteTaskService
