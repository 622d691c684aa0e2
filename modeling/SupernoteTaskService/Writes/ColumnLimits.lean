import SupernoteTaskService.EncodedLengths
import SupernoteTaskService.Repository.Tasks
import SupernoteTaskService.Repository.Lists

/-!
# Texts and their columns

The models bound the texts of a body before they are encoded, and the columns hold what the
encoders make of them.  A detail is cut after it was encoded and always fits.  A title is not
cut: it fits exactly when its length with the tokens in it is within the limit.
-/

set_option autoImplicit false

namespace SupernoteTaskService

open Foundation

/-- A text that a statement binds, with the limit that the models state for its column. -/
structure BoundText where
  text : Text
  maxLength : Option ℕ
  deriving DecidableEq

structure BoundText.Fits (bound : BoundText) : Prop where
  basicPlane : BasicPlane bound.text
  length_le : ∀ maxLength, bound.maxLength = some maxLength → bound.text.length ≤ maxLength

def boundColumn (maxLength : Option ℕ) (column : Option Text) : List BoundText :=
  column.toList.map fun text => ⟨text, maxLength⟩

def TaskRow.boundTexts (row : TaskRow) : List BoundText :=
  [⟨row.taskId, none⟩] ++ boundColumn none row.taskListId ++ boundColumn (some TITLE_MAX) row.title ++
    boundColumn (some DETAIL_MAX) row.detail ++ boundColumn none row.status ++
    boundColumn none row.importance ++ boundColumn none row.links

def TaskSet.boundTexts : TaskSet → List BoundText
  | .title value => [⟨value, some TITLE_MAX⟩]
  | .detail value => [⟨value, some DETAIL_MAX⟩]
  | .status value => [⟨value, none⟩]
  | .importance value => boundColumn none value
  | .taskListId value => boundColumn none value
  | .links value => boundColumn none value
  | .completedTime _ | .dueTime _ | .sort _ | .isDeleted _ | .lastModified _ => []

def ListRow.boundTexts (row : ListRow) : List BoundText :=
  [⟨row.taskListId, none⟩] ++ boundColumn (some LIST_TITLE_MAX) row.title

def ListSet.boundTexts : ListSet → List BoundText
  | .title value => [⟨value, some LIST_TITLE_MAX⟩]
  | .isDeleted _ | .lastModified _ => []

/-- A validated body, with the operation that takes it. -/
inductive Body where
  | createTask (data : TaskCreate)
  | updateTask (data : TaskUpdate)
  | createList (data : TaskListCreate)
  | updateList (data : TaskListUpdate)
  deriving DecidableEq

/-- The texts that the operation binds, for the row of the id. -/
def Body.boundTexts (db : Database) (store : Store) (id : IdStr) (now : ℤ) : Body → List BoundText
  | .createTask data => (newTaskRow db store id.value now data).boundTexts
  | .updateTask data => (updateSets data now).flatMap TaskSet.boundTexts ++ [⟨id.value, none⟩]
  | .createList data => (newListRow db id.value now data.title.text).boundTexts
  | .updateList data =>
      (ListSet.title (encodeEmoji data.title.text)).boundTexts ++ [⟨id.value, none⟩]

def Body.title : Body → Option (Text × ℕ)
  | .createTask data => some (data.title.text, TITLE_MAX)
  | .updateTask data =>
      match data.title with
      | .given title => some (title.text, TITLE_MAX)
      | _ => none
  | .createList data => some (data.title.text, LIST_TITLE_MAX)
  | .updateList data => some (data.title.text, LIST_TITLE_MAX)

/-! ## One text at a time -/

section Texts

theorem fits_plain {text : Text} (basic : BasicPlane text) : BoundText.Fits ⟨text, none⟩ :=
  ⟨basic, fun _ limited => by cases limited⟩

theorem fits_boundColumn {maxLength : Option ℕ} {column : Option Text}
    (fits : ∀ text, column = some text → BoundText.Fits ⟨text, maxLength⟩) :
    ∀ bound ∈ boundColumn maxLength column, bound.Fits := by
  intro bound member
  obtain ⟨text, isText, rfl⟩ := List.mem_map.mp member
  exact fits text (Option.mem_toList.mp isText)

theorem IdStr.fits (id : IdStr) : BoundText.Fits ⟨id.value, none⟩ := by
  refine fits_plain fun c member => ?_
  have pattern := id.pattern
  rw [idPattern, Bool.and_eq_true, List.all_eq_true] at pattern
  have inPattern := pattern.2 c member
  simp only [Bool.or_eq_true, Bool.and_eq_true, decide_eq_true_eq] at inPattern
  have upper : c ≤ 'f' := by
    rcases inPattern with ⟨-, digit⟩ | ⟨-, letter⟩
    · exact digit.trans (by decide)
    · exact letter
  have bound : c.toNat ≤ 'f'.toNat := upper
  exact bound.trans (by decide)

theorem basicPlane_of_ascii {text : Text} (ascii : ∀ c ∈ text, c.toNat < 128) :
    BasicPlane text := by
  intro c member
  have small := ascii c member
  omega

theorem TaskStatus.fits (status : TaskStatus) : BoundText.Fits ⟨status.value, none⟩ := by
  have ascii : status.value.all (fun c => c.toNat < 128) = true := by
    cases status with
    | needsAction => rfl
    | completed => rfl
  exact fits_plain (basicPlane_of_ascii fun c member =>
    of_decide_eq_true (List.all_eq_true.mp ascii c member))

theorem Importance.fits (importance : Importance) :
    BoundText.Fits ⟨pythonStr importance.value, none⟩ := by
  obtain ⟨value, range⟩ := importance
  have digits : ∀ value ≤ 5, (pythonStr (value : ℕ)).all (fun c => c.toNat < 128) = true := by
    decide
  exact fits_plain (basicPlane_of_ascii fun c member =>
    of_decide_eq_true (List.all_eq_true.mp (digits value range.2) c member))

theorem fits_link (link : List (Text × Scalar)) :
    BoundText.Fits ⟨encodeDocumentLink link, none⟩ :=
  fits_plain (basicPlane_of_ascii (b64encode_ascii _ (encodeUtf8_octets (renderObject link))))

theorem fits_detail (detail : Text) : BoundText.Fits ⟨encodeDetail detail, some DETAIL_MAX⟩ := by
  constructor
  · exact encodeDetailFrom_basicPlane detail 0
  · intro maxLength limited
    have bound := encodeDetailFrom_length_le detail 0 (Nat.zero_le _)
    rw [Nat.zero_add] at bound
    rw [← Option.some.inj limited]
    exact bound

/-- A title fits when its length, with what its tokens add, is within the limit. -/
theorem fits_title_iff (title : Text) (maxLength : ℕ) :
    BoundText.Fits ⟨encodeEmoji title, some maxLength⟩ ↔
      title.length + totalWeight growth title ≤ maxLength := by
  rw [← encodeEmoji_length]
  constructor
  · exact fun fits => fits.length_le maxLength rfl
  · refine fun within => ⟨encodeEmoji_basicPlane title, fun limit limited => ?_⟩
    rw [← Option.some.inj limited]
    exact within

end Texts

/-! ## The four operations -/

section Bodies
variable {data : TaskUpdate} {now : ℤ}

theorem fits_of_no_text {set : TaskSet} (binds : set.boundTexts = []) :
    ∀ other ∈ [set], ∀ bound ∈ other.boundTexts, bound.Fits := by
  rw [List.forall_mem_singleton, binds]
  exact List.forall_mem_nil _

theorem fits_of_text {set : TaskSet} {text : BoundText} (binds : set.boundTexts = [text])
    (fits : text.Fits) : ∀ other ∈ [set], ∀ bound ∈ other.boundTexts, bound.Fits := by
  rw [List.forall_mem_singleton, binds, List.forall_mem_singleton]
  exact fits

theorem updateSets_fit {set : TaskSet} (member : set ∈ updateSets data now) :
    (∃ title, data.title = .given title ∧ set = .title (encodeEmoji title.text)) ∨
      ∀ bound ∈ set.boundTexts, bound.Fits := by
  unfold updateSets at member
  simp only [List.mem_append] at member
  rcases member with ((((((title | detail) | status) | importance) | due) | sort) | listId) | link
  · left
    cases given : data.title with
    | given sent =>
        rw [given] at title
        exact ⟨sent, rfl, List.mem_singleton.mp title⟩
    | _ =>
        rw [given] at title
        cases title
  · right
    cases given : data.detail with
    | given sent =>
        rw [given] at detail
        exact fits_of_text rfl (fits_detail sent.text) set detail
    | _ =>
        rw [given] at detail
        cases detail
  · right
    cases given : data.status with
    | given sent =>
        rw [given] at status
        rcases List.mem_cons.mp status with rfl | completedTime
        · exact List.forall_mem_singleton.mpr sent.fits
        · exact fits_of_no_text rfl set completedTime
    | _ =>
        rw [given] at status
        cases status
  · right
    cases given : data.importance with
    | omitted =>
        rw [given] at importance
        cases importance
    | null =>
        rw [given] at importance
        exact fits_of_no_text rfl set importance
    | given sent =>
        rw [given] at importance
        exact fits_of_text rfl sent.fits set importance
  · right
    cases given : data.due with
    | omitted =>
        rw [given] at due
        cases due
    | _ =>
        rw [given] at due
        exact fits_of_no_text rfl set due
  · right
    cases given : data.sort with
    | given sent =>
        rw [given] at sort
        exact fits_of_no_text rfl set sort
    | _ =>
        rw [given] at sort
        cases sort
  · right
    cases given : data.listId with
    | omitted =>
        rw [given] at listId
        cases listId
    | null =>
        rw [given] at listId
        exact fits_of_no_text rfl set listId
    | given sent =>
        rw [given] at listId
        exact fits_of_text rfl sent.fits set listId
  · right
    cases given : data.documentLink with
    | omitted =>
        rw [given] at link
        cases link
    | null =>
        rw [given] at link
        exact fits_of_no_text rfl set link
    | given sent =>
        rw [given] at link
        exact fits_of_text rfl (fits_link _) set link

theorem newTaskRow_fits_iff (db : Database) (store : Store) (id : IdStr) (data : TaskCreate) :
    (∀ bound ∈ (newTaskRow db store id.value now data).boundTexts, bound.Fits) ↔
      BoundText.Fits ⟨encodeEmoji data.title.text, some TITLE_MAX⟩ := by
  have listId : ∀ bound ∈ boundColumn none (data.listId.map IdStr.value), bound.Fits :=
    fits_boundColumn fun text isText => by
      obtain ⟨list, -, rfl⟩ := Option.map_eq_some_iff.mp isText
      exact list.fits
  have importance : ∀ bound ∈ boundColumn none
      (data.importance.map fun importance => pythonStr importance.value), bound.Fits :=
    fits_boundColumn fun text isText => by
      obtain ⟨level, -, rfl⟩ := Option.map_eq_some_iff.mp isText
      exact level.fits
  have link : ∀ bound ∈ boundColumn none
      (data.documentLink.map fun link => encodeDocumentLink (linkPayload link)), bound.Fits :=
    fits_boundColumn fun text isText => by
      obtain ⟨link, -, rfl⟩ := Option.map_eq_some_iff.mp isText
      exact fits_link _
  constructor
  · intro all
    refine all _ ?_
    simp [TaskRow.boundTexts, newTaskRow, boundColumn]
  · intro title
    simp only [TaskRow.boundTexts, newTaskRow, List.forall_mem_append]
    refine ⟨⟨⟨⟨⟨⟨?_, listId⟩, ?_⟩, ?_⟩, ?_⟩, importance⟩, link⟩
    · exact List.forall_mem_singleton.mpr id.fits
    · exact List.forall_mem_singleton.mpr title
    · exact List.forall_mem_singleton.mpr (fits_detail data.detail.text)
    · exact List.forall_mem_singleton.mpr data.status.fits

theorem updateTask_fits_iff (data : TaskUpdate) (now : ℤ) :
    (∀ bound ∈ (updateSets data now).flatMap TaskSet.boundTexts, bound.Fits) ↔
      ∀ title, data.title = .given title →
        BoundText.Fits ⟨encodeEmoji title.text, some TITLE_MAX⟩ := by
  constructor
  · intro all title given
    have assigned : TaskSet.title (encodeEmoji title.text) ∈ updateSets data now := by
      simp [updateSets, given]
    exact all _ (List.mem_flatMap.mpr ⟨_, assigned, List.mem_singleton_self _⟩)
  · intro titleFits bound member
    obtain ⟨set, assigned, inSet⟩ := List.mem_flatMap.mp member
    rcases updateSets_fit assigned with ⟨title, given, rfl⟩ | others
    · rw [List.mem_singleton.mp inSet]
      exact titleFits title given
    · exact others bound inSet

/-- Every text that an accepted body has bound is within the basic plane and its column
exactly when the title it sends is, with the tokens counted. -/
theorem accepted_texts_fit_iff (db : Database) (store : Store) (id : IdStr) (now : ℤ) (body : Body) :
    (∀ bound ∈ body.boundTexts db store id now, bound.Fits) ↔
      ∀ title maxLength, body.title = some (title, maxLength) →
        title.length + totalWeight growth title ≤ maxLength := by
  have only : ∀ sent limit, (∀ title maxLength, some (sent, limit) = some (title, maxLength) →
        title.length + totalWeight growth title ≤ maxLength) ↔
      BoundText.Fits ⟨encodeEmoji sent, some limit⟩ := by
    intro sent limit
    rw [fits_title_iff]
    constructor
    · exact fun all => all sent limit rfl
    · rintro within title maxLength same
      cases same
      exact within
  have idFits : ∀ bound ∈ [(⟨id.value, none⟩ : BoundText)], bound.Fits :=
    List.forall_mem_singleton.mpr id.fits
  cases body with
  | createTask data =>
      exact (newTaskRow_fits_iff db store id data).trans (only data.title.text TITLE_MAX).symm
  | updateTask data =>
      rw [Body.boundTexts, List.forall_mem_append, and_iff_left idFits, updateTask_fits_iff]
      cases given : data.title with
      | omitted => simp [Body.title, given]
      | null => simp [Body.title, given]
      | given title =>
          simp only [Body.title, given, only, Field.given.injEq]
          exact ⟨fun all => all title rfl, fun fits _ same => same ▸ fits⟩
  | createList data =>
      rw [Body.boundTexts, ListRow.boundTexts, newListRow, List.forall_mem_append,
        and_iff_right idFits]
      exact List.forall_mem_singleton.trans (only data.title.text LIST_TITLE_MAX).symm
  | updateList data =>
      rw [Body.boundTexts, List.forall_mem_append, and_iff_left idFits]
      exact List.forall_mem_singleton.trans (only data.title.text LIST_TITLE_MAX).symm

end Bodies

/-- A list title of 29 emoji is accepted, and its stored form has 261 characters. -/
theorem emoji_title_exceeds_column :
    ¬ ∀ (body : Body) (id : IdStr),
      ∀ bound ∈ body.boundTexts singleUser .empty id 1000, bound.Fits := by
  intro always
  have fits := always
    (.createList ⟨⟨List.replicate 29 (Char.ofNat 0x1F600), by decide⟩⟩)
    ⟨List.replicate 32 'a', by decide⟩
    ⟨encodeEmoji (List.replicate 29 (Char.ofNat 0x1F600)), some LIST_TITLE_MAX⟩
    (List.mem_append_right _ (List.mem_singleton_self _))
  have within := fits.length_le LIST_TITLE_MAX rfl
  rw [encodeEmoji_length] at within
  exact absurd within (by decide)

end SupernoteTaskService
