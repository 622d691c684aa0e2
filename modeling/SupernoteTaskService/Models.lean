import SupernoteTaskService.Encoding

/-!
# Request and response models

A validated body carries the bounds that validation checked, so an unvalidated
one cannot be built.  `Field` keeps an omitted field apart from an explicit null,
as `model_fields_set` does.

What the `links` column decodes to is validated by pydantic, which is not part of the
repository.  `LinkModel` stands for it: `WellFormedLink` reads the declaration of
`DocumentLink`, and what is taken for a string or an integer stays open.
-/

set_option autoImplicit false

namespace SupernoteTaskService

open Foundation

def TITLE_MAX : ℕ := 600

def DETAIL_MAX : ℕ := 255

def LIST_TITLE_MAX : ℕ := 255

/-! ## Field types -/

structure BoundedText (minLength maxLength : ℕ) where
  text : Text
  bounds : minLength ≤ text.length ∧ text.length ≤ maxLength
  deriving DecidableEq

/-- `^[0-9a-f]{32}$` -/
def idPattern (value : Text) : Bool :=
  value.length == 32 && value.all fun c => ('0' ≤ c && c ≤ '9') || ('a' ≤ c && c ≤ 'f')

structure IdStr where
  value : Text
  pattern : idPattern value = true
  deriving DecidableEq

structure Importance where
  value : ℕ
  range : 1 ≤ value ∧ value ≤ 5
  deriving DecidableEq

inductive TaskStatus where
  | needsAction
  | completed
  deriving DecidableEq

def TaskStatus.value : TaskStatus → Text
  | needsAction => "needsAction".toList
  | completed => "completed".toList

def TaskStatus.ofValue (value : Option Text) : Option TaskStatus :=
  if value = some (TaskStatus.value .needsAction) then some .needsAction
  else if value = some (TaskStatus.value .completed) then some .completed
  else none

theorem TaskStatus.ofValue_value (status : TaskStatus) :
    TaskStatus.ofValue (some status.value) = some status := by
  cases status with
  | needsAction => rfl
  | completed => rfl

/-- A field of a partial update. -/
inductive Field (α : Type) where
  | omitted
  | null
  | given (value : α)
  deriving DecidableEq

/-! ## Document links -/

structure DocumentLink where
  appName : BoundedText 0 64
  fileId : BoundedText 0 255
  filePath : BoundedText 0 1024
  page : ℕ
  pageId : BoundedText 0 255
  deriving DecidableEq

/-- `str` with `max_length`, and `int` with `ge`. -/
inductive FieldType where
  | str (maxLength : ℕ)
  | int (ge : ℤ)

structure ModelField where
  name : Text
  aliasName : Text
  required : Bool
  type : FieldType

namespace DocumentLink

def appNameField : ModelField := ⟨"app_name".toList, "appName".toList, false, .str 64⟩

def fileIdField : ModelField := ⟨"file_id".toList, "fileId".toList, true, .str 255⟩

def filePathField : ModelField := ⟨"file_path".toList, "filePath".toList, true, .str 1024⟩

def pageField : ModelField := ⟨"page".toList, "page".toList, true, .int 0⟩

def pageIdField : ModelField := ⟨"page_id".toList, "pageId".toList, true, .str 255⟩

def fields : List ModelField := [appNameField, fileIdField, filePathField, pageField, pageIdField]

end DocumentLink

abbrev Members := List (List ℕ × Json)

/-- The last member of a name counts. -/
def lookupMember (members : Members) (name : Text) : Option Json :=
  (members.reverse.find? fun member => member.1 = name.map Char.toNat).map Prod.snd

/-- A field under its alias, else under its name, with the key it was found at. -/
def ModelField.lookup (field : ModelField) (members : Members) : Option (Text × Json) :=
  match lookupMember members field.aliasName with
  | some value => some (field.aliasName, value)
  | none => (lookupMember members field.name).map fun value => (field.name, value)

/-- What pydantic takes for a string and for an integer, lax conversions included. -/
structure Conversions where
  str : Json → Option Text
  int : Json → Option ℤ

/-- The value is of the type of the field and within its bound. -/
def FieldType.Accepts (conversions : Conversions) (value : Json) : FieldType → Prop
  | .str maxLength => ∃ text, conversions.str value = some text ∧ text.length ≤ maxLength
  | .int ge => ∃ number, conversions.int value = some number ∧ ge ≤ number

/-- No required field is missing, no field is of the wrong type or out of bounds, and no
member is extra. -/
structure WellFormedLink (conversions : Conversions) (members : Members) : Prop where
  complete : ∀ field ∈ DocumentLink.fields, field.required = true → field.lookup members ≠ none
  accepted : ∀ field ∈ DocumentLink.fields, ∀ found, field.lookup members = some found →
    field.type.Accepts conversions found.2
  known : ∀ member ∈ members, ∃ field ∈ DocumentLink.fields,
    ∃ found, field.lookup members = some found ∧ member.1 = found.1.map Char.toNat

/-- `document_link.model_dump(by_alias=True)` -/
def linkPayload (link : DocumentLink) : List (Text × Scalar) :=
  [("appName".toList, .str link.appName.text), ("fileId".toList, .str link.fileId.text),
    ("filePath".toList, .str link.filePath.text), ("page".toList, .nat link.page),
    ("pageId".toList, .str link.pageId.text)]

/-- The members of the payload as the decoder reads them back. -/
def linkMembers (link : DocumentLink) : Members :=
  (linkPayload link).map fun member => (member.1.map Char.toNat, member.2.toJson)

/-- `DocumentLink.model_validate`: it accepts what is well-formed, and what it dumps it
reads back. -/
structure LinkModel where
  conversions : Conversions
  modelValidate : Members → Option DocumentLink
  accepts_iff : ∀ members, (∃ link, modelValidate members = some link) ↔
    WellFormedLink conversions members
  reads_dump : ∀ link, modelValidate (linkMembers link) = some link

/-! ### Strict validation

A `LinkModel` that takes strings and integers as they are and converts nothing. -/

/-- A lone surrogate is no text. -/
def textOfPoints (points : List ℕ) : Option Text :=
  points.mapM fun point => if point.isValidChar then some (Char.ofNat point) else none

def strictConversions : Conversions where
  str value := match value with
    | .str points => textOfPoints points
    | _ => none
  int value := match value with
    | .int number => some number
    | _ => none

def strictText (maxLength : ℕ) (value : Json) : Option (BoundedText 0 maxLength) :=
  (strictConversions.str value).bind fun text =>
    if fits : text.length ≤ maxLength then some ⟨text, Nat.zero_le _, fits⟩ else none

def strictPage (value : Json) : Option ℕ :=
  (strictConversions.int value).bind fun number =>
    if 0 ≤ number then some number.toNat else none

def strictField {α : Type} (read : Json → Option α) (default : Option α)
    (found : Option (Text × Json)) : Option α :=
  match found with
  | none => default
  | some found => read found.2

def knownMember (members : Members) (member : List ℕ × Json) : Bool :=
  DocumentLink.fields.any fun field =>
    (field.lookup members).any fun found => decide (member.1 = found.1.map Char.toNat)

def strictValidate (members : Members) : Option DocumentLink :=
  if members.all (knownMember members) then do
    let appName ← strictField (strictText 64) (some ⟨"note".toList, by decide⟩)
      (DocumentLink.appNameField.lookup members)
    let fileId ← strictField (strictText 255) none (DocumentLink.fileIdField.lookup members)
    let filePath ← strictField (strictText 1024) none (DocumentLink.filePathField.lookup members)
    let page ← strictField strictPage none (DocumentLink.pageField.lookup members)
    let pageId ← strictField (strictText 255) none (DocumentLink.pageIdField.lookup members)
    some ⟨appName, fileId, filePath, page, pageId⟩
  else none

theorem textOfPoints_toNat (text : Text) : textOfPoints (text.map Char.toNat) = some text := by
  induction text with
  | nil => rfl
  | cons c rest ih =>
      have valid : c.toNat.isValidChar := c.valid
      rw [textOfPoints] at ih ⊢
      rw [List.map_cons, List.mapM_cons, if_pos valid, ih, Char.ofNat_toNat]
      rfl

theorem strictText_str {maxLength : ℕ} (field : BoundedText 0 maxLength) :
    strictText maxLength (.str (field.text.map Char.toNat)) = some field := by
  simp only [strictText, strictConversions, textOfPoints_toNat, Option.bind_some, field.bounds.2,
    dite_true]

theorem strictText_accepts {maxLength : ℕ} {value : Json} :
    (∃ text, strictText maxLength value = some text) ↔
      (FieldType.str maxLength).Accepts strictConversions value := by
  simp only [strictText, Option.bind_eq_some_iff, Option.dite_none_right_eq_some,
    FieldType.Accepts]
  constructor
  · intro ⟨_, text, read, fits, _⟩
    exact ⟨text, read, fits⟩
  · intro ⟨text, read, fits⟩
    exact ⟨_, text, read, fits, rfl⟩

theorem strictPage_accepts {value : Json} :
    (∃ page, strictPage value = some page) ↔ (FieldType.int 0).Accepts strictConversions value := by
  simp only [strictPage, Option.bind_eq_some_iff, Option.ite_none_right_eq_some,
    FieldType.Accepts]
  constructor
  · intro ⟨_, number, read, fits, _⟩
    exact ⟨number, read, fits⟩
  · intro ⟨number, read, fits⟩
    exact ⟨_, number, read, fits, rfl⟩

theorem strictField_some_iff {α : Type} {read : Json → Option α} {default : Option α}
    {found : Option (Text × Json)} :
    (∃ value, strictField read default found = some value) ↔
      (default = none → found ≠ none) ∧
        ∀ pair, found = some pair → ∃ value, read pair.2 = some value := by
  cases found with
  | none => simp [strictField, Option.ne_none_iff_exists']
  | some pair => simp [strictField]

theorem knownMember_iff {members : Members} {member : List ℕ × Json} :
    knownMember members member = true ↔ ∃ field ∈ DocumentLink.fields,
      ∃ found, field.lookup members = some found ∧ member.1 = found.1.map Char.toNat := by
  simp only [knownMember, List.any_eq_true, Option.any_eq_true, decide_eq_true_eq]

theorem strictValidate_accepts_iff (members : Members) :
    (∃ link, strictValidate members = some link) ↔ WellFormedLink strictConversions members := by
  have fieldwise : (∃ link, strictValidate members = some link) ↔
      (∀ member ∈ members, knownMember members member = true) ∧
      (∃ appName, strictField (strictText 64) (some ⟨"note".toList, by decide⟩)
        (DocumentLink.appNameField.lookup members) = some appName) ∧
      (∃ fileId, strictField (strictText 255) none
        (DocumentLink.fileIdField.lookup members) = some fileId) ∧
      (∃ filePath, strictField (strictText 1024) none
        (DocumentLink.filePathField.lookup members) = some filePath) ∧
      (∃ page, strictField strictPage none
        (DocumentLink.pageField.lookup members) = some page) ∧
      ∃ pageId, strictField (strictText 255) none
        (DocumentLink.pageIdField.lookup members) = some pageId := by
    simp only [strictValidate, Option.bind_eq_bind, Option.ite_none_right_eq_some,
      Option.bind_eq_some_iff, List.all_eq_true]
    constructor
    · intro ⟨_, known, appName, isName, fileId, isId, filePath, isPath, page, isPage, pageId,
        isPageId, _⟩
      exact ⟨known, ⟨appName, isName⟩, ⟨fileId, isId⟩, ⟨filePath, isPath⟩, ⟨page, isPage⟩,
        ⟨pageId, isPageId⟩⟩
    · intro ⟨known, ⟨appName, isName⟩, ⟨fileId, isId⟩, ⟨filePath, isPath⟩, ⟨page, isPage⟩,
        ⟨pageId, isPageId⟩⟩
      exact ⟨_, known, appName, isName, fileId, isId, filePath, isPath, page, isPage, pageId,
        isPageId, rfl⟩
  rw [fieldwise]
  simp only [strictField_some_iff, strictText_accepts, strictPage_accepts, knownMember_iff]
  constructor
  · intro ⟨known, ⟨_, appName⟩, ⟨hasId, fileId⟩, ⟨hasPath, filePath⟩, ⟨hasPage, page⟩,
      ⟨hasPageId, pageId⟩⟩
    refine ⟨?_, ?_, known⟩
    · simp only [DocumentLink.fields, List.forall_mem_cons]
      exact ⟨nofun, fun _ => hasId trivial, fun _ => hasPath trivial, fun _ => hasPage trivial,
        fun _ => hasPageId trivial, nofun⟩
    · simp only [DocumentLink.fields, List.forall_mem_cons]
      exact ⟨appName, fileId, filePath, page, pageId, nofun⟩
  · intro ⟨complete, accepted, known⟩
    simp only [DocumentLink.fields, List.forall_mem_cons] at complete accepted
    obtain ⟨-, hasId, hasPath, hasPage, hasPageId, -⟩ := complete
    obtain ⟨appName, fileId, filePath, page, pageId, -⟩ := accepted
    exact ⟨known, ⟨nofun, appName⟩, ⟨fun _ => hasId rfl, fileId⟩,
      ⟨fun _ => hasPath rfl, filePath⟩, ⟨fun _ => hasPage rfl, page⟩,
      ⟨fun _ => hasPageId rfl, pageId⟩⟩

theorem strictValidate_linkMembers (link : DocumentLink) :
    strictValidate (linkMembers link) = some link := by
  have appName : DocumentLink.appNameField.lookup (linkMembers link) =
      some ("appName".toList, .str (link.appName.text.map Char.toNat)) := rfl
  have fileId : DocumentLink.fileIdField.lookup (linkMembers link) =
      some ("fileId".toList, .str (link.fileId.text.map Char.toNat)) := rfl
  have filePath : DocumentLink.filePathField.lookup (linkMembers link) =
      some ("filePath".toList, .str (link.filePath.text.map Char.toNat)) := rfl
  have page : DocumentLink.pageField.lookup (linkMembers link) =
      some ("page".toList, .int link.page) := rfl
  have pageId : DocumentLink.pageIdField.lookup (linkMembers link) =
      some ("pageId".toList, .str (link.pageId.text.map Char.toNat)) := rfl
  have known : (linkMembers link).all (knownMember (linkMembers link)) = true := rfl
  have pageRead : strictPage (.int link.page) = some link.page := by
    simp [strictPage, strictConversions]
  simp only [strictValidate, known, if_true, appName, fileId, filePath, page, pageId, strictField,
    strictText_str, pageRead, Option.bind_eq_bind, Option.bind_some]

def strictLinks : LinkModel where
  conversions := strictConversions
  modelValidate := strictValidate
  accepts_iff := strictValidate_accepts_iff
  reads_dump := strictValidate_linkMembers

/-! ## Task bodies -/

structure TaskCreate where
  title : BoundedText 1 TITLE_MAX
  detail : BoundedText 0 DETAIL_MAX := ⟨[], by decide⟩
  listId : Option IdStr := none
  status : TaskStatus := .needsAction
  importance : Option Importance := none
  due : Option Datetime := none
  sort : Option ℕ := none
  documentLink : Option DocumentLink := none
  deriving DecidableEq

structure TaskFields where
  title : Field (BoundedText 1 TITLE_MAX) := .omitted
  detail : Field (BoundedText 0 DETAIL_MAX) := .omitted
  listId : Field IdStr := .omitted
  status : Field TaskStatus := .omitted
  importance : Field Importance := .omitted
  due : Field Datetime := .omitted
  sort : Field ℕ := .omitted
  documentLink : Field DocumentLink := .omitted
  deriving DecidableEq

/-- A partial update names at least one field. -/
structure TaskUpdate extends TaskFields where
  requireAtLeastOneField : toTaskFields ≠ {}
  deriving DecidableEq

def TaskUpdate.ofStatus (status : TaskStatus) : TaskUpdate where
  toTaskFields := { status := .given status }
  requireAtLeastOneField := by
    intro same
    cases same

structure TaskListCreate where
  title : BoundedText 1 LIST_TITLE_MAX
  deriving DecidableEq

structure TaskListUpdate where
  title : BoundedText 1 LIST_TITLE_MAX
  deriving DecidableEq

/-! ## Responses -/

structure TaskList where
  id : Option Text
  title : Text
  lastModified : ℤ
  isDeleted : Bool
  deriving DecidableEq

structure Task where
  id : Text
  listId : Option Text
  category : Text
  title : Text
  detail : Text
  status : TaskStatus
  importance : Option ℤ
  due : Option Datetime
  completed : Option Datetime
  sort : Option ℤ
  lastModified : ℤ
  documentLink : Option DocumentLink
  isDeleted : Bool
  deriving DecidableEq

end SupernoteTaskService
