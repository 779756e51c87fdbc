import EspWebsite.Library.Loops
import EspWebsite.Library.Tables

/-!
# Custom forms and their response tables

The rows of `customforms/models.py`, and the part of `DynamicModelHandler` that decides which
columns the response table of a form has.
-/

namespace EspWebsite.CustomForms

open Python Tables

/-! ## Columns -/

inductive LinkedModel where
  | ESPUser
  | Program
  | ClassSubject
  | TeacherInfo
  | ContactInfo
  deriving DecidableEq

/-- A field of the dynamic model, with the arguments that decide about its column. -/
inductive ModelField where
  | autoField
  | charField (max_length : ℕ)
  | textField
  | integerField (null : Bool)
  | dateField (null : Bool)
  | timeField (null : Bool)
  | fileField (max_length : ℕ)
  | booleanField (null : Bool)
  | foreignKey (model : LinkedModel)
  deriving DecidableEq

/-- The name of a column: `id`, `user_id`, `link_Model_id` or `question_23`. -/
inductive ColumnName where
  | id
  | user
  | link (model : LinkedModel)
  | question (field : ℕ)
  deriving DecidableEq

structure Column where
  name : ColumnName
  field : ModelField
  deriving DecidableEq

/-- `_field_types`; instructions have no column. -/
def fieldTypes : List (String × Option ModelField) :=
  [("textField", some (.charField 30)), ("longTextField", some (.charField 60)),
    ("longAns", some .textField), ("reallyLongAns", some .textField),
    ("radio", some (.charField 200)), ("dropdown", some (.charField 200)),
    ("multiselect", some .textField), ("checkboxes", some .textField),
    ("numeric", some (.integerField true)), ("date", some (.dateField true)),
    ("time", some (.timeField true)), ("file", some (.fileField 200)),
    ("phone", some (.charField 15)), ("email", some (.charField 30)),
    ("state", some (.charField 2)), ("gender", some (.charField 2)),
    ("pronoun", some (.charField 50)), ("radio_yesno", some (.charField 1)),
    ("boolean", some (.booleanField false)), ("null_boolean", some (.booleanField true)),
    ("instructions", none)]

/-- `_getModelField` of a type that is no link field. -/
def getModelField (field_type : String) : Option ModelField := (fieldTypes.lookup field_type).join

/-- `isLinkField`: every type that is not one of the generic ones, which are those that
`_field_types` has. -/
def isLinkField (field_type : String) : Bool := (fieldTypes.lookup field_type).isNone

/-- The link fields of `TeacherInfo`. -/
def teacherInfoFields : List String :=
  ["TeacherInfo_graduation_year", "TeacherInfo_from_here", "TeacherInfo_affiliation",
    "TeacherInfo_is_graduate_student", "TeacherInfo_college", "TeacherInfo_major",
    "TeacherInfo_bio", "TeacherInfo_shirt_size", "TeacherInfo_shirt_type"]

/-- The link fields of `ContactInfo`. -/
def contactInfoFields : List String :=
  ["ContactInfo_phone_day", "ContactInfo_e_mail", "ContactInfo_address", "ContactInfo_name",
    "ContactInfo_receive_txt_message"]

def modelForLinkField (field_type : String) : Option LinkedModel :=
  if field_type ∈ teacherInfoFields then some .TeacherInfo
  else if field_type ∈ contactInfoFields then some .ContactInfo
  else none

/-- `only_fkey_models`, under the names that forms give these models. -/
def onlyFkeyModel (link_type : String) : Option LinkedModel :=
  if link_type = "Program" then some .Program
  else if link_type = "Course" then some .ClassSubject
  else none

/-! ## Rows -/

structure Form where
  id : ℕ
  title : List Char
  description : String
  link_type : String
  link_id : ℤ
  anonymous : Bool
  perms : String
  success_message : String
  success_url : String
  deriving DecidableEq

structure Page where
  id : ℕ
  form : ℕ
  seq : ℤ
  deriving DecidableEq

structure Section where
  id : ℕ
  page : ℕ
  title : String
  description : String
  seq : ℤ
  deriving DecidableEq

/-- A question.  `sectionId` is the section that it stands in. -/
structure Field where
  id : ℕ
  form : ℕ
  sectionId : ℕ
  field_type : String
  seq : ℤ
  label : String
  help_text : String
  required : Bool
  deriving DecidableEq

structure Attribute where
  id : ℕ
  field : ℕ
  attr_type : String
  value : String
  deriving DecidableEq

instance : Keyed Form := ⟨Form.id⟩
instance : Keyed Page := ⟨Page.id⟩
instance : Keyed Section := ⟨Section.id⟩
instance : Keyed Field := ⟨Field.id⟩
instance : Keyed Attribute := ⟨Attribute.id⟩

/-- The stored forms, and the columns of their response tables by the id of the form. -/
structure Database where
  forms : Table Form
  pages : Table Page
  sections : Table Section
  fields : Table Field
  attributes : Table Attribute
  responses : ℕ → List Column

/-- What the model leaves open: which characters count as blank, whether the responses that are
stored in a column of a form can be cast to another type, and what setting the tag of a
registration module raises. -/
structure Site where
  isSpace : Char → Bool
  casts : ℕ → Column → ModelField → Bool
  setModuleTag : ℤ → String → Raises Unit

/-! ## Schema operations -/

/-- `schema_editor.add_field`. -/
def addColumn (columns : List Column) (column : Column) : Raises (List Column) :=
  if column.name ∈ columns.map (·.name) then
    .error (.raised "ProgrammingError" "column already exists")
  else .ok (columns ++ [column])

/-- `schema_editor.remove_field`. -/
def removeColumn (columns : List Column) (name : ColumnName) : Raises (List Column) :=
  if name ∈ columns.map (·.name) then .ok (columns.filter fun column => column.name ≠ name)
  else .error (.raised "ProgrammingError" "column does not exist")

/-- `schema_editor.alter_field`: it compares the two fields that it is given, and changes the
column of the old one where they differ. -/
def alterColumn (casts : Column → ModelField → Bool) (columns : List Column)
    (old_field new_field : Column) : Raises (List Column) :=
  if old_field = new_field then .ok columns
  else if old_field.name ∉ columns.map (·.name) then
    .error (.raised "ProgrammingError" "column does not exist")
  else if old_field.name ≠ new_field.name ∧ new_field.name ∈ columns.map (·.name) then
    .error (.raised "ProgrammingError" "column already exists")
  else if ∀ column ∈ columns, column.name = old_field.name → casts column new_field.field then
    .ok (columns.map fun column =>
      if column.name = old_field.name then
        ⟨new_field.name,
          if old_field.field = new_field.field then column.field else new_field.field⟩
      else column)
  else .error (.raised "DataError" "invalid input syntax")

/-! ## The handler -/

/-- The id and the type of the questions of a form. -/
def Database.fieldsOf (db : Database) (form : ℕ) : List (ℕ × String) :=
  (db.fields.rows.filter fun field => field.form = form).map fun field =>
    (field.id, field.field_type)

/-- The models that the link fields among some questions belong to. -/
def linkModels (fields : List (ℕ × String)) : List LinkedModel :=
  ((fields.filter fun field => isLinkField field.2).filterMap fun field =>
    modelForLinkField field.2).dedup

def getModelFieldList (anonymous : Bool) (link_type : String) (fields : List (ℕ × String)) :
    List Column :=
  [⟨.id, .autoField⟩] ++
  (if anonymous then [] else [⟨.user, .foreignKey .ESPUser⟩]) ++
  ((onlyFkeyModel link_type).map fun model => ⟨.link model, .foreignKey model⟩).toList ++
  ((fields.filter fun field => ¬ isLinkField field.2).filterMap fun field =>
    (getModelField field.2).map fun modelField => ⟨.question field.1, modelField⟩) ++
  (linkModels fields).map fun model => ⟨.link model, .foreignKey model⟩

/-- `DynamicModelHandler` once its lists are filled, for the form with an id. -/
structure Handler where
  form : ℕ
  field_list : List Column
  link_models_list : List LinkedModel

def Handler.of (form : Form) (fields : List (ℕ × String)) : Handler where
  form := form.id
  field_list := getModelFieldList form.anonymous form.link_type fields
  link_models_list := linkModels fields

/-- `modelForLinkField(field_type).__name__`, which raises for a type that belongs to no model. -/
def linkModelName (field_type : String) : Raises LinkedModel :=
  match modelForLinkField field_type with
  | some model => .ok model
  | none => .error .attributeError

def getFieldName (field : Field) : Raises ColumnName :=
  if isLinkField field.field_type then (linkModelName field.field_type).map .link
  else .ok (.question field.id)

/-- `model._meta.get_field`, on the model that `createDynModel` makes of the list of the handler. -/
def Handler.getField (handler : Handler) (name : ColumnName) : Raises Column :=
  match handler.field_list.find? fun column => column.name = name with
  | some column => .ok column
  | none => .error (.raised "FieldDoesNotExist" "")

def addField (columns : List Column) (field : Field) : Raises (List Column) :=
  match getModelField field.field_type with
  | none => .ok columns
  | some new_field => addColumn columns ⟨.question field.id, new_field⟩

def updateField (casts : Column → ModelField → Bool) (handler : Handler) (columns : List Column)
    (field old_field : Field) : Raises (List Column) := do
  let old_field_name ← getFieldName old_field
  match getModelField field.field_type with
  | none => .ok columns
  | some new_field =>
      let old ← handler.getField old_field_name
      alterColumn casts columns old ⟨.question field.id, new_field⟩

def removeField (handler : Handler) (columns : List Column) (field : Field) :
    Raises (List Column) :=
  match getModelField field.field_type with
  | none => .ok columns
  | some _ => do
      let column ← handler.getField (.question field.id)
      removeColumn columns column.name

/-- `addLinkFieldColumn`, for a question of a linked model. -/
def addLinkFieldColumn (columns : List Column) (link_models_list : List LinkedModel)
    (model : LinkedModel) : Raises (List Column × List LinkedModel) :=
  if model ∈ link_models_list then .ok (columns, link_models_list)
  else do
    let columns ← addColumn columns ⟨.link model, .foreignKey model⟩
    return (columns, link_models_list ++ [model])

/-- `removeLinkField`, for a question of a linked model. -/
def removeLinkField (handler : Handler) (columns : List Column)
    (link_models_list : List LinkedModel) (model : LinkedModel) :
    Raises (List Column × List LinkedModel) :=
  if model ∈ link_models_list then do
    let column ← handler.getField (.link model)
    let columns ← removeColumn columns column.name
    return (columns, link_models_list.erase model)
  else .ok (columns, link_models_list)

/-- The column operations of `change_only_fkey`. -/
def changeOnlyFkey (handler : Handler) (columns : List Column)
    (old_link_type new_link_type : String) : Raises (List Column) := do
  let columns ←
    match if old_link_type = new_link_type then none else onlyFkeyModel old_link_type with
    | none => .ok columns
    | some model => do
        let column ← handler.getField (.link model)
        removeColumn columns column.name
  match if old_link_type = new_link_type then none else onlyFkeyModel new_link_type with
  | none => .ok columns
  | some model => addColumn columns ⟨.link model, .foreignKey model⟩

end EspWebsite.CustomForms
