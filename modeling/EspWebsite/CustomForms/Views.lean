import EspWebsite.CustomForms.DynamicModel

/-!
# Saving and modifying custom forms

`onSubmit` and `onModify` of `customforms/views.py`.  A request describes the pages, sections and
questions of a form; `onModify` looks each of them up by the id that the request gives it.
-/

namespace EspWebsite.CustomForms

open Python Loops Tables

/-! ## Requests -/

/-- A question in a request.  The ids of a request are `none` where no row can have them, as
with the `-1` of new objects. -/
structure FieldEntry where
  parent_id : Option ℕ
  field_type : String
  seq : ℤ
  question_text : String
  help_text : String
  required : Bool
  attrs : List (String × String)
  nodup : (attrs.map Prod.fst).Nodup

structure SectionEntry where
  parent_id : Option ℕ
  question_text : String
  help_text : String
  seq : ℤ
  fields : List FieldEntry

structure PageEntry where
  parent_id : Option ℕ
  seq : ℤ
  sections : List SectionEntry

/-- The body of a request; `form_id` is read by `onModify` only. -/
structure Metadata where
  form_id : ℕ
  title : List Char
  desc : String
  link_type : String
  link_id : ℤ
  anonymous : Bool
  perms : String
  success_message : String
  success_url : String
  link_module : Option String
  pages : List PageEntry

namespace Metadata

def sections (metadata : Metadata) : List SectionEntry := metadata.pages.flatMap (·.sections)

/-- The questions of a request, in their order. -/
def fields (metadata : Metadata) : List FieldEntry := metadata.sections.flatMap (·.fields)

end Metadata

def espError (message : String) : PyError := .raised "ESPError" message

def strip (isSpace : Char → Bool) (text : List Char) : List Char :=
  ((text.dropWhile isSpace).reverse.dropWhile isSpace).reverse

/-- The title of a request, without blanks around it and cut to the length of its column. -/
def normalizedTitle (site : Site) (metadata : Metadata) : Raises (List Char) :=
  let title := (strip site.isSpace metadata.title).take 40
  if strip site.isSpace title = [] then
    .error (espError "Form Name/Title is required and cannot be empty.")
  else .ok title

def checkNoAnonymousLinkFields (anonymous : Bool) (metadata : Metadata) : Raises Unit :=
  if anonymous ∧ metadata.fields.any fun field => isLinkField field.field_type then
    .error (espError "Anonymous forms cannot contain linked fields.")
  else .ok ()

def setModuleTag (site : Site) (metadata : Metadata) : Raises Unit :=
  match metadata.link_module with
  | none => .ok ()
  | some link_module => site.setModuleTag metadata.link_id link_module

/-! ## Rows -/

/-- `get_or_create_altered_obj`: the object, the row it was before if it was not created, and the
table with it. -/
def getOrCreateAltered {Row : Type} [Keyed Row] (table : Table Row) (initial_id : Option ℕ)
    (alter : Row → Row) (create : ℕ → Row) (keyed : ∀ id, Keyed.key (create id) = id) :
    Row × Option Row × Table Row :=
  match initial_id >>= table.get? with
  | some row => (alter row, some row, table.save (alter row))
  | none => (create table.next, none, table.create create keyed)

namespace PageEntry

/-- The stored page with the attributes of a request.  Updating the dictionary of the instance
leaves its foreign key as it is: `form` is not the attribute that `save` writes. -/
def alter (entry : PageEntry) (page : Page) : Page := { page with seq := entry.seq }

def create (entry : PageEntry) (form id : ℕ) : Page := ⟨id, form, entry.seq⟩

theorem key_alter (entry : PageEntry) (page : Page) :
    Keyed.key (entry.alter page) = Keyed.key page := rfl

theorem key_create (entry : PageEntry) (form id : ℕ) : Keyed.key (entry.create form id) = id :=
  rfl

end PageEntry

namespace SectionEntry

/-- The stored section with the attributes of a request, on the page on which it was. -/
def alter (entry : SectionEntry) (sect : Section) : Section :=
  { sect with title := entry.question_text, description := entry.help_text, seq := entry.seq }

def create (entry : SectionEntry) (page id : ℕ) : Section :=
  ⟨id, page, entry.question_text, entry.help_text, entry.seq⟩

theorem key_alter (entry : SectionEntry) (sect : Section) :
    Keyed.key (entry.alter sect) = Keyed.key sect := rfl

theorem key_create (entry : SectionEntry) (page id : ℕ) :
    Keyed.key (entry.create page id) = id := rfl

end SectionEntry

namespace FieldEntry

/-- The stored question with the attributes of a request, in the form and section in which it
was. -/
def alter (entry : FieldEntry) (field : Field) : Field :=
  { field with
    field_type := entry.field_type
    seq := entry.seq
    label := entry.question_text
    help_text := entry.help_text
    required := entry.required }

def create (entry : FieldEntry) (form sectionId id : ℕ) : Field :=
  ⟨id, form, sectionId, entry.field_type, entry.seq, entry.question_text, entry.help_text,
    entry.required⟩

theorem key_alter (entry : FieldEntry) (field : Field) :
    Keyed.key (entry.alter field) = Keyed.key field := rfl

theorem key_create (entry : FieldEntry) (form sectionId id : ℕ) :
    Keyed.key (entry.create form sectionId id) = id := rfl

end FieldEntry

/-- `set_attribute` of a question. -/
def setAttribute (field : ℕ) (attr : String × String) (attributes : Table Attribute) :
    Raises (Table Attribute) :=
  match attributes.rows.filter fun row => row.field = field ∧ row.attr_type = attr.1 with
  | [] => .ok (attributes.create (fun id => ⟨id, field, attr.1, attr.2⟩) fun _ => rfl)
  | [row] => .ok (attributes.save { row with value := attr.2 })
  | _ :: _ :: _ => .error (.raised "MultipleObjectsReturned" "")

/-- `clean_attributes` of a question. -/
def cleanAttributes (field : ℕ) (keep : List String) (attributes : Table Attribute) :
    Table Attribute :=
  attributes.delete fun row => row.field = field ∧ row.attr_type ∉ keep

/-! ## Modifying a form -/

/-- The state of `onModify`: the database, the linked models that the handler has columns for, the
linked models of the request, and the ids of the objects of the request. -/
structure Modification where
  db : Database
  handlerModels : List LinkedModel
  link_models_list : List LinkedModel
  pages : List ℕ
  sections : List ℕ
  fields : List ℕ

namespace Modification

def setColumns (m : Modification) (form : ℕ) (columns : List Column) : Modification :=
  { m with db := { m.db with responses := Function.update m.db.responses form columns } }

def modifyColumns (site : Site) (handler : Handler) (m : Modification) (curr_field : Field)
    (old_field : Option Field) : Raises Modification :=
  let columns := m.db.responses handler.form
  match old_field with
  | none =>
      if isLinkField curr_field.field_type then do
        let model ← linkModelName curr_field.field_type
        let added ← addLinkFieldColumn columns m.handlerModels model
        return { m.setColumns handler.form added.1 with handlerModels := added.2 }
      else do
        let columns ← addField columns curr_field
        return m.setColumns handler.form columns
  | some old_field =>
      if isLinkField curr_field.field_type then .ok m
      else do
        let columns ← updateField (site.casts handler.form) handler columns curr_field old_field
        return m.setColumns handler.form columns

/-- The linked model of a question is noted, so that its column is not dropped. -/
def noteModel (m : Modification) (curr_field : Field) : Raises Modification :=
  if isLinkField curr_field.field_type then do
    let model ← linkModelName curr_field.field_type
    return if model ∈ m.link_models_list then m
      else { m with link_models_list := m.link_models_list ++ [model] }
  else .ok m

/-- The attributes of a question become those of the request. -/
def modifyAttributes (m : Modification) (entry : FieldEntry) (field : ℕ) :
    Raises Modification := do
  let attributes ← forLoop (setAttribute field) entry.attrs m.db.attributes
  return { m with db := { m.db with
    attributes := cleanAttributes field (entry.attrs.map Prod.fst) attributes } }

/-- One question of a request. -/
def modifyField (site : Site) (handler : Handler) (curr_sect : ℕ) (entry : FieldEntry)
    (m : Modification) : Raises Modification := do
  let altered := getOrCreateAltered m.db.fields entry.parent_id entry.alter
    (entry.create handler.form curr_sect) (entry.key_create handler.form curr_sect)
  let m := { m with db := { m.db with fields := altered.2.2 } }
  let m ← m.modifyColumns site handler altered.1 altered.2.1
  let m ← m.noteModel altered.1
  let m ← m.modifyAttributes entry altered.1.id
  return { m with fields := m.fields ++ [altered.1.id] }

def modifySection (site : Site) (handler : Handler) (curr_page : ℕ) (entry : SectionEntry)
    (m : Modification) : Raises Modification :=
  let altered := getOrCreateAltered m.db.sections entry.parent_id entry.alter
    (entry.create curr_page) (entry.key_create curr_page)
  let m := { m with
    db := { m.db with sections := altered.2.2 }
    sections := m.sections ++ [altered.1.id] }
  forLoop (modifyField site handler altered.1.id) entry.fields m

def modifyPage (site : Site) (handler : Handler) (entry : PageEntry) (m : Modification) :
    Raises Modification :=
  let altered := getOrCreateAltered m.db.pages entry.parent_id entry.alter
    (entry.create handler.form) (entry.key_create handler.form)
  let m := { m with
    db := { m.db with pages := altered.2.2 }
    pages := m.pages ++ [altered.1.id] }
  forLoop (modifySection site handler altered.1.id) entry.sections m

end Modification

/-! ## What is left out -/

/-- The columns after the column of a question that is left out is dropped; a column that
questions of a linked model share stays if the request has such a question. -/
def dropColumns (handler : Handler) (link_models_list : List LinkedModel) (field : Field)
    (state : List Column × List LinkedModel) : Raises (List Column × List LinkedModel) :=
  if isLinkField field.field_type then do
    let model ← linkModelName field.field_type
    if model ∈ link_models_list then .ok state
    else removeLinkField handler state.1 state.2 model
  else do
    let columns ← removeField handler state.1 field
    return (columns, state.2)

namespace Database

variable (db : Database)

/-- Questions are deleted with their attributes. -/
def deleteFields (condition : Field → Bool) : Database :=
  { db with
    fields := db.fields.delete condition
    attributes := db.attributes.delete fun row =>
      db.fields.rows.any fun field => field.id = row.field && condition field }

def deleteSections (condition : Section → Bool) : Database :=
  { db.deleteFields fun field =>
      db.sections.rows.any fun sect => sect.id = field.sectionId && condition sect with
    sections := db.sections.delete condition }

def deletePages (condition : Page → Bool) : Database :=
  { db.deleteSections fun sect =>
      db.pages.rows.any fun page => page.id = sect.page && condition page with
    pages := db.pages.delete condition }

end Database

/-- The objects of the form that the request leaves out are deleted: first questions with their
columns, then sections, then pages. -/
def deleteLeftOut (handler : Handler) (m : Modification) : Raises Database := do
  let leftOut := fun field : Field => field.form = handler.form ∧ field.id ∉ m.fields
  let dropped ← forLoop (dropColumns handler m.link_models_list)
    (m.db.fields.rows.filter fun field => leftOut field)
    (m.db.responses handler.form, m.handlerModels)
  let db := (m.setColumns handler.form dropped.1).db
  let db := db.deleteFields fun field => leftOut field
  let db := db.deleteSections fun sect => sect.id ∉ m.sections ∧
    db.pages.rows.any fun page => page.id = sect.page && page.form = handler.form
  return db.deletePages fun page => page.form = handler.form ∧ page.id ∉ m.pages

def onModify (site : Site) (db : Database) (metadata : Metadata) : Raises Database := do
  match db.forms.get? metadata.form_id with
  | none => .error (espError ("Form " ++ toString metadata.form_id ++ " not found"))
  | some form =>
      let handler := Handler.of form (db.fieldsOf form.id)
      let title ← normalizedTitle site metadata
      checkNoAnonymousLinkFields form.anonymous metadata
      setModuleTag site metadata
      let columns ← changeOnlyFkey handler (db.responses form.id) form.link_type
        metadata.link_type
      let modified := { form with
        title := title
        description := metadata.desc
        perms := metadata.perms
        success_message := metadata.success_message
        success_url := metadata.success_url
        link_type := metadata.link_type
        link_id := metadata.link_id }
      let m : Modification :=
        ⟨{ db with forms := db.forms.save modified }, handler.link_models_list, [], [], [], []⟩
      let m ← forLoop (Modification.modifyPage site handler) metadata.pages
        (m.setColumns form.id columns)
      deleteLeftOut handler m

/-- A request in its transaction: one that is refused changes nothing. -/
def modify (site : Site) (db : Database) (metadata : Metadata) : Database :=
  match onModify site db metadata with
  | .ok after => after
  | .error _ => db

end EspWebsite.CustomForms
