import EspWebsite.CustomForms.Views
import EspWebsite.Library.RowsOverTime

/-!
# What a request for one form does to the others

`onModify` finds pages, sections and questions by the ids of the request, whichever form they
belong to.  What becomes of each row follows from the entries of the request that name it.
-/

namespace EspWebsite.CustomForms

open Python Loops Tables

/-! ## What entries make of rows -/

def PageEntry.pass (page : Page) (entry : PageEntry) : Page :=
  if entry.parent_id = some page.id then entry.alter page else page

def SectionEntry.pass (sect : Section) (entry : SectionEntry) : Section :=
  if entry.parent_id = some sect.id then entry.alter sect else sect

def FieldEntry.pass (field : Field) (entry : FieldEntry) : Field :=
  if entry.parent_id = some field.id then entry.alter field else field

/-- An attribute after an entry of a request: one that an entry for its question lacks is
deleted. -/
def FieldEntry.passAttribute (row : Attribute) (entry : FieldEntry) : Option Attribute :=
  if entry.parent_id = some row.field then
    (entry.attrs.lookup row.attr_type).map fun value => { row with value := value }
  else some row

/-- Each attribute belongs to a stored question. -/
def AttributesStand (m : Modification) : Prop :=
  ∀ row ∈ m.db.attributes.rows, ∃ field ∈ m.db.fields.rows, field.id = row.field

/-- What some entries of a request have made of the rows, and which of these they name. -/
structure Effect (form : ℕ) (pages : List PageEntry) (sections : List SectionEntry)
    (fields : List FieldEntry) (m after : Modification) : Prop where
  stand : AttributesStand after
  onPages : m.db.pages.Follows after.db.pages fun page => some (pages.foldl PageEntry.pass page)
  onSections : m.db.sections.Follows after.db.sections fun sect =>
    some (sections.foldl SectionEntry.pass sect)
  onFields : m.db.fields.Follows after.db.fields fun field =>
    some (fields.foldl FieldEntry.pass field)
  onAttributes : m.db.attributes.Follows after.db.attributes fun row =>
    fields.foldlM FieldEntry.passAttribute row
  namedPages : ∀ page ∈ m.db.pages.rows, page.id ∈ after.pages ↔
    page.id ∈ m.pages ∨ ∃ entry ∈ pages, entry.parent_id = some page.id
  namedSections : ∀ sect ∈ m.db.sections.rows, sect.id ∈ after.sections ↔
    sect.id ∈ m.sections ∨ ∃ entry ∈ sections, entry.parent_id = some sect.id
  onResponses : ∀ other, other ≠ form → after.db.responses other = m.db.responses other

variable {site : Site} {handler : Handler} {form : ℕ} {m middle after : Modification}
  {pages morePages : List PageEntry} {sections moreSections : List SectionEntry}
  {fields moreFields : List FieldEntry} {page : Page} {sect : Section} {field : Field}
  {row : Attribute}

theorem foldl_pass_page : (pages.foldl PageEntry.pass page).id = page.id ∧
    (pages.foldl PageEntry.pass page).form = page.form := by
  induction pages generalizing page with
  | nil => exact ⟨rfl, rfl⟩
  | cons entry pages ih =>
      have first : (PageEntry.pass page entry).id = page.id ∧
          (PageEntry.pass page entry).form = page.form := by
        rw [PageEntry.pass]
        split <;> exact ⟨rfl, rfl⟩
      exact ⟨ih.1.trans first.1, ih.2.trans first.2⟩

theorem foldl_pass_section : (sections.foldl SectionEntry.pass sect).id = sect.id ∧
    (sections.foldl SectionEntry.pass sect).page = sect.page := by
  induction sections generalizing sect with
  | nil => exact ⟨rfl, rfl⟩
  | cons entry sections ih =>
      have first : (SectionEntry.pass sect entry).id = sect.id ∧
          (SectionEntry.pass sect entry).page = sect.page := by
        rw [SectionEntry.pass]
        split <;> exact ⟨rfl, rfl⟩
      exact ⟨ih.1.trans first.1, ih.2.trans first.2⟩

/-- Entries change neither the id of a question nor its form and section. -/
theorem foldl_pass_field : (fields.foldl FieldEntry.pass field).id = field.id ∧
    (fields.foldl FieldEntry.pass field).form = field.form ∧
    (fields.foldl FieldEntry.pass field).sectionId = field.sectionId := by
  induction fields generalizing field with
  | nil => exact ⟨rfl, rfl, rfl⟩
  | cons entry fields ih =>
      have first : (FieldEntry.pass field entry).id = field.id ∧
          (FieldEntry.pass field entry).form = field.form ∧
          (FieldEntry.pass field entry).sectionId = field.sectionId := by
        rw [FieldEntry.pass]
        split <;> exact ⟨rfl, rfl, rfl⟩
      exact ⟨ih.1.trans first.1, ih.2.1.trans first.2.1, ih.2.2.trans first.2.2⟩

namespace Effect

theorem refl (stand : AttributesStand m) : Effect form [] [] [] m m where
  stand := stand
  onPages := Table.Follows.refl _
  onSections := Table.Follows.refl _
  onFields := Table.Follows.refl _
  onAttributes := Table.Follows.refl _
  namedPages page isPage := by simp
  namedSections sect isSect := by simp
  onResponses other different := rfl

theorem trans (first : Effect form pages sections fields m middle)
    (second : Effect form morePages moreSections moreFields middle after) :
    Effect form (pages ++ morePages) (sections ++ moreSections) (fields ++ moreFields) m after where
  stand := second.stand
  onPages := by
    simp only [List.foldl_append]
    exact first.onPages.trans second.onPages
  onSections := by
    simp only [List.foldl_append]
    exact first.onSections.trans second.onSections
  onFields := by
    simp only [List.foldl_append]
    exact first.onFields.trans second.onFields
  onAttributes := by
    simp only [List.foldlM_append]
    exact first.onAttributes.trans second.onAttributes
  namedPages page isPage := by
    have found := first.onPages.get? page.id (m.db.pages.below page isPage)
    rw [show page.id = Keyed.key page from rfl, Table.get?_key isPage] at found
    have same := (Table.get?_eq_some.mp found).1
    have later := second.namedPages _ same
    rw [foldl_pass_page.1, first.namedPages page isPage] at later
    rw [later]
    simp only [List.mem_append, or_assoc, or_and_right, exists_or]
  namedSections sect isSect := by
    have found := first.onSections.get? sect.id (m.db.sections.below sect isSect)
    rw [show sect.id = Keyed.key sect from rfl, Table.get?_key isSect] at found
    have same := (Table.get?_eq_some.mp found).1
    have later := second.namedSections _ same
    rw [foldl_pass_section.1, first.namedSections sect isSect] at later
    rw [later]
    simp only [List.mem_append, or_assoc, or_and_right, exists_or]
  onResponses other different :=
    (second.onResponses other different).trans (first.onResponses other different)

theorem of_forLoop {Item : Type} {body : Item → Modification → Raises Modification}
    {pagesOf : Item → List PageEntry} {sectionsOf : Item → List SectionEntry}
    {fieldsOf : Item → List FieldEntry}
    (rounds : ∀ item m after, AttributesStand m → body item m = .ok after →
      Effect form (pagesOf item) (sectionsOf item) (fieldsOf item) m after)
    {items : List Item} (stand : AttributesStand m) (returned : forLoop body items m = .ok after) :
    Effect form (items.flatMap pagesOf) (items.flatMap sectionsOf) (items.flatMap fieldsOf) m
      after := by
  induction items generalizing m with
  | nil =>
      cases returned
      exact refl stand
  | cons item items ih =>
      rcases forLoop_cons_eq_ok.mp returned with ⟨middle, isMiddle, isAfter⟩
      have first := rounds item m middle stand isMiddle
      simp only [List.flatMap_cons]
      exact first.trans (ih first.stand isAfter)

end Effect

/-! ## One lookup -/

section Lookup

variable {Row : Type} [Keyed Row] {table : Table Row} {initial_id : Option ℕ} {alter : Row → Row}
  {create : ℕ → Row} {keyed : ∀ id, Keyed.key (create id) = id}

theorem follows_getOrCreateAltered (keeps : ∀ row, Keyed.key (alter row) = Keyed.key row) :
    table.Follows (getOrCreateAltered table initial_id alter create keyed).2.2 fun row =>
      some (if initial_id = some (Keyed.key row) then alter row else row) := by
  rw [getOrCreateAltered]
  split
  next row found =>
    cases initial_id with
    | none => cases found
    | some id =>
        have isRow := Table.get?_eq_some.mp found
        apply Table.Follows.save.congr
        intro other isOther
        rw [keeps]
        congr 1
        by_cases same : Keyed.key other = Keyed.key row
        · rw [if_pos same, if_pos (by rw [same, isRow.2]), table.eq_of_key_eq isOther isRow.1 same]
        · rw [if_neg same, if_neg]
          intro named
          exact same ((Option.some.inj named).symm.trans isRow.2.symm)
  next notFound =>
    have created := @Table.Follows.create Row _ table create keyed
    apply created.congr
    intro other isOther
    rw [if_neg]
    intro named
    rw [named] at notFound
    have found : (some (Keyed.key other) >>= table.get?) = some other := Table.get?_key isOther
    rw [found] at notFound
    cases notFound

/-- The object of a lookup is a stored row exactly if the request names that row. -/
theorem key_getOrCreateAltered (keeps : ∀ row, Keyed.key (alter row) = Keyed.key row) {row : Row}
    (isRow : row ∈ table.rows) :
    Keyed.key row = Keyed.key (getOrCreateAltered table initial_id alter create keyed).1 ↔
      initial_id = some (Keyed.key row) := by
  rw [getOrCreateAltered]
  split
  next found isFound =>
    cases initial_id with
    | none => cases isFound
    | some id =>
        have isOther := Table.get?_eq_some.mp isFound
        rw [keeps, isOther.2, Option.some_inj]
        exact eq_comm
  next notFound =>
    rw [keyed]
    apply iff_of_false (table.below row isRow).ne
    intro named
    rw [named] at notFound
    have found : (some (Keyed.key row) >>= table.get?) = some row := Table.get?_key isRow
    rw [found] at notFound
    cases notFound

theorem mem_getOrCreateAltered (keeps : ∀ row, Keyed.key (alter row) = Keyed.key row) :
    (getOrCreateAltered table initial_id alter create keyed).1 ∈
      (getOrCreateAltered table initial_id alter create keyed).2.2.rows := by
  rw [getOrCreateAltered]
  split
  next row found =>
    cases initial_id with
    | none => cases found
    | some id =>
        have isRow := (Table.get?_eq_some.mp found).1
        exact List.mem_map.mpr ⟨row, isRow, if_pos (keeps row).symm⟩
  next => exact List.mem_append_right _ (List.mem_singleton.mpr rfl)

end Lookup

/-! ## The attributes of a question -/

section Attributes

variable {attributes later : Table Attribute} {attr : String × String}
  {attrs : List (String × String)} {id : ℕ}

/-- An attribute after a question's attributes are set to some values. -/
def withValue (attrs : List (String × String)) (row : Attribute) : Attribute :=
  match attrs.lookup row.attr_type with
  | some value => { row with value := value }
  | none => row

theorem follows_setAttribute (set : setAttribute id attr attributes = .ok later) :
    attributes.Follows later (fun row =>
      some (if row.field = id ∧ row.attr_type = attr.1 then { row with value := attr.2 }
        else row)) ∧
    ∀ row ∈ later.rows, row.field = id ∨ ∃ old ∈ attributes.rows, old.field = row.field := by
  rw [setAttribute] at set
  split at set
  next none =>
    cases set
    rw [List.filter_eq_nil_iff] at none
    have created := @Table.Follows.create Attribute _ attributes
      (fun new => ⟨new, id, attr.1, attr.2⟩) fun _ => rfl
    constructor
    · apply created.congr
      intro row isRow
      rw [if_neg (by simpa using none row isRow)]
    · intro row isRow
      cases List.mem_append.mp isRow with
      | inl old => exact .inr ⟨row, old, rfl⟩
      | inr new =>
          rw [List.mem_singleton.mp new]
          exact .inl rfl
  next row one =>
    cases set
    have member : ∀ other, other ∈ attributes.rows ∧
        (other.field = id ∧ other.attr_type = attr.1) ↔ other = row := by
      intro other
      have listed : other ∈ [row] ↔ other = row := List.mem_singleton
      rw [← listed, ← one, List.mem_filter, decide_eq_true_eq]
    have isRow := (member row).mpr rfl
    constructor
    · apply Table.Follows.save.congr
      intro other isOther
      congr 1
      by_cases same : Keyed.key other = Keyed.key { row with value := attr.2 }
      · have equal := attributes.eq_of_key_eq isOther isRow.1 same
        rw [if_pos same, equal, if_pos isRow.2]
      · rw [if_neg same, if_neg]
        intro named
        rw [(member other).mp ⟨isOther, named⟩] at same
        exact same rfl
    · intro other isOther
      rcases List.mem_map.mp isOther with ⟨old, isOld, saved⟩
      split at saved
      next =>
        rw [← saved]
        exact .inl isRow.2.1
      next =>
        rw [← saved]
        exact .inr ⟨old, isOld, rfl⟩
  next => cases set

theorem follows_forLoop_setAttribute (distinct : (attrs.map Prod.fst).Nodup)
    (set : forLoop (setAttribute id) attrs attributes = .ok later) :
    attributes.Follows later (fun row =>
      some (if row.field = id then withValue attrs row else row)) ∧
    ∀ row ∈ later.rows, row.field = id ∨ ∃ old ∈ attributes.rows, old.field = row.field := by
  induction attrs generalizing attributes with
  | nil =>
      cases set
      constructor
      · apply (Table.Follows.refl _).congr
        intro row isRow
        rw [withValue, List.lookup_nil, ite_self]
      · exact fun row isRow => .inr ⟨row, isRow, rfl⟩
  | cons attr attrs ih =>
      rcases forLoop_cons_eq_ok.mp set with ⟨middle, isMiddle, isLater⟩
      rw [List.map_cons, List.nodup_cons] at distinct
      have first := follows_setAttribute isMiddle
      have rest := ih distinct.2 isLater
      constructor
      · apply (first.1.trans rest.1).congr
        intro row isRow
        rw [Option.bind_some]
        congr 1
        by_cases ofField : row.field = id
        · by_cases ofType : row.attr_type = attr.1
          · have unlisted : attrs.lookup attr.1 = none := by
              rw [List.lookup_eq_none_iff]
              intro other isOther
              rw [bne_iff_ne]
              intro same
              exact distinct.1 (same ▸ List.mem_map_of_mem isOther)
            have first : (attr :: attrs).lookup attr.1 = some attr.2 := List.lookup_cons_self
            simp only [withValue, ofField, ofType, true_and, if_true, unlisted, first]
          · have later : (attr :: attrs).lookup row.attr_type = attrs.lookup row.attr_type := by
              rw [List.lookup_cons, beq_eq_false_iff_ne.mpr ofType]
            simp only [withValue, ofField, ofType, and_false, if_false, if_true, later]
        · simp [ofField]
      · intro row isRow
        cases rest.2 row isRow with
        | inl named => exact .inl named
        | inr old =>
            rcases old with ⟨old, isOld, same⟩
            rw [← same]
            exact first.2 old isOld

theorem follows_modifyAttributes {entry : FieldEntry}
    (modified : m.modifyAttributes entry id = .ok after) :
    ∃ attributes, after = { m with db := { m.db with attributes := attributes } } ∧
      m.db.attributes.Follows attributes (fun row =>
        if row.field = id then
          (entry.attrs.lookup row.attr_type).map fun value => { row with value := value }
        else some row) ∧
      ∀ row ∈ attributes.rows,
        row.field = id ∨ ∃ old ∈ m.db.attributes.rows, old.field = row.field := by
  rcases bind_eq_ok.mp modified with ⟨attributes, isSet, isAfter⟩
  cases isAfter
  have set := follows_forLoop_setAttribute entry.nodup isSet
  refine ⟨_, rfl, ?_, ?_⟩
  · apply (set.1.trans Table.Follows.delete).congr
    intro row isRow
    rw [Option.bind_some]
    by_cases ofField : row.field = id
    · cases found : entry.attrs.lookup row.attr_type with
      | none =>
          have unlisted : row.attr_type ∉ entry.attrs.map Prod.fst := by
            intro listed
            rcases List.mem_map.mp listed with ⟨attr, isAttr, same⟩
            have different := List.lookup_eq_none_iff.mp found attr isAttr
            exact bne_iff_ne.mp different same.symm
          simp [ofField, withValue, found, unlisted]
      | some value =>
          have listed : row.attr_type ∈ entry.attrs.map Prod.fst := by
            rcases List.lookup_eq_some_iff.mp found with ⟨before, later, isAttrs, _⟩
            rw [isAttrs]
            simp
          simp [ofField, withValue, found, listed]
    · simp [ofField]
  · intro row isRow
    exact set.2 row (List.mem_of_mem_filter isRow)

end Attributes

/-! ## The entries of a request -/

theorem modifyColumns_eq_ok {old_field : Option Field}
    (modified : m.modifyColumns site handler field old_field = .ok after) :
    ∃ columns models,
      after = { m.setColumns handler.form columns with handlerModels := models } := by
  cases old_field with
  | none =>
      rw [Modification.modifyColumns] at modified
      split at modified
      next =>
        rcases bind_eq_ok.mp modified with ⟨model, _, modified⟩
        rcases bind_eq_ok.mp modified with ⟨added, _, isAfter⟩
        cases isAfter
        exact ⟨added.1, added.2, rfl⟩
      next =>
        rcases bind_eq_ok.mp modified with ⟨columns, _, isAfter⟩
        cases isAfter
        exact ⟨columns, m.handlerModels, rfl⟩
  | some old_field =>
      rw [Modification.modifyColumns] at modified
      split at modified
      next =>
        cases modified
        refine ⟨m.db.responses handler.form, m.handlerModels, ?_⟩
        simp [Modification.setColumns]
      next =>
        rcases bind_eq_ok.mp modified with ⟨columns, _, isAfter⟩
        cases isAfter
        exact ⟨columns, m.handlerModels, rfl⟩

theorem noteModel_eq_ok (noted : m.noteModel field = .ok after) :
    ∃ models, after = { m with link_models_list := models } := by
  rw [Modification.noteModel] at noted
  split at noted
  next =>
    rcases bind_eq_ok.mp noted with ⟨model, _, isAfter⟩
    cases isAfter
    split
    next => exact ⟨m.link_models_list, rfl⟩
    next => exact ⟨_, rfl⟩
  next =>
    cases noted
    exact ⟨m.link_models_list, rfl⟩

theorem exists_of_follows {Row : Type} [Keyed Row] {table later : Table Row}
    {become : Row → Row} (follows : table.Follows later fun row => some (become row)) {row : Row}
    (isRow : row ∈ table.rows) :
    become row ∈ later.rows ∧ Keyed.key (become row) = Keyed.key row := by
  have found := follows.get? (Keyed.key row) (table.below row isRow)
  rw [Table.get?_key isRow] at found
  exact Table.get?_eq_some.mp found

theorem effect_modifyField {curr_sect : ℕ} {entry : FieldEntry} (stand : AttributesStand m)
    (modified : m.modifyField site handler curr_sect entry = .ok after) :
    Effect handler.form [] [] [entry] m after := by
  rcases bind_eq_ok.mp modified with ⟨ofColumns, isColumns, modified⟩
  rcases bind_eq_ok.mp modified with ⟨noted, isNoted, modified⟩
  rcases bind_eq_ok.mp modified with ⟨ofAttributes, isAttributes, isAfter⟩
  cases isAfter
  rcases modifyColumns_eq_ok isColumns with ⟨columns, models, isColumns⟩
  subst isColumns
  rcases noteModel_eq_ok isNoted with ⟨linked, isNoted⟩
  subst isNoted
  rcases follows_modifyAttributes isAttributes with ⟨attributes, isAttributes, follows, belongs⟩
  subst isAttributes
  have onFields := @follows_getOrCreateAltered Field _ m.db.fields entry.parent_id entry.alter
    (entry.create handler.form curr_sect) (entry.key_create handler.form curr_sect) entry.key_alter
  constructor
  · intro row isRow
    cases belongs row isRow with
    | inl named => exact ⟨_, mem_getOrCreateAltered entry.key_alter, named.symm⟩
    | inr old =>
        rcases old with ⟨old, isOld, same⟩
        rcases stand old isOld with ⟨field, isField, ofField⟩
        have kept := exists_of_follows onFields isField
        exact ⟨_, kept.1, kept.2.trans (ofField.trans same)⟩
  · exact Table.Follows.refl _
  · exact Table.Follows.refl _
  · exact onFields
  · apply follows.congr
    intro row isRow
    rcases stand row isRow with ⟨field, isField, ofField⟩
    have named := @key_getOrCreateAltered Field _ m.db.fields entry.parent_id entry.alter
      (entry.create handler.form curr_sect) (entry.key_create handler.form curr_sect)
      entry.key_alter field isField
    rw [show Keyed.key field = row.field from ofField] at named
    simp only [List.foldlM_cons, List.foldlM_nil, bind_pure, FieldEntry.passAttribute]
    by_cases isNamed : entry.parent_id = some row.field
    · rw [if_pos isNamed]
      exact if_pos (named.mpr isNamed)
    · rw [if_neg isNamed]
      exact if_neg fun same => isNamed (named.mp same)
  · simp [Modification.setColumns]
  · simp [Modification.setColumns]
  · intro other different
    exact Function.update_of_ne different _ _

theorem flatMap_none {Item Entry : Type} (items : List Item) :
    items.flatMap (fun _ => ([] : List Entry)) = [] :=
  List.flatMap_eq_nil_iff.mpr fun _ _ => rfl

theorem effect_modifySection {curr_page : ℕ} {entry : SectionEntry} (stand : AttributesStand m)
    (modified : m.modifySection site handler curr_page entry = .ok after) :
    Effect handler.form [] [entry] entry.fields m after := by
  rw [Modification.modifySection] at modified
  have onSections := @follows_getOrCreateAltered Section _ m.db.sections entry.parent_id
    entry.alter (entry.create curr_page) (entry.key_create curr_page) entry.key_alter
  have named := fun sect isSect => @key_getOrCreateAltered Section _ m.db.sections
    entry.parent_id entry.alter (entry.create curr_page) (entry.key_create curr_page)
    entry.key_alter sect isSect
  generalize getOrCreateAltered m.db.sections entry.parent_id entry.alter
    (entry.create curr_page) (entry.key_create curr_page) = altered at modified onSections named
  have first : Effect handler.form [] [entry] [] m { m with
      db := { m.db with sections := altered.2.2 }
      sections := m.sections ++ [altered.1.id] } := by
    constructor
    · exact stand
    · exact Table.Follows.refl _
    · exact onSections
    · exact Table.Follows.refl _
    · exact Table.Follows.refl _
    · simp
    · intro sect isSect
      have isNamed : sect.id = altered.1.id ↔ entry.parent_id = some sect.id := named sect isSect
      simp [isNamed]
    · exact fun other _ => rfl
  have rest := Effect.of_forLoop (fun item m after stand modified =>
    @effect_modifyField site handler m after altered.1.id item stand modified) first.stand modified
  have both := first.trans rest
  simpa [flatMap_none] using both

theorem effect_modifyPage {entry : PageEntry} (stand : AttributesStand m)
    (modified : m.modifyPage site handler entry = .ok after) :
    Effect handler.form [entry] entry.sections (entry.sections.flatMap (·.fields)) m after := by
  rw [Modification.modifyPage] at modified
  have onPages := @follows_getOrCreateAltered Page _ m.db.pages entry.parent_id
    entry.alter (entry.create handler.form) (entry.key_create handler.form) entry.key_alter
  have named := fun page isPage => @key_getOrCreateAltered Page _ m.db.pages
    entry.parent_id entry.alter (entry.create handler.form) (entry.key_create handler.form)
    entry.key_alter page isPage
  generalize getOrCreateAltered m.db.pages entry.parent_id entry.alter
    (entry.create handler.form) (entry.key_create handler.form) = altered
    at modified onPages named
  have first : Effect handler.form [entry] [] [] m { m with
      db := { m.db with pages := altered.2.2 }
      pages := m.pages ++ [altered.1.id] } := by
    constructor
    · exact stand
    · exact onPages
    · exact Table.Follows.refl _
    · exact Table.Follows.refl _
    · exact Table.Follows.refl _
    · intro page isPage
      have isNamed : page.id = altered.1.id ↔ entry.parent_id = some page.id := named page isPage
      simp [isNamed]
    · simp
    · exact fun other _ => rfl
  have rest := Effect.of_forLoop (fun item m after stand modified =>
    @effect_modifySection site handler m after altered.1.id item stand modified)
    first.stand modified
  have both := first.trans rest
  simpa [flatMap_none] using both

theorem effect_modifyPages {metadata : Metadata} (stand : AttributesStand m)
    (modified : forLoop (Modification.modifyPage site handler) metadata.pages m = .ok after) :
    Effect handler.form metadata.pages metadata.sections metadata.fields m after := by
  have whole := Effect.of_forLoop (fun item m after stand modified =>
    @effect_modifyPage site handler m after item stand modified) stand modified
  rw [Metadata.fields, Metadata.sections, List.flatMap_assoc]
  simpa using whole

/-! ## Isolation -/

/-- Rows belong to stored rows: sections to pages, questions to sections, attributes to
questions. -/
structure Integrity (db : Database) : Prop where
  page : ∀ sect ∈ db.sections.rows, ∃ page ∈ db.pages.rows, page.id = sect.page
  sect : ∀ field ∈ db.fields.rows, ∃ sect ∈ db.sections.rows, sect.id = field.sectionId
  field : ∀ row ∈ db.attributes.rows, ∃ field ∈ db.fields.rows, field.id = row.field

/-- No page, section, question or attribute of another form than a given one, and no column of
its response table, is changed or removed. -/
structure Isolated (form : ℕ) (db after : Database) : Prop where
  page : ∀ page ∈ db.pages.rows, page.form ≠ form → page ∈ after.pages.rows
  sect : ∀ sect ∈ db.sections.rows, ∀ page ∈ db.pages.rows, page.id = sect.page →
    page.form ≠ form → sect ∈ after.sections.rows
  field : ∀ field ∈ db.fields.rows, field.form ≠ form → field ∈ after.fields.rows
  attributes : ∀ row ∈ db.attributes.rows, ∀ field ∈ db.fields.rows, field.id = row.field →
    field.form ≠ form → row ∈ after.attributes.rows
  columns : ∀ other, other ≠ form → after.responses other = db.responses other

/-- The last of some entries that names an id, if there is one. -/
def lastNaming {Entry : Type} (parent_id : Entry → Option ℕ) (entries : List Entry) (id : ℕ) :
    Option Entry :=
  (entries.filter fun entry => parent_id entry = some id).getLast?

/-- What a request says of the objects of other forms is what is stored: the last entry for each
of them repeats it, no entry leaves out an attribute, and no section of the form that the request
leaves out has a question of another form in it. -/
structure KeepsOthers (form : ℕ) (db : Database) (metadata : Metadata) : Prop where
  page : ∀ page ∈ db.pages.rows, page.form ≠ form →
    ∀ entry ∈ lastNaming PageEntry.parent_id metadata.pages page.id, entry.alter page = page
  sect : ∀ sect ∈ db.sections.rows, ∀ page ∈ db.pages.rows, page.id = sect.page →
    page.form ≠ form →
    ∀ entry ∈ lastNaming SectionEntry.parent_id metadata.sections sect.id, entry.alter sect = sect
  field : ∀ field ∈ db.fields.rows, field.form ≠ form →
    ∀ entry ∈ lastNaming FieldEntry.parent_id metadata.fields field.id, entry.alter field = field
  placed : ∀ field ∈ db.fields.rows, field.form ≠ form → ∀ sect ∈ db.sections.rows,
    sect.id = field.sectionId → ∀ page ∈ db.pages.rows, page.id = sect.page → page.form = form →
      (∃ entry ∈ metadata.sections, entry.parent_id = some sect.id) ∧
        ∃ entry ∈ metadata.pages, entry.parent_id = some page.id
  listed : ∀ row ∈ db.attributes.rows, ∀ field ∈ db.fields.rows, field.id = row.field →
    field.form ≠ form → ∀ entry ∈ metadata.fields, entry.parent_id = some field.id →
      row.attr_type ∈ entry.attrs.map Prod.fst
  attributes : ∀ row ∈ db.attributes.rows, ∀ field ∈ db.fields.rows, field.id = row.field →
    field.form ≠ form → ∀ entry ∈ lastNaming FieldEntry.parent_id metadata.fields field.id,
      (row.attr_type, row.value) ∈ entry.attrs

/-! ### The last entry decides -/

theorem lastNaming_concat {Entry : Type} {parent_id : Entry → Option ℕ} {entries : List Entry}
    {entry : Entry} {id : ℕ} : lastNaming parent_id (entries ++ [entry]) id =
      if parent_id entry = some id then some entry else lastNaming parent_id entries id := by
  rw [lastNaming, lastNaming, List.filter_append]
  split
  next named =>
    rw [List.filter_cons_of_pos (by simpa using named), List.filter_nil, List.getLast?_concat]
  next other =>
    rw [List.filter_cons_of_neg (by simpa using other), List.filter_nil, List.append_nil]

theorem mem_of_lastNaming {Entry : Type} {parent_id : Entry → Option ℕ} {entries : List Entry}
    {entry : Entry} {id : ℕ} (isLast : entry ∈ lastNaming parent_id entries id) :
    entry ∈ entries ∧ parent_id entry = some id := by
  have member := List.mem_filter.mp (List.mem_of_getLast? isLast)
  exact ⟨member.1, of_decide_eq_true member.2⟩

theorem foldl_eq_last {Row Entry : Type} (parent_id : Entry → Option ℕ) (key : Row → ℕ)
    (alter : Entry → Row → Row) (keeps : ∀ entry row, key (alter entry row) = key row)
    (overwrites : ∀ entry other row, alter entry (alter other row) = alter entry row)
    (entries : List Entry) (row : Row) :
    entries.foldl (fun row entry => if parent_id entry = some (key row) then alter entry row
      else row) row =
        (lastNaming parent_id entries (key row)).elim row fun entry => alter entry row := by
  induction entries using List.reverseRecOn with
  | nil => rfl
  | append_singleton entries entry ih =>
      rw [List.foldl_append, ih, lastNaming_concat]
      by_cases named : parent_id entry = some (key row)
      · cases lastNaming parent_id entries (key row) with
        | none => simp [named]
        | some last => simp [named, keeps, overwrites]
      · cases lastNaming parent_id entries (key row) with
        | none => simp [named]
        | some last => simp [named, keeps]

theorem elim_last_eq_iff {Row Entry : Type} {alter : Entry → Row → Row} {last : Option Entry}
    {row : Row} : (last.elim row fun entry => alter entry row) = row ↔
      ∀ entry ∈ last, alter entry row = row := by
  cases last with
  | none => simp
  | some entry => simp

theorem foldl_pass_page_eq_iff : pages.foldl PageEntry.pass page = page ↔
    ∀ entry ∈ lastNaming PageEntry.parent_id pages page.id, entry.alter page = page := by
  rw [← elim_last_eq_iff]
  exact iff_of_eq (congrArg (· = page) (foldl_eq_last PageEntry.parent_id Page.id PageEntry.alter
    (fun _ _ => rfl) (fun _ _ _ => rfl) pages page))

theorem foldl_pass_section_eq_iff : sections.foldl SectionEntry.pass sect = sect ↔
    ∀ entry ∈ lastNaming SectionEntry.parent_id sections sect.id, entry.alter sect = sect := by
  rw [← elim_last_eq_iff]
  exact iff_of_eq (congrArg (· = sect) (foldl_eq_last SectionEntry.parent_id Section.id
    SectionEntry.alter (fun _ _ => rfl) (fun _ _ _ => rfl) sections sect))

theorem foldl_pass_field_eq_iff : fields.foldl FieldEntry.pass field = field ↔
    ∀ entry ∈ lastNaming FieldEntry.parent_id fields field.id, entry.alter field = field := by
  rw [← elim_last_eq_iff]
  exact iff_of_eq (congrArg (· = field) (foldl_eq_last FieldEntry.parent_id Field.id
    FieldEntry.alter (fun _ _ => rfl) (fun _ _ _ => rfl) fields field))

theorem lookup_eq_some_iff {entry : FieldEntry} {type value : String} :
    entry.attrs.lookup type = some value ↔ (type, value) ∈ entry.attrs := by
  have distinct := entry.nodup
  generalize entry.attrs = attrs at distinct ⊢
  induction attrs with
  | nil => simp
  | cons attr attrs ih =>
      rw [List.map_cons, List.nodup_cons] at distinct
      rw [List.lookup_cons, List.mem_cons]
      cases same : type == attr.1 with
      | true =>
          rw [beq_iff_eq] at same
          rw [Option.some_inj]
          constructor
          · intro isValue
            exact .inl (Prod.ext same isValue.symm)
          · intro member
            cases member with
            | inl first => exact (congrArg Prod.snd first).symm
            | inr later =>
                rw [same] at later
                exact absurd (List.mem_map_of_mem later) distinct.1
      | false =>
          rw [beq_eq_false_iff_ne] at same
          have rest : attrs.lookup type = some value ↔ (type, value) ∈ attrs := ih distinct.2
          rw [rest]
          constructor
          · exact .inr
          · intro member
            cases member with
            | inl first => exact absurd (congrArg Prod.fst first) same
            | inr later => exact later

theorem withValue_eq_iff {entry : FieldEntry}
    (listed : row.attr_type ∈ entry.attrs.map Prod.fst) :
    withValue entry.attrs row = row ↔ (row.attr_type, row.value) ∈ entry.attrs := by
  rcases List.mem_map.mp listed with ⟨attr, isAttr, same⟩
  have found : entry.attrs.lookup row.attr_type = some attr.2 :=
    lookup_eq_some_iff.mpr (same ▸ isAttr)
  rw [← lookup_eq_some_iff, withValue, found, Option.some_inj]
  constructor
  · intro equal
    exact congrArg Attribute.value equal
  · intro equal
    rw [equal]

theorem exists_withValue (attrs : List (String × String)) (row : Attribute) :
    ∃ value, withValue attrs row = { row with value := value } := by
  rw [withValue]
  cases attrs.lookup row.attr_type with
  | none => exact ⟨row.value, rfl⟩
  | some value => exact ⟨value, rfl⟩

theorem passAttribute_eq {entry : FieldEntry} {value : String} :
    FieldEntry.passAttribute { row with value := value } entry =
      if entry.parent_id = some row.field then
        if row.attr_type ∈ entry.attrs.map Prod.fst then some (withValue entry.attrs row) else none
      else some { row with value := value } := by
  rw [FieldEntry.passAttribute, withValue]
  congr 1
  cases found : entry.attrs.lookup row.attr_type with
  | none =>
      rw [if_neg]
      · simp
      · intro listed
        rcases List.mem_map.mp listed with ⟨attr, isAttr, same⟩
        exact bne_iff_ne.mp (List.lookup_eq_none_iff.mp found attr isAttr) same.symm
  | some value =>
      rw [if_pos (List.mem_map_of_mem (lookup_eq_some_iff.mp found))]
      simp

theorem foldlM_passAttribute : fields.foldlM FieldEntry.passAttribute row =
    if ∀ entry ∈ fields, entry.parent_id = some row.field →
        row.attr_type ∈ entry.attrs.map Prod.fst then
      some ((lastNaming FieldEntry.parent_id fields row.field).elim row fun entry =>
        withValue entry.attrs row)
    else none := by
  induction fields using List.reverseRecOn with
  | nil => simp [lastNaming]
  | append_singleton fields entry ih =>
      rw [List.foldlM_append, ih, lastNaming_concat]
      simp only [List.foldlM_cons, List.foldlM_nil, bind_pure, List.mem_append,
        List.mem_singleton, or_imp, forall_and, forall_eq]
      have changed : ∃ value, ((lastNaming FieldEntry.parent_id fields row.field).elim row
          fun entry => withValue entry.attrs row) = { row with value := value } := by
        cases lastNaming FieldEntry.parent_id fields row.field with
        | none => exact ⟨row.value, rfl⟩
        | some last => exact exists_withValue last.attrs row
      rcases changed with ⟨value, changed⟩
      by_cases all : ∀ entry ∈ fields, entry.parent_id = some row.field →
          row.attr_type ∈ entry.attrs.map Prod.fst
      · rw [if_pos all, changed, Option.bind_eq_bind, Option.bind_some, passAttribute_eq]
        simp only [and_iff_right all]
        by_cases named : entry.parent_id = some row.field
        · simp only [named, if_true, true_imp_iff, Option.elim_some]
        · simp only [named, if_false, false_imp_iff, if_true, changed]
      · rw [if_neg all, if_neg fun both => all both.1]
        rfl

theorem foldlM_passAttribute_eq_some_iff : fields.foldlM FieldEntry.passAttribute row = some row ↔
    (∀ entry ∈ fields, entry.parent_id = some row.field →
      row.attr_type ∈ entry.attrs.map Prod.fst) ∧
    ∀ entry ∈ lastNaming FieldEntry.parent_id fields row.field,
      (row.attr_type, row.value) ∈ entry.attrs := by
  rw [foldlM_passAttribute]
  split
  next listed =>
    have kept := @elim_last_eq_iff Attribute FieldEntry
      (fun entry row => withValue entry.attrs row)
      (lastNaming FieldEntry.parent_id fields row.field) row
    rw [Option.some_inj, and_iff_right listed, kept]
    apply forall₂_congr
    intro entry isLast
    have member := mem_of_lastNaming isLast
    exact withValue_eq_iff (listed entry member.1 member.2)
  next unlisted => exact iff_of_false (fun absent => nomatch absent) fun both => unlisted both.1

/-! ### What is left out -/

/-- A question's section, if it stands on a page of a form, is in a request, and so is that
page. -/
def Placed (form : ℕ) (m : Modification) (sectionId : ℕ) : Prop :=
  ∀ sect ∈ m.db.sections.rows, sect.id = sectionId → ∀ page ∈ m.db.pages.rows,
    page.id = sect.page → page.form = form → sect.id ∈ m.sections ∧ page.id ∈ m.pages

theorem placed_iff {sectionId : ℕ} : Placed form m sectionId ↔
    (∀ sect ∈ m.db.sections.rows, sect.id = sectionId → sect.id ∉ m.sections →
      ∀ page ∈ m.db.pages.rows, page.id = sect.page → ¬ page.form = form) ∧
    ∀ sect, (sect ∈ m.db.sections.rows ∧ (sect.id ∉ m.sections →
      ∀ page ∈ m.db.pages.rows, page.id = sect.page → ¬ page.form = form)) →
      sect.id = sectionId → ∀ page ∈ m.db.pages.rows, page.id = sect.page →
        page.form = form → ¬ page.id ∉ m.pages := by
  constructor
  · intro placed
    constructor
    · intro sect isSect same leftOut page isPage onPage ofForm
      exact leftOut (placed sect isSect same page isPage onPage ofForm).1
    · intro sect stays same page isPage onPage ofForm
      exact not_not.mpr (placed sect stays.1 same page isPage onPage ofForm).2
  · intro both sect isSect same page isPage onPage ofForm
    have inRequest : sect.id ∈ m.sections :=
      not_not.mp fun leftOut => both.1 sect isSect same leftOut page isPage onPage ofForm
    refine ⟨inRequest, not_not.mp ?_⟩
    exact both.2 sect ⟨isSect, fun leftOut => absurd inRequest leftOut⟩ same page isPage onPage
      ofForm

section LeftOut

variable {db : Database}

theorem deleteLeftOut_eq_ok (deleted : deleteLeftOut handler m = .ok db) :
    ∃ columns, db = (((m.setColumns handler.form columns).db.deleteFields fun field =>
      field.form = handler.form ∧ field.id ∉ m.fields).deleteSections fun sect =>
        sect.id ∉ m.sections ∧
          m.db.pages.rows.any fun page =>
            page.id = sect.page && page.form = handler.form).deletePages
            fun page => page.form = handler.form ∧ page.id ∉ m.pages := by
  rcases bind_eq_ok.mp deleted with ⟨dropped, _, isDb⟩
  cases isDb
  exact ⟨dropped.1, rfl⟩

theorem mem_pages_deleteLeftOut (deleted : deleteLeftOut handler m = .ok db)
    (other : page.form ≠ handler.form) : page ∈ db.pages.rows ↔ page ∈ m.db.pages.rows := by
  rcases deleteLeftOut_eq_ok deleted with ⟨columns, rfl⟩
  simp [Database.deletePages, Database.deleteSections, Database.deleteFields,
    Modification.setColumns, other]

theorem mem_sections_deleteLeftOut (deleted : deleteLeftOut handler m = .ok db)
    (isPage : page ∈ m.db.pages.rows) (onPage : page.id = sect.page)
    (other : page.form ≠ handler.form) : sect ∈ db.sections.rows ↔ sect ∈ m.db.sections.rows := by
  have unique : ∀ further ∈ m.db.pages.rows, further.id = sect.page →
      further.form ≠ handler.form := by
    intro further isFurther same
    rw [m.db.pages.eq_of_key_eq isFurther isPage (same.trans onPage.symm)]
    exact other
  rcases deleteLeftOut_eq_ok deleted with ⟨columns, rfl⟩
  simp only [Database.deletePages, Database.deleteSections, Database.deleteFields,
    Modification.setColumns, Table.rows_delete, List.mem_filter, Bool.not_eq_true',
    List.any_eq_false, decide_eq_false_iff_not, List.any_eq_true, Bool.and_eq_true,
    decide_eq_true_eq, not_and, not_exists]
  constructor
  · exact fun both => both.1.1
  · intro isSect
    refine ⟨⟨isSect, fun _ further isFurther same => ?_⟩, fun further isFurther same ofForm => ?_⟩
    · exact unique further isFurther same
    · exact absurd ofForm (unique further isFurther same)

theorem mem_fields_deleteLeftOut (deleted : deleteLeftOut handler m = .ok db)
    (other : field.form ≠ handler.form) : field ∈ db.fields.rows ↔
      field ∈ m.db.fields.rows ∧ Placed handler.form m field.sectionId := by
  rcases deleteLeftOut_eq_ok deleted with ⟨columns, rfl⟩
  simp only [Database.deletePages, Database.deleteSections, Database.deleteFields,
    Modification.setColumns, Table.rows_delete, List.mem_filter, Bool.not_eq_true',
    List.any_eq_false, decide_eq_false_iff_not, List.any_eq_true, Bool.and_eq_true,
    decide_eq_true_eq, not_and, not_exists, other]
  rw [placed_iff]
  constructor
  · exact fun all => ⟨all.1.1.1, all.1.2, all.2⟩
  · exact fun all => ⟨⟨⟨all.1, fun absent => absurd absent not_false⟩, all.2.1⟩, all.2.2⟩

theorem mem_attributes_deleteLeftOut (deleted : deleteLeftOut handler m = .ok db)
    (isField : field ∈ m.db.fields.rows) (ofField : field.id = row.field)
    (other : field.form ≠ handler.form) : row ∈ db.attributes.rows ↔
      row ∈ m.db.attributes.rows ∧ Placed handler.form m field.sectionId := by
  rcases deleteLeftOut_eq_ok deleted with ⟨columns, rfl⟩
  simp only [Database.deletePages, Database.deleteSections, Database.deleteFields,
    Modification.setColumns, Table.rows_delete, List.mem_filter, Bool.not_eq_true',
    List.any_eq_false, decide_eq_false_iff_not, List.any_eq_true, Bool.and_eq_true,
    decide_eq_true_eq, not_and, not_exists]
  have unique : ∀ further ∈ m.db.fields.rows, further.id = row.field → further = field :=
    fun further isFurther same =>
      m.db.fields.eq_of_key_eq isFurther isField (same.trans ofField.symm)
  rw [placed_iff]
  constructor
  · intro all
    have first := all.1.2 field ⟨isField, fun ofForm => absurd ofForm other⟩ ofField
    exact ⟨all.1.1.1, first,
      all.2 field ⟨⟨isField, fun ofForm => absurd ofForm other⟩, first⟩ ofField⟩
  · intro all
    refine ⟨⟨⟨all.1, fun further isFurther same ofForm => ?_⟩, fun further isFurther same => ?_⟩,
      fun further isFurther same => ?_⟩
    · rw [unique further isFurther same] at ofForm
      exact absurd ofForm other
    · rw [unique further isFurther.1 same]
      exact all.2.1
    · rw [unique further isFurther.1.1 same]
      exact all.2.2

end LeftOut

/-! ### A whole request -/

/-- What an accepted request has done: the state after its entries, before what it leaves out is
deleted. -/
structure Accepted (db after : Database) (metadata : Metadata) (handler : Handler)
    (finish : Modification) : Prop where
  isForm : handler.form = metadata.form_id
  onPages : db.pages.Follows finish.db.pages fun page =>
    some (metadata.pages.foldl PageEntry.pass page)
  onSections : db.sections.Follows finish.db.sections fun sect =>
    some (metadata.sections.foldl SectionEntry.pass sect)
  onFields : db.fields.Follows finish.db.fields fun field =>
    some (metadata.fields.foldl FieldEntry.pass field)
  onAttributes : db.attributes.Follows finish.db.attributes fun row =>
    metadata.fields.foldlM FieldEntry.passAttribute row
  namedPages : ∀ page ∈ db.pages.rows, page.id ∈ finish.pages ↔
    ∃ entry ∈ metadata.pages, entry.parent_id = some page.id
  namedSections : ∀ sect ∈ db.sections.rows, sect.id ∈ finish.sections ↔
    ∃ entry ∈ metadata.sections, entry.parent_id = some sect.id
  onResponses : ∀ other, other ≠ metadata.form_id → after.responses other = db.responses other
  deleted : deleteLeftOut handler finish = .ok after

theorem exists_accepted {db after : Database} {metadata : Metadata} (integrity : Integrity db)
    (accepted : onModify site db metadata = .ok after) :
    ∃ handler finish, Accepted db after metadata handler finish := by
  rw [onModify] at accepted
  split at accepted
  next => cases accepted
  next form found =>
    have isForm : form.id = metadata.form_id := Table.key_of_get? found
    rcases bind_eq_ok.mp accepted with ⟨title, _, accepted⟩
    rcases andThen_eq_ok.mp accepted with ⟨_, accepted⟩
    rcases andThen_eq_ok.mp accepted with ⟨_, accepted⟩
    rcases bind_eq_ok.mp accepted with ⟨columns, _, accepted⟩
    rcases bind_eq_ok.mp accepted with ⟨finish, isFinish, deleted⟩
    have effect := effect_modifyPages (by exact integrity.field) isFinish
    rcases deleteLeftOut_eq_ok deleted with ⟨kept, isAfter⟩
    refine ⟨_, finish, isForm, effect.onPages, effect.onSections, effect.onFields,
      effect.onAttributes, ?_, ?_, ?_, deleted⟩
    · intro page isPage
      rw [effect.namedPages page isPage]
      simp [Modification.setColumns]
    · intro sect isSect
      rw [effect.namedSections sect isSect]
      simp [Modification.setColumns]
    · intro other different
      have notForm : other ≠ form.id := isForm ▸ different
      calc after.responses other = finish.db.responses other := by
            rw [isAfter]
            exact Function.update_of_ne notForm _ _
        _ = _ := effect.onResponses other notForm
        _ = db.responses other := Function.update_of_ne notForm _ _

namespace Accepted

variable {db later : Database} {metadata : Metadata} {finish : Modification}

theorem mem_pages (accepted : Accepted db later metadata handler finish)
    (isPage : page ∈ db.pages.rows) (other : page.form ≠ metadata.form_id) :
    page ∈ later.pages.rows ↔
      ∀ entry ∈ lastNaming PageEntry.parent_id metadata.pages page.id, entry.alter page = page := by
  rw [mem_pages_deleteLeftOut accepted.deleted (accepted.isForm ▸ other),
    accepted.onPages.mem_iff isPage, Option.some_inj]
  exact foldl_pass_page_eq_iff

theorem mem_sections (accepted : Accepted db later metadata handler finish)
    (isSect : sect ∈ db.sections.rows) (isPage : page ∈ db.pages.rows)
    (onPage : page.id = sect.page) (other : page.form ≠ metadata.form_id) :
    sect ∈ later.sections.rows ↔
      ∀ entry ∈ lastNaming SectionEntry.parent_id metadata.sections sect.id,
        entry.alter sect = sect := by
  have kept := exists_of_follows accepted.onPages isPage
  have notForm : (metadata.pages.foldl PageEntry.pass page).form ≠ handler.form := by
    rw [foldl_pass_page.2, accepted.isForm]
    exact other
  rw [mem_sections_deleteLeftOut accepted.deleted kept.1 (kept.2.trans onPage) notForm,
    accepted.onSections.mem_iff isSect, Option.some_inj]
  exact foldl_pass_section_eq_iff

theorem placed_iff (accepted : Accepted db later metadata handler finish)
    (integrity : Integrity db) (isField : field ∈ db.fields.rows) :
    Placed handler.form finish field.sectionId ↔ ∀ sect ∈ db.sections.rows,
      sect.id = field.sectionId → ∀ page ∈ db.pages.rows, page.id = sect.page →
        page.form = metadata.form_id →
          (∃ entry ∈ metadata.sections, entry.parent_id = some sect.id) ∧
            ∃ entry ∈ metadata.pages, entry.parent_id = some page.id := by
  constructor
  · intro placed sect isSect same page isPage onPage ofForm
    have keptSect := exists_of_follows accepted.onSections isSect
    have keptPage := exists_of_follows accepted.onPages isPage
    have named := placed _ keptSect.1 (keptSect.2.trans same) _ keptPage.1
      (keptPage.2.trans (onPage.trans foldl_pass_section.2.symm))
      (foldl_pass_page.2.trans (ofForm.trans accepted.isForm.symm))
    rw [foldl_pass_section.1, foldl_pass_page.1] at named
    exact ⟨(accepted.namedSections sect isSect).mp named.1,
      (accepted.namedPages page isPage).mp named.2⟩
  · intro named later isLater same laterPage isLaterPage onLaterPage ofForm
    rcases integrity.sect field isField with ⟨sect, isSect, ofField⟩
    rcases integrity.page sect isSect with ⟨page, isPage, onPage⟩
    have keptSect := exists_of_follows accepted.onSections isSect
    have keptPage := exists_of_follows accepted.onPages isPage
    have isSame : later = metadata.sections.foldl SectionEntry.pass sect :=
      finish.db.sections.eq_of_key_eq isLater keptSect.1
        (same.trans (ofField.symm.trans keptSect.2.symm))
    rw [isSame, foldl_pass_section.2] at onLaterPage
    have isSamePage : laterPage = metadata.pages.foldl PageEntry.pass page :=
      finish.db.pages.eq_of_key_eq isLaterPage keptPage.1
        (onLaterPage.trans (onPage.symm.trans keptPage.2.symm))
    rw [isSamePage, foldl_pass_page.2, accepted.isForm] at ofForm
    have both := named sect isSect ofField page isPage onPage ofForm
    rw [isSame, isSamePage, foldl_pass_section.1, foldl_pass_page.1]
    exact ⟨(accepted.namedSections sect isSect).mpr both.1,
      (accepted.namedPages page isPage).mpr both.2⟩

theorem mem_fields (accepted : Accepted db later metadata handler finish)
    (isField : field ∈ db.fields.rows) (other : field.form ≠ metadata.form_id) :
    field ∈ later.fields.rows ↔
      (∀ entry ∈ lastNaming FieldEntry.parent_id metadata.fields field.id,
        entry.alter field = field) ∧ Placed handler.form finish field.sectionId := by
  rw [mem_fields_deleteLeftOut accepted.deleted (accepted.isForm ▸ other),
    accepted.onFields.mem_iff isField, Option.some_inj, foldl_pass_field_eq_iff]

theorem mem_attributes (accepted : Accepted db later metadata handler finish)
    (isRow : row ∈ db.attributes.rows) (isField : field ∈ db.fields.rows)
    (ofField : field.id = row.field) (other : field.form ≠ metadata.form_id) :
    row ∈ later.attributes.rows ↔
      ((∀ entry ∈ metadata.fields, entry.parent_id = some row.field →
        row.attr_type ∈ entry.attrs.map Prod.fst) ∧
      ∀ entry ∈ lastNaming FieldEntry.parent_id metadata.fields row.field,
        (row.attr_type, row.value) ∈ entry.attrs) ∧
      Placed handler.form finish field.sectionId := by
  have kept := exists_of_follows accepted.onFields isField
  have notForm : (metadata.fields.foldl FieldEntry.pass field).form ≠ handler.form := by
    rw [foldl_pass_field.2.1, accepted.isForm]
    exact other
  rw [mem_attributes_deleteLeftOut accepted.deleted kept.1 (kept.2.trans ofField) notForm,
    accepted.onAttributes.mem_iff isRow, foldlM_passAttribute_eq_some_iff,
    foldl_pass_field.2.2]

end Accepted

/-- A request that is accepted leaves the objects of other forms alone exactly if it says nothing
new of them. -/
theorem isolated_iff (site : Site) (db after : Database) (metadata : Metadata)
    (integrity : Integrity db) (accepted : onModify site db metadata = .ok after) :
    Isolated metadata.form_id db after ↔ KeepsOthers metadata.form_id db metadata := by
  rcases exists_accepted integrity accepted with ⟨handler, finish, accepted⟩
  constructor
  · intro isolated
    constructor
    · intro page isPage other
      exact (accepted.mem_pages isPage other).mp (isolated.page page isPage other)
    · intro sect isSect page isPage onPage other
      exact (accepted.mem_sections isSect isPage onPage other).mp
        (isolated.sect sect isSect page isPage onPage other)
    · intro field isField other
      exact ((accepted.mem_fields isField other).mp (isolated.field field isField other)).1
    · intro field isField other
      exact (accepted.placed_iff integrity isField).mp
        ((accepted.mem_fields isField other).mp (isolated.field field isField other)).2
    · intro row isRow field isField ofField other
      rw [ofField]
      exact ((accepted.mem_attributes isRow isField ofField other).mp
        (isolated.attributes row isRow field isField ofField other)).1.1
    · intro row isRow field isField ofField other
      rw [ofField]
      exact ((accepted.mem_attributes isRow isField ofField other).mp
        (isolated.attributes row isRow field isField ofField other)).1.2
  · intro keeps
    have placed := fun field isField other => (@Accepted.placed_iff handler field db after metadata
      finish accepted integrity isField).mpr (keeps.placed field isField other)
    constructor
    · intro page isPage other
      exact (accepted.mem_pages isPage other).mpr (keeps.page page isPage other)
    · intro sect isSect page isPage onPage other
      exact (accepted.mem_sections isSect isPage onPage other).mpr
        (keeps.sect sect isSect page isPage onPage other)
    · intro field isField other
      exact (accepted.mem_fields isField other).mpr
        ⟨keeps.field field isField other, placed field isField other⟩
    · intro row isRow field isField ofField other
      have listed := keeps.listed row isRow field isField ofField other
      have last := keeps.attributes row isRow field isField ofField other
      rw [ofField] at listed last
      exact (accepted.mem_attributes isRow isField ofField other).mpr
        ⟨⟨listed, last⟩, placed field isField other⟩
    · exact accepted.onResponses

/-! ## Two forms -/

theorem onModify_eq_ok_modify {db : Database} {metadata : Metadata}
    (accepted : (onModify site db metadata).isOk = true) :
    onModify site db metadata = .ok (modify site db metadata) := by
  rcases exists_of_isOk accepted with ⟨after, isAfter⟩
  rw [modify, isAfter]

/-- A site on which every cast succeeds. -/
def plainSite : Site := ⟨fun char => char = ' ', fun _ _ _ => true, fun _ _ => .ok ()⟩

def twoForms : Database where
  forms := ⟨[⟨1, ['A'], "", "", -1, true, "", "", ""⟩, ⟨2, ['B'], "", "", -1, true, "", "", ""⟩], 3,
    by decide, by decide⟩
  pages := ⟨[⟨1, 1, 0⟩, ⟨2, 2, 0⟩], 3, by decide, by decide⟩
  sections := ⟨[⟨1, 1, "", "", 0⟩, ⟨2, 2, "", "", 0⟩], 3, by decide, by decide⟩
  fields := ⟨[⟨1, 1, 1, "textField", 0, "Name", "", true⟩,
    ⟨2, 2, 2, "textField", 0, "School", "", true⟩], 3, by decide, by decide⟩
  attributes := ⟨[], 1, by decide, by decide⟩
  responses form := [⟨.id, .autoField⟩, ⟨.question form, .charField 30⟩]

theorem integrity_twoForms : Integrity twoForms where
  page := by decide
  sect := by decide
  field := by decide

/-- A request that repeats the first form, with further pages. -/
def withPages (further : List PageEntry) : Metadata where
  form_id := 1
  title := ['A']
  desc := ""
  link_type := ""
  link_id := -1
  anonymous := true
  perms := ""
  success_message := ""
  success_url := ""
  link_module := none
  pages := ⟨some 1, 0, [⟨some 1, "", "", 0,
    [⟨some 1, "textField", 0, "Name", "", true, [], List.nodup_nil⟩]⟩]⟩ :: further

/-- A new page for the first form. -/
theorem isolated_iff_twoForms :
    Isolated 1 twoForms (modify plainSite twoForms (withPages [⟨none, 1, []⟩])) ↔
      KeepsOthers 1 twoForms (withPages [⟨none, 1, []⟩]) :=
  isolated_iff plainSite twoForms _ (withPages [⟨none, 1, []⟩]) integrity_twoForms
    (onModify_eq_ok_modify (by decide))

/-- A request for the first form that names the page of the second moves that page. -/
theorem twoForms_not_isolated :
    (onModify plainSite twoForms (withPages [⟨some 2, 5, []⟩])).isOk = true ∧
      ¬ Isolated 1 twoForms (modify plainSite twoForms (withPages [⟨some 2, 5, []⟩])) := by
  refine ⟨by decide, fun isolated => ?_⟩
  have kept := isolated.page ⟨2, 2, 0⟩ (by decide) (by decide)
  exact absurd kept (by decide)

end EspWebsite.CustomForms
