import EspWebsite.Library.Python
import EspWebsite.Library.Runs
import EspWebsite.Library.Tables

/-!
# Offers of volunteers

`VolunteerOfferForm.save` of `program/modules/forms/volunteer.py`.  The user name of a new
account, its group and the mail to it are left out.
-/

namespace EspWebsite.Volunteers

open Python Runs Tables

structure ESPUser where
  id : ℕ
  firstName : List Char
  lastName : List Char
  email : String
  deriving DecidableEq

/-- A row of `VolunteerRequest`, with the program of its timeslot. -/
structure VolunteerRequest where
  id : ℕ
  program : ℕ
  timeslotProgram : ℕ
  deriving DecidableEq

structure VolunteerOffer where
  id : ℕ
  request : ℕ
  confirmed : Bool
  user : Option ℕ
  email : String
  phone : String
  name : List Char
  shirtSize : Option String
  shirtType : Option String
  comments : Option String
  deriving DecidableEq

instance : Keyed ESPUser := ⟨ESPUser.id⟩
instance : Keyed VolunteerRequest := ⟨VolunteerRequest.id⟩
instance : Keyed VolunteerOffer := ⟨VolunteerOffer.id⟩

structure Database where
  users : Table ESPUser
  requests : Table VolunteerRequest
  offers : Table VolunteerOffer

/-- The cleaned data of a form for a program.  A hidden user of zero counts as none, and fields that
the form does not have are none. -/
structure VolunteerOfferForm where
  program : ℕ
  user : Option ℕ
  name : List Char
  email : String
  phone : String
  requests : List ℕ
  clearRequests : Bool
  confirm : Bool
  shirtSize : Option String
  shirtType : Option String
  comments : Option String

def VolunteerOffer.contact (offer : VolunteerOffer) : String × String × List Char :=
  (offer.email, offer.phone, offer.name)

/-- `getVolunteerRequests`, whose ids are the choices of the form. -/
def Database.volunteerRequests (db : Database) (program : ℕ) : List VolunteerRequest :=
  db.requests.rows.filter fun request => request.timeslotProgram = program

/-- The timeslots of requests are of their programs. -/
def Database.Agrees (db : Database) : Prop :=
  ∀ request ∈ db.requests.rows, request.timeslotProgram = request.program

namespace VolunteerOfferForm

variable (form : VolunteerOfferForm)

def contact : String × String × List Char := (form.email, form.phone, form.name)

/-- `name.split()`. -/
def words : List (List Char) := (form.name.splitOnP Char.isWhitespace).filter (· ≠ [])

def firstName : List Char := form.words.headD []

def lastName : List Char := [' '].intercalate form.words.tail

/-- `existing_users[0]`, the newest account with the name and the email. -/
def existingUser (db : Database) : Option ESPUser :=
  (db.users.rows.filter fun user => user.firstName = form.firstName ∧
    user.lastName = form.lastName ∧ user.email = form.email).getLast?

def newUser (id : ℕ) : ESPUser :=
  { id, firstName := form.firstName, lastName := form.lastName, email := form.email }

theorem key_newUser (id : ℕ) : Keyed.key (form.newUser id) = id := rfl

/-- The account of the volunteer, which is created if there is none. -/
def account (db : Database) : ℕ × Table ESPUser :=
  match form.user with
  | some id => (id, db.users)
  | none =>
      match form.existingUser db with
      | some user => (user.id, db.users)
      | none => (db.users.next, db.users.create form.newUser form.key_newUser)

def newOffer (user request id : ℕ) : VolunteerOffer :=
  { id, request, confirmed := form.confirm, user := some user, email := form.email,
    phone := form.phone, name := form.name, shirtSize := form.shirtSize,
    shirtType := form.shirtType, comments := form.comments }

theorem key_newOffer (user request id : ℕ) : Keyed.key (form.newOffer user request id) = id := rfl

/-- The loop over the selected requests. -/
def createOffers (user : ℕ) :
    List ℕ → Table VolunteerOffer → List VolunteerOffer × Table VolunteerOffer
  | [], offers => ([], offers)
  | request :: rest, offers =>
      let (offerList, after) := createOffers user rest
        (offers.create (form.newOffer user request) (form.key_newOffer user request))
      (form.newOffer user request offers.next :: offerList, after)

def resetOffers (db : Database) : Raises (Table VolunteerOffer) :=
  match form.user with
  | none => .ok db.offers
  | some id =>
      match db.users.get? id with
      | none => .error (.raised "DoesNotExist" "ESPUser matching query does not exist.")
      | some _ => .ok (db.offers.delete fun offer => offer.user = some id)

def save (db : Database) : Raises (List VolunteerOffer × Database) := do
  let offers ← form.resetOffers db
  if form.clearRequests then return ([], { db with offers })
  else
    let (user, users) := form.account db
    let (offerList, offers) := form.createOffers user form.requests
      (offers.delete fun offer => offer.contact = form.contact)
    return (offerList, { db with users, offers })

/-- The hidden user exists, the selected requests are choices, and `clean` finds nothing wrong. -/
structure IsValid (db : Database) : Prop where
  user : ∀ id ∈ form.user, ∃ user ∈ db.users.rows, user.id = id
  requests : ∀ id ∈ form.requests, ∃ request ∈ db.volunteerRequests form.program, request.id = id
  clean : form.clearRequests = false → form.requests ≠ [] ∧ form.confirm = true

/-- The volunteer: who is given, or has the name and the email, or is new. -/
def volunteer (db : Database) : Option ℕ :=
  match form.user with
  | some id => some id
  | none =>
      match form.existingUser db with
      | some user => some user.id
      | none => if form.clearRequests then none else some db.users.next

/-- An offer is for the program of the form. -/
def IsHere (db : Database) (offer : VolunteerOffer) : Prop :=
  ∃ request ∈ db.requests.rows, request.id = offer.request ∧ request.program = form.program

instance (db : Database) (offer : VolunteerOffer) : Decidable (form.IsHere db offer) :=
  inferInstanceAs (Decidable (∃ _ ∈ _, _))

/-- The volunteer's offers for the program are replaced by one for each selected request, and
those for other programs and those of others with different contact data are as before. -/
structure Replaces (db after : Database) : Prop where
  selected : ∀ volunteer ∈ form.volunteer db, ∀ request ∈ db.requests.rows,
    request.program = form.program →
      ((after.offers.rows.filter fun offer => offer.user = some volunteer).map
        VolunteerOffer.request).count request.id =
          if form.clearRequests = false ∧ request.id ∈ form.requests then 1 else 0
  elsewhere : ∀ volunteer ∈ form.volunteer db,
    (after.offers.rows.filter fun offer => offer.user = some volunteer ∧ ¬form.IsHere db offer) =
      db.offers.rows.filter fun offer => offer.user = some volunteer ∧ ¬form.IsHere db offer
  others :
    (after.offers.rows.filter fun offer =>
      (∀ volunteer ∈ form.volunteer db, offer.user ≠ some volunteer) ∧
        offer.contact ≠ form.contact) =
      db.offers.rows.filter fun offer =>
        (∀ volunteer ∈ form.volunteer db, offer.user ≠ some volunteer) ∧
          offer.contact ≠ form.contact

/-- No request is selected twice.  A volunteer who is given has offers for this program only; one who
is not and clears has none for it; one who is not and does not clear has those with the contact data
of the form for it, and no others. -/
structure Replaceable (db : Database) : Prop where
  distinct : form.clearRequests = false → form.requests.Nodup
  offers : ∀ volunteer ∈ form.volunteer db, ∀ offer ∈ db.offers.rows,
    offer.user = some volunteer →
      if form.user.isSome then form.IsHere db offer
      else if form.clearRequests then ¬form.IsHere db offer
      else form.IsHere db offer ↔ offer.contact = form.contact

/-- An offer that is not deleted. -/
def keeps (offer : VolunteerOffer) : Bool :=
  (form.user = none ∨ offer.user ≠ form.user) ∧
    (form.clearRequests = true ∨ offer.contact ≠ form.contact)

section Saving

variable {form : VolunteerOfferForm} {db after : Database} {offerList : List VolunteerOffer}
  {user : ℕ} {requests : List ℕ} {offers : Table VolunteerOffer}

theorem createOffers_spec :
    (form.createOffers user requests offers).2.rows =
        offers.rows ++ (form.createOffers user requests offers).1 ∧
      (form.createOffers user requests offers).1.map VolunteerOffer.request = requests ∧
        ∀ offer ∈ (form.createOffers user requests offers).1,
          offer.user = some user ∧ offer.contact = form.contact := by
  induction requests generalizing offers with
  | nil => simp [createOffers]
  | cons request rest ih =>
      rcases @ih (offers.create (form.newOffer user request) (form.key_newOffer user request)) with
        ⟨rows, areRequests, mine⟩
      rw [createOffers]
      refine ⟨?_, ?_, ?_⟩
      · rw [rows, Table.rows_create, List.append_assoc]
        rfl
      · rw [List.map_cons, areRequests]
        rfl
      · rw [List.forall_mem_cons]
        exact ⟨⟨rfl, rfl⟩, mine⟩

/-- What a save leaves: the offers that are kept, and new ones for the selected requests. -/
structure Saves (form : VolunteerOfferForm) (db after : Database)
    (offerList : List VolunteerOffer) : Prop where
  requests : after.requests = db.requests
  rows : after.offers.rows = db.offers.rows.filter form.keeps ++ offerList
  selected : offerList.map VolunteerOffer.request =
    if form.clearRequests then [] else form.requests
  mine : ∀ offer ∈ offerList, (∃ volunteer ∈ form.volunteer db, offer.user = some volunteer) ∧
    offer.contact = form.contact

theorem resetOffers_spec (valid : form.IsValid db) :
    ∃ offers, form.resetOffers db = .ok offers ∧
      offers.rows = db.offers.rows.filter fun offer =>
        form.user = none ∨ offer.user ≠ form.user := by
  rw [resetOffers]
  cases given : form.user with
  | none => exact ⟨db.offers, rfl, by simp⟩
  | some id =>
      rcases valid.user id given with ⟨user, isUser, sameId⟩
      dsimp only
      rw [Table.get?_eq_some.mpr ⟨isUser, sameId⟩]
      refine ⟨_, rfl, ?_⟩
      rw [Table.rows_delete]
      exact List.filter_congr fun offer _ => by simp

theorem save_spec (valid : form.IsValid db) :
    ∃ offerList after, form.save db = .ok (offerList, after) ∧ form.Saves db after offerList := by
  rcases resetOffers_spec valid with ⟨offers, found, left⟩
  rw [save, found, Python.ok_bind]
  cases clear : form.clearRequests with
  | true =>
      refine ⟨[], { db with offers }, rfl, rfl, ?_, by rw [clear]; rfl, by simp⟩
      rw [left, List.append_nil]
      exact List.filter_congr fun offer _ => by simp [keeps, clear]
  | false =>
      have created := @createOffers_spec form (form.account db).1 form.requests
        (offers.delete fun offer => offer.contact = form.contact)
      refine ⟨(form.createOffers (form.account db).1 form.requests
          (offers.delete fun offer => offer.contact = form.contact)).1,
        { db with
          users := (form.account db).2
          offers := (form.createOffers (form.account db).1 form.requests
            (offers.delete fun offer => offer.contact = form.contact)).2 }, rfl, rfl, ?_, ?_, ?_⟩
      · rw [created.1, Table.rows_delete, left, List.filter_filter]
        exact congrArg (· ++ _) (List.filter_congr fun offer _ => by
          simp [keeps, clear, Bool.and_comm])
      · rw [created.2.1, clear]
        rfl
      · intro offer isNew
        refine ⟨⟨(form.account db).1, ?_, (created.2.2 offer isNew).1⟩, (created.2.2 offer isNew).2⟩
        rw [volunteer, account]
        cases form.user with
        | some id => rfl
        | none => cases form.existingUser db <;> simp [clear]

theorem IsValid.exists_request (valid : form.IsValid db) (agrees : db.Agrees) {id : ℕ}
    (isRequest : id ∈ form.requests) :
    ∃ request ∈ db.requests.rows, request.id = id ∧ request.program = form.program := by
  rcases valid.requests id isRequest with ⟨request, isChoice, same⟩
  rcases List.mem_filter.mp isChoice with ⟨isRow, isProgram⟩
  exact ⟨request, isRow, same, (agrees request isRow).symm.trans (of_decide_eq_true isProgram)⟩

theorem isHere_of_mem (valid : form.IsValid db) (agrees : db.Agrees)
    (saves : form.Saves db after offerList) {offer : VolunteerOffer} (isNew : offer ∈ offerList) :
    form.IsHere db offer := by
  have isRequest := List.mem_map_of_mem (f := VolunteerOffer.request) isNew
  rw [saves.selected] at isRequest
  split at isRequest
  next => cases isRequest
  next => exact valid.exists_request agrees isRequest

/-- The offers of the volunteer that are deleted are those for the program, and no request is selected
twice. -/
structure DeletesHere (form : VolunteerOfferForm) (db : Database) : Prop where
  distinct : form.clearRequests = false → form.requests.Nodup
  kept : ∀ volunteer ∈ form.volunteer db, ∀ offer ∈ db.offers.rows, offer.user = some volunteer →
    (form.keeps offer = true ↔ ¬form.IsHere db offer)

theorem deletesHere_iff : form.DeletesHere db ↔ form.Replaceable db := by
  have each {volunteer : ℕ} (isVolunteer : volunteer ∈ form.volunteer db) {offer : VolunteerOffer}
      (isHis : offer.user = some volunteer) :
      (form.keeps offer = true ↔ ¬form.IsHere db offer) ↔
        if form.user.isSome then form.IsHere db offer
        else if form.clearRequests then ¬form.IsHere db offer
        else form.IsHere db offer ↔ offer.contact = form.contact := by
    rw [keeps, decide_eq_true_eq]
    cases given : form.user with
    | some id =>
        rw [VolunteerOfferForm.volunteer, given] at isVolunteer
        cases isVolunteer
        simp [isHis]
    | none =>
        cases clear : form.clearRequests with
        | true => simp
        | false =>
            simp only [true_or, true_and, Bool.false_eq_true, false_or, if_false,
              Option.isSome_none]
            exact not_iff_not.trans Iff.comm
  constructor
  · rintro ⟨distinct, kept⟩
    exact ⟨distinct, fun volunteer isVolunteer offer isOffer isHis =>
      (each isVolunteer isHis).mp (kept volunteer isVolunteer offer isOffer isHis)⟩
  · rintro ⟨distinct, offers⟩
    exact ⟨distinct, fun volunteer isVolunteer offer isOffer isHis =>
      (each isVolunteer isHis).mpr (offers volunteer isVolunteer offer isOffer isHis)⟩

theorem exists_volunteer (saves : form.clearRequests = false) :
    ∃ volunteer, volunteer ∈ form.volunteer db := by
  rw [VolunteerOfferForm.volunteer]
  cases form.user with
  | some id => exact ⟨id, rfl⟩
  | none =>
      cases form.existingUser db with
      | some user => exact ⟨user.id, rfl⟩
      | none => exact ⟨db.users.next, by simp [saves]⟩

/-- The offers of the volunteer for a request are those that are kept and the new ones. -/
theorem Saves.count_eq (saves : form.Saves db after offerList) {volunteer : ℕ}
    (isVolunteer : volunteer ∈ form.volunteer db) (request : ℕ) :
    ((after.offers.rows.filter fun offer => offer.user = some volunteer).map
        VolunteerOffer.request).count request =
      (((db.offers.rows.filter form.keeps).filter fun offer => offer.user = some volunteer).map
        VolunteerOffer.request).count request +
          (if form.clearRequests then [] else form.requests).count request := by
  have own : offerList.filter (fun offer => offer.user = some volunteer) = offerList := by
    refine List.filter_eq_self.mpr fun offer isNew => decide_eq_true ?_
    rcases (saves.mine offer isNew).1 with ⟨other, isOther, isHis⟩
    cases isVolunteer.symm.trans isOther
    exact isHis
  rw [saves.rows, List.filter_append, own, List.map_append, List.count_append, saves.selected]

theorem Saves.others (saves : form.Saves db after offerList) :
    (after.offers.rows.filter fun offer =>
      (∀ volunteer ∈ form.volunteer db, offer.user ≠ some volunteer) ∧
        offer.contact ≠ form.contact) =
      db.offers.rows.filter fun offer =>
        (∀ volunteer ∈ form.volunteer db, offer.user ≠ some volunteer) ∧
          offer.contact ≠ form.contact := by
  have noneNew : offerList.filter (fun offer =>
      (∀ volunteer ∈ form.volunteer db, offer.user ≠ some volunteer) ∧
        offer.contact ≠ form.contact) = [] :=
    List.filter_eq_nil_iff.mpr fun offer isNew => by simp [(saves.mine offer isNew).2]
  rw [saves.rows, List.filter_append, noneNew, List.append_nil, List.filter_filter]
  refine List.filter_congr fun offer _ => ?_
  rw [← Bool.decide_coe (form.keeps offer), ← Bool.decide_and, decide_eq_decide, keeps,
    decide_eq_true_eq]
  refine and_iff_left_of_imp fun ⟨notHis, different⟩ => ⟨?_, Or.inr different⟩
  cases given : form.user with
  | none => exact Or.inl rfl
  | some id => exact Or.inr (notHis id (by rw [VolunteerOfferForm.volunteer, given]; rfl))

theorem replaces_iff (valid : form.IsValid db) (agrees : db.Agrees)
    (saves : form.Saves db after offerList) : form.Replaces db after ↔ form.Replaceable db := by
  rw [← deletesHere_iff]
  constructor
  · intro replaces
    refine ⟨fun selects => ?_, fun volunteer isVolunteer offer isOffer isHis => ⟨?_, ?_⟩⟩
    · rcases @exists_volunteer form db selects with ⟨volunteer, isVolunteer⟩
      refine List.nodup_iff_count_le_one.mpr fun id => ?_
      by_cases isRequest : id ∈ form.requests
      · rcases valid.exists_request agrees isRequest with ⟨request, isRow, rfl, isProgram⟩
        have count := replaces.selected volunteer isVolunteer request isRow isProgram
        have both : form.clearRequests = false ∧ request.id ∈ form.requests := ⟨selects, isRequest⟩
        rw [saves.count_eq isVolunteer, if_pos both, selects] at count
        exact le_of_add_le_right count.le
      · exact (List.count_eq_zero.mpr isRequest).le.trans zero_le_one
    · rintro isKept ⟨request, isRow, same, isProgram⟩
      have count := replaces.selected volunteer isVolunteer request isRow isProgram
      have one : 0 < (((db.offers.rows.filter form.keeps).filter fun offer =>
          offer.user = some volunteer).map VolunteerOffer.request).count request.id :=
        List.count_pos_iff.mpr (List.mem_map.mpr ⟨offer, List.mem_filter.mpr
          ⟨List.mem_filter.mpr ⟨isOffer, isKept⟩, decide_eq_true isHis⟩, same.symm⟩)
      rw [saves.count_eq isVolunteer] at count
      by_cases selects : form.clearRequests = false ∧ request.id ∈ form.requests
      · have more := List.count_pos_iff.mpr selects.2
        rw [if_pos selects, selects.1] at count
        simp only [Bool.false_eq_true, if_false] at count
        omega
      · rw [if_neg selects] at count
        omega
    · intro elsewhere
      have isOld : offer ∈ db.offers.rows.filter fun offer =>
          offer.user = some volunteer ∧ ¬form.IsHere db offer :=
        List.mem_filter.mpr ⟨isOffer, decide_eq_true ⟨isHis, elsewhere⟩⟩
      rw [← replaces.elsewhere volunteer isVolunteer, saves.rows] at isOld
      rcases List.mem_append.mp (List.mem_of_mem_filter isOld) with isKept | isNew
      · exact (List.mem_filter.mp isKept).2
      · exact absurd (isHere_of_mem valid agrees saves isNew) elsewhere
  · intro deletes
    refine ⟨fun volunteer isVolunteer request isRow isProgram => ?_,
      fun volunteer isVolunteer => ?_, saves.others⟩
    · have none : (((db.offers.rows.filter form.keeps).filter fun offer =>
          offer.user = some volunteer).map VolunteerOffer.request).count request.id = 0 := by
        refine List.count_eq_zero.mpr fun isKept => ?_
        rcases List.mem_map.mp isKept with ⟨offer, isHis, same⟩
        rw [List.mem_filter, List.mem_filter, decide_eq_true_eq] at isHis
        exact (deletes.kept volunteer isVolunteer offer isHis.1.1 isHis.2).mp isHis.1.2
          ⟨request, isRow, same.symm, isProgram⟩
      rw [saves.count_eq isVolunteer, none, zero_add]
      cases clear : form.clearRequests with
      | true => simp
      | false =>
          simp only [Bool.false_eq_true, if_false, true_and]
          exact List.Nodup.count (deletes.distinct clear)
    · have noneNew : offerList.filter (fun offer =>
          offer.user = some volunteer ∧ ¬form.IsHere db offer) = [] :=
        List.filter_eq_nil_iff.mpr fun offer isNew => by
          simp [isHere_of_mem valid agrees saves isNew]
      rw [saves.rows, List.filter_append, noneNew, List.append_nil, List.filter_filter]
      refine List.filter_congr fun offer isOffer => ?_
      rw [← Bool.decide_coe (form.keeps offer), ← Bool.decide_and, decide_eq_decide]
      exact and_iff_left_of_imp fun both =>
        (deletes.kept volunteer isVolunteer offer isOffer both.1).mpr both.2

end Saving

/-- The database after a form is saved.  A save that raises has changed nothing. -/
def step (db : Database) (form : VolunteerOfferForm) : Database :=
  match form.save db with
  | .ok (_, after) => after
  | .error _ => db

/-- All saves of a run replace the offers of their volunteers for their program, and touch no others,
exactly if each meets the condition. -/
theorem atEach_replaces_iff {db : Database} {forms : List VolunteerOfferForm}
    (agrees : db.Agrees)
    (valid : AtEach step (fun db form => form.IsValid db) db forms) :
    AtEach step (fun db form => form.Replaces db (step db form)) db forms ↔
      AtEach step (fun db form => form.Replaceable db) db forms := by
  refine atEach_iff (fun db form agrees valid => ?_) agrees valid
  rcases save_spec valid with ⟨offerList, after, done, saves⟩
  have isAfter : step db form = after := by rw [step, done]
  rw [isAfter, Database.Agrees, saves.requests]
  exact ⟨agrees, replaces_iff valid agrees saves⟩

end VolunteerOfferForm

namespace Sample

open VolunteerOfferForm

/-- Two programs with a request each, and a volunteer. -/
def campus : Database where
  users := ⟨[⟨5, ['A'], ['B'], "a@b.org"⟩], 6, by simp, by simp [Keyed.key]⟩
  requests := ⟨[⟨1, 1, 1⟩, ⟨2, 2, 2⟩], 3, by simp [Keyed.key], by simp [Keyed.key]⟩
  offers := ⟨[], 1, .nil, by simp⟩

theorem agrees_campus : campus.Agrees := by
  unfold Database.Agrees
  decide

/-- The volunteer signs up for the request of a program. -/
def offering (program : ℕ) : VolunteerOfferForm where
  program := program
  user := some 5
  name := ['A', ' ', 'B']
  email := "a@b.org"
  phone := "+16175551234"
  requests := [program]
  clearRequests := false
  confirm := true
  shirtSize := none
  shirtType := none
  comments := none

theorem isValid_offering {db : Database} (users : db.users = campus.users)
    (requests : db.requests = campus.requests) {program : ℕ} (isProgram : program ∈ [1, 2]) :
    (offering program).IsValid db where
  user := by
    rw [users]
    exact fun id isUser => ⟨_, List.mem_singleton_self _, Option.some.inj isUser⟩
  requests := by
    rw [Database.volunteerRequests, requests]
    fin_cases isProgram <;> decide
  clean := by simp [offering]

theorem replaces_offering : AtEach step (fun db form => form.Replaces db (step db form)) campus
    [offering 1] :=
  (atEach_replaces_iff agrees_campus (atEach_cons.mpr
    ⟨isValid_offering rfl rfl (by simp), atEach_nil⟩)).mpr (atEach_cons.mpr
      ⟨⟨by decide, fun volunteer _ offer isOffer => absurd isOffer List.not_mem_nil⟩, atEach_nil⟩)

/-- The sign-up for the second program deletes the one for the first. -/
theorem not_replaces_offering :
    AtEach step (fun db form => form.IsValid db) campus [offering 1, offering 2] ∧
      ¬AtEach step (fun db form => form.Replaces db (step db form)) campus
        [offering 1, offering 2] := by
  refine ⟨atEach_cons.mpr ⟨isValid_offering rfl rfl (by simp), atEach_cons.mpr
    ⟨isValid_offering (by decide) (by decide) (by simp), atEach_nil⟩⟩, ?_⟩
  intro replaces
  have second := (atEach_cons.mp (atEach_cons.mp replaces).2).1
  have elsewhere := second.elsewhere 5 rfl
  revert elsewhere
  decide

end Sample

end EspWebsite.Volunteers
