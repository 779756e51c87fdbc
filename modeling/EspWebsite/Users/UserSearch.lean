import EspWebsite.Library.Queries
import EspWebsite.Library.Python
import EspWebsite.Library.Numerals
import EspWebsite.Utils.ExpirableModel

/-!
# The search for users

`UserSearchController`: the rows that its queries look at, the query of the criteria of a
search, and the query of what is submitted on the comm panel.
-/

namespace EspWebsite.UserSearch

open Python Queries

abbrev Text := List Char

/-! ## Rows

A row holds the rows that its foreign keys refer to. -/

structure Group where
  id : ℕ
  name : Text
  deriving DecidableEq

structure ESPUser where
  id : ℕ
  username : Text
  lastName : Text
  firstName : Text
  email : Text
  password : Text
  isActive : Bool
  groups : List Group
  deriving DecidableEq

structure ClassSubject where
  id : ℕ
  parentProgram : ℕ
  teachers : List ℕ
  deriving DecidableEq

structure ClassSection where
  id : ℕ
  parentClass : ClassSubject
  meetingTimes : List ℕ
  deriving DecidableEq

structure StudentRegistration extends ExpirableModel where
  user : ℕ
  sec : ClassSection
  relationship : Text
  deriving DecidableEq

structure UserAvailability where
  user : ℕ
  event : ℕ
  deriving DecidableEq

structure ContactInfo where
  addressState : Option Text
  addressZip : Option Text
  deriving DecidableEq

/-- A row of `StudentInfo`, with the name of its `k12school`. -/
structure StudentInfo where
  user : Option ℕ
  graduationYear : Option ℤ
  school : Option Text
  k12school : Option (Option Text)
  deriving DecidableEq

structure TeacherInfo where
  graduationYear : Option Text
  deriving DecidableEq

structure RegistrationProfile where
  user : ℕ
  contactUser : Option ContactInfo
  studentInfo : Option StudentInfo
  teacherInfo : Option TeacherInfo
  mostRecentProfile : Bool
  deriving DecidableEq

/-- The tables that a search looks at.  Lists of programs may look at further relations, which lead
from a user to the keys of some rows. -/
structure Database where
  users : List ESPUser
  classes : List ClassSubject
  sections : List ClassSection
  registrations : List StudentRegistration
  availabilities : List UserAvailability
  profiles : List RegistrationProfile
  studentInfos : List StudentInfo
  zipCodes : List Text
  relations : List (ℕ → List ℕ)

/-- What is the same for all searches: the user types, the school year, the time, how the database
compares texts, and which texts are numbers. -/
structure Site where
  types : List Text
  schoolyear : ℤ
  now : DateTime
  iexact : Text → Text → Bool
  iregex : Text → Text → Bool
  icontains : Text → Text → Bool
  isRegex : Text → Bool
  isDecimal : Text → Bool

/-! ## Joined rows -/

/-- A row that is joined to a user, with one row for each relation, or none if there is none. -/
structure Joined where
  registration : Option StudentRegistration
  registrationTime : Option ℕ
  classSubject : Option ClassSubject
  sec : Option ClassSection
  sectionTime : Option ℕ
  availability : Option UserAvailability
  profile : Option RegistrationProfile
  profileGroup : Option Group
  studentInfo : Option StudentInfo
  group : Option Group
  others : List (Option ℕ)
  deriving DecidableEq

def picks {α : Type} : List α → List (Option α)
  | [] => [none]
  | row :: rows => (row :: rows).map some

namespace Database

variable (db : Database) (user : ESPUser)

def registrationsOf : List StudentRegistration :=
  db.registrations.filter fun row => row.user = user.id

/-- `classsubject` of a user: the classes that the user teaches. -/
def classesOf : List ClassSubject := db.classes.filter fun row => user.id ∈ row.teachers

/-- `sections` of a class. -/
def sectionsOf (cls : ClassSubject) : List ClassSection :=
  db.sections.filter fun row => row.parentClass.id = cls.id

def availabilitiesOf : List UserAvailability :=
  db.availabilities.filter fun row => row.user = user.id

def profilesOf : List RegistrationProfile := db.profiles.filter fun row => row.user = user.id

def studentInfosOf : List StudentInfo := db.studentInfos.filter fun row => row.user = some user.id

def joined : List Joined :=
  (picks (db.registrationsOf user)).flatMap fun registration =>
  (picks ((registration.map fun row => row.sec.meetingTimes).getD [])).flatMap
    fun registrationTime =>
  (picks (db.classesOf user)).flatMap fun classSubject =>
  (picks ((classSubject.map db.sectionsOf).getD [])).flatMap fun sec =>
  (picks ((sec.map ClassSection.meetingTimes).getD [])).flatMap fun sectionTime =>
  (picks (db.availabilitiesOf user)).flatMap fun availability =>
  (picks (db.profilesOf user)).flatMap fun profile =>
  (picks ((profile.map fun _ => user.groups).getD [])).flatMap fun profileGroup =>
  (picks (db.studentInfosOf user)).flatMap fun studentInfo =>
  (picks user.groups).flatMap fun group =>
  (db.relations.map fun relation => picks (relation user.id)).sections.map fun others =>
    { registration, registrationTime, classSubject, sec, sectionTime, availability, profile,
      profileGroup, studentInfo, group, others }

end Database

/-! ## Lookups -/

abbrev Lookup := ESPUser → Joined → Bool

/-- The meaning of queries of users. -/
def Database.model (db : Database) : Model Lookup ESPUser Joined where
  rows := db.joined
  holds test user row := test user row

def idIn (ids : List ℤ) : Lookup := fun user _ => (user.id : ℤ) ∈ ids

def isActive : Lookup := fun user _ => user.isActive

def passwordIs (password : Text) : Lookup := fun user _ => user.password = password

def groupNameIs (name : Text) : Lookup := fun _ row => row.group.any fun group => group.name = name

/-- A lookup of the dates of a registration, which are missing if there is none. -/
def onRegistration (test : Option ExpirableModel → Bool) : Lookup :=
  fun _ row => test (row.registration.map StudentRegistration.toExpirableModel)

def classIn (clsid : List ℤ) : Lookup :=
  fun _ row => row.registration.any fun registration =>
    (registration.sec.parentClass.id : ℤ) ∈ clsid

def relationshipIn (names : List Text) : Lookup :=
  fun _ row => row.registration.any fun registration => registration.relationship ∈ names

def registrationTimeIn (times : List ℕ) : Lookup :=
  fun _ row => row.registrationTime.any fun time => time ∈ times

def teachingTimeIn (times : List ℕ) : Lookup :=
  fun _ row => row.sectionTime.any fun time => time ∈ times

def availableIn (events : List ℕ) : Lookup :=
  fun _ row => row.availability.any fun availability => availability.event ∈ events

def profileGroupIn (groups : List ℕ) : Lookup :=
  fun _ row => row.profileGroup.any fun group => group.id ∈ groups

def mostRecentProfile : Lookup := fun _ row =>
  row.profile.any fun profile => profile.mostRecentProfile

def stateIn (codes : List Text) : Lookup := fun _ row =>
  ((row.profile.bind RegistrationProfile.contactUser).bind ContactInfo.addressState).any
    fun state => state ∈ codes

def zipIn (codes : List Text) : Lookup := fun _ row =>
  ((row.profile.bind RegistrationProfile.contactUser).bind ContactInfo.addressZip).any fun code =>
    code ∈ codes

/-- The graduation year of the student information of a profile. -/
def studentYear (test : ℤ → Bool) : Lookup := fun _ row =>
  ((row.profile.bind RegistrationProfile.studentInfo).bind StudentInfo.graduationYear).any test

/-- The graduation year of the teacher information of a profile. -/
def teacherYearIn (years : List Text) : Lookup := fun _ row =>
  ((row.profile.bind RegistrationProfile.teacherInfo).bind TeacherInfo.graduationYear).any
    fun year =>
    year ∈ years

def schoolIs (test : Text → Bool) : Lookup := fun _ row =>
  (row.studentInfo.bind StudentInfo.school).any test

def k12schoolIs (test : Text → Bool) : Lookup := fun _ row =>
  ((row.studentInfo.bind StudentInfo.k12school).bind id).any test

def teachesSectionIn (sections : List ℕ) : Lookup := fun _ row =>
  row.sec.any fun sec => sec.id ∈ sections

/-- `ESPUser.getAllOfType`, of a type that there is. -/
def getAllOfType (userType : Text) : Q Lookup := Q.of [groupNameIs userType]

/-- `nest_Q(StudentRegistration.is_valid_qobject(), 'studentregistration')`. -/
def isValidQobject (now : DateTime) : Q Lookup :=
  let qstart := (Q.of [onRegistration fun row => (row.bind ExpirableModel.startDate).isNone]).or
    (Q.of [onRegistration fun row => (row.bind ExpirableModel.startDate).any (· ≤ now)])
  let qend := (Q.of [onRegistration fun row => (row.bind ExpirableModel.endDate).isNone]).or
    (Q.of [onRegistration fun row => (row.bind ExpirableModel.endDate).any (now ≤ ·)])
  qstart.and qend

/-! ## The criteria of a search -/

/-- The student whose teachers are searched for. -/
inductive TargetUser where
  | invalid
  | user (id : ℕ)
  deriving DecidableEq

/-- The criteria that are given.  Those that are asked for with `in` are there or not, whatever
their value. -/
structure Criteria where
  userid : Option Text := none
  useridNot : Bool := false
  clsid : Option Text := none
  regtypes : Option (List Text) := none
  classTimes : Option (List ℕ) := none
  teachingTimes : Option (List ℕ) := none
  teacherEvents : Option (List ℕ) := none
  groupsInclude : Option (List ℕ) := none
  groupsExclude : Option (List ℕ) := none
  username : Option Text := none
  usernameRegex : Option Text := none
  usernameNot : Bool := false
  lastName : Option Text := none
  lastNameNot : Bool := false
  firstName : Option Text := none
  firstNameNot : Bool := false
  email : Option Text := none
  emailNot : Bool := false
  zipcode : Option Text := none
  zipdistance : Option Text := none
  zipdistanceExclude : Option Text := none
  states : Option Text := none
  statesNot : Bool := false
  gradeMin : Option Text := none
  gradeMax : Option Text := none
  school : Option Text := none
  gradyearMin : Option Text := none
  gradyearMax : Option Text := none
  hoursMin : Option Text := none
  hoursMax : Option Text := none
  targetUser : Option TargetUser := none

/-- `raise ESPError(message)`. -/
def espError {α : Type} (message : String) : Raises α := .error (.raised "ESPError" message)

/-- A criterion whose text is not blank. -/
def given (criterion : Option Text) : Option Text := criterion.filter fun text => strip text ≠ []

/-- What a criterion adds to the query: something to include, or something to exclude. -/
inductive Part where
  | included (q : Q Lookup)
  | excluded (q : Q Lookup)

/-- `Q_include` and `Q_exclude`. -/
structure Parts where
  qInclude : Q Lookup := {}
  qExclude : Q Lookup := {}

/-- `Q_include &= q` or `Q_exclude |= q`. -/
def Parts.add (parts : Parts) : Part → Parts
  | .included q => { parts with qInclude := parts.qInclude.and q }
  | .excluded q => { parts with qExclude := parts.qExclude.or q }

/-- What is searched for, or with `__not` what is not. -/
def part (isNot : Bool) (q : Q Lookup) : Part := if isNot then .excluded q else .included q

/-- The numbers of a comma-separated list. -/
def numbers (message : String) (text : Text) : Raises (List ℤ) :=
  (text.splitOn ',').mapM fun digit =>
    match parseInt digit with
    | some number => .ok number
    | none => espError message

/-- `int(text)`. -/
def int (text : Text) : Raises ℤ :=
  match parseInt text with
  | some number => .ok number
  | none => .error .valueError

/-- `int(text)`, with a message of its own. -/
def gradyear (text : Text) : Raises ℤ :=
  match parseInt text with
  | some year => .ok year
  | none => espError "Please enter a 4-digit integer for graduation year limits."

namespace Criteria

variable (criteria : Criteria) (site : Site)

def studentVerbs : List Text := criteria.regtypes.getD ["Enrolled".toList]

/-- The users of a list of ids. -/
def useridParts (text : Text) : Raises (List Part) := do
  let userid ← numbers
    "User id invalid, please enter a number or comma-separated list of numbers." text
  return [part criteria.useridNot (Q.of [idIn userid])]

def clsidParts : Raises (List Part) :=
  match given criteria.clsid with
  | none => .ok []
  | some text => do
      let clsid ← numbers "Class id invalid, please enter a comma-separated list of numbers." text
      return [.included ((Q.of [classIn clsid, relationshipIn criteria.studentVerbs]).and
        (isValidQobject site.now))]

def classTimesParts : List Part :=
  match criteria.classTimes with
  | none => []
  | some classTimes =>
      [.included ((Q.of [registrationTimeIn classTimes, relationshipIn criteria.studentVerbs]).and
        (isValidQobject site.now))]

def teachingTimesParts : List Part :=
  criteria.teachingTimes.toList.map fun times => .included (Q.of [teachingTimeIn times])

def teacherEventsParts : List Part :=
  criteria.teacherEvents.toList.map fun events => .included (Q.of [availableIn events])

def groupsIncludeParts : List Part :=
  criteria.groupsInclude.toList.map fun groups => .included (Q.of [profileGroupIn groups])

def groupsExcludeParts : List Part :=
  criteria.groupsExclude.toList.map fun groups => .excluded (Q.of [profileGroupIn groups])

/-- A text of the user that is searched for with a regular expression. -/
def regexParts (field : ESPUser → Text) (criterion : Option Text) (isNot : Bool) :
    Raises (List Part) :=
  match given criterion with
  | none => .ok []
  | some text =>
      if site.isRegex text then
        .ok [part isNot (Q.of [fun user _ => site.iregex (field user) text])]
      else
        espError ("Invalid search expression, please check your syntax: " ++ String.ofList text)

/-- A username that is searched for is the whole one, unless `username__regex` is given. -/
def usernameParts : Raises (List Part) :=
  if (criteria.usernameRegex.getD []) = [] then
    .ok ((given criteria.username).toList.map fun text =>
      part criteria.usernameNot (Q.of [fun user _ => site.iexact user.username (strip text)]))
  else
    regexParts site ESPUser.username criteria.username criteria.usernameNot

def lastNameParts : Raises (List Part) :=
  regexParts site ESPUser.lastName criteria.lastName criteria.lastNameNot

def firstNameParts : Raises (List Part) :=
  regexParts site ESPUser.firstName criteria.firstName criteria.firstNameNot

def emailParts : Raises (List Part) :=
  regexParts site ESPUser.email criteria.email criteria.emailNot

/-- `close_zipcodes` of a distance that is a text: the text is compared with a number. -/
def closeZipcodes (distance : Text) : Raises (List Text) :=
  if site.isDecimal distance then .error .typeError
  else espError (String.ofList distance ++ " should be a valid decimal number!")

def zipcodeParts (db : Database) : Raises (List Part) :=
  match given criteria.zipcode, given criteria.zipdistance with
  | some zipcode, some zipdistance =>
      match db.zipCodes.filter fun row => row = zipcode with
      | [] =>
          espError ("Zip code not found.  This may be because you didn't enter a valid US zipcode." ++
            "  Tried: \"" ++ String.ofList zipcode ++ "\"")
      | [_] => do
          let zipcodes ← closeZipcodes site zipdistance
          let zipcodesExclude ←
            match given criteria.zipdistanceExclude with
            | none => .ok []
            | some distance => closeZipcodes site distance
          let rest := zipcodes.filter fun code => code ∉ zipcodesExclude
          return if rest = [] then [] else [.included (Q.of [zipIn rest, mostRecentProfile])]
      | _ => .error (.raised "MultipleObjectsReturned" "")
  | _, _ => .ok []

def statesParts : List Part :=
  match given criteria.states with
  | none => []
  | some states =>
      let stateCodes := ((strip states).map Char.toUpper).splitOn ','
      [part criteria.statesNot (Q.of [stateIn stateCodes, mostRecentProfile])]

def yogFromGrade (grade : Text) : ℤ :=
  match parseInt grade with
  | some grade => site.schoolyear + 12 - grade
  | none => 0

/-- A bound for the year of graduation, unless the year is zero. -/
def gradeParts (criterion : Option Text) (isWithin : ℤ → ℤ → Bool) : List Part :=
  match given criterion with
  | none => []
  | some grade =>
      let yog := yogFromGrade site grade
      if yog = 0 then [] else [.included (Q.of [studentYear (isWithin yog), mostRecentProfile])]

def gradeMinParts : List Part := gradeParts site criteria.gradeMin fun yog year => year ≤ yog

def gradeMaxParts : List Part := gradeParts site criteria.gradeMax fun yog year => yog ≤ year

def schoolParts : List Part :=
  match given criteria.school with
  | none => []
  | some school =>
      let contains := fun name => site.icontains name school
      [.included ((Q.of [schoolIs contains]).or (Q.of [k12schoolIs contains]))]

/-- The years between the limits that are given. -/
def possibleGradyears : Raises (List ℤ) := do
  let years := (List.range 200).map fun year => (year + 1920 : ℤ)
  let years ←
    match given criteria.gradyearMin with
    | none => .ok years
    | some text => do
        let gradyearMin ← gradyear text
        return years.filter fun year => gradyearMin ≤ year
  match given criteria.gradyearMax with
  | none => .ok years
  | some text => do
      let gradyearMax ← gradyear text
      return years.filter fun year => year ≤ gradyearMax

/-- `str(year)`. -/
def yearText (year : ℤ) : Text := numeral year.toNat

def gradyearParts : Raises (List Part) := do
  let possibleGradyears ← criteria.possibleGradyears
  return if (given criteria.gradyearMin).isSome ∨ (given criteria.gradyearMax).isSome then
    [.included (Q.of [teacherYearIn (possibleGradyears.map yearText), mostRecentProfile])]
  else []

/-- The hours of a user that a query selects: the meeting times of the registrations in a
program, of the joined rows at which the query holds. -/
def numHours (db : Database) (currentQ : Q Lookup) (program : Option ℕ) (user : ESPUser) : ℕ :=
  (((db.joined user).filter fun row =>
    decide (currentQ.Holds db.model user row false) &&
      row.registration.any fun registration =>
        decide (some registration.sec.parentClass.parentProgram = program) &&
          decide (registration.relationship = "Enrolled".toList)).filterMap
    Joined.registrationTime).toFinset.card

def hoursExcluded (db : Database) (currentQ : Q Lookup) (program : Option ℕ)
    (criterion : Option Text) (isOutside : ℕ → ℤ → Bool) : Raises (List ℤ) :=
  match criterion.filter fun text => text ≠ [] with
  | none => .ok []
  | some text => do
      let bound ← int text
      let annotated := db.users.filter fun user => decide (currentQ.Selects db.model user)
      return (annotated.filter fun user =>
        isOutside (numHours db currentQ program user) bound).map fun user => (user.id : ℤ)

def hoursParts (db : Database) (currentQ : Q Lookup) (program : Option ℕ) : Raises (List Part) :=
  if (given criteria.hoursMin).isSome ∨ (given criteria.hoursMax).isSome then do
    let below ← hoursExcluded db currentQ program criteria.hoursMin fun hours bound => hours < bound
    let above ← hoursExcluded db currentQ program criteria.hoursMax fun hours bound => bound < hours
    return [.excluded (Q.of [idIn (below ++ above)])]
  else .ok []

def targetSections (db : Database) (program : Option ℕ) (student : ℕ) : List ℕ :=
  (db.registrations.filter fun registration =>
    decide (registration.user = student) && registration.isValid site.now &&
      decide (registration.relationship = "Enrolled".toList) &&
      decide (some registration.sec.parentClass.parentProgram = program)).map fun registration =>
    registration.sec.id

def targetUserParts (db : Database) (program : Option ℕ) : Raises (List Part) :=
  match criteria.targetUser with
  | none => .ok []
  | some .invalid => espError "Please select a valid student whose teachers to email."
  | some (.user student) =>
      .ok [.included (Q.of [teachesSectionIn (targetSections site db program student)])]

/-- The criteria up to the hours, in the order in which they are added. -/
def firstParts (db : Database) : Raises (List Part) := do
  let clsid ← criteria.clsidParts site
  let username ← criteria.usernameParts site
  let lastName ← criteria.lastNameParts site
  let firstName ← criteria.firstNameParts site
  let email ← criteria.emailParts site
  let zipcode ← criteria.zipcodeParts site db
  let gradyear ← criteria.gradyearParts
  return clsid ++ criteria.classTimesParts site ++ criteria.teachingTimesParts ++
    criteria.teacherEventsParts ++ criteria.groupsIncludeParts ++ criteria.groupsExcludeParts ++
    username ++ lastName ++ firstName ++ email ++ zipcode ++ criteria.statesParts ++
    criteria.gradeMinParts site ++ criteria.gradeMaxParts site ++ criteria.schoolParts site ++
      gradyear

end Criteria

/-- `Q_base & (Q_include & ~Q_exclude)`. -/
def Parts.query (parts : Parts) (qBase : Q Lookup) : Q Lookup :=
  qBase.and (parts.qInclude.and parts.qExclude.invert)

def typeNames (types : List Text) : String :=
  "[" ++ String.intercalate ", " (types.map fun name => "'" ++ String.ofList name ++ "'") ++ "]"

/-- The users of a type. -/
def baseOf (site : Site) (userType : Text) : Raises (Q Lookup) :=
  if userType.map Char.toLower = "any".toList then .ok {}
  else if userType ∈ site.types then .ok (getAllOfType userType)
  else espError ("user_type must be one of " ++ typeNames site.types)

def queryFromCriteria (site : Site) (db : Database) (userType : Text) (criteria : Criteria)
    (program : Option ℕ) : Raises (Q Lookup) := do
  let qBase ← baseOf site userType
  match given criteria.userid with
  | some userid => do
      let parts ← criteria.useridParts userid
      return (parts.foldl Parts.add {}).query qBase
  | none => do
      let first ← criteria.firstParts site db
      let parts := first.foldl Parts.add {}
      let hours ← criteria.hoursParts db (parts.query qBase) program
      let targetUser ← criteria.targetUserParts site db program
      return ((hours ++ targetUser).foldl Parts.add parts).query qBase

/-! ## What is submitted -/

/-- A program with the lists of its users, which its modules define. -/
structure Program where
  id : ℕ
  students : List (Text × Q Lookup)
  teachers : List (Text × Q Lookup)
  volunteers : List (Text × Q Lookup)

/-- A list by its name. -/
def named (lists : List (Text × Q Lookup)) (name : Text) : Option (Q Lookup) :=
  (lists.find? fun item => item.1 = name).map Prod.snd

namespace Program

variable (program : Program)

/-- `getattr(program, recipient_type.lower() + 's')(QObjects=True)[list_name]`. -/
def listOf (recipientType listName : Text) : Raises (Q Lookup) :=
  let function := recipientType.map Char.toLower ++ ['s']
  let lists :=
    if function = "students".toList then some program.students
    else if function = "teachers".toList then some program.teachers
    else if function = "volunteers".toList then some program.volunteers
    else none
  match lists with
  | none => .error .attributeError
  | some lists =>
      match named lists listName with
      | none => .error .keyError
      | some listed => .ok listed

/-- The list of the first type of recipients that has a list of this name, as `get_recipient_type`
finds it. -/
def firstNamed (listName : Text) : Option (Q Lookup) :=
  [program.students, program.teachers, program.volunteers].findSome? fun lists =>
    named lists listName

end Program

/-- The data of a submission: criteria, the list that is chosen, and the other fields. -/
structure PostData extends Criteria where
  baseList : Option Text := none
  recipientType : Option Text := none
  comboBaseList : Option Text := none
  fields : List (Text × Text) := []

/-- Python's set of some conditions: which conditions can be put in it, and in which order it gives
them. -/
structure Hashing where
  isHashable : Clause Lookup → Bool
  listOfSet : List (Clause Lookup) → List (Clause Lookup)
  mem_listOfSet : ∀ clauses clause, clause ∈ listOfSet clauses ↔ clause ∈ clauses

/-- A query without duplicate clauses. -/
def Hashing.strip (hashing : Hashing) (q : Q Lookup) : Q Lookup :=
  { q with
    children := hashing.listOfSet (q.children.filter hashing.isHashable) ++
      q.children.filter fun clause => !hashing.isHashable clause }

namespace PostData

variable (data : PostData) (site : Site) (program : Program)

def checkboxKeys : List Text :=
  (data.fields.filter fun field =>
    "checkbox_".toList.isPrefixOf field.1 && decide (field.2 ≠ [])).map fun field => field.1.drop 9

/-- The names of the lists whose checkbox begins so. -/
def keys (start : Text) : List Text :=
  (data.checkboxKeys.filter fun key => start.isPrefixOf key).map fun key => key.drop start.length

def andKeys : List Text := data.keys "and_".toList

def orKeys : List Text := data.keys "or_".toList

def notKeys : List Text := data.keys "not_".toList

/-- The users of a list, or with `NOT` the others. -/
def subquery (name : Text) (listed : Q Lookup) : Q Lookup :=
  if name ∈ data.notKeys then (Q.pkIn listed).invert else Q.pkIn listed

def addAnd (q : Q Lookup) (name : Text) : Q Lookup :=
  match program.firstNamed name with
  | none => q
  | some listed => q.and (data.subquery name listed)

def addOr (q : Q Lookup) (name : Text) : Q Lookup :=
  match program.firstNamed name with
  | none => q
  | some listed => q.or (data.subquery name listed)

/-- The list that a combination starts from. -/
def comboBase (recipientType listName : Text) : Raises (Q Lookup) :=
  if "all".toList.isPrefixOf listName then
    .ok (if recipientType ∈ site.types then getAllOfType recipientType else {})
  else program.listOf recipientType listName

def combination (base : Q Lookup) : Q Lookup :=
  data.orKeys.foldl (data.addOr program) (data.andKeys.foldl (data.addAnd program) base)

/-- The list of a submission that chooses one, and the type of its recipients. -/
def basicList (baseList recipientType : Text) : Raises (Text × Q Lookup) :=
  if recipientType ∉ site.types then .ok ("any".toList, {})
  else if "all".toList.isPrefixOf baseList then .ok (recipientType, {})
  else do
    let listed ← program.listOf recipientType baseList
    return ("any".toList, listed)

/-- The queries of a submission that chooses one list, `q_extra` and `q_program`. -/
def basicQueries (db : Database) (baseList recipientType : Text) :
    Raises (Q Lookup × Q Lookup) := do
  let (recipientType, qProgram) ← basicList site program baseList recipientType
  let qExtra ← queryFromCriteria site db recipientType data.toCriteria (some program.id)
  return (qExtra, qProgram)

def comboQueries (db : Database) (comboBaseList : Text) : Raises (Q Lookup × Q Lookup) := do
  let (recipientType, listName) ← unpackPair (comboBaseList.splitOn ':')
  let base ← comboBase site program recipientType listName
  let qExtra ← queryFromCriteria site db "any".toList data.toCriteria (some program.id)
  return (qExtra, data.combination program base)

def queries (db : Database) : Raises (Q Lookup × Q Lookup) :=
  match data.baseList, data.recipientType, data.comboBaseList with
  | some baseList, some recipientType, _ => data.basicQueries site program db baseList recipientType
  | _, _, some comboBaseList => data.comboQueries site program db comboBaseList
  | _, _, none => .error (.raised "UnboundLocalError" "q_extra")

end PostData

def queryFromPostdata (site : Site) (hashing : Hashing) (db : Database) (program : Program)
    (data : PostData) : Raises (Q Lookup) := do
  let (qExtra, qProgram) ← data.queries site program db
  return hashing.strip ((qExtra.and qProgram).and (Q.of [isActive]))

end EspWebsite.UserSearch
