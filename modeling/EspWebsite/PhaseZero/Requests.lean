import EspWebsite.Library.Numerals
import EspWebsite.Library.Tables
import EspWebsite.Library.Transactions

/-!
# Requests of the student lottery

`StudentRegPhaseZero` and `StudentRegPhaseZeroManage`: students enter the lottery of a program
and join groups, administrators change the groups and run the lottery.
-/

namespace EspWebsite.PhaseZero

open Python Tables Transactions Action

/-- A row of `PhaseZeroRecord`: a group of users. -/
structure PhaseZeroRecord where
  id : ℕ
  user : List ℕ
  deriving DecidableEq

instance : Keyed PhaseZeroRecord := ⟨PhaseZeroRecord.id⟩

/-- A program: the `student_lottery_group_max` of its groups, which is at least one, the names
and grades of users, and the caps of its grades. -/
structure Program where
  groupMax : ℕ
  groupMax_pos : 0 < groupMax
  name : ℕ → String
  urlBase : String
  getGrade : ℕ → ℤ
  gradeCaps : List (List ℤ × ℤ)
  userByName : String → Option ℕ
  isStudent : ℕ → Bool

/-- The records of a program, its tag `student_lottery_run`, and the members of roles. -/
structure State where
  records : Table PhaseZeroRecord
  lotteryRun : Bool
  members : String → List ℕ

/-- What a request answers: it reports success or an error, or shows another page. -/
inductive Answer where
  | success (message : String)
  | error (message : String)
  | page (name : String)
  deriving DecidableEq

/-! ## Records -/

/-- `users.add(user)`. -/
def addTo (users : List ℕ) (user : ℕ) : List ℕ := if user ∈ users then users else users ++ [user]

namespace State

variable (state : State)

/-- `PhaseZeroRecord.objects.filter(user=user, program=prog)`. -/
def recordsOf (user : ℕ) : List PhaseZeroRecord :=
  state.records.rows.filter fun record => user ∈ record.user

/-- `PhaseZeroRecord.objects.filter(user=user, program=prog).exists()`. -/
def inLottery (user : ℕ) : Bool := state.records.rows.any fun record => user ∈ record.user

/-- `PhaseZeroRecord.objects.get(user=user, program=prog)`, or nothing if there is none. -/
def getRecord (user : ℕ) : Raises (Option PhaseZeroRecord) :=
  match state.recordsOf user with
  | [] => .ok none
  | [record] => .ok (some record)
  | _ => .error (.raised "MultipleObjectsReturned" "PhaseZeroRecord")

def ownRecord (user : ℕ) : Raises PhaseZeroRecord := do
  let some record ← state.getRecord user
    | .error (.raised "DoesNotExist" "PhaseZeroRecord")
  return record

def changeUsers (id : ℕ) (update : List ℕ → List ℕ) : State :=
  { state with
    records := state.records.mapRows
      (fun record => if record.id = id then { record with user := update record.user } else record)
      (by intro record; split <;> rfl) }

/-- A new record with one user. -/
def enroll (user : ℕ) : State :=
  { state with records := state.records.create (fun id => ⟨id, [user]⟩) fun _ => rfl }

/-- `record.user.add(user)`. -/
def join (record user : ℕ) : State := state.changeUsers record fun users => addTo users user

/-- A user is removed from a record, which is deleted if nobody is left in it. -/
def leave (record user : ℕ) : State :=
  let removed := state.changeUsers record fun users => users.filter fun member => member ≠ user
  { removed with
    records := removed.records.delete fun row => decide (row.id = record) && row.user.isEmpty }

/-- A user joins a record, and leaves another one. -/
def move (record user : ℕ) : Option PhaseZeroRecord → State
  | none => state.join record user
  | some old => (state.join record user).leave old.id user

end State

/-! ## Requests of students -/

/-- `SubmitForm.save`. -/
def save (user : ℕ) : Action State PUnit := change fun state => state.enroll user

/-- `studentregphasezero`, where `canSkip` and `lotteryPerm` tell what the user may do. -/
def studentregphasezero (user : ℕ) (canSkip lotteryPerm isPost : Bool) : Action State Answer := do
  let state ← read
  if canSkip then return .page "studentreg"
  else if state.inLottery user then do
    let _ ← lift (state.ownRecord user)
    return .page "confirmation"
  else if state.lotteryRun then return .page "phasezero_closed"
  else if !lotteryPerm then return .page "deadline-learn"
  else if isPost then do
    save user
    let after ← read
    let _ ← lift (after.ownRecord user)
    return .success "confirmation"
  else return .page "submit"

def selectedUser (text : List Char) : Raises (Option ℕ) :=
  match parseInt text with
  | none => .error .valueError
  | some number => .ok number.toNat?

def groupIsFull (program : Program) : String :=
  "Error - This group already contains the maximum number of students (" ++
    toString program.groupMax ++ ")."

/-- The record that a student wants to join, or what is wrong. -/
def groupToJoin (program : Program) (state : State) (user : ℕ) (selected : List Char) :
    Raises (Except String (PhaseZeroRecord × Option PhaseZeroRecord)) := do
  if strip selected = [] then return .error "Error - You must select a student's username."
  let joinUser ← selectedUser selected
  let group ←
    match joinUser with
    | none => .ok none
    | some joinUser => state.getRecord joinUser
  match group with
  | none => return .error "Error - That student is not in a lottery group."
  | some group => do
      let oldGroup ← state.getRecord user
      return if selected = numeral user then .error "Error - You can not select yourself."
        else if oldGroup = some group then .error "Error - You are already in this lottery group."
        else if group.user.length < program.groupMax then .ok (group, oldGroup)
        else .error (groupIsFull program)

def joingroup (program : Program) (user : ℕ) (selected : List Char) : Action State Answer := do
  let state ← read
  match ← lift (groupToJoin program state user selected) with
  | .error joinError => do
      if state.inLottery user then do
        let _ ← lift (state.ownRecord user)
      return .error joinError
  | .ok (group, oldGroup) => do
      change fun state => state.move group.id user oldGroup
      let after ← read
      let _ ← lift (after.ownRecord user)
      return .success "confirmation"

/-! ## Requests of administrators -/

/-- Mode `addnew`. -/
def addnew (program : Program) (addUser : ℕ) : Action State Answer := do
  let state ← read
  if state.inLottery addUser then
    return .error ("Error - " ++ program.name addUser ++ " is already in the lottery.")
  else do
    change fun state => state.enroll addUser
    return .success (program.name addUser ++ " has been added to the lottery.")

/-- Mode `addtoexisting`. -/
def addtoexisting (program : Program) (addUser joinUser : ℕ) : Action State Answer := do
  let state ← read
  match ← lift (state.getRecord joinUser) with
  | none =>
      return .error ("Error - " ++ program.name joinUser ++ " is not in an existing lottery group.")
  | some rec => do
      let oldRec ← lift (state.getRecord addUser)
      if rec.user.length < program.groupMax then do
        change fun state => state.move rec.id addUser oldRec
        return .success (program.name addUser ++ " has been added to the lottery group.")
      else return .error (groupIsFull program)

/-- Mode `remove`. -/
def remove (program : Program) (removeUser : ℕ) : Action State Answer := do
  let state ← read
  match ← lift (state.getRecord removeUser) with
  | none => return .error ("Error - " ++ program.name removeUser ++ " is not in the lottery.")
  | some rec => do
      change fun state => state.leave rec.id removeUser
      return .success (program.name removeUser ++ " has been removed from the lottery.")

/-! ## The lottery -/

/-- An order that is drawn for records. -/
structure Shuffle where
  order : List PhaseZeroRecord → List PhaseZeroRecord
  perm : ∀ records, (order records).Perm records

/-- How the winners are chosen: by lot, or by their usernames, with their groups or alone. -/
inductive Mode where
  | default (shuffle : Shuffle)
  | manual (usernames : List String) (groups : Bool)
  | other (name : String)

/-- The students who win, and the messages of errors. -/
structure Draw where
  students : List ℕ := []
  errors : List String := []

/-- The number of winners for each key of the caps. -/
abbrev Counts := List ℤ → ℤ

def noGrade (program : Program) (problem : String) : String :=
  "The <i>program_size_by_grade</i> <a href='/manage/" ++ program.urlBase ++ "/tags/learn'>tag</a> " ++
    problem ++ ". Lottery not run."

/-- The students of a group are counted, up to the first one whose grade is not in exactly one
key. -/
def countSibs (program : Program) : List ℕ → Counts → Counts × List String
  | [], counts => (counts, [])
  | sib :: sibs, counts =>
      let grade := program.getGrade sib
      match program.gradeCaps.filter fun cap => grade ∈ cap.1 with
      | [cap] => countSibs program sibs (Function.update counts cap.1 (counts cap.1 + 1))
      | [] => (counts, [noGrade program ("does not include grade " ++ toString grade)])
      | _ =>
          (counts, [noGrade program ("includes grade " ++ toString grade ++ " multiple times")])

/-- The groups win one after another, as long as there is room for all of their students. -/
def drawGroups (program : Program) : List PhaseZeroRecord → Counts → Draw → Draw
  | [], _, draw => draw
  | record :: records, counts, draw =>
      let (newcounts, errors) := countSibs program record.user counts
      let draw := { draw with errors := draw.errors ++ errors }
      if program.gradeCaps.all fun cap => newcounts cap.1 ≤ cap.2 then
        drawGroups program records newcounts { draw with students := draw.students ++ record.user }
      else drawGroups program records counts draw

def drawUsernames (program : Program) (state : State) (groups : Bool) : List String → Draw → Draw
  | [], draw => draw
  | username :: usernames, draw =>
      let fail := fun message => { draw with errors := draw.errors ++ [message] }
      drawUsernames program state groups usernames <|
        match program.userByName username with
        | none => fail ("Could not find a user with username " ++ username)
        | some student =>
            if program.isStudent student then
              match state.recordsOf student with
              | [] => fail (username ++ " is not in the lottery")
              | record :: _ =>
                  { draw with
                    students := draw.students ++ if groups then record.user else [student] }
            else fail (username ++ " is not a student")

def draw (program : Program) (state : State) : Mode → Draw
  | .default shuffle =>
      if program.gradeCaps = [] then
        { errors := ["<i>program_size_by_grade</i> <a href='/manage/" ++ program.urlBase ++
            "/tags'>tag</a> is not set. Lottery not run."] }
      else drawGroups program (shuffle.order state.records.rows) (fun _ => 0) {}
  | .manual usernames groups => drawUsernames program state groups usernames {}
  | .other name => { errors := ["Lottery mode " ++ name ++ " is not supported"] }

/-- `lottery`: without errors the winners become members of a role. -/
def lottery (program : Program) (role : String) (mode : Mode) (state : State) :
    List String × State :=
  let drawn := draw program state mode
  if drawn.errors = [] then
    ([], { state with
      lotteryRun := true
      members :=
        Function.update state.members role (drawn.students.foldl addTo (state.members role)) })
  else (drawn.errors, state)

def run (program : Program) (role : String) (mode : Mode) : Action State Answer := fun state =>
  if state.lotteryRun then (.ok (.error "You've already run the student lottery!"), state)
  else
    match lottery program role mode state with
    | ([], state) => (.ok (.success "The student lottery has been run successfully"), state)
    | (errors, state) => (.ok (.error (String.intercalate "\n" errors)), state)

/-- Mode `undo`: the role of the winners is deleted. -/
def undo (role : String) : Action State Answer := fun state =>
  if state.lotteryRun then
    (.ok (.success "The student lottery has been undone."),
      { state with lotteryRun := false, members := Function.update state.members role [] })
  else (.ok (.error "Lottery mode undo is not supported"), state)

/-! ## Steps -/

inductive Request where
  | enter (user : ℕ) (canSkip lotteryPerm isPost : Bool)
  | joingroup (user : ℕ) (selected : List Char)
  | addnew (addUser : ℕ)
  | addtoexisting (addUser joinUser : ℕ)
  | remove (removeUser : ℕ)
  | run (role : String) (mode : Mode)
  | undo (role : String)

def Request.serve (program : Program) : Request → Action State Answer
  | .enter user canSkip lotteryPerm isPost =>
      studentregphasezero user canSkip lotteryPerm isPost
  | .joingroup user selected => PhaseZero.joingroup program user selected
  | .addnew addUser => PhaseZero.addnew program addUser
  | .addtoexisting addUser joinUser => PhaseZero.addtoexisting program addUser joinUser
  | .remove removeUser => PhaseZero.remove program removeUser
  | .run role mode => PhaseZero.run program role mode
  | .undo role => PhaseZero.undo role

def step (program : Program) (state : State) (request : Request) : State :=
  (request.serve program state).2

end EspWebsite.PhaseZero
