import EspWebsite.Accounting.LinkedPayments

/-!
# Charging a card

`charge_payment` of `handlers/creditcardmodule_stripe.py`, for any number of requests of one
user at a time.  A request goes on by a query of the database, a call of the payment
processor or a commit; what a transaction has written is not there for the others before.
-/

namespace EspWebsite.Accounting

open Python Tables Transactions Action

/-! ## What is posted -/

/-- What `Decimal` makes of a text; a number that is not finite equals no amount. -/
inductive PostedDecimal where
  | invalid
  | notFinite
  | number (value : ℚ)
  deriving DecidableEq

/-- `donation` is the amount of the donation form, if the form is valid. -/
structure PostData where
  donation : Option Amount
  ponumber : List Char
  totalcostCents : PostedDecimal
  stripeToken : List Char
  deriving DecidableEq

/-- The `error_type` of the page that reports a failure. -/
inductive ErrorType where
  | inconsistentPo
  | missingFields
  | inconsistentAmount
  | declined
  | invalid
  | auth
  | api
  | generic
  deriving DecidableEq

/-- The exceptions of `stripe.error`. -/
inductive StripeError where
  | cardError
  | invalidRequestError
  | authenticationError
  | apiConnectionError
  | stripeError
  deriving DecidableEq

/-- The page for an exception of the payment processor. -/
def StripeError.errorType : StripeError → ErrorType
  | .cardError => .declined
  | .invalidRequestError => .invalid
  | .authenticationError => .auth
  | .apiConnectionError => .api
  | .stripeError => .generic

/-- What `stripe.Charge.create` does: it charges the card and returns the id of the charge,
or it raises. -/
inductive Answer where
  | charge (id : List Char)
  | refusal (error : StripeError)
  deriving DecidableEq

/-! ## Donations -/

/-- `QuerySet.delete` for transfers: payments that others are linked to are protected. -/
def deleteTransfers (removed : Transfer → Bool) : Action Database PUnit := do
  let db ← read
  if db.transfers.rows.any fun transfer => !removed transfer &&
      db.transfers.rows.any fun payment =>
        removed payment && transfer.paidIn = some payment.id then
    raise (.raised "ProtectedError" "Cannot delete some instances of model 'Transfer'")
  else change fun db => { db with transfers := db.transfers.delete removed }

namespace IndividualAccountingController

variable (iac : IndividualAccountingController)

def chosenTransfer (db : Database) (sourceAccount : Account) (item : LineItemType)
    (amountDec : Amount) (id : ℕ) : Transfer :=
  { id, source := some sourceAccount.id, destination := iac.defaultProgramAccount db,
    user := some iac.user, lineItem := item.id, amountDec, transactionId := [], paidIn := none }

theorem id_chosenTransfer (db : Database) (sourceAccount : Account) (item : LineItemType)
    (amountDec : Amount) (id : ℕ) :
    (iac.chosenTransfer db sourceAccount item amountDec id).id = id := rfl

/-- `set_preference`, for a line item without options. -/
def setPreference (lineitemName : String) (quantity : ℕ) (amount : Option Amount) :
    Action Database PUnit := atomic do
  let db ← read
  match (iac.getLineitemtypes false db).find? fun item => item.text = lineitemName with
  | none => raise (.raised "DoesNotExist" "LineItemType matching query does not exist.")
  | some lineItem =>
      let _ ← iac.getTransfers
      deleteTransfers fun transfer => transfer ∈ iac.transfers db ∧
        transfer.lineItem = lineItem.id ∧ ∀ amountDec ∈ amount, transfer.amountDec = amountDec
      let sourceAccount ← defaultSourceAccount
      let amountDec := amount.getD lineItem.amountDec
      forEach (fun _ _ => do
        let _ ← createTransfer (iac.chosenTransfer db sourceAccount lineItem amountDec)
          (iac.id_chosenTransfer db sourceAccount lineItem amountDec)
        return ⟨⟩) (List.range quantity) ⟨⟩

end IndividualAccountingController

/-! ## A request -/

/-- The parts of `target_full`, which `link_paid_transfers` adds up. -/
inductive TargetPart where
  | amountPaid
  | amountSiblingdiscount
  | amountFinaid
  | amountRefunded
  deriving DecidableEq

/-- How a request ends. -/
inductive Outcome where
  | success
  | failure (errorType : ErrorType)
  | exception (raised : PyError)
  deriving DecidableEq

/-- How far a request is, with what it has read.  `amtPaid` is what was paid when it compared
the amounts; from `submitted` on it is in its transaction, which has written `transfer` and
then the links `saved`.  A transaction does not wait here for the locks of others. -/
inductive Progress where
  | received
  | cleared (amount : Amount)
  | donated
  | requested (amtRequest : ℤ)
  | discounted (amtRequest amtSibling : ℤ)
  | aided (amtRequest amtSibling amtFinaid : ℤ)
  | paid (amtRequest amtSibling amtFinaid amtPaid : ℤ)
  | agreed (amtPaid : ℤ)
  | submitted (amtPaid : ℤ) (transfer : Transfer) (part : TargetPart) (targetFull : ℤ)
  | targeted (amtPaid : ℤ) (transfer : Transfer) (targetFull : ℤ)
  | linked (amtPaid : ℤ) (transfer : Transfer) (saved : List Transfer)
  | charged (transfer : Transfer) (saved : List Transfer) (chargeId : List Char)
  | recorded (transfer : Transfer) (saved : List Transfer)
  | finished (outcome : Outcome)
  deriving DecidableEq

/-- The database as the transaction that has written the rows sees it. -/
def Database.write (db : Database) (rows : List Transfer) : Database :=
  { db with transfers := rows.foldl Table.put db.transfers }

def Database.skipTransfer (db : Database) : Database :=
  { db with transfers := db.transfers.skip }

def changedTransfers (before after : Database) : List Transfer :=
  after.transfers.rows.filter fun transfer => transfer ∉ before.transfers.rows

def query {α : Type} (action : Action Database α) (next : α → Progress) (db : Database) :
    Progress × Database :=
  match action db with
  | (.ok value, after) => (next value, after)
  | (.error raised, after) => (.finished (.exception raised), after)

/-- A query in a transaction that has written a transfer.  What could be missing in the
database was added when the amounts were compared. -/
def queryIn {α : Type} (transfer : Transfer) (action : Action Database α) (next : α → Progress)
    (db : Database) : Progress × Database :=
  match (action (db.write [transfer])).1 with
  | .ok value => (next value, db)
  | .error raised => (.finished (.exception raised), db)

/-- The loop of `link_paid_transfers`, in a transaction that has written a transfer. -/
def linkIn (iac : IndividualAccountingController) (amtPaid : ℤ) (transfer : Transfer)
    (targetFull : ℚ) (view : Database) : Progress :=
  match IndividualAccountingController.linkUntil transfer targetFull (iac.linkable view) 0 view with
  | (.ok total, after) =>
      if total = targetFull then .linked amtPaid transfer (changedTransfers view after)
      else .finished (.exception .valueError)
  | (.error raised, _) => .finished (.exception raised)

def donationText : String := "Donation to Learning Unlimited"

/-- The transaction id of a payment that is not charged yet. -/
def tbd : List Char := ['T', 'B', 'D']

namespace PostData

variable (post : PostData) (iac : IndividualAccountingController)

/-- The check of the identifier and of the form of the amount. -/
def check : Option ErrorType :=
  if post.ponumber ≠ iac.getId then some .inconsistentPo
  else if post.totalcostCents = .invalid then some .missingFields
  else none

/-- The comparison of the amount that was posted with the amount due. -/
def compare (amtPaid amtDue : ℤ) : Progress :=
  if post.totalcostCents ≠ .number amtDue then .finished (.failure .inconsistentAmount)
  else if post.stripeToken = [] then .finished (.failure .missingFields)
  else .agreed amtPaid

def amountCentsPost : ℚ :=
  match post.totalcostCents with
  | .number value => value
  | _ => 0

/-- What a request does next, and the database that the others then see. -/
def advance (answer : Answer) : Progress → Database → Progress × Database
  | .received, db =>
      match post.donation with
      | none => (.donated, db)
      | some amount => query (iac.setPreference donationText 0 none) (fun _ => .cleared amount) db
  | .cleared amount, db =>
      query (iac.setPreference donationText 1 (some amount)) (fun _ => .donated) db
  | .donated, db =>
      match post.check iac with
      | some errorType => (.finished (.failure errorType), db)
      | none => query (iac.amountRequested false) .requested db
  | .requested amtRequest, db => query iac.amountSiblingdiscount (.discounted amtRequest) db
  | .discounted amtRequest amtSibling, db =>
      query (iac.amountFinaid (some amtSibling)) (.aided amtRequest amtSibling) db
  | .aided amtRequest amtSibling amtFinaid, db =>
      (.paid amtRequest amtSibling amtFinaid (iac.amountPaid db), db)
  | .paid amtRequest amtSibling amtFinaid amtPaid, db =>
      query iac.amountRefunded (fun amtRefunded =>
        post.compare amtPaid (amtRequest - amtFinaid - amtSibling - amtPaid + amtRefunded)) db
  | .agreed amtPaid, db =>
      match iac.submitPayment (post.amountCentsPost / 100) tbd false db with
      | (.ok transfer, _) => (.submitted amtPaid transfer .amountPaid 0, db.skipTransfer)
      | (.error raised, _) => (.finished (.exception raised), db)
  | .submitted amtPaid transfer .amountPaid targetFull, db =>
      queryIn transfer (do let _ ← iac.getTransfers; let db ← read; return iac.amountPaid db)
        (fun amount =>
          .submitted amtPaid transfer .amountSiblingdiscount (targetFull + amount)) db
  | .submitted amtPaid transfer .amountSiblingdiscount targetFull, db =>
      queryIn transfer iac.amountSiblingdiscount
        (fun amount => .submitted amtPaid transfer .amountFinaid (targetFull + amount)) db
  | .submitted amtPaid transfer .amountFinaid targetFull, db =>
      queryIn transfer (iac.amountFinaid none)
        (fun amount => .submitted amtPaid transfer .amountRefunded (targetFull + amount)) db
  | .submitted amtPaid transfer .amountRefunded targetFull, db =>
      queryIn transfer iac.amountRefunded
        (fun amount => .targeted amtPaid transfer (targetFull - amount)) db
  | .targeted amtPaid transfer targetFull, db =>
      (linkIn iac amtPaid transfer (targetFull / 100) (db.write [transfer]), db)
  | .linked _ transfer saved, db =>
      match answer with
      | .charge id => (.charged transfer saved id, db)
      | .refusal error => (.finished (.failure error.errorType), db)
  | .charged transfer saved chargeId, db =>
      (.recorded { transfer with transactionId := chargeId } saved, db)
  | .recorded transfer saved, db => (.finished .success, db.write (transfer :: saved))
  | .finished outcome, db => (.finished outcome, db)

/-- What the card is charged when a request goes on, in cents. -/
def charge (answer : Answer) : Progress → ℚ
  | .linked _ _ _ =>
      match answer with
      | .charge _ => post.amountCentsPost
      | .refusal _ => 0
  | _ => 0

end PostData

/-! ## All requests -/

structure Request where
  post : PostData
  progress : Progress
  deriving DecidableEq

/-- The committed database, the requests and what was charged, in cents. -/
structure Charges where
  database : Database
  requests : List Request
  total : ℚ
  deriving DecidableEq

/-- The request with a number goes on; `answer` is for its call of the payment processor. -/
structure Move where
  index : ℕ
  answer : Answer
  deriving DecidableEq

namespace Charges

variable (iac : IndividualAccountingController)

def start (db : Database) (posts : List PostData) : Charges :=
  { database := db, requests := posts.map fun post => { post, progress := .received }, total := 0 }

def step (state : Charges) (move : Move) : Charges :=
  match state.requests[move.index]? with
  | none => state
  | some request =>
      let next := request.post.advance iac move.answer request.progress state.database
      { database := next.2
        requests := state.requests.set move.index { request with progress := next.1 }
        total := state.total + request.post.charge move.answer request.progress }

def run (state : Charges) (moves : List Move) : Charges := moves.foldl (step iac) state

end Charges

end EspWebsite.Accounting
