import EspWebsite.Accounting.Controllers

/-!
# Payment identifiers

The text that tells the payment processor what a payment is for, and the reconciliation of
the transfers with it once the payment is reported.
-/

namespace EspWebsite.Accounting

open Python Tables Transactions Action Binary64

namespace IndividualAccountingController

variable (iac : IndividualAccountingController)

def getId : List Char := numeral iac.program.id ++ '/' :: numeral iac.user

/-- What an identifier says of a transfer. -/
def purchase (transfer : Transfer) : List Char :=
  numeral transfer.lineItem ++ ',' :: transfer.amountDec.text

def getIdentifier : Action Database (List Char) := do
  let transfers ← iac.getTransfers
  let purchases := [';'].intercalate (transfers.map purchase)
  return iac.getId ++ ':' :: purchases

end IndividualAccountingController

/-- `Model.objects.get(id=text)`. -/
def getById {Row : Type} (model : String) (find : ℕ → Option Row) (text : List Char) :
    Raises Row :=
  match parseInt text with
  | none => .error .valueError
  | some id =>
      match if 0 ≤ id then find id.toNat else none with
      | none => .error (.raised "DoesNotExist" (model ++ " matching query does not exist."))
      | some row => .ok row

def fromId (id : List Char) : Action Database IndividualAccountingController := do
  let sections := id.splitOn '/'
  let db ← read
  let program ← lift (getItem sections 0)
  let program ← lift (getById "Program" db.programs.get? program)
  let user ← lift (getItem sections 1)
  let user ← lift (getById "ESPUser" (fun id => db.users.find? fun user => user = id) user)
  return { program, user }

/-- An entry of an identifier: a line item and the amount that was billed. -/
abbrev ParsedItem := ℤ × List Char

/-- The entry that a text stands for. -/
def parseItem (item : List Char) : Raises ParsedItem := do
  let (lineItemId, savedAmount) ← unpackPair (item.splitOn ',')
  match parseInt lineItemId with
  | none => .error .valueError
  | some lineItemId => return (lineItemId, savedAmount)

/-- The entries of an identifier. -/
def parseItems (transferList : List Char) : Raises (List ParsedItem) :=
  (transferList.splitOn ';').mapM parseItem

/-- The transfers that are unpaid, for each line item, and the total of those that have been
handed out. -/
structure Reconciliation where
  unpaidTransfers : ℤ → List Transfer
  transferTotal : ℤ

/-- The transfers that the entries may stand for. -/
def candidates (iac : IndividualAccountingController) (payment : Transfer)
    (parsedItems : List ParsedItem) (db : Database) : List Transfer :=
  db.transfers.rows.filter fun transfer =>
    transfer.user = some iac.user ∧ (transfer.lineItem : ℤ) ∈ parsedItems.map Prod.fst ∧
      transfer.id ≠ payment.id

/-- The transfer with the amount that was billed; without one, the oldest. -/
def pick (savedAmount : List Char) (available : List Transfer) : ℕ :=
  (available.findIdx? fun candidate => candidate.amountDec.text = savedAmount).getD 0

/-- The transfer with the amount that was billed: a trusted identifier changes the amount. -/
def adjust (transfer : Transfer) (savedAmount : List Char) (trusted : Bool) :
    Raises Transfer :=
  if transfer.amountDec.text = savedAmount then .ok transfer
  else if trusted then
    match parseFloat savedAmount with
    | none => .error .valueError
    | some amount => (formattedDecimal amount).map fun amountDec => { transfer with amountDec }
  else
    let id := transfer.id
    let billed := String.ofList savedAmount
    let current := String.ofList transfer.amountDec.text
    .error (.raised "ReconciliationError" (s!"Failed on processing Transfer {id}: " ++
      "amount changed while user was paying. The user was billed $" ++ billed ++
      " for this item and paid, but the item is now $" ++ current))

/-- The body of the loop of `record_payment_from_identifier`. -/
def reconcileItem (program : Program) (payment : Transfer) (paidLineItemIds : List ℤ)
    (trusted : Bool) (item : ParsedItem) (state : Reconciliation) :
    Action Database Reconciliation := do
  let (lineItemId, savedAmount) := item
  let available := state.unpaidTransfers lineItemId
  let index := pick savedAmount available
  match available[index]? with
  | none =>
      if lineItemId ∈ paidLineItemIds then
        raise (.raised "DuplicatePaymentError"
          s!"Failed on processing line item type {lineItemId}: already paid")
      else
        raise (.raised "ReconciliationError"
          s!"Failed on processing line item type {lineItemId}: no transfer found")
  | some transfer =>
      let db ← read
      if !db.lineItemIs (fun lineItem => lineItem.program = program.id) transfer then
        let id := transfer.id
        raise (.raised "ReconciliationError"
          s!"Failed on processing Transfer {id}: program changed")
      else
        let transfer ← lift (adjust transfer savedAmount trusted)
        (transfer.markPaid payment).save
        return {
          unpaidTransfers := Function.update state.unpaidTransfers lineItemId
            (available.eraseIdx index)
          transferTotal := state.transferTotal + transfer.amountDec.cents }

/-- Whether a transaction is recorded as a payment of the user to the program. -/
def isRecorded (iac : IndividualAccountingController) (transactionId : List Char)
    (db : Database) : Bool :=
  db.transfers.rows.any fun transfer =>
    transfer.user = some iac.user ∧
      db.lineItemIs (fun item => item.program = iac.program.id ∧ item.forPayments) transfer ∧
      transfer.transactionId = transactionId

/-- What follows the payment in `record_payment_from_identifier`. -/
def reconcile (iac : IndividualAccountingController) (payment : Transfer)
    (transferList : List Char) (amountPaid : ℚ) (trusted : Bool) :
    Action Database PUnit := do
  let parsedItems ← lift (parseItems transferList)
  let db ← read
  let candidates := candidates iac payment parsedItems db
  let paidLineItemIds : List ℤ :=
    (candidates.filter fun candidate => candidate.paidIn.isSome).map fun candidate =>
      (candidate.lineItem : ℤ)
  let unpaidTransfers (lineItemId : ℤ) : List Transfer :=
    candidates.filter fun candidate =>
      candidate.paidIn = none ∧ (candidate.lineItem : ℤ) = lineItemId
  let state ← forEach (reconcileItem iac.program payment paidLineItemIds trusted)
    parsedItems { unpaidTransfers, transferTotal := 0 }
  if state.transferTotal = payment.amountDec.cents then return ⟨⟩
  else
    let total := String.ofList (twoPlaces (nearest ((state.transferTotal : ℚ) / 100)))
    let paid := String.ofList (twoPlaces (nearest amountPaid))
    raise (.raised "ReconciliationError" ("Failed to process payment. " ++
      s!"Item prices sum to ${total}, but the user paid ${paid}"))

def recordPaymentFromIdentifier (identifier : List Char) (amountPaid : ℚ)
    (transactionId : List Char) (trusted : Bool) : Action Database Transfer := atomic do
  let (id, transferList) ← lift (unpackPair (identifier.splitOn ':'))
  let iac ← fromId id
  let db ← read
  if transactionId ≠ [] ∧ isRecorded iac transactionId db then
    let transaction := String.ofList transactionId
    raise (.raised "DuplicatePaymentError"
      s!"Failed on processing payment {transaction}: already recorded")
  else
    let payment ← iac.submitPayment amountPaid transactionId false
    reconcile iac payment transferList amountPaid trusted
    return payment

end EspWebsite.Accounting
