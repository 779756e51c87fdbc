import EspWebsite.Accounting.DataModel

/-!
# The accounting controllers

`accounting/controllers.py`: what a user owes to a program, payments and refunds, and the
links from what was paid for to the payment.
-/

namespace EspWebsite.Accounting

open Python Tables Transactions Action Binary64

/-! ## Accounts and line items -/

def defaultSourceAccount : Action Database Account := do
  let db ← read
  lift (db.account "receivable")

def defaultFinaidAccount : Action Database Account := do
  let db ← read
  lift (db.account "grants")

def defaultPayableAccount : Action Database Account := do
  let db ← read
  lift (db.account "payable")

def finaidItems : List String := ["Financial aid grant", "Sibling discount"]

def refundItems : List String := ["Student refund"]

structure IndividualAccountingController where
  program : Program
  user : ℕ
  deriving DecidableEq

namespace IndividualAccountingController

variable (iac : IndividualAccountingController)

def defaultProgramAccount (db : Database) : Option ℕ :=
  ((db.accounts.rows.filter fun account => account.program = some iac.program.id).head?).map
    Account.id

/-- The newest line item of the program that satisfies a condition. -/
def newestLineitemtype (condition : LineItemType → Bool) (db : Database) :
    Option LineItemType :=
  (db.lineItemTypes.rows.filter fun item =>
    item.program = iac.program.id && condition item).getLast?

def defaultPaymentsLineitemtype : Database → Option LineItemType :=
  iac.newestLineitemtype fun item => item.forPayments

def defaultSiblingdiscountLineitemtype : Database → Option LineItemType :=
  iac.newestLineitemtype fun item => item.text = "Sibling discount"

def refundLineitemtypes (db : Database) : List LineItemType :=
  db.lineItemTypes.rows.filter fun item =>
    item.program = iac.program.id ∧ item.text = "Student refund"

def newRefundLineitemtype (id : ℕ) : LineItemType :=
  { id, text := "Student refund", amountDec := ⟨0, by decide⟩, program := iac.program.id,
    required := false, forPayments := false, forFinaid := false }

theorem id_newRefundLineitemtype (id : ℕ) : (iac.newRefundLineitemtype id).id = id := rfl

def defaultRefundLineitemtype : Action Database LineItemType := do
  let db ← read
  match iac.refundLineitemtypes db with
  | [] =>
      change fun db =>
        { db with
          lineItemTypes :=
            db.lineItemTypes.create iac.newRefundLineitemtype iac.id_newRefundLineitemtype }
      return iac.newRefundLineitemtype db.lineItemTypes.next
  | [item] => return item
  | items =>
      let count := items.length
      raise (.raised "MultipleObjectsReturned"
        s!"get() returned more than one LineItemType -- it returned {count}!")

/-- `get_lineitemtypes_Q`, with all donations. -/
def lineitemtypesQ (requiredOnly : Bool) (item : LineItemType) : Bool :=
  item.program = iac.program.id ∧ item.text ∉ finaidItems ∧ item.text ∉ refundItems ∧
    (requiredOnly → item.required ∧ !item.forPayments)

/-- `get_lineitemtypes`: of the line items with one text, the newest. -/
def getLineitemtypes (requiredOnly : Bool) (db : Database) : List LineItemType :=
  let items := db.lineItemTypes.rows.filter (iac.lineitemtypesQ requiredOnly)
  (items.filter fun item =>
    items.all fun other => other.text = item.text → other.id ≤ item.id).insertionSort
      fun earlier later => earlier.text ≤ later.text

/-! ## What is requested -/

def transfersFor (db : Database) (item : LineItemType) : List Transfer :=
  db.transfers.rows.filter fun transfer =>
    transfer.user = some iac.user ∧ transfer.lineItem = item.id

def requiredTransfer (db : Database) (sourceAccount : Account) (item : LineItemType) (id : ℕ) :
    Transfer :=
  { id, source := some sourceAccount.id, destination := iac.defaultProgramAccount db,
    user := some iac.user, lineItem := item.id, amountDec := item.amountDec,
    transactionId := [], paidIn := none }

theorem id_requiredTransfer (db : Database) (sourceAccount : Account) (item : LineItemType)
    (id : ℕ) : (iac.requiredTransfer db sourceAccount item id).id = id := rfl

/-- The body of the loop of `ensure_required_transfers`; `existing` are the transfers that
there were before it. -/
def ensureRequiredTransfer (existing : Database) (sourceAccount : Account)
    (item : LineItemType) : Action Database PUnit :=
  match (iac.transfersFor existing item).getLast? with
  | none => do
      let _ ← createTransfer (iac.requiredTransfer existing sourceAccount item)
        (iac.id_requiredTransfer existing sourceAccount item)
      return ⟨⟩
  | some transfer =>
      if transfer.paidIn.isSome then return ⟨⟩
      else if transfer.amountDec = item.amountDec then return ⟨⟩
      else Transfer.save { transfer with amountDec := item.amountDec }

def ensureRequiredTransfers : Action Database PUnit := atomic do
  let sourceAccount ← defaultSourceAccount
  let existing ← read
  forEach (fun item _ => iac.ensureRequiredTransfer existing sourceAccount item)
    (iac.getLineitemtypes true existing) ⟨⟩

/-- `get_transfers`, once the accounts are there. -/
def transfers (db : Database) : List Transfer :=
  db.transfers.rows.filter fun transfer =>
    transfer.user = some iac.user ∧
      transfer.lineItem ∈ (iac.getLineitemtypes false db).map LineItemType.id

theorem mem_transfers {iac : IndividualAccountingController} {db : Database} {transfer : Transfer} :
    transfer ∈ iac.transfers db ↔ transfer ∈ db.transfers.rows ∧ transfer.user = some iac.user ∧
      transfer.lineItem ∈ (iac.getLineitemtypes false db).map LineItemType.id := by
  rw [transfers, List.mem_filter, decide_eq_true_eq]

def getTransfers : Action Database (List Transfer) := do
  let _ ← defaultSourceAccount
  let db ← read
  return iac.transfers db

/-- The user's transfers to the program. -/
def requested (forFinaidOnly : Bool) (db : Database) : List Transfer :=
  db.transfers.rows.filter fun transfer =>
    transfer.user = some iac.user ∧ transfer.destination = iac.defaultProgramAccount db ∧
      (forFinaidOnly → db.lineItemIs LineItemType.forFinaid transfer)

def amountRequested (forFinaidOnly : Bool) : Action Database ℤ := do
  iac.ensureRequiredTransfers
  let db ← read
  return totalCents (iac.requested forFinaidOnly db)

/-! ## Discounts and aid -/

def isSiblingDiscount (lineItemType : Option LineItemType) (sourceAccount destAccount : Account)
    (transfer : Transfer) : Bool :=
  transfer.source = some sourceAccount.id ∧ transfer.destination = some destAccount.id ∧
    transfer.user = some iac.user ∧ some transfer.lineItem = lineItemType.map LineItemType.id

/-- `SplashInfo.execute_sibling_discount`, for a user who has no discount. -/
def removeSiblingDiscount : Action Database PUnit := do
  let db ← read
  let lineItemType := iac.defaultSiblingdiscountLineitemtype db
  let sourceAccount ← defaultFinaidAccount
  let destAccount ← defaultSourceAccount
  let removed := iac.isSiblingDiscount lineItemType sourceAccount destAccount
  if db.transfers.rows.any fun transfer => !removed transfer &&
      db.transfers.rows.any fun payment =>
        removed payment && transfer.paidIn = some payment.id then
    raise (.raised "ProtectedError" "Cannot delete some instances of model 'Transfer'")
  else change fun db => { db with transfers := db.transfers.delete removed }

/-- The sibling information that there is. -/
def splashInfo? (db : Database) : Option SplashInfo :=
  db.splashInfos.rows.find? fun info =>
    info.student = iac.user ∧ info.program = some iac.program.id

/-- Sibling information without a discount. -/
def newSplashInfo (id : ℕ) : SplashInfo :=
  { id, student := iac.user, program := some iac.program.id, siblingdiscount := false }

theorem id_newSplashInfo (id : ℕ) : (iac.newSplashInfo id).id = id := rfl

/-- `SplashInfo.getForUser`. -/
def splashInfoForUser : Action Database SplashInfo := do
  let db ← read
  match iac.splashInfo? db with
  | some info => return info
  | none =>
      change fun db =>
        { db with
          splashInfos := db.splashInfos.create iac.newSplashInfo iac.id_newSplashInfo }
      iac.removeSiblingDiscount
      return iac.newSplashInfo db.splashInfos.next

def amountSiblingdiscount : Action Database ℤ :=
  if iac.program.siblingDiscount = 0 then return 0
  else do
    let info ← iac.splashInfoForUser
    return if info.siblingdiscount then iac.program.siblingDiscount else 0

def latestFinaidGrant (db : Database) : Option FinancialAidGrant :=
  (db.grants.filter fun grant =>
    grant.request.user = iac.user ∧ grant.request.program = iac.program.id).argmax
      fun grant => grant.request.id

/-- The dollars of a grant, and the percentage of what they leave. -/
def aidAmount (amountRequested amountSiblingdiscount : ℤ) (grant : FinancialAidGrant) : ℚ :=
  let dollars : ℚ :=
    match grant.amountMaxDec with
    | none => 0
    | some amountMax =>
        if amountRequested - amountSiblingdiscount > amountMax.cents then amountMax.cents
        else amountRequested - amountSiblingdiscount
  match grant.percent with
  | none => dollars
  | some percent =>
      dollars + 1 / 100 * percent * (amountRequested - amountSiblingdiscount - dollars)

/-- The aid that the latest grant gives, rounded to the nearest cent. -/
def finaid (amountRequested amountSiblingdiscount : ℤ) (db : Database) : ℤ :=
  match iac.latestFinaidGrant db with
  | none => 0
  | some grant => roundHalfUp (aidAmount amountRequested amountSiblingdiscount grant)

def amountFinaid (amountSiblingdiscount : Option ℤ) : Action Database ℤ := do
  let amountRequested ← iac.amountRequested true
  let amountSiblingdiscount ←
    match amountSiblingdiscount with
    | some amount => return' amount
    | none => iac.amountSiblingdiscount
  let db ← read
  return iac.finaid amountRequested amountSiblingdiscount db

/-! ## Payments and refunds -/

def payments (db : Database) : List Transfer :=
  db.transfers.rows.filter fun transfer =>
    transfer.user = some iac.user ∧
      some transfer.lineItem = (iac.defaultPaymentsLineitemtype db).map LineItemType.id ∧
      transfer.source = none

def amountPaid (db : Database) : ℤ := totalCents (iac.payments db)

def refunds (refundLineitem : LineItemType) (payableAccount : Account) (db : Database) :
    List Transfer :=
  db.transfers.rows.filter fun transfer =>
    transfer.user = some iac.user ∧ transfer.lineItem = refundLineitem.id ∧
      transfer.source = some payableAccount.id ∧ transfer.destination = none

def amountRefunded : Action Database ℤ := do
  let refundLineitem ← iac.defaultRefundLineitemtype
  let payableAccount ← defaultPayableAccount
  let db ← read
  return totalCents (iac.refunds refundLineitem payableAccount db)

def amountDue : Action Database ℤ := do
  let amtRequest ← iac.amountRequested false
  let amtSibling ← iac.amountSiblingdiscount
  let amtFinaid ← iac.amountFinaid (some amtSibling)
  let db ← read
  let amtPaid := iac.amountPaid db
  let amtRefunded ← iac.amountRefunded
  return amtRequest - amtFinaid - amtSibling - amtPaid + amtRefunded

/-- The transfers that `link_paid_transfers` goes through: no payments and no aid. -/
def linkable (db : Database) : List Transfer :=
  (iac.transfers db).filter
    (db.lineItemIs fun item => !item.forPayments && item.text ∉ finaidItems)

/-- The loop of `link_paid_transfers`: the total, once it reaches the target. -/
def linkUntil (payment : Transfer) (targetFull : ℚ) :
    List Transfer → ℚ → Action Database ℚ
  | [], total => return total
  | transfer :: rest, total => do
      let total := nearest (total + transfer.amountDec.toFloat)
      onlyIf (transfer.paidIn = none) (transfer.markPaid payment).save
      if targetFull ≤ total then return total
      else linkUntil payment targetFull rest total

def linkPaidTransfers (payment : Transfer) : Action Database PUnit := atomic do
  let _ ← iac.getTransfers
  let db ← read
  let amtPaid := iac.amountPaid db
  let amtSibling ← iac.amountSiblingdiscount
  let amtFinaid ← iac.amountFinaid none
  let amtRefunded ← iac.amountRefunded
  let targetFull : ℚ := ((amtPaid + amtSibling + amtFinaid - amtRefunded : ℤ) : ℚ) / 100
  let db ← read
  let total ← linkUntil payment targetFull (iac.linkable db) 0
  if total = targetFull then return ⟨⟩ else raise .valueError

def paymentTransfer (targetAccount : Account) (lineItemType : LineItemType) (amountDec : Amount)
    (transactionId : List Char) (id : ℕ) : Transfer :=
  { id, source := none, destination := some targetAccount.id, user := some iac.user,
    lineItem := lineItemType.id, amountDec, transactionId, paidIn := none }

theorem id_paymentTransfer (targetAccount : Account) (lineItemType : LineItemType)
    (amountDec : Amount) (transactionId : List Char) (id : ℕ) :
    (iac.paymentTransfer targetAccount lineItemType amountDec transactionId id).id = id := rfl

def submitPayment (amount : ℚ) (transactionId : List Char) (linkTransfers : Bool) :
    Action Database Transfer := atomic do
  let before ← read
  let lineItemType := iac.defaultPaymentsLineitemtype before
  let targetAccount ← defaultSourceAccount
  let amountDec ← lift (formattedDecimal amount)
  match lineItemType with
  | none => raise (.raised "IntegrityError" "null value in column \"line_item_id\"")
  | some lineItemType =>
      let payment ← createTransfer
        (iac.paymentTransfer targetAccount lineItemType amountDec transactionId)
        (iac.id_paymentTransfer targetAccount lineItemType amountDec transactionId)
      onlyIf linkTransfers (iac.linkPaidTransfers payment)
      return payment

end IndividualAccountingController

end EspWebsite.Accounting
