import EspWebsite.Library.Numerals
import EspWebsite.Library.Tables
import EspWebsite.Library.Transactions

/-!
# The accounting tables

The models of `accounting/models.py`, and what the controllers read of the programs, the
users and the sibling information.  Amounts are in cents.
-/

namespace EspWebsite.Accounting

open Python Tables Transactions Action Binary64

/-- A value of `DecimalField(max_digits=9, decimal_places=2)`. -/
@[ext] structure Amount where
  cents : ℤ
  fits : |cents| < 10 ^ 9
  deriving DecidableEq

/-- The binary number that `float` makes of an amount. -/
def Amount.toFloat (amount : Amount) : ℚ := nearest (amount.cents / 100)

/-- `'%.2f' % amount`. -/
def Amount.text (amount : Amount) : List Char := twoPlaces amount.toFloat

def decimalField (cents : ℤ) : Raises Amount :=
  if fits : |cents| < 10 ^ 9 then .ok ⟨cents, fits⟩ else .error (.raised "InvalidOperation" "")

/-- `Decimal('%.2f' % amount)`, for an amount in dollars, in such a field. -/
def formattedDecimal (amount : ℚ) : Raises Amount := decimalField (hundredths (nearest amount))

/-- `siblingDiscount` is the tag of that name, which has two decimal places. -/
structure Program where
  id : ℕ
  siblingDiscount : ℤ
  deriving DecidableEq

structure LineItemType where
  id : ℕ
  text : String
  amountDec : Amount
  program : ℕ
  required : Bool
  forPayments : Bool
  forFinaid : Bool
  deriving DecidableEq

structure Account where
  id : ℕ
  name : String
  program : Option ℕ
  deriving DecidableEq

structure Transfer where
  id : ℕ
  source : Option ℕ
  destination : Option ℕ
  user : Option ℕ
  lineItem : ℕ
  amountDec : Amount
  transactionId : List Char
  paidIn : Option ℕ
  deriving DecidableEq

structure FinancialAidRequest where
  id : ℕ
  user : ℕ
  program : ℕ
  deriving DecidableEq

structure FinancialAidGrant where
  request : FinancialAidRequest
  amountMaxDec : Option Amount
  percent : Option ℕ
  deriving DecidableEq

structure SplashInfo where
  id : ℕ
  student : ℕ
  program : Option ℕ
  siblingdiscount : Bool
  deriving DecidableEq

instance : Keyed Program := ⟨Program.id⟩
instance : Keyed LineItemType := ⟨LineItemType.id⟩
instance : Keyed Account := ⟨Account.id⟩
instance : Keyed Transfer := ⟨Transfer.id⟩
instance : Keyed SplashInfo := ⟨SplashInfo.id⟩

/-- The accounts.  All money from outside goes through accounts receivable, which the
accounts of the programs are set up beside. -/
@[ext] structure Accounts extends Table Account where
  receivableGlobal : ∀ account ∈ rows, account.name = "receivable" → account.program = none
  deriving DecidableEq

@[ext] structure Database where
  programs : Table Program
  users : List ℕ
  lineItemTypes : Table LineItemType
  accounts : Accounts
  transfers : Table Transfer
  grants : List FinancialAidGrant
  splashInfos : Table SplashInfo
  deriving DecidableEq

namespace Database

variable (db : Database)

/-- `Account.objects.get(name=name)`. -/
def account (name : String) : Raises Account :=
  match db.accounts.rows.find? fun account => account.name = name with
  | some account => .ok account
  | none => .error (.raised "DoesNotExist" "Account matching query does not exist.")

/-- Whether the line item of a transfer satisfies a condition. -/
def lineItemIs (condition : LineItemType → Bool) (transfer : Transfer) : Bool :=
  match db.lineItemTypes.get? transfer.lineItem with
  | some item => condition item
  | none => false

end Database

/-- `Transfer.objects.create`. -/
def createTransfer (make : ℕ → Transfer) (keyed : ∀ id, (make id).id = id) :
    Action Database Transfer := fun db =>
  (.ok (make db.transfers.next), { db with transfers := db.transfers.create make keyed })

/-- `transfer.save()`. -/
def Transfer.save (transfer : Transfer) : Action Database PUnit :=
  change fun db => { db with transfers := db.transfers.save transfer }

/-- `transfer.paid_in = payment`. -/
def Transfer.markPaid (transfer payment : Transfer) : Transfer :=
  { transfer with paidIn := some payment.id }

def totalCents (transfers : List Transfer) : ℤ :=
  (transfers.map fun transfer => transfer.amountDec.cents).sum

section LineItems

variable {db : Database} {transfer : Transfer}

theorem lineItemIs_iff {condition : LineItemType → Bool} :
    db.lineItemIs condition transfer = true ↔
      ∃ item ∈ db.lineItemTypes.rows, item.id = transfer.lineItem ∧ condition item = true := by
  rw [Database.lineItemIs]
  cases found : db.lineItemTypes.get? transfer.lineItem with
  | none =>
      simp only [Bool.false_eq_true, false_iff, not_exists, not_and]
      intro item isRow sameId
      have isFound := Table.get?_eq_some.mpr ⟨isRow, sameId⟩
      rw [found] at isFound
      cases isFound
  | some item =>
      rcases Table.get?_eq_some.mp found with ⟨isRow, sameId⟩
      constructor
      · intro holds
        exact ⟨item, isRow, sameId, holds⟩
      · rintro ⟨other, isOther, sameOther, holds⟩
        rw [Table.eq_of_key_eq isRow isOther (sameId.trans sameOther.symm)]
        exact holds

end LineItems

section Amounts

variable {cents : ℤ} {amount : Amount}

theorem decimalField_eq_ok : decimalField cents = .ok amount ↔ amount.cents = cents := by
  rw [decimalField]
  split
  next fits =>
    rw [Except.ok.injEq, Amount.ext_iff]
    exact eq_comm
  next large =>
    simp only [reduceCtorEq, false_iff]
    rintro rfl
    exact large amount.fits

theorem formattedDecimal_eq_ok :
    formattedDecimal (cents / 100) = .ok amount ↔ amount.cents = cents := by
  rw [formattedDecimal, decimalField_eq_ok]
  rcases lt_or_ge |cents| (2 ^ 52) with small | large
  · rw [hundredths_nearest small]
  · have fits := amount.fits
    have rounded := le_abs_hundredths_nearest large
    constructor
    · intro same
      rw [← same] at rounded
      omega
    · rintro rfl
      omega

end Amounts

end EspWebsite.Accounting
