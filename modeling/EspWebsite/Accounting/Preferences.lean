import EspWebsite.Accounting.AmountDue

/-!
# Preferences

`set_preference` of `accounting/controllers.py`: the items that a student chooses, with an amount
and an option.
-/

namespace EspWebsite.Accounting

open Python Tables Transactions Action Binary64

/-- A row of `LineItemOptions`. -/
structure LineItemOption where
  id : ℕ
  lineitemType : ℕ
  amountDec : Option Amount
  isCustom : Bool
  deriving DecidableEq

instance : Keyed LineItemOption := ⟨LineItemOption.id⟩

/-- The accounting tables with the options, and with further columns by the ids of their rows:
`max_quantity` and whether `selection_type` is `multiple` for a line item, `option` for a
transfer.  `donationTexts` are the names of the donations that the program offers. -/
structure Shop extends Database where
  maxQuantity : ℕ → ℕ
  selectsMultiple : ℕ → Bool
  options : Table LineItemOption
  optionOf : ℕ → Option ℕ
  donationTexts : List String

def onTables {α : Type} : Action Database α → Action Shop α :=
  onPart Shop.toDatabase fun shop changed => { shop with toDatabase := changed }

/-! ## Amounts -/

/-- A number of the host language, binary or decimal; `inf` and `nan` are not finite. -/
inductive PyNumber where
  | finite (value : ℚ)
  | decimal (value : ℚ)
  | notFinite
  deriving DecidableEq

def nineDigits (value : ℚ) : ℚ :=
  let places := 8 - Int.log 10 |value|
  roundHalfEven (value * 10 ^ places) / 10 ^ places

/-- `DecimalField(max_digits=9).to_python`. -/
def toPython : PyNumber → Raises ℚ
  | .finite value => .ok (nineDigits value)
  | .decimal value => .ok value
  | .notFinite => .error (.raised "ValidationError" "value must be a decimal number.")

/-- What the database stores of a decimal number. -/
def storedAmount (value : ℚ) : Raises Amount := decimalField (roundHalfUp (100 * value))

/-! ## Line items -/

/-- `order_by('text', '-id').distinct('text')`, of the line items that satisfy a condition. -/
def newestOfEach (condition : LineItemType → Bool) (db : Database) : List LineItemType :=
  let items := db.lineItemTypes.rows.filter condition
  (items.filter fun item =>
    items.all fun other => other.text = item.text → other.id ≤ item.id).insertionSort
      fun earlier later => earlier.text ≤ later.text

structure Preference where
  lineitemName : String
  quantity : ℕ
  amount : Option PyNumber
  optionId : Option ℕ
  deriving DecidableEq

/-- What a student has of a line item: an amount and an option. -/
abbrev Choice := Amount × Option ℕ

/-- `LineItemOptions.objects.get(id=id)`. -/
def Shop.option (shop : Shop) (id : ℕ) : Raises LineItemOption :=
  match shop.options.get? id with
  | some option => .ok option
  | none => .error (.raised "DoesNotExist" "LineItemOptions matching query does not exist.")

/-- `transfers.delete()`: a transfer in which another one is marked as paid stays with it. -/
def removeTransfers (removed : Shop → Transfer → Bool) : Action Shop PUnit := do
  let shop ← read
  if shop.transfers.rows.any fun transfer => !removed shop transfer &&
      shop.transfers.rows.any fun payment =>
        removed shop payment && transfer.paidIn = some payment.id then
    raise (.raised "ProtectedError" "Cannot delete some instances of model 'Transfer'")
  else change fun shop => { shop with transfers := shop.transfers.delete (removed shop) }

namespace IndividualAccountingController

variable (iac : IndividualAccountingController)

theorem getLineitemtypes_eq {requiredOnly : Bool} {db : Database} :
    iac.getLineitemtypes requiredOnly db = newestOfEach (iac.lineitemtypesQ requiredOnly) db :=
  rfl

theorem nodup_newestOfEach {condition : LineItemType → Bool} {db : Database} :
    (newestOfEach condition db).Nodup := by
  rw [newestOfEach, (List.perm_insertionSort _ _).nodup_iff]
  exact (db.lineItemTypes.nodup_rows.filter _).filter _

/-- `get_lineitemtypes().get(text=name)`. -/
def lineitemtypeNamed (name : String) (db : Database) : Raises LineItemType :=
  match newestOfEach (fun item => iac.lineitemtypesQ false item && item.text = name) db with
  | [] => .error (.raised "DoesNotExist" "LineItemType matching query does not exist.")
  | [item] => .ok item
  | _ => .error (.raised "MultipleObjectsReturned" "get() returned more than one LineItemType")

def newTransfer (db : Database) (sourceAccount : Account) (lineItem : LineItemType)
    (amountDec : Amount) (id : ℕ) : Transfer :=
  { id, source := some sourceAccount.id, destination := iac.defaultProgramAccount db,
    user := some iac.user, lineItem := lineItem.id, amountDec, transactionId := [],
    paidIn := none }

theorem id_newTransfer (db : Database) (sourceAccount : Account) (lineItem : LineItemType)
    (amountDec : Amount) (id : ℕ) :
    (iac.newTransfer db sourceAccount lineItem amountDec id).id = id := rfl

/-- Creates a transfer for a line item, with an option. -/
def createPurchase (sourceAccount : Account) (lineItem : LineItemType) (amount : ℚ)
    (optionId : Option ℕ) : Action Shop Transfer := do
  let shop ← read
  let amountDec ← lift (storedAmount amount)
  let transfer ← onTables (createTransfer
    (iac.newTransfer shop.toDatabase sourceAccount lineItem amountDec)
    (iac.id_newTransfer shop.toDatabase sourceAccount lineItem amountDec))
  change fun shop =>
    { shop with optionOf := Function.update shop.optionOf transfer.id optionId }
  return transfer

/-- The transfers that `set_preference` removes. -/
def matching (transfers : List Transfer) (lineItem : LineItemType) (amount : Option ℚ)
    (optionId : Option ℕ) (shop : Shop) (transfer : Transfer) : Bool :=
  transfer ∈ transfers ∧ transfer.lineItem = lineItem.id ∧
    (∀ value ∈ amount, (transfer.amountDec.cents : ℚ) / 100 = value) ∧
    ∀ option ∈ optionId, shop.optionOf transfer.id = some option

/-- `set_preference`. -/
def setPreferenceWithOption (preference : Preference) : Action Shop (List Transfer) := atomic do
  let shop ← read
  let lineItem ← lift (iac.lineitemtypeNamed preference.lineitemName shop.toDatabase)
  let amount ← lift (preference.amount.mapM toPython)
  let transfers ← onTables iac.getTransfers
  removeTransfers (matching transfers lineItem amount preference.optionId)
  let option ← lift (preference.optionId.mapM shop.option)
  let amount : ℚ :=
    match amount, option.bind LineItemOption.amountDec with
    | some amount, _ => amount
    | none, some amountDec => amountDec.cents / 100
    | none, none => lineItem.amountDec.cents / 100
  let sourceAccount ← onTables defaultSourceAccount
  times (iac.createPurchase sourceAccount lineItem amount preference.optionId)
    preference.quantity

end IndividualAccountingController

section Digits

variable {value : ℚ} {amount : Amount}

theorem roundHalfUp_intCast (number : ℤ) : roundHalfUp number = number := by
  rw [roundHalfUp]
  split
  · rw [add_comm, Int.floor_add_intCast]
    norm_num
  · rw [← Int.cast_neg, add_comm, Int.floor_add_intCast]
    norm_num

theorem storedAmount_cents : storedAmount (amount.cents / 100) = .ok amount := by
  rw [storedAmount, decimalField_eq_ok, mul_div_cancel₀ _ (by norm_num : (100 : ℚ) ≠ 0),
    roundHalfUp_intCast]

end Digits

/-! ## What a student has -/

/-- The transfers that satisfy a condition, with their options. -/
def Shop.view (shop : Shop) (condition : Transfer → Bool) : List (Transfer × Option ℕ) :=
  (shop.transfers.rows.filter condition).map fun transfer =>
    (transfer, shop.optionOf transfer.id)

/-- The amount and the option of a transfer. -/
def choice (row : Transfer × Option ℕ) : Choice := (row.1.amountDec, row.2)

/-- Only the transfers and their options are changed. -/
def Shop.SameTables (shop after : Shop) : Prop :=
  after = { shop with transfers := after.transfers, optionOf := after.optionOf }

namespace Preference

/-- A preference takes away the choices that match what it gives of amount and option. -/
def covers (preference : Preference) (choice : Choice) : Bool :=
  (∀ value ∈ preference.amount, toPython value = .ok ((choice.1.cents : ℚ) / 100)) ∧
    ∀ option ∈ preference.optionId, choice.2 = some option

/-- The choices that a preference with an amount stands for. -/
def writes (preference : Preference) : List Choice :=
  match preference.amount with
  | some amount =>
      match toPython amount >>= storedAmount with
      | .ok amountDec => List.replicate preference.quantity (amountDec, preference.optionId)
      | .error _ => []
  | none => []

theorem writes_eq {preference : Preference} {number : PyNumber} {value : ℚ} {amountDec : Amount}
    (given : preference.amount = some number) (reads : toPython number = .ok value)
    (stored : storedAmount value = .ok amountDec) :
    preference.writes = List.replicate preference.quantity (amountDec, preference.optionId) := by
  have both : toPython number >>= storedAmount = .ok amountDec := by
    rw [reads]
    exact stored
  rw [writes, given]
  dsimp only
  rw [both]

end Preference

namespace IndividualAccountingController

variable (iac : IndividualAccountingController)

/-- The user's transfers for a line item. -/
def isFor (item : LineItemType) (transfer : Transfer) : Bool :=
  transfer.user = some iac.user ∧ transfer.lineItem = item.id

end IndividualAccountingController

section Views

variable {shop after : Shop} {condition weaker : Transfer → Bool}

theorem mem_view {row : Transfer × Option ℕ} : row ∈ shop.view condition ↔
    row.1 ∈ shop.transfers.rows ∧ condition row.1 = true ∧ row.2 = shop.optionOf row.1.id := by
  rw [Shop.view, List.mem_map]
  constructor
  · rintro ⟨transfer, isMember, rfl⟩
    rcases List.mem_filter.mp isMember with ⟨isRow, holds⟩
    exact ⟨isRow, holds, rfl⟩
  · rintro ⟨isRow, holds, isOption⟩
    exact ⟨row.1, List.mem_filter.mpr ⟨isRow, holds⟩, Prod.ext rfl isOption.symm⟩

theorem view_of_imp (implies : ∀ transfer, condition transfer = true → weaker transfer = true) :
    shop.view condition = (shop.view weaker).filter fun row => condition row.1 := by
  rw [Shop.view, Shop.view, List.filter_map, List.filter_filter]
  refine congrArg _ (List.filter_congr fun transfer _ => ?_)
  rw [Function.comp_apply, Bool.eq_iff_iff, Bool.and_eq_true]
  exact ⟨fun holds => ⟨holds, implies transfer holds⟩, fun holds => holds.1⟩

theorem view_congr (same : after.view weaker = shop.view weaker)
    (implies : ∀ transfer, condition transfer = true → weaker transfer = true) :
    after.view condition = shop.view condition := by
  rw [view_of_imp implies, view_of_imp implies, same]

theorem view_delete {removed : Transfer → Bool} :
    Shop.view { shop with transfers := shop.transfers.delete removed } condition =
      (shop.view condition).filter fun row => !removed row.1 := by
  rw [Shop.view, Shop.view, List.filter_map, Table.rows_delete, List.filter_filter,
    List.filter_filter]
  refine congrArg _ (List.filter_congr fun transfer _ => ?_)
  exact Bool.and_comm _ _

theorem view_create {make : ℕ → Transfer} {keyed : ∀ id, (make id).id = id}
    {option : Option ℕ} :
    Shop.view { shop with
        transfers := shop.transfers.create make keyed
        optionOf := Function.update shop.optionOf shop.transfers.next option } condition =
      shop.view condition ++
        [(make shop.transfers.next, option)].filter fun row => condition row.1 := by
  have old : ((shop.transfers.rows.filter condition).map fun transfer =>
      (transfer, Function.update shop.optionOf shop.transfers.next option transfer.id)) =
        shop.view condition := by
    refine List.map_congr_left fun transfer isMember => ?_
    have below : transfer.id < shop.transfers.next :=
      shop.transfers.below transfer (List.mem_of_mem_filter isMember)
    rw [Function.update_of_ne below.ne]
  rw [Shop.view, Table.rows_create, List.filter_append, List.map_append, old]
  refine congrArg _ ?_
  cases holds : condition (make shop.transfers.next) with
  | false => simp [holds]
  | true => simp [holds, keyed]

theorem Shop.SameTables.trans {last : Shop} (first : shop.SameTables after)
    (second : after.SameTables last) : shop.SameTables last := by
  rw [Shop.SameTables] at first second ⊢
  rw [second, first]

theorem sameTables_create {make : ℕ → Transfer} {keyed : ∀ id, (make id).id = id}
    {optionOf : ℕ → Option ℕ} : shop.SameTables { shop with
      transfers := shop.transfers.create make keyed
      optionOf } := rfl

end Views

namespace IndividualAccountingController

section Creating

variable {iac : IndividualAccountingController} {shop after : Shop} {item : LineItemType}
  {sourceAccount : Account} {amount : ℚ} {optionId : Option ℕ} {transfer : Transfer}

theorem createPurchase_eq_ok
    (run : iac.createPurchase sourceAccount item amount optionId shop = (.ok transfer, after)) :
    ∃ amountDec, storedAmount amount = .ok amountDec ∧
      transfer = iac.newTransfer shop.toDatabase sourceAccount item amountDec
        shop.transfers.next ∧
      after = { shop with
        transfers := shop.transfers.create
          (iac.newTransfer shop.toDatabase sourceAccount item amountDec)
          (iac.id_newTransfer shop.toDatabase sourceAccount item amountDec)
        optionOf := Function.update shop.optionOf shop.transfers.next optionId } := by
  rw [createPurchase, read_bind] at run
  rcases lift_bind_eq_ok.mp run with ⟨amountDec, stored, creates⟩
  rcases Action.bind_eq_ok.mp creates with ⟨created, between, isCreated, last⟩
  rcases onPart_eq_ok.mp isCreated with ⟨changed, isNew, rfl⟩
  cases isNew
  cases last
  exact ⟨amountDec, stored, rfl, rfl⟩

theorem createPurchase_of_stored {amountDec : Amount} (stored : storedAmount amount = .ok amountDec) :
    ∃ transfer after, iac.createPurchase sourceAccount item amount optionId shop =
      (.ok transfer, after) := by
  rw [createPurchase, read_bind, stored]
  exact ⟨_, _, rfl⟩

/-- A row that is new, after those with an id below `next`. -/
structure IsNew (iac : IndividualAccountingController) (item : LineItemType) (amount : ℚ)
    (optionId : Option ℕ) (next : ℕ) (row : Transfer × Option ℕ) : Prop where
  fresh : next ≤ row.1.id
  mine : iac.isFor item row.1 = true
  unpaid : row.1.paidIn = none
  inside : row.1.source ≠ none
  stored : storedAmount amount = .ok row.1.amountDec
  option : row.2 = optionId

theorem times_createPurchase_eq_ok {quantity : ℕ} {created : List Transfer}
    (run : times (iac.createPurchase sourceAccount item amount optionId) quantity shop =
      (.ok created, after)) :
    shop.SameTables after ∧ shop.transfers.next ≤ after.transfers.next ∧
      ∃ rows : List (Transfer × Option ℕ), rows.length = quantity ∧
        (∀ row ∈ rows, iac.IsNew item amount optionId shop.transfers.next row) ∧
        ∀ condition, after.view condition =
          shop.view condition ++ rows.filter fun row => condition row.1 := by
  induction quantity generalizing shop created with
  | zero =>
      cases run
      exact ⟨rfl, le_rfl, [], rfl, by simp, by simp⟩
  | succ quantity ih =>
      rcases times_succ_eq_ok.mp run with ⟨first, between, rest, isFirst, isRest, rfl⟩
      rcases createPurchase_eq_ok isFirst with ⟨amountDec, stored, isTransfer, rfl⟩
      rcases ih isRest with ⟨tables, grows, rows, length, new, views⟩
      have later : shop.transfers.next + 1 ≤ after.transfers.next := grows
      refine ⟨sameTables_create.trans tables, by omega, (first, optionId) :: rows, ?_, ?_, ?_⟩
      · rw [List.length_cons, length]
      · refine List.forall_mem_cons.mpr ⟨⟨?_, ?_, ?_, ?_, ?_, rfl⟩, fun row isRow => ?_⟩
        · rw [isTransfer]
          exact le_rfl
        · simp [isTransfer, isFor, newTransfer]
        · rw [isTransfer, newTransfer]
        · rw [isTransfer, newTransfer]
          exact Option.some_ne_none _
        · rw [isTransfer, newTransfer]
          exact stored
        · have isNew := new row isRow
          exact { isNew with fresh := Nat.le_of_succ_le isNew.fresh }
      · intro condition
        rw [views, view_create, ← isTransfer, List.append_assoc, ← List.filter_append,
          List.singleton_append]

theorem times_createPurchase_of_stored {quantity : ℕ}
    (stored : quantity = 0 ∨ ∃ amountDec, storedAmount amount = .ok amountDec) :
    ∃ created after, times (iac.createPurchase sourceAccount item amount optionId) quantity shop =
      (.ok created, after) := by
  induction quantity generalizing shop with
  | zero => exact ⟨_, _, rfl⟩
  | succ quantity ih =>
      rcases stored.resolve_left (Nat.succ_ne_zero _) with ⟨amountDec, isStored⟩
      rcases @createPurchase_of_stored iac shop item sourceAccount amount optionId amountDec
        isStored with ⟨first, between, isFirst⟩
      rcases @ih between (Or.inr ⟨amountDec, isStored⟩) with ⟨rest, after, isRest⟩
      exact ⟨_, after, times_succ_eq_ok.mpr ⟨first, between, rest, isFirst, isRest, rfl⟩⟩

theorem choices_of_isNew {rows : List (Transfer × Option ℕ)} {amountDec : Amount} {next : ℕ}
    (stored : storedAmount amount = .ok amountDec)
    (new : ∀ row ∈ rows, iac.IsNew item amount optionId next row) :
    rows.map choice = List.replicate rows.length (amountDec, optionId) := by
  rw [List.eq_replicate_iff, List.length_map]
  refine ⟨rfl, fun written isWritten => ?_⟩
  rcases List.mem_map.mp isWritten with ⟨row, isRow, rfl⟩
  have isNew := new row isRow
  exact Prod.ext (Except.ok.inj (isNew.stored.symm.trans stored)) isNew.option

end Creating

section LineItems

variable {iac : IndividualAccountingController} {shop after : Shop} {db : Database}
  {item : LineItemType} {condition : LineItemType → Bool} {name : String}

theorem mem_newestOfEach : item ∈ newestOfEach condition db ↔
    item ∈ db.lineItemTypes.rows ∧ condition item = true ∧
      ∀ other ∈ db.lineItemTypes.rows, condition other = true → other.text = item.text →
        other.id ≤ item.id := by
  rw [newestOfEach, List.mem_insertionSort, List.mem_filter, List.mem_filter, List.all_eq_true]
  simp only [decide_eq_true_eq, List.mem_filter, and_imp]
  exact and_assoc

theorem lineitemtypeNamed_eq_ok (named : iac.lineitemtypeNamed name db = .ok item) :
    item.text = name ∧ item ∈ iac.getLineitemtypes false db := by
  have isMember : item ∈ newestOfEach
      (fun item => iac.lineitemtypesQ false item && item.text = name) db := by
    rw [lineitemtypeNamed] at named
    split at named
    next => cases named
    next single isSingle =>
      cases named
      rw [isSingle]
      exact List.mem_singleton_self _
    next => cases named
  rcases mem_newestOfEach.mp isMember with ⟨isRow, holds, newest⟩
  rw [Bool.and_eq_true, decide_eq_true_eq] at holds
  refine ⟨holds.2, ?_⟩
  rw [getLineitemtypes_eq, mem_newestOfEach]
  refine ⟨isRow, holds.1, fun other isOther query sameText => ?_⟩
  refine newest other isOther ?_ sameText
  rw [query, Bool.true_and, decide_eq_true_eq]
  exact sameText.trans holds.2

end LineItems

section Setting

variable {iac : IndividualAccountingController} {shop after : Shop} {preference : Preference}
  {created : List Transfer} {item : LineItemType}

/-- No other transfer is marked as paid in one that is removed. -/
def Unprotected (removed : Transfer → Bool) (shop : Shop) : Prop :=
  ∀ payment ∈ shop.transfers.rows, removed payment = true →
    ∀ transfer ∈ shop.transfers.rows, transfer.paidIn = some payment.id →
      removed transfer = true

theorem Unprotected.congr {removed same : Transfer → Bool} (unprotected : Unprotected removed shop)
    (equal : ∀ transfer ∈ shop.transfers.rows, removed transfer = same transfer) :
    Unprotected same shop := by
  intro payment isPayment isRemoved transfer isRow marked
  rw [← equal payment isPayment] at isRemoved
  rw [← equal transfer isRow]
  exact unprotected payment isPayment isRemoved transfer isRow marked

theorem deleteTransfers_eq_ok {removed : Shop → Transfer → Bool} {done : PUnit} :
    removeTransfers removed shop = (.ok done, after) ↔
      Unprotected (removed shop) shop ∧
        after = { shop with transfers := shop.transfers.delete (removed shop) } := by
  have protects : (shop.transfers.rows.any fun transfer => !removed shop transfer &&
      shop.transfers.rows.any fun payment =>
        removed shop payment && transfer.paidIn = some payment.id) = true ↔
      ¬ Unprotected (removed shop) shop := by
    rw [List.any_eq_true]
    simp only [Unprotected, not_forall, Bool.and_eq_true, List.any_eq_true, decide_eq_true_eq,
      Bool.not_eq_true']
    constructor
    · rintro ⟨transfer, isRow, kept, payment, isPayment, isRemoved, marked⟩
      refine ⟨payment, isPayment, isRemoved, transfer, isRow, marked, ?_⟩
      rw [kept]
      decide
    · rintro ⟨payment, isPayment, isRemoved, transfer, isRow, marked, kept⟩
      exact ⟨transfer, isRow, Bool.not_eq_true _ |>.mp kept, payment, isPayment, isRemoved, marked⟩
  rw [removeTransfers, read_bind]
  split
  next isProtected =>
    constructor
    · intro run
      cases congrArg Prod.fst run
    · rintro ⟨unprotected, _⟩
      exact absurd unprotected (protects.mp isProtected)
  next free =>
    rw [protects, not_not] at free
    constructor
    · intro run
      cases run
      exact ⟨free, rfl⟩
    · rintro ⟨_, rfl⟩
      rfl

/-- A transfer for a line item whose choice a preference covers. -/
def removes (iac : IndividualAccountingController) (item : LineItemType)
    (preference : Preference) (shop : Shop) (transfer : Transfer) : Bool :=
  iac.isFor item transfer && preference.covers (choice (transfer, shop.optionOf transfer.id))

theorem matching_iff {transfer : Transfer} {amount : Option ℚ}
    (isItem : item ∈ iac.getLineitemtypes false shop.toDatabase)
    (isRow : transfer ∈ shop.transfers.rows)
    (isAmount : preference.amount.mapM toPython = .ok amount) :
    matching (iac.transfers shop.toDatabase) item amount preference.optionId shop transfer =
      iac.removes item preference shop transfer := by
  have sameAmount : (∀ value ∈ amount, (transfer.amountDec.cents : ℚ) / 100 = value) ↔
      ∀ value ∈ preference.amount,
        toPython value = .ok ((transfer.amountDec.cents : ℚ) / 100) := by
    cases given : preference.amount with
    | none =>
        rw [given] at isAmount
        cases isAmount
        simp
    | some value =>
        rw [given, Option.mapM_some] at isAmount
        rcases Python.map_eq_ok.mp isAmount with ⟨digits, isDigits, rfl⟩
        simp [isDigits, eq_comm]
  rw [Bool.eq_iff_iff, removes, Bool.and_eq_true, matching, decide_eq_true_eq, isFor,
    decide_eq_true_eq, Preference.covers, decide_eq_true_eq, sameAmount, mem_transfers]
  constructor
  · rintro ⟨⟨_, isUser, _⟩, sameItem, amounts, options⟩
    exact ⟨⟨isUser, sameItem⟩, amounts, options⟩
  · rintro ⟨⟨isUser, sameItem⟩, amounts, options⟩
    refine ⟨⟨isRow, isUser, ?_⟩, sameItem, amounts, options⟩
    rw [sameItem]
    exact List.mem_map_of_mem isItem

theorem onTables_defaultSourceAccount {account : Account} :
    onTables defaultSourceAccount shop = (.ok account, after) ↔
      shop.account "receivable" = .ok account ∧ after = shop := by
  rw [onTables, onPart_eq_ok]
  constructor
  · rintro ⟨changed, isSource, rfl⟩
    rcases defaultSourceAccount_eq_ok.mp isSource with ⟨isAccount, rfl⟩
    exact ⟨isAccount, rfl⟩
  · rintro ⟨isAccount, rfl⟩
    exact ⟨_, defaultSourceAccount_eq_ok.mpr ⟨isAccount, rfl⟩, rfl⟩

theorem onTables_getTransfers {transfers : List Transfer} :
    onTables iac.getTransfers shop = (.ok transfers, after) ↔
      (∃ account, shop.account "receivable" = .ok account) ∧
        transfers = iac.transfers shop.toDatabase ∧ after = shop := by
  rw [onTables, onPart_eq_ok, getTransfers]
  constructor
  · rintro ⟨changed, isFound, rfl⟩
    rcases Action.bind_eq_ok.mp isFound with ⟨account, between, isSource, returned⟩
    rcases defaultSourceAccount_eq_ok.mp isSource with ⟨isAccount, rfl⟩
    cases returned
    exact ⟨⟨account, isAccount⟩, rfl, rfl⟩
  · rintro ⟨⟨account, isAccount⟩, rfl, rfl⟩
    refine ⟨after.toDatabase, Action.bind_eq_ok.mpr ⟨account, after.toDatabase, ?_, rfl⟩, rfl⟩
    exact defaultSourceAccount_eq_ok.mpr ⟨isAccount, rfl⟩

/-- What setting a preference for a line item leaves. -/
structure IsSet (iac : IndividualAccountingController) (item : LineItemType)
    (preference : Preference) (shop after : Shop) : Prop where
  tables : shop.SameTables after
  grows : shop.transfers.next ≤ after.transfers.next
  others : after.view (fun transfer => !iac.isFor item transfer) =
    shop.view fun transfer => !iac.isFor item transfer
  own : ∃ new, after.view (iac.isFor item) =
      ((shop.view (iac.isFor item)).filter fun row => !preference.covers (choice row)) ++ new ∧
    new.map choice = preference.writes ∧
    ∀ row ∈ new, row.1.paidIn = none ∧ shop.transfers.next ≤ row.1.id
  inside : ∀ row ∈ after.view (iac.isFor item),
    row ∈ shop.view (iac.isFor item) ∨ row.1.source ≠ none
  written : preference.writes.length = preference.quantity
  unprotected : Unprotected (iac.removes item preference shop) shop

theorem writes_of_isNew {amount : Option ℚ} {chosen : ℚ}
    {rows : List (Transfer × Option ℕ)} {next : ℕ}
    (given : preference.quantity = 0 ∨ preference.amount.isSome = true)
    (isAmount : preference.amount.mapM toPython = .ok amount)
    (isChosen : ∀ value ∈ amount, chosen = value) (length : rows.length = preference.quantity)
    (new : ∀ row ∈ rows, iac.IsNew item chosen preference.optionId next row) :
    rows.map choice = preference.writes := by
  rw [Preference.writes]
  cases isGiven : preference.amount with
  | none =>
      rw [isGiven] at given
      have empty : rows = [] := by
        rw [← List.length_eq_zero_iff, length]
        exact given.resolve_right (by decide)
      rw [empty]
      rfl
  | some number =>
      rw [isGiven, Option.mapM_some] at isAmount
      rcases Python.map_eq_ok.mp isAmount with ⟨value, isValue, rfl⟩
      have same : chosen = value := isChosen _ rfl
      subst same
      have reads : toPython number >>= storedAmount = storedAmount chosen := by
        rw [isValue]
        rfl
      dsimp only
      rw [reads]
      cases stored : storedAmount chosen with
      | ok amountDec => rw [choices_of_isNew stored new, length]
      | error raised =>
          rcases rows with _ | ⟨row, rest⟩
          · rfl
          · have isStored := (new row List.mem_cons_self).stored
            rw [stored] at isStored
            cases isStored

theorem setPreference_eq_ok (given : preference.quantity = 0 ∨ preference.amount.isSome = true)
    (run : iac.setPreferenceWithOption preference shop = (.ok created, after)) :
    ∃ item, iac.lineitemtypeNamed preference.lineitemName shop.toDatabase = .ok item ∧
      iac.IsSet item preference shop after := by
  rw [setPreferenceWithOption, atomic_eq_ok, read_bind] at run
  rcases lift_bind_eq_ok.mp run with ⟨item, isItem, afterItem⟩
  rcases lift_bind_eq_ok.mp afterItem with ⟨amount, isAmount, afterAmount⟩
  rcases Action.bind_eq_ok.mp afterAmount with ⟨transfers, found, isFound, afterFound⟩
  rcases onTables_getTransfers.mp isFound with ⟨_, rfl, rfl⟩
  rcases Action.bind_eq_ok.mp afterFound with ⟨_, cleared, clears, afterCleared⟩
  rcases deleteTransfers_eq_ok.mp clears with ⟨unprotected, isCleared⟩
  rcases lift_bind_eq_ok.mp afterCleared with ⟨option, isOption, afterOption⟩
  rcases Action.bind_eq_ok.mp afterOption with ⟨source, sourced, isSource, creates⟩
  rcases onTables_defaultSourceAccount.mp isSource with ⟨_, rfl⟩
  rcases times_createPurchase_eq_ok creates with ⟨tables, grows, new, length, isNew, views⟩
  have isMember := (lineitemtypeNamed_eq_ok isItem).2
  have removes (transfer : Transfer) (isRow : transfer ∈ found.transfers.rows) :=
    @matching_iff iac found preference item transfer amount isMember isRow isAmount
  have cleared (condition : Transfer → Bool) : sourced.view condition =
      (found.view condition).filter fun row =>
        !(iac.isFor item row.1 && preference.covers (choice row)) := by
    rw [isCleared, view_delete]
    refine List.filter_congr fun row isMember => ?_
    rcases mem_view.mp isMember with ⟨isRow, _, isOption⟩
    rw [removes row.1 isRow, IndividualAccountingController.removes, ← isOption]
  have sameNext : sourced.transfers.next = found.transfers.next := by rw [isCleared]; rfl
  rw [sameNext] at grows isNew
  have mine : (new.filter fun row => iac.isFor item row.1) = new := by
    rw [List.filter_eq_self]
    exact fun row isRow => (isNew row isRow).mine
  have isWritten : new.map choice = preference.writes := by
    refine writes_of_isNew given isAmount (fun value isValue => ?_) length isNew
    cases isValue
    rfl
  refine ⟨item, isItem, ?_, grows, ?_, ⟨new, ?_, isWritten,
    fun row isRow => ⟨(isNew row isRow).unpaid, (isNew row isRow).fresh⟩⟩, ?_, ?_,
    unprotected.congr removes⟩
  · rw [isCleared] at tables
    exact tables
  · have elsewhere : (new.filter fun row => !iac.isFor item row.1) = [] := by
      rw [List.filter_eq_nil_iff]
      intro row isRow
      simp [(isNew row isRow).mine]
    rw [views, cleared, elsewhere, List.append_nil, List.filter_eq_self]
    intro row isMember
    have notFor := (mem_view.mp isMember).2.1
    rw [Bool.not_eq_true'] at notFor
    simp [notFor]
  · rw [views, cleared, mine]
    refine congrArg (· ++ new) (List.filter_congr fun row isMember => ?_)
    rw [(mem_view.mp isMember).2.1, Bool.true_and]
  · intro row isRow
    rw [views, cleared, mine] at isRow
    rcases List.mem_append.mp isRow with isOld | isOwn
    · exact Or.inl (List.mem_of_mem_filter isOld)
    · exact Or.inr (isNew row isOwn).inside
  · rw [← isWritten, List.length_map, length]

theorem setPreference_returns {account : Account} {amount : Option ℚ}
    (isAccount : shop.account "receivable" = .ok account)
    (isItem : iac.lineitemtypeNamed preference.lineitemName shop.toDatabase = .ok item)
    (isAmount : preference.amount.mapM toPython = .ok amount)
    (isOption : ∀ id ∈ preference.optionId, ∃ option, shop.option id = .ok option)
    (stored : preference.quantity = 0 ∨
      ∃ value ∈ amount, ∃ amountDec, storedAmount value = .ok amountDec)
    (unprotected : Unprotected (iac.removes item preference shop) shop) :
    ∃ created after, iac.setPreferenceWithOption preference shop = (.ok created, after) := by
  have isMember := (lineitemtypeNamed_eq_ok isItem).2
  have isTransfers : onTables iac.getTransfers shop =
      (.ok (iac.transfers shop.toDatabase), shop) :=
    onTables_getTransfers.mpr ⟨⟨account, isAccount⟩, rfl, rfl⟩
  have deletes : removeTransfers
      (matching (iac.transfers shop.toDatabase) item amount preference.optionId) shop =
        (.ok ⟨⟩, { shop with
          transfers := shop.transfers.delete
            (matching (iac.transfers shop.toDatabase) item amount preference.optionId shop) }) := by
    refine deleteTransfers_eq_ok.mpr ⟨unprotected.congr fun transfer isRow => ?_, rfl⟩
    exact (@matching_iff iac shop preference item transfer amount isMember isRow isAmount).symm
  obtain ⟨option, found⟩ : ∃ option, preference.optionId.mapM shop.option = .ok option := by
    cases given : preference.optionId with
    | none => exact ⟨none, rfl⟩
    | some id =>
        rcases isOption id given with ⟨option, isFound⟩
        refine ⟨some option, ?_⟩
        rw [Option.mapM_some, isFound]
        rfl
  have finds : onTables defaultSourceAccount { shop with
      transfers := shop.transfers.delete
        (matching (iac.transfers shop.toDatabase) item amount preference.optionId shop) } =
        (.ok account, _) :=
    onTables_defaultSourceAccount.mpr ⟨isAccount, rfl⟩
  rw [setPreferenceWithOption]
  simp only [atomic_eq_ok]
  rw [read_bind, isItem, lift_ok_bind, isAmount, lift_ok_bind, bind_of_ok isTransfers,
    bind_of_ok deletes, found, lift_ok_bind, bind_of_ok finds]
  refine times_createPurchase_of_stored ?_
  rcases stored with none | ⟨value, isValue, isStored⟩
  · exact Or.inl none
  · cases isValue
    exact Or.inr isStored

end Setting

variable {iac : IndividualAccountingController} {shop after : Shop}

theorem lineitemtypeNamed_congr {name : String} (tables : shop.SameTables after) :
    iac.lineitemtypeNamed name after.toDatabase = iac.lineitemtypeNamed name shop.toDatabase := by
  rw [tables]
  rfl

end IndividualAccountingController

end EspWebsite.Accounting
