import EspWebsite.Accounting.Identifiers

/-!
# Payment notifications

What recording a payment does to the database, and what it does over a run of
notifications in any order.
-/

namespace EspWebsite.Accounting

open Python Tables Transactions Action Binary64

variable {iac : IndividualAccountingController} {db after start : Database}
  {payment transfer : Transfer} {linked : List Transfer} {amount : ℚ}
  {transactionId identifier transferList : List Char} {items : List ParsedItem}

/-! ## Marking transfers as paid -/

def markPaidIn (payment : Transfer) (linked : List Transfer) (transfer : Transfer) : Transfer :=
  if transfer ∈ linked then transfer.markPaid payment else transfer

theorem id_markPaidIn : (markPaidIn payment linked transfer).id = transfer.id := by
  rw [markPaidIn]
  split <;> rfl

/-- The database where some of the transfers have become paid. -/
def Database.link (db : Database) (payment : Transfer) (linked : List Transfer) : Database :=
  { db with transfers := db.transfers.mapRows (markPaidIn payment linked) fun _ => id_markPaidIn }

theorem Database.rows_link :
    (db.link payment linked).transfers.rows = db.transfers.rows.map (markPaidIn payment linked) :=
  rfl

theorem Database.link_nil : db.link payment [] = db := by
  refine Database.ext rfl rfl rfl rfl (Table.ext ?_ rfl) rfl rfl
  rw [rows_link]
  exact List.map_id'' (fun _ => if_neg List.not_mem_nil) _

theorem Database.save_link (isRow : transfer ∈ db.transfers.rows) :
    { db.link payment linked with
        transfers := (db.link payment linked).transfers.save (transfer.markPaid payment) } =
      db.link payment (linked ++ [transfer]) := by
  refine Database.ext rfl rfl rfl rfl (Table.ext ?_ rfl) rfl rfl
  rw [rows_link]
  simp only [Table.rows_save, rows_link, List.map_map]
  refine List.map_congr_left fun other isOther => ?_
  change (if (markPaidIn payment linked other).id = transfer.id then transfer.markPaid payment
    else markPaidIn payment linked other) = _
  rw [id_markPaidIn]
  split
  next same =>
    rw [Table.eq_of_key_eq isOther isRow same, markPaidIn,
      if_pos (List.mem_append_right _ (List.mem_singleton_self _))]
  next different =>
    have apart : other ≠ transfer := fun same => different (congrArg Transfer.id same)
    simp only [markPaidIn, List.mem_append, List.mem_singleton, apart, or_false]

/-! ## The parts -/

theorem defaultSourceAccount_eq_ok {account : Account} :
    defaultSourceAccount db = (.ok account, after) ↔
      db.account "receivable" = .ok account ∧ after = db := by
  simp only [defaultSourceAccount, read_bind, lift_apply, Prod.mk.injEq]
  exact and_congr_right fun _ => eq_comm

theorem submitPayment_eq_ok {linkTransfers : Bool} :
    iac.submitPayment amount transactionId linkTransfers db = (.ok payment, after) ↔
      ∃ account amountDec item start, db.account "receivable" = .ok account ∧
        formattedDecimal amount = .ok amountDec ∧
        iac.defaultPaymentsLineitemtype db = some item ∧
        createTransfer (iac.paymentTransfer account item amountDec transactionId)
          (iac.id_paymentTransfer account item amountDec transactionId) db =
            (.ok payment, start) ∧
        onlyIf linkTransfers (iac.linkPaidTransfers payment) start = (.ok ⟨⟩, after) := by
  rw [IndividualAccountingController.submitPayment, atomic_eq_ok, read_bind, Action.bind_eq_ok]
  constructor
  · rintro ⟨account, between, found, rest⟩
    rcases defaultSourceAccount_eq_ok.mp found with ⟨isAccount, rfl⟩
    rcases lift_bind_eq_ok.mp rest with ⟨amountDec, isAmount, created⟩
    cases isItem : iac.defaultPaymentsLineitemtype between with
    | none =>
        rw [isItem] at created
        cases created
    | some item =>
        rw [isItem] at created
        rcases Action.bind_eq_ok.mp created with ⟨made, start, isMade, linked⟩
        rcases Action.bind_eq_ok.mp linked with ⟨_, final, isLinked, returned⟩
        cases returned
        exact ⟨account, amountDec, item, start, isAccount, isAmount, rfl, isMade, isLinked⟩
  · rintro ⟨account, amountDec, item, start, isAccount, isAmount, isItem, isMade, isLinked⟩
    refine ⟨account, db, defaultSourceAccount_eq_ok.mpr ⟨isAccount, rfl⟩, ?_⟩
    refine lift_bind_eq_ok.mpr ⟨amountDec, isAmount, ?_⟩
    rw [isItem]
    refine Action.bind_eq_ok.mpr ⟨payment, start, isMade, ?_⟩
    exact Action.bind_eq_ok.mpr ⟨⟨⟩, after, isLinked, rfl⟩

theorem adjust_eq_ok {savedAmount : List Char} {adjusted : Transfer} :
    adjust transfer savedAmount false = .ok adjusted ↔
      transfer.amountDec.text = savedAmount ∧ adjusted = transfer := by
  rw [adjust]
  split
  next same =>
    rw [Except.ok.injEq, eq_comm]
    exact (and_iff_right same).symm
  next different =>
    constructor
    · intro raises
      cases raises
    · rintro ⟨same, _⟩
      exact absurd same different

theorem reconcileItem_eq_ok {program : Program} {paidLineItemIds : List ℤ} {item : ParsedItem}
    {state next : Reconciliation} :
    reconcileItem program payment paidLineItemIds false item state db = (.ok next, after) ↔
      ∃ transfer, (state.unpaidTransfers item.1)[
          pick item.2 (state.unpaidTransfers item.1)]? = some transfer ∧
        db.lineItemIs (fun lineItem => lineItem.program = program.id) transfer = true ∧
        transfer.amountDec.text = item.2 ∧
        after = { db with transfers := db.transfers.save (transfer.markPaid payment) } ∧
        next = {
          unpaidTransfers := Function.update state.unpaidTransfers item.1
            ((state.unpaidTransfers item.1).eraseIdx
              (pick item.2 (state.unpaidTransfers item.1)))
          transferTotal := state.transferTotal + transfer.amountDec.cents } := by
  rw [reconcileItem.eq_def]
  cases found : (state.unpaidTransfers item.1)[
      pick item.2 (state.unpaidTransfers item.1)]? with
  | none =>
      simp only [found, reduceCtorEq, false_and, exists_false, iff_false]
      split <;> exact fun raises => nomatch congrArg Prod.fst raises
  | some transfer =>
      simp only [found, Option.some.injEq, read_bind]
      split
      next elsewhere =>
        constructor
        · intro raises
          cases congrArg Prod.fst raises
        · rintro ⟨_, rfl, here, _⟩
          rw [here] at elsewhere
          cases elsewhere
      next here =>
        rw [lift_bind_eq_ok]
        have here : db.lineItemIs (fun lineItem => lineItem.program = program.id) transfer =
            true := by simpa using here
        constructor
        · rintro ⟨adjusted, isAdjusted, saved⟩
          rcases adjust_eq_ok.mp isAdjusted with ⟨same, rfl⟩
          cases saved
          exact ⟨adjusted, rfl, here, same, rfl, rfl⟩
        · rintro ⟨_, rfl, _, same, rfl, rfl⟩
          exact ⟨transfer, adjust_eq_ok.mpr ⟨same, rfl⟩, rfl⟩

/-- An unpaid transfer of the user, other than the new payment. -/
def IsCandidate (iac : IndividualAccountingController) (start : Database)
    (payment transfer : Transfer) : Prop :=
  transfer ∈ start.transfers.rows ∧ transfer.user = some iac.user ∧ transfer.paidIn = none ∧
    transfer.id ≠ payment.id

/-- Where the loop of the reconciliation is: the transfers it has linked so far, and those it
can still hand out. -/
structure Reconciled (iac : IndividualAccountingController) (start : Database)
    (payment : Transfer) (linked : List Transfer) (state : Reconciliation) (db : Database) :
    Prop where
  isLinked : db = start.link payment linked
  total : state.transferTotal = totalCents linked
  distinct : linked.Nodup
  wasUnpaid : ∀ transfer ∈ linked, IsCandidate iac start payment transfer
  remaining : ∀ id, ∀ transfer ∈ state.unpaidTransfers id,
    IsCandidate iac start payment transfer ∧ (transfer.lineItem : ℤ) = id ∧ transfer ∉ linked
  once : ∀ id, (state.unpaidTransfers id).Nodup

/-- An entry stands for a transfer with its line item and its amount. -/
def StandsFor (item : ParsedItem) (transfer : Transfer) : Prop :=
  (transfer.lineItem : ℤ) = item.1 ∧ transfer.amountDec.text = item.2

theorem mem_of_mem_eraseIdx {α : Type} {values : List α} {index : ℕ} {taken value : α}
    (distinct : values.Nodup) (found : values[index]? = some taken)
    (isLeft : value ∈ values.eraseIdx index) : value ∈ values ∧ value ≠ taken := by
  rcases List.mem_eraseIdx_iff_getElem?.mp isLeft with ⟨other, different, isOther⟩
  refine ⟨List.mem_of_getElem? isOther, ?_⟩
  rintro rfl
  rcases List.getElem?_eq_some_iff.mp found with ⟨inRange, _⟩
  exact different ((List.getElem?_inj inRange distinct).mp (found.trans isOther.symm)).symm

/-- An entry takes one of the transfers that can still be handed out. -/
theorem Reconciled.step {program : Program} {paidLineItemIds : List ℤ} {item : ParsedItem}
    {state next : Reconciliation} (reconciled : Reconciled iac start payment linked state db)
    (step : reconcileItem program payment paidLineItemIds false item state db =
      (.ok next, after)) :
    ∃ transfer, StandsFor item transfer ∧
      Reconciled iac start payment (linked ++ [transfer]) next after := by
  rcases reconcileItem_eq_ok.mp step with ⟨transfer, found, _, sameText, rfl, rfl⟩
  have available := List.mem_of_getElem? found
  rcases reconciled.remaining _ _ available with ⟨isCandidate, sameItem, fresh⟩
  refine ⟨transfer, ⟨sameItem, sameText⟩, ?_⟩
  have isLinked := reconciled.isLinked
  exact {
    isLinked := by
      rw [isLinked, Database.save_link isCandidate.1]
    total := by
      simp [totalCents, reconciled.total]
    distinct := by
      refine List.nodup_append.mpr ⟨reconciled.distinct, List.nodup_singleton _, ?_⟩
      intro earlier isEarlier other isOther same
      rw [List.mem_singleton.mp isOther] at same
      exact fresh (same ▸ isEarlier)
    wasUnpaid := by
      intro other isOther
      rcases List.mem_append.mp isOther with isEarlier | isLast
      · exact reconciled.wasUnpaid other isEarlier
      · rw [List.mem_singleton.mp isLast]
        exact isCandidate
    remaining := by
      intro id other isOther
      have left : other ∈ state.unpaidTransfers id ∧ other ≠ transfer := by
        rcases eq_or_ne id item.1 with rfl | different
        · dsimp only at isOther
          rw [Function.update_self] at isOther
          exact mem_of_mem_eraseIdx (reconciled.once item.1) found isOther
        · dsimp only at isOther
          rw [Function.update_of_ne different] at isOther
          refine ⟨isOther, ?_⟩
          rintro rfl
          have sameId := (reconciled.remaining id _ isOther).2.1
          exact different (sameId.symm.trans sameItem)
      rcases reconciled.remaining id other left.1 with ⟨isCandidate, same, fresh⟩
      refine ⟨isCandidate, same, fun isLinked => ?_⟩
      rcases List.mem_append.mp isLinked with isEarlier | isLast
      · exact fresh isEarlier
      · exact left.2 (List.mem_singleton.mp isLast)
    once := by
      intro id
      rcases eq_or_ne id item.1 with rfl | different
      · dsimp only
        rw [Function.update_self]
        exact (reconciled.once item.1).sublist (List.eraseIdx_sublist _ _)
      · dsimp only
        rw [Function.update_of_ne different]
        exact reconciled.once id }

theorem Reconciled.run {program : Program} {paidLineItemIds : List ℤ} {items : List ParsedItem}
    {state final : Reconciliation} (reconciled : Reconciled iac start payment linked state db)
    (run : forEach (reconcileItem program payment paidLineItemIds false) items state db =
      (.ok final, after)) :
    ∃ more, List.Forall₂ StandsFor items more ∧
      Reconciled iac start payment (linked ++ more) final after := by
  induction items generalizing linked state db with
  | nil =>
      cases run
      refine ⟨[], List.Forall₂.nil, ?_⟩
      rw [List.append_nil]
      exact reconciled
  | cons item items ih =>
      rcases forEach_cons_eq_ok.mp run with ⟨next, between, step, rest⟩
      rcases reconciled.step step with ⟨transfer, stands, reconciled⟩
      rcases ih reconciled rest with ⟨more, standFor, reconciled⟩
      refine ⟨transfer :: more, List.Forall₂.cons stands standFor, ?_⟩
      rw [List.append_cons]
      exact reconciled

/-! ## Recording a payment -/

/-- What recording a payment does: it links one unpaid transfer for each entry to a new
payment of their total, and changes nothing else. -/
structure Records (iac : IndividualAccountingController) (items : List ParsedItem)
    (amount : ℚ) (transactionId : List Char) (linked : List Transfer) (payment : Transfer)
    (db after : Database) : Prop where
  standFor : List.Forall₂ StandsFor items linked
  distinct : linked.Nodup
  wasUnpaid : ∀ transfer ∈ linked, IsCandidate iac db payment transfer
  isNew : ∀ transfer ∈ db.transfers.rows, transfer.id ≠ payment.id
  byUser : payment.user = some iac.user
  forPayments : ∃ item, iac.defaultPaymentsLineitemtype db = some item ∧
    payment.lineItem = item.id
  transaction : payment.transactionId = transactionId
  amount : formattedDecimal amount = .ok payment.amountDec
  total : payment.amountDec.cents = totalCents linked
  rows : after.transfers.rows = db.transfers.rows.map (markPaidIn payment linked) ++ [payment]
  others : after = { db with transfers := after.transfers }

theorem createTransfer_eq_ok {make : ℕ → Transfer} {keyed : ∀ id, (make id).id = id} :
    createTransfer make keyed db = (.ok payment, after) ↔
      payment = make db.transfers.next ∧
        after = { db with transfers := db.transfers.create make keyed } := by
  rw [createTransfer, Prod.mk.injEq, Except.ok.injEq, eq_comm, and_congr_right_iff]
  exact fun _ => eq_comm

theorem reconcile_eq_ok (run : reconcile iac payment transferList amount false start =
      (.ok ⟨⟩, after)) :
    ∃ items linked, parseItems transferList = .ok items ∧
      List.Forall₂ StandsFor items linked ∧ linked.Nodup ∧
      (∀ transfer ∈ linked, IsCandidate iac start payment transfer) ∧
      payment.amountDec.cents = totalCents linked ∧ after = start.link payment linked := by
  rw [reconcile] at run
  rcases lift_bind_eq_ok.mp run with ⟨items, parsed, rest⟩
  rw [read_bind] at rest
  rcases Action.bind_eq_ok.mp rest with ⟨final, between, loop, compared⟩
  have reconciled : Reconciled iac start payment [] {
      unpaidTransfers := fun lineItemId =>
        (candidates iac payment items start).filter fun candidate =>
          candidate.paidIn = none ∧ (candidate.lineItem : ℤ) = lineItemId
      transferTotal := 0 } start := {
    isLinked := Database.link_nil.symm
    total := rfl
    distinct := List.nodup_nil
    wasUnpaid := fun _ impossible => nomatch impossible
    remaining := by
      intro id transfer isMember
      simp only [candidates, List.mem_filter, decide_eq_true_eq] at isMember
      rcases isMember with ⟨⟨isRow, ofUser, _, notPayment⟩, unpaid, sameItem⟩
      exact ⟨⟨isRow, ofUser, unpaid, notPayment⟩, sameItem, List.not_mem_nil⟩
    once := fun id => (start.transfers.nodup_rows.filter _).filter _ }
  rcases reconciled.run loop with ⟨linked, standFor, reconciled⟩
  rw [List.nil_append] at reconciled
  split at compared
  next same =>
    cases compared
    exact ⟨items, linked, parsed, standFor, reconciled.distinct, reconciled.wasUnpaid,
      same.symm.trans reconciled.total, reconciled.isLinked⟩
  next => cases congrArg Prod.fst compared

theorem fromId_eq_ok {id : List Char} :
    fromId id db = (.ok iac, after) ↔ after = db ∧
      (getItem (id.splitOn '/') 0 >>= getById "Program" db.programs.get?) = .ok iac.program ∧
      (getItem (id.splitOn '/') 1 >>=
        getById "ESPUser" fun id => db.users.find? fun user => user = id) = .ok iac.user := by
  simp only [fromId, read_bind, lift_bind_eq_ok, Python.bind_eq_ok]
  constructor
  · rintro ⟨programId, isProgramId, program, isProgram, userId, isUserId, user, isUser, done⟩
    cases done
    exact ⟨rfl, ⟨programId, isProgramId, isProgram⟩, userId, isUserId, isUser⟩
  · rintro ⟨rfl, ⟨programId, isProgramId, isProgram⟩, userId, isUserId, isUser⟩
    exact ⟨programId, isProgramId, iac.program, isProgram, userId, isUserId, iac.user, isUser, rfl⟩

/-- An identifier stands for a program and a user, and for entries. -/
def Identifies (identifier : List Char) (db : Database) (iac : IndividualAccountingController)
    (items : List ParsedItem) : Prop :=
  ∃ id transferList, identifier.splitOn ':' = [id, transferList] ∧
    fromId id db = (.ok iac, db) ∧ parseItems transferList = .ok items

theorem recordPayment_records
    (recorded : recordPaymentFromIdentifier identifier amount transactionId false db =
      (.ok payment, after)) :
    ∃ iac items linked, Identifies identifier db iac items ∧
      (transactionId = [] ∨ isRecorded iac transactionId db = false) ∧
      Records iac items amount transactionId linked payment db after := by
  rw [recordPaymentFromIdentifier, atomic_eq_ok] at recorded
  rcases lift_bind_eq_ok.mp recorded with ⟨⟨id, transferList⟩, split, parsed⟩
  rcases Action.bind_eq_ok.mp parsed with ⟨iac, between, isController, locked⟩
  rcases fromId_eq_ok.mp isController with ⟨rfl, _⟩
  rw [read_bind] at locked
  split at locked
  next => cases congrArg Prod.fst locked
  next notRecorded =>
    rcases Action.bind_eq_ok.mp locked with ⟨submitted, start, isSubmitted, rest⟩
    rcases Action.bind_eq_ok.mp rest with ⟨_, final, reconciled, returned⟩
    cases returned
    rcases submitPayment_eq_ok.mp isSubmitted with
      ⟨account, amountDec, item, _, _, isAmount, isItem, created, unlinked⟩
    cases unlinked
    rcases createTransfer_eq_ok.mp created with ⟨isPayment, rfl⟩
    rcases reconcile_eq_ok reconciled with
      ⟨items, linked, parsed, standFor, distinct, wasUnpaid, total, isAfter⟩
    have isNew : ∀ transfer ∈ between.transfers.rows, transfer.id ≠ payment.id := by
      intro transfer isRow same
      have before := between.transfers.below transfer isRow
      rw [isPayment] at same
      exact absurd before (by change ¬transfer.id < _; rw [same]; exact lt_irrefl _)
    have notLinked : payment ∉ linked := fun isLinked => (wasUnpaid payment isLinked).2.2.2 rfl
    refine ⟨iac, items, linked,
      ⟨id, transferList, unpackPair_eq_ok.mp split, isController, parsed⟩, ?_, ?_⟩
    · rcases not_and_or.mp notRecorded with empty | fresh
      · exact Or.inl (not_not.mp empty)
      · exact Or.inr (Bool.not_eq_true _ ▸ fresh)
    · exact {
        standFor := standFor
        distinct := distinct
        wasUnpaid := by
          intro transfer isLinked
          rcases wasUnpaid transfer isLinked with ⟨isRow, ofUser, unpaid, different⟩
          refine ⟨?_, ofUser, unpaid, different⟩
          rcases List.mem_append.mp isRow with isOld | isPayment'
          · exact isOld
          · rw [List.mem_singleton.mp isPayment', isPayment] at different
            exact absurd rfl different
        isNew := isNew
        byUser := congrArg Transfer.user isPayment
        forPayments := ⟨item, isItem, congrArg Transfer.lineItem isPayment⟩
        transaction := congrArg Transfer.transactionId isPayment
        amount := by
          rw [isPayment]
          exact isAmount
        total := total
        rows := by
          rw [isAfter, Database.rows_link, Table.rows_create, List.map_append, ← isPayment,
            List.map_singleton]
          rw [markPaidIn, if_neg notLinked]
        others := by rw [isAfter]; rfl }

theorem recordPayment_raises {raised : PyError} {trusted : Bool}
    (raises : recordPaymentFromIdentifier identifier amount transactionId trusted db =
      (.error raised, after)) : after = db :=
  (atomic_eq_error.mp raises).2

/-! ## Transactions -/

/-- A payment of the user to the program that carries a transaction id. -/
def IsPaymentWith (iac : IndividualAccountingController) (transactionId : List Char)
    (db : Database) (transfer : Transfer) : Prop :=
  transfer.user = some iac.user ∧
    db.lineItemIs (fun item => item.program = iac.program.id ∧ item.forPayments) transfer ∧
    transfer.transactionId = transactionId

instance : DecidablePred (IsPaymentWith iac transactionId db) := fun _ =>
  inferInstanceAs (Decidable (_ ∧ _ ∧ _))

/-- The payments of a user to a program that carry a transaction id. -/
def paymentsWith (iac : IndividualAccountingController) (transactionId : List Char)
    (db : Database) : List Transfer :=
  db.transfers.rows.filter fun transfer => IsPaymentWith iac transactionId db transfer

theorem paymentsWith_eq_nil_iff :
    paymentsWith iac transactionId db = [] ↔ isRecorded iac transactionId db = false := by
  rw [paymentsWith, isRecorded, List.filter_eq_nil_iff, List.any_eq_false]
  rfl

theorem mem_of_defaultPaymentsLineitemtype {item : LineItemType}
    (isItem : iac.defaultPaymentsLineitemtype db = some item) :
    item ∈ db.lineItemTypes.rows ∧ item.program = iac.program.id ∧ item.forPayments = true := by
  have isMember := List.mem_of_getLast? isItem
  simpa using isMember

/-- A transaction that is recorded twice was recorded twice before. -/
theorem length_paymentsWith_le {items : List ParsedItem} {recorder : IndividualAccountingController}
    {recorded : List Char} (nonempty : transactionId ≠ [])
    (fresh : recorded = [] ∨ isRecorded recorder recorded db = false)
    (records : Records recorder items amount recorded linked payment db after) :
    (paymentsWith iac transactionId after).length ≤
      max 1 (paymentsWith iac transactionId db).length := by
  have sameItems : after.lineItemTypes = db.lineItemTypes := by rw [records.others]
  have kept (transfer : Transfer) : IsPaymentWith iac transactionId after
      (markPaidIn payment linked transfer) ↔ IsPaymentWith iac transactionId db transfer := by
    rw [markPaidIn, IsPaymentWith, IsPaymentWith, Database.lineItemIs, Database.lineItemIs,
      sameItems]
    split <;> rfl
  have rows : paymentsWith iac transactionId after =
      (paymentsWith iac transactionId db).map (markPaidIn payment linked) ++
        [payment].filter fun transfer => IsPaymentWith iac transactionId after transfer := by
    rw [paymentsWith, records.rows, List.filter_append, List.filter_map]
    congr 2
    refine List.filter_congr fun transfer _ => ?_
    exact decide_eq_decide.mpr (kept transfer)
  rw [rows, List.length_append, List.length_map, List.filter_singleton]
  cases isPayment : decide (IsPaymentWith iac transactionId after payment) with
  | true =>
    rcases of_decide_eq_true isPayment with ⟨byUser, ofProgram, sameId⟩
    rcases records.forPayments with ⟨item, isItem, isLineItem⟩
    rcases lineItemIs_iff.mp ofProgram with ⟨other, isOther, sameItem, holds⟩
    rcases mem_of_defaultPaymentsLineitemtype isItem with ⟨isRow, program, _⟩
    rw [sameItems] at isOther
    have same : other = item := Table.eq_of_key_eq isOther isRow (sameItem.trans isLineItem)
    rw [same, decide_eq_true_eq] at holds
    have sameUser : iac.user = recorder.user :=
      Option.some.inj (byUser.symm.trans records.byUser)
    have sameProgram : iac.program.id = recorder.program.id := holds.1.symm.trans program
    have sameTransaction : recorded = transactionId := records.transaction.symm.trans sameId
    have noneBefore : paymentsWith iac transactionId db = [] := by
      have unrecorded := fresh.resolve_left (sameTransaction ▸ nonempty)
      rw [sameTransaction, ← paymentsWith_eq_nil_iff] at unrecorded
      rw [← unrecorded]
      refine List.filter_congr fun transfer _ => decide_eq_decide.mpr ?_
      rw [IsPaymentWith, IsPaymentWith, sameUser, sameProgram]
    rw [noneBefore]
    exact Nat.le_max_left ..
  | false => exact Nat.le_max_right ..

structure Notification where
  identifier : List Char
  amountPaid : ℚ
  transactionId : List Char

def Notification.record (notification : Notification) : Action Database Transfer :=
  recordPaymentFromIdentifier notification.identifier notification.amountPaid
    notification.transactionId false

/-- The database after some notifications, whether they are recorded or raise. -/
def afterNotifications (notifications : List Notification) (db : Database) : Database :=
  notifications.foldl (fun db notification => (notification.record db).2) db

theorem length_paymentsWith_record_le (notification : Notification) (db : Database)
    (nonempty : transactionId ≠ []) :
    (paymentsWith iac transactionId (notification.record db).2).length ≤
      max 1 (paymentsWith iac transactionId db).length := by
  rcases outcome : notification.record db with ⟨payment | payment, after⟩
  · rw [recordPayment_raises outcome]
    exact Nat.le_max_right ..
  · rcases recordPayment_records outcome with ⟨_, _, _, _, fresh, records⟩
    exact length_paymentsWith_le nonempty fresh records

theorem length_paymentsWith_afterNotifications_le (notifications : List Notification)
    (db : Database) (nonempty : transactionId ≠ []) :
    (paymentsWith iac transactionId (afterNotifications notifications db)).length ≤
      max 1 (paymentsWith iac transactionId db).length := by
  induction notifications generalizing db with
  | nil => exact Nat.le_max_right ..
  | cons notification rest ih =>
      have step := @length_paymentsWith_record_le iac transactionId notification db nonempty
      have run := ih (notification.record db).2
      exact run.trans (max_le (Nat.le_max_left ..) step)

/-- What happens at each step of a run of notifications: one that is recorded links an unpaid
transfer for each of its entries, one that raises changes nothing, and no transaction is
recorded twice for a user and a program. -/
theorem notifications_recordOnce (db : Database) (earlier : List Notification)
    (notification : Notification) :
    let before := afterNotifications earlier db
    (∀ payment after, notification.record before = (.ok payment, after) →
      ∃ iac items linked, Identifies notification.identifier before iac items ∧
        Records iac items notification.amountPaid notification.transactionId linked payment before
          after) ∧
    (∀ raised after, notification.record before = (.error raised, after) → after = before) ∧
    (∀ iac transactionId, transactionId ≠ [] →
      (paymentsWith iac transactionId (notification.record before).2).length ≤
        max 1 (paymentsWith iac transactionId db).length) := by
  intro before
  refine ⟨?_, ?_, ?_⟩
  · intro payment after recorded
    rcases recordPayment_records recorded with ⟨iac, items, linked, identifies, _, records⟩
    exact ⟨iac, items, linked, identifies, records⟩
  · intro raised after raises
    exact recordPayment_raises raises
  · intro iac transactionId nonempty
    have run := @length_paymentsWith_afterNotifications_le iac transactionId
      (earlier ++ [notification]) db nonempty
    rw [afterNotifications, List.foldl_append] at run
    exact run

/-! ## Two users with one transaction -/

namespace Sample

/-- A program without a sibling discount. -/
def splash : Program := { id := 1, siblingDiscount := 0 }

def dollars (amount : ℕ) (fits : amount < 10 ^ 7 := by decide) : Amount where
  cents := 100 * amount
  fits := by
    rw [abs_of_nonneg (by positivity)]
    omega

theorem ten_fits : 10 < 10 ^ 7 := by decide

theorem fifteen_fits : 15 < 10 ^ 7 := by decide

theorem zero_fits : 0 < 10 ^ 7 := by decide

def lineItemTypes : Table LineItemType where
  rows := [
    { id := 1, text := "Program admission", amountDec := dollars 10, program := 1,
      required := true, forPayments := false, forFinaid := true },
    { id := 2, text := "Student payment", amountDec := dollars 0, program := 1,
      required := false, forPayments := true, forFinaid := false },
    { id := 3, text := "T-shirt", amountDec := dollars 15, program := 1,
      required := false, forPayments := false, forFinaid := false }]
  next := 4
  ordered := by decide
  below := by decide

def accounts : Accounts where
  rows := [
    { id := 1, name := "receivable", program := none },
    { id := 2, name := "payable", program := none },
    { id := 3, name := "grants", program := none },
    { id := 4, name := "splash", program := some 1 }]
  next := 5
  ordered := by decide
  below := by decide
  receivableGlobal := by decide

def charge (id user lineItem : ℕ) (amountDec : Amount) : Transfer :=
  { id, source := some 1, destination := some 4, user := some user, lineItem, amountDec,
    transactionId := [], paidIn := none }

/-- The program, two students and what they have been charged. -/
def database (transfers : Table Transfer) : Database where
  programs := { rows := [splash], next := 2, ordered := by decide, below := by decide }
  users := [7, 8]
  lineItemTypes := lineItemTypes
  accounts := accounts
  transfers := transfers
  grants := []
  splashInfos := { rows := [], next := 1, ordered := Table.ordered_nil, below := by decide }

def twoStudents : Database := database {
  rows := [charge 1 7 1 (dollars 10), charge 2 8 1 (dollars 10)]
  next := 3
  ordered := by decide
  below := by decide }

def notifications : List Notification := [
  { identifier := "1/7:1,10.00".toList, amountPaid := 10, transactionId := "t".toList },
  { identifier := "1/8:1,10.00".toList, amountPaid := 10, transactionId := "t".toList }]

/-- The payments that carry a transaction id, of whichever user and program. -/
def paymentsOf (transactionId : List Char) (db : Database) : List Transfer :=
  db.transfers.rows.filter fun transfer =>
    db.lineItemIs LineItemType.forPayments transfer ∧ transfer.transactionId = transactionId

/-- A transaction is recorded for two users. -/
theorem notifications_sharedTransaction :
    (paymentsOf "t".toList twoStudents).length = 0 ∧
      (paymentsOf "t".toList (afterNotifications notifications twoStudents)).length = 2 := by
  decide +kernel

end Sample

end EspWebsite.Accounting
