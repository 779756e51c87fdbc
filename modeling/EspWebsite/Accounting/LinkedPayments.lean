import EspWebsite.Accounting.AmountDue

/-!
# Paying the amount due

`submit_payment` with `link_paid_transfers`: when a payment of exactly the amount due goes
through, and what it links.
-/

namespace EspWebsite.Accounting

open Python Tables Transactions Action Binary64

namespace IndividualAccountingController

variable {iac : IndividualAccountingController} {db start after : Database}
  {item : LineItemType} {account : Account} {payment transfer : Transfer}
  {linked charges : List Transfer} {target total : ℚ}

/-! ## The loop -/

/-- The amounts of transfers, as binary numbers. -/
def floats (transfers : List Transfer) : List ℚ :=
  transfers.map fun transfer => transfer.amountDec.toFloat

/-- The transfers that are not paid. -/
def unpaid (transfers : List Transfer) : List Transfer :=
  transfers.filter fun transfer => transfer.paidIn = none

theorem link_charge (inTable : transfer ∈ start.transfers.rows) :
    onlyIf (transfer.paidIn = none) (transfer.markPaid payment).save (start.link payment linked) =
      (.ok ⟨⟩, start.link payment (linked ++ unpaid [transfer])) := by
  rw [onlyIf]
  split
  next isUnpaid =>
    have only : unpaid [transfer] = [transfer] :=
      List.filter_cons_of_pos (decide_eq_true isUnpaid)
    rw [only]
    exact congrArg (Prod.mk _) (Database.save_link inTable)
  next isPaid =>
    have none : unpaid [transfer] = [] := List.filter_cons_of_neg (by simpa using isPaid)
    rw [none, List.append_nil]
    rfl

/-- The loop links the unpaid transfers up to the one with which the total reaches the
target. -/
theorem linkUntil_spec (inTable : ∀ charge ∈ charges, charge ∈ start.transfers.rows) :
    linkUntil payment target charges total (start.link payment linked) =
      (.ok (sumFrom total ((floats charges).take (countUntil target total (floats charges)))),
        start.link payment
          (linked ++ unpaid (charges.take (countUntil target total (floats charges))))) := by
  induction charges generalizing total linked with
  | nil =>
      rw [List.take_nil, unpaid, List.filter_nil, List.append_nil]
      rfl
  | cons charge rest ih =>
      rw [linkUntil, bind_of_ok (link_charge (inTable charge (List.mem_cons_self ..)))]
      have split : floats (charge :: rest) = charge.amountDec.toFloat :: floats rest := rfl
      rw [split, countUntil]
      split
      next =>
        rw [List.take_succ_cons, List.take_succ_cons, List.take_zero, List.take_zero]
        rfl
      next =>
        rw [ih fun other isRest => inTable other (List.mem_cons_of_mem _ isRest),
          List.take_succ_cons, List.take_succ_cons, sumFrom_cons, List.append_assoc]
        rw [unpaid, unpaid, unpaid, ← List.filter_append, List.singleton_append]

/-- What the payments, the discount and the aid come to, without what was refunded. -/
def targetFull (iac : IndividualAccountingController) (db : Database) : ℤ :=
  iac.amountPaid db + iac.siblingdiscount db + iac.finaidIn db - iac.refunded db

theorem mem_linkable (isLinkable : transfer ∈ iac.linkable db) : transfer ∈ db.transfers.rows :=
  List.mem_of_mem_filter (List.mem_of_mem_filter isLinkable)

theorem linkPaidTransfers_eq_ok (settled : iac.IsSettled start) :
    iac.linkPaidTransfers payment start = (.ok ⟨⟩, after) ↔
      ∃ count, FirstReaches ((iac.targetFull start : ℚ) / 100) 0 (floats (iac.linkable start))
          count ∧
        after = start.link payment (unpaid ((iac.linkable start).take count)) := by
  rcases settled.receivable with ⟨account, isAccount⟩
  have getTransfers : iac.getTransfers start = (.ok (iac.transfers start), start) := by
    rw [IndividualAccountingController.getTransfers,
      bind_of_ok (defaultSourceAccount_eq_ok.mpr ⟨isAccount, rfl⟩)]
    rfl
  have loop := @linkUntil_spec start payment [] (iac.linkable start)
    ((iac.targetFull start : ℚ) / 100) 0 (fun _ => mem_linkable)
  rw [Database.link_nil, List.nil_append] at loop
  have finaid := @amountFinaid_of_isSettled iac start settled none (fun _ impossible =>
    nomatch impossible)
  rw [linkPaidTransfers, atomic_eq_ok, bind_of_ok getTransfers, read_bind,
    bind_of_ok (amountSiblingdiscount_of_isSettled settled), bind_of_ok finaid,
    bind_of_ok (amountRefunded_of_isSettled settled), read_bind, ← targetFull, bind_of_ok loop]
  constructor
  · intro returned
    split at returned
    next exact =>
      cases returned
      exact ⟨_, firstReaches_of_eq exact, rfl⟩
    next => cases congrArg Prod.fst returned
  · rintro ⟨count, reaches, rfl⟩
    rw [← reaches.count_eq, if_pos reaches.reached]
    rfl

theorem refunded_congr (others : after = { db with transfers := after.transfers })
    (same : ∀ item account, totalCents (iac.refunds item account after) =
      totalCents (iac.refunds item account db)) :
    iac.refunded after = iac.refunded db := by
  have sameItems : iac.refundLineitemtypes after = iac.refundLineitemtypes db := by
    rw [others]
    rfl
  have sameAccount : after.account "payable" = db.account "payable" := by
    rw [others]
    rfl
  rw [refunded, refunded, sameItems, sameAccount]
  split
  next => rw [same]
  next => rfl

/-! ## The new payment -/

section Payment

variable {amountDec : Amount} {transactionId : List Char}

def withPayment (iac : IndividualAccountingController) (db : Database) (account : Account)
    (item : LineItemType) (amountDec : Amount) (transactionId : List Char) : Database :=
  { db with
    transfers := db.transfers.create (iac.paymentTransfer account item amountDec transactionId)
      (iac.id_paymentTransfer account item amountDec transactionId) }

variable (isAccount : db.account "receivable" = .ok account)
  (isItem : iac.defaultPaymentsLineitemtype db = some item)

theorem rows_withPayment :
    (iac.withPayment db account item amountDec transactionId).transfers.rows =
      db.transfers.rows ++
        [iac.paymentTransfer account item amountDec transactionId db.transfers.next] := rfl

include isAccount in
theorem requested_withPayment {forFinaidOnly : Bool} :
    iac.requested forFinaidOnly (iac.withPayment db account item amountDec transactionId) =
      iac.requested forFinaidOnly db := by
  have elsewhere := @defaultProgramAccount_ne iac db account isAccount
  rw [requested, rows_withPayment, List.filter_append, List.filter_cons_of_neg,
    List.filter_nil, List.append_nil]
  · rfl
  · rw [decide_eq_true_eq]
    rintro ⟨_, toProgram, _⟩
    exact elsewhere toProgram.symm

include isItem in
theorem amountPaid_withPayment :
    iac.amountPaid (iac.withPayment db account item amountDec transactionId) =
      iac.amountPaid db + amountDec.cents := by
  have isPaid : iac.payments (iac.withPayment db account item amountDec transactionId) =
      iac.payments db ++
        [iac.paymentTransfer account item amountDec transactionId db.transfers.next] := by
    have sameItem : iac.defaultPaymentsLineitemtype
        (iac.withPayment db account item amountDec transactionId) = some item := isItem
    rw [payments, payments, rows_withPayment, List.filter_append, sameItem, isItem,
      List.filter_cons_of_pos (by simp [paymentTransfer]), List.filter_nil]
  rw [amountPaid, amountPaid, isPaid, totalCents, totalCents, List.map_append, List.sum_append]
  exact congrArg _ (List.sum_singleton ..)

theorem refunded_withPayment :
    iac.refunded (iac.withPayment db account item amountDec transactionId) = iac.refunded db := by
  have noRefund (refundItem : LineItemType) (payableAccount : Account) :
      iac.refunds refundItem payableAccount
        (iac.withPayment db account item amountDec transactionId) =
          iac.refunds refundItem payableAccount db := by
    rw [refunds, refunds, rows_withPayment, List.filter_append,
      List.filter_cons_of_neg (by simp [paymentTransfer]), List.filter_nil, List.append_nil]
  exact refunded_congr rfl fun refundItem payable => by rw [noRefund]

theorem ne_of_isRequired {required : LineItemType}
    (isItem : iac.defaultPaymentsLineitemtype db = some item)
    (isMember : required ∈ iac.getLineitemtypes true db) : item.id ≠ required.id := by
  rcases mem_of_defaultPaymentsLineitemtype isItem with ⟨isRow, _, isForPayments⟩
  rcases mem_getLineitemtypes isMember with ⟨isRequired, query⟩
  intro sameId
  have same : item = required := Table.eq_of_key_eq isRow isRequired sameId
  rw [lineitemtypesQ, decide_eq_true_eq] at query
  have notForPayments := (query.2.2.2 rfl).2
  rw [← same, isForPayments] at notForPayments
  cases notForPayments

include isItem in
theorem isSettled_withPayment (settled : iac.IsSettled db) :
    iac.IsSettled (iac.withPayment db account item amountDec transactionId) := by
  refine { settled with ensured := ?_ }
  intro required isMember
  have different := ne_of_isRequired isItem isMember
  have sameTransfers : iac.transfersFor
      (iac.withPayment db account item amountDec transactionId) required =
        iac.transfersFor db required := by
    refine transfersFor_create.trans ?_
    rw [List.filter_cons_of_neg (by simp [paymentTransfer, different]), List.filter_nil,
      List.append_nil]
  rw [IsEnsured, sameTransfers]
  exact settled.ensured required isMember

theorem not_isLinkable_payment (isItem : iac.defaultPaymentsLineitemtype db = some item)
    (sameItem : transfer.lineItem = item.id) :
    db.lineItemIs (fun item => !item.forPayments && decide (item.text ∉ finaidItems)) transfer =
      false := by
  rcases mem_of_defaultPaymentsLineitemtype isItem with ⟨isRow, _, isForPayments⟩
  have found : db.lineItemTypes.get? item.id = some item := Table.get?_eq_some.mpr ⟨isRow, rfl⟩
  rw [Database.lineItemIs, sameItem, found]
  simp [isForPayments]

include isItem in
theorem linkable_withPayment :
    iac.linkable (iac.withPayment db account item amountDec transactionId) = iac.linkable db := by
  have notLinkable := @not_isLinkable_payment iac db item
    (iac.paymentTransfer account item amountDec transactionId db.transfers.next) isItem rfl
  rw [linkable, transfers, rows_withPayment, List.filter_append, List.filter_append]
  refine (congrArg (HAppend.hAppend _) (List.filter_eq_nil_iff.mpr ?_)).trans
    (List.append_nil _)
  intro other isMember
  rw [List.mem_singleton.mp (List.mem_of_mem_filter isMember)]
  exact Bool.eq_false_iff.mp notLinkable

include isAccount in
theorem finaidIn_withPayment :
    iac.finaidIn (iac.withPayment db account item amountDec transactionId) = iac.finaidIn db := by
  rw [finaidIn, requested_withPayment isAccount]
  rfl

include isAccount isItem in
theorem dueIn_withPayment :
    iac.dueIn (iac.withPayment db account item amountDec transactionId) =
      iac.dueIn db - amountDec.cents := by
  have sameSibling : iac.siblingdiscount
      (iac.withPayment db account item amountDec transactionId) = iac.siblingdiscount db := rfl
  rw [dueIn, dueIn, amountRequestedIn, requested_withPayment isAccount,
    finaidIn_withPayment isAccount, amountPaid_withPayment isItem, sameSibling,
    refunded_withPayment, amountRequestedIn]
  ring

include isAccount isItem in
theorem targetFull_withPayment (isDue : amountDec.cents = iac.dueIn db) :
    iac.targetFull (iac.withPayment db account item amountDec transactionId) =
      iac.amountRequestedIn db := by
  have sameSibling : iac.siblingdiscount
      (iac.withPayment db account item amountDec transactionId) = iac.siblingdiscount db := rfl
  rw [targetFull, amountPaid_withPayment isItem, sameSibling, finaidIn_withPayment isAccount,
    refunded_withPayment, isDue, dueIn]
  ring

end Payment

/-! ## The links -/

/-- A list of transfers that a condition selects, after some have become paid. -/
theorem filter_rows_link {condition condition' : Transfer → Bool}
    (same : ∀ transfer paidIn,
      condition' { transfer with paidIn := paidIn } = condition transfer) :
    (db.link payment linked).transfers.rows.filter condition' =
      (db.transfers.rows.filter condition).map (markPaidIn payment linked) := by
  rw [Database.rows_link, List.filter_map]
  refine congrArg _ (List.filter_congr fun transfer _ => ?_)
  rw [Function.comp_apply, markPaidIn]
  split
  next => exact same transfer (some payment.id)
  next => exact same transfer transfer.paidIn

theorem amountDec_markPaidIn :
    (markPaidIn payment linked transfer).amountDec = transfer.amountDec := by
  rw [markPaidIn]
  split <;> rfl

theorem totalCents_map_markPaidIn {transfers : List Transfer} :
    totalCents (transfers.map (markPaidIn payment linked)) = totalCents transfers := by
  rw [totalCents, totalCents, List.map_map]
  refine congrArg List.sum (List.map_congr_left fun transfer _ => ?_)
  rw [Function.comp_apply, amountDec_markPaidIn]

theorem requested_link {forFinaidOnly : Bool} :
    iac.requested forFinaidOnly (db.link payment linked) =
      (iac.requested forFinaidOnly db).map (markPaidIn payment linked) :=
  filter_rows_link fun _ _ => rfl

theorem amountPaid_link : iac.amountPaid (db.link payment linked) = iac.amountPaid db :=
  (congrArg totalCents (filter_rows_link fun _ _ => rfl)).trans totalCents_map_markPaidIn

theorem refunded_link : iac.refunded (db.link payment linked) = iac.refunded db := by
  have sameRefunds (item : LineItemType) (account : Account) :
      totalCents (iac.refunds item account (db.link payment linked)) =
        totalCents (iac.refunds item account db) :=
    (congrArg totalCents (filter_rows_link fun _ _ => rfl)).trans totalCents_map_markPaidIn
  exact refunded_congr rfl sameRefunds

theorem dueIn_link : iac.dueIn (db.link payment linked) = iac.dueIn db := by
  have sameSibling : iac.siblingdiscount (db.link payment linked) = iac.siblingdiscount db := rfl
  have sameFinaid : iac.finaidIn (db.link payment linked) = iac.finaidIn db := by
    rw [finaidIn, requested_link, totalCents_map_markPaidIn, sameSibling]
    rfl
  rw [dueIn, amountRequestedIn, requested_link, totalCents_map_markPaidIn, sameFinaid, sameSibling,
    amountPaid_link, refunded_link]
  rfl

theorem isSettled_link (settled : iac.IsSettled db) : iac.IsSettled (db.link payment linked) := by
  refine { settled with ensured := ?_ }
  intro item isMember
  rcases settled.ensured item isMember with ⟨transfer, latest, isDone⟩
  have sameTransfers : iac.transfersFor (db.link payment linked) item =
      (iac.transfersFor db item).map (markPaidIn payment linked) :=
    filter_rows_link fun _ _ => rfl
  refine ⟨markPaidIn payment linked transfer, ?_, ?_⟩
  · rw [sameTransfers, List.getLast?_map, latest, Option.map_some]
  · rw [markPaidIn]
    split
    next => exact Or.inl rfl
    next => exact isDone

/-! ## Paying what is due -/

def IsPaidUp (iac : IndividualAccountingController) (db : Database) : Prop :=
  ∀ transfer ∈ iac.requested false db, transfer.amountDec.cents ≠ 0 →
    transfer.paidIn.isSome = true

theorem isPaidUp_link_iff :
    iac.IsPaidUp (db.link payment (unpaid charges)) ↔
      ∀ transfer ∈ iac.requested false db, transfer.amountDec.cents ≠ 0 →
        transfer.paidIn.isSome = true ∨ transfer ∈ charges := by
  have isPaid (transfer : Transfer) :
      (markPaidIn payment (unpaid charges) transfer).paidIn.isSome = true ↔
        transfer.paidIn.isSome = true ∨ transfer ∈ charges := by
    rw [markPaidIn]
    split
    next isLinked => exact iff_of_true rfl (Or.inr (List.mem_of_mem_filter isLinked))
    next notLinked =>
      constructor
      · exact Or.inl
      · rintro (isPaid | isCharge)
        · exact isPaid
        · rw [Option.isSome_iff_ne_none]
          intro isUnpaid
          exact notLinked (List.mem_filter.mpr ⟨isCharge, decide_eq_true isUnpaid⟩)
  rw [IsPaidUp, requested_link, List.forall_mem_map]
  refine forall₂_congr fun transfer _ => ?_
  rw [isPaid, amountDec_markPaidIn]

section Due

variable {due : ℤ} {amountDec : Amount} {transactionId : List Char}

theorem submitPayment_due_eq_ok (settled : iac.IsSettled db) (isDue : due = iac.dueIn db) :
    iac.submitPayment (due / 100) transactionId true db = (.ok payment, after) ↔
      ∃ account item amountDec count, db.account "receivable" = .ok account ∧
        iac.defaultPaymentsLineitemtype db = some item ∧ amountDec.cents = due ∧
        payment = iac.paymentTransfer account item amountDec transactionId db.transfers.next ∧
        FirstReaches ((iac.amountRequestedIn db : ℚ) / 100) 0 (floats (iac.linkable db)) count ∧
        after = (iac.withPayment db account item amountDec transactionId).link payment
          (unpaid ((iac.linkable db).take count)) := by
  rw [submitPayment_eq_ok]
  constructor
  · rintro ⟨account, amountDec, item, start, isAccount, isAmount, isItem, created, links⟩
    rcases createTransfer_eq_ok.mp created with ⟨isPayment, rfl⟩
    have exact := formattedDecimal_eq_ok.mp isAmount
    rw [onlyIf, if_pos rfl] at links
    rcases (linkPaidTransfers_eq_ok (isSettled_withPayment isItem settled)).mp links with
      ⟨count, reaches, isAfter⟩
    rw [targetFull_withPayment isAccount isItem (exact.trans isDue),
      linkable_withPayment isItem] at reaches
    rw [linkable_withPayment isItem] at isAfter
    exact ⟨account, item, amountDec, count, isAccount, isItem, exact, isPayment, reaches, isAfter⟩
  · rintro ⟨account, item, amountDec, count, isAccount, isItem, exact, isPayment, reaches, isAfter⟩
    refine ⟨account, amountDec, item, iac.withPayment db account item amountDec transactionId,
      isAccount, formattedDecimal_eq_ok.mpr exact, isItem,
      createTransfer_eq_ok.mpr ⟨isPayment, rfl⟩, ?_⟩
    rw [onlyIf, if_pos rfl]
    refine (linkPaidTransfers_eq_ok (isSettled_withPayment isItem settled)).mpr ⟨count, ?_, ?_⟩
    · rw [targetFull_withPayment isAccount isItem (exact.trans isDue),
        linkable_withPayment isItem]
      exact reaches
    · rw [linkable_withPayment isItem]
      exact isAfter

/-- A payment of the amount due goes through, leaves nothing due and every requested transfer
paid, exactly if the amounts come to what is requested when they are added as binary numbers.
Links that fail change nothing. -/
theorem submitPayment_due_iff {earlier : Database}
    (shown : iac.amountDue earlier = (.ok due, db)) (transactionId : List Char) :
    ((∃ payment after, iac.submitPayment (due / 100) transactionId true db =
        (.ok payment, after) ∧ iac.amountDue after = (.ok 0, after) ∧ iac.IsPaidUp after) ↔
      (∃ item, iac.defaultPaymentsLineitemtype db = some item) ∧ |due| < 10 ^ 9 ∧
        ∃ count, FirstReaches ((iac.amountRequestedIn db : ℚ) / 100) 0
            (floats (iac.linkable db)) count ∧
          ∀ transfer ∈ iac.requested false db, transfer.amountDec.cents ≠ 0 →
            transfer.paidIn.isSome = true ∨ transfer ∈ (iac.linkable db).take count) ∧
    ∀ payment before raised after,
      iac.linkPaidTransfers payment before = (.error raised, after) → after = before := by
  rcases amountDue_eq_ok shown with ⟨settled, rfl⟩
  refine ⟨⟨?_, ?_⟩, fun _ _ _ _ raises => (atomic_eq_error.mp raises).2⟩
  · rintro ⟨payment, after, submitted, _, paidUp⟩
    rcases (submitPayment_due_eq_ok settled rfl).mp submitted with
      ⟨account, item, amountDec, count, isAccount, isItem, exact, _, reaches, rfl⟩
    rw [isPaidUp_link_iff, requested_withPayment isAccount] at paidUp
    exact ⟨⟨item, isItem⟩, exact ▸ amountDec.fits, count, reaches, paidUp⟩
  · rintro ⟨⟨item, isItem⟩, fits, count, reaches, paidUp⟩
    rcases settled.receivable with ⟨account, isAccount⟩
    refine ⟨_, _, (submitPayment_due_eq_ok settled rfl).mpr
      ⟨account, item, ⟨iac.dueIn db, fits⟩, count, isAccount, isItem, rfl, rfl, reaches, rfl⟩,
      ?_, ?_⟩
    · rw [amountDue_of_isSettled (isSettled_link (isSettled_withPayment isItem settled)),
        dueIn_link, dueIn_withPayment isAccount isItem, sub_self]
    · rw [isPaidUp_link_iff, requested_withPayment isAccount]
      exact paidUp

end Due

end IndividualAccountingController

/-! ## An amount that adds up, and one that does not -/

namespace Sample

def student : IndividualAccountingController := { program := splash, user := 7 }

/-- The database once the amount due of a student is shown. -/
def shownTo (transfers : Table Transfer) : Database := (student.amountDue (database transfers)).2

def admission : Table Transfer where
  rows := [charge 1 7 1 (dollars 10 ten_fits)]
  next := 2
  ordered := by decide
  below := by decide

/-- The payment of ten dollars goes through. -/
theorem submitPayment_admission :
    ∃ payment after, student.submitPayment ((1000 : ℤ) / 100) [] true (shownTo admission) =
        (.ok payment, after) ∧
      student.amountDue after = (.ok 0, after) ∧ student.IsPaidUp after := by
  have shown : student.amountDue (database admission) = (.ok 1000, shownTo admission) :=
    Prod.ext (by decide) rfl
  refine (IndividualAccountingController.submitPayment_due_iff shown []).1.mpr ⟨?_, by decide, ?_⟩
  · exact Option.isSome_iff_exists.mp (by decide)
  · refine ⟨_, firstReaches_of_eq (by decide +kernel), by decide +kernel⟩

def sticker : Table Transfer where
  rows := [charge 1 7 1 (dollars 10 ten_fits), charge 2 7 3 { cents := 10, fits := by decide }]
  next := 3
  ordered := by decide
  below := by decide

/-- The payment of what is due, ten dollars and ten cents, raises. -/
theorem submitPayment_sticker :
    (student.amountDue (database sticker)).1 = .ok 1010 ∧
      (student.submitPayment ((1010 : ℤ) / 100) [] true (shownTo sticker)).1 =
        .error .valueError := by
  decide +kernel

end Sample

end EspWebsite.Accounting
