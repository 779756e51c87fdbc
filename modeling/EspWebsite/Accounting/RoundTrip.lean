import EspWebsite.Accounting.LinkedPayments

/-!
# Paying by identifier

When the identifier that a user was given is accepted with the amount the user was shown.
-/

namespace EspWebsite.Accounting

open Python Tables Transactions Action Binary64

namespace IndividualAccountingController

variable {iac : IndividualAccountingController} {db start after : Database}
  {payment transfer : Transfer} {linked transfers rest : List Transfer} {char : Char}

/-! ## What the identifier says -/

def entry (transfer : Transfer) : ParsedItem :=
  ((transfer.lineItem : ℤ), transfer.amountDec.text)

theorem mem_purchase (written : char ∈ purchase transfer) :
    char = ',' ∨ char = '-' ∨ char = '.' ∨ char.isDigit = true := by
  rcases List.mem_append.mp written with lineItem | amount
  · exact Or.inr (Or.inr (Or.inr (isDigit_of_mem_numeral lineItem)))
  · rcases List.mem_cons.mp amount with comma | text
    · exact Or.inl comma
    · exact Or.inr (mem_twoPlaces text)

theorem parseItem_purchase (transfer : Transfer) :
    parseItem (purchase transfer) = .ok (entry transfer) := by
  have noComma : ',' ∉ numeral transfer.lineItem := fun comma =>
    absurd (isDigit_of_mem_numeral comma) (by decide)
  have noSecond : ',' ∉ transfer.amountDec.text := by
    intro comma
    rcases mem_twoPlaces comma with impossible | impossible | impossible
    all_goals exact absurd impossible (by decide)
  have split : (purchase transfer).splitOn ',' =
      [numeral transfer.lineItem, transfer.amountDec.text] := by
    rw [purchase, List.splitOn_append_cons_self_of_not_mem noComma,
      List.splitOn_eq_singleton noSecond]
  rw [parseItem, split]
  simp [unpackPair, entry]

/-- The entries read as what was written, if there are any. -/
theorem parseItems_purchases {items : List ParsedItem} :
    parseItems ([';'].intercalate (transfers.map purchase)) = .ok items ↔
      transfers ≠ [] ∧ items = transfers.map entry := by
  rcases transfers with _ | ⟨first, rest⟩
  · have empty : parseItems ([';'].intercalate (([] : List Transfer).map purchase)) =
        .error .valueError := by decide
    rw [empty]
    simp
  · have noSemicolon : ∀ text ∈ (first :: rest).map purchase, ';' ∉ text := by
      intro text isPurchase semicolon
      rcases List.mem_map.mp isPurchase with ⟨transfer, _, rfl⟩
      rcases mem_purchase semicolon with impossible | impossible | impossible | impossible
      all_goals exact absurd impossible (by decide)
    have read : ∀ transfers : List Transfer,
        (transfers.map purchase).mapM parseItem = .ok (transfers.map entry) := by
      intro transfers
      induction transfers with
      | nil => rfl
      | cons transfer rest ih =>
          rw [List.map_cons, List.mapM_cons, parseItem_purchase, ok_bind, ih, ok_bind]
          rfl
    rw [parseItems, List.splitOn_intercalate _ noSemicolon (by simp), read]
    simp only [Except.ok.injEq, ne_eq, reduceCtorEq, not_false_eq_true, true_and]
    exact eq_comm

/-- The identifier names the program and the user. -/
theorem fromId_getId (isProgram : iac.program ∈ db.programs.rows) (isUser : iac.user ∈ db.users) :
    fromId iac.getId db = (.ok iac, db) := by
  have noSlash (number : ℕ) : '/' ∉ numeral number := fun slash =>
    absurd (isDigit_of_mem_numeral slash) (by decide)
  have split : iac.getId.splitOn '/' = [numeral iac.program.id, numeral iac.user] := by
    rw [getId, List.splitOn_append_cons_self_of_not_mem (noSlash _),
      List.splitOn_eq_singleton (noSlash _)]
  have foundProgram : db.programs.get? iac.program.id = some iac.program :=
    Table.get?_eq_some.mpr ⟨isProgram, rfl⟩
  have foundUser : db.users.find? (fun user => user = iac.user) = some iac.user := by
    cases found : db.users.find? fun user => user = iac.user with
    | none => exact absurd (decide_eq_true rfl) (List.find?_eq_none.mp found iac.user isUser)
    | some user =>
        have same : user = iac.user := by simpa using List.find?_some found
        rw [same]
  refine fromId_eq_ok.mpr ⟨rfl, ?_, ?_⟩
  · rw [split]
    simp [getItem, getById, foundProgram]
  · rw [split]
    simp [getItem, getById, foundUser]

/-- A character of joined texts is the separator or in one of them. -/
theorem notMem_intercalate {separator : Char} {texts : List (List Char)}
    (different : char ≠ separator) (nowhere : ∀ text ∈ texts, char ∉ text) :
    char ∉ [separator].intercalate texts := by
  induction texts with
  | nil => exact List.not_mem_nil
  | cons text rest ih =>
      have notFirst := nowhere text (List.mem_cons_self ..)
      have notRest := ih fun other isRest => nowhere other (List.mem_cons_of_mem _ isRest)
      rcases eq_or_ne rest [] with rfl | more
      · rw [List.intercalate_singleton]
        exact notFirst
      · rw [List.intercalate_cons_of_ne_nil more]
        simp [notFirst, notRest, different]

theorem splitOn_identifier {purchases : List Char}
    (isPurchases : purchases = [';'].intercalate (transfers.map purchase)) :
    (iac.getId ++ ':' :: purchases).splitOn ':' = [iac.getId, purchases] := by
  have noDigit (number : ℕ) : ':' ∉ numeral number := fun colon =>
    absurd (isDigit_of_mem_numeral colon) (by decide)
  have first : ':' ∉ iac.getId := by
    intro colon
    rcases List.mem_append.mp colon with program | user
    · exact noDigit _ program
    · rcases List.mem_cons.mp user with slash | user
      · cases slash
      · exact noDigit _ user
  have second : ':' ∉ purchases := by
    rw [isPurchases]
    refine notMem_intercalate (by decide) fun text isPurchase colon => ?_
    rcases List.mem_map.mp isPurchase with ⟨transfer, _, rfl⟩
    rcases mem_purchase colon with impossible | impossible | impossible | impossible
    all_goals exact absurd impossible (by decide)
  rw [List.splitOn_append_cons_self_of_not_mem first, List.splitOn_eq_singleton second]

theorem identifies_issued_iff {controller : IndividualAccountingController}
    {items : List ParsedItem} (isProgram : iac.program ∈ db.programs.rows)
    (isUser : iac.user ∈ db.users) :
    Identifies (iac.getId ++ ':' :: [';'].intercalate (transfers.map purchase)) db controller
        items ↔
      controller = iac ∧ transfers ≠ [] ∧ items = transfers.map entry := by
  rw [Identifies, splitOn_identifier rfl]
  constructor
  · rintro ⟨id, transferList, parts, isController, parsed⟩
    cases parts
    have same := (fromId_getId isProgram isUser).symm.trans isController
    cases same
    exact ⟨rfl, parseItems_purchases.mp parsed⟩
  · rintro ⟨rfl, some⟩
    exact ⟨_, _, rfl, fromId_getId isProgram isUser, parseItems_purchases.mpr some⟩

/-! ## Handing out the transfers -/

theorem pick_eq_zero : pick transfer.amountDec.text (transfer :: rest) = 0 := by
  rw [pick, List.findIdx?_cons, decide_eq_true rfl]
  rfl

theorem reconcile_in_order {program : Program} {paidLineItemIds : List ℤ}
    {unpaidTransfers : ℤ → List Transfer} {total : ℤ}
    (inTable : ∀ transfer ∈ transfers, transfer ∈ start.transfers.rows)
    (ofProgram : ∀ transfer ∈ transfers,
      start.lineItemIs (fun lineItem => lineItem.program = program.id) transfer = true)
    (remaining : ∀ id, unpaidTransfers id = transfers.filter fun transfer =>
      (transfer.lineItem : ℤ) = id) :
    ∃ final, forEach (reconcileItem program payment paidLineItemIds false) (transfers.map entry)
        { unpaidTransfers, transferTotal := total } (start.link payment linked) =
          (.ok final, start.link payment (linked ++ transfers)) ∧
      final.transferTotal = total + totalCents transfers := by
  induction transfers generalizing linked unpaidTransfers total with
  | nil =>
      refine ⟨{ unpaidTransfers, transferTotal := total }, ?_, (add_zero total).symm⟩
      rw [List.append_nil]
      rfl
  | cons transfer rest ih =>
      have available : unpaidTransfers transfer.lineItem = transfer :: rest.filter fun other =>
          (other.lineItem : ℤ) = transfer.lineItem := by
        rw [remaining, List.filter_cons_of_pos (by simp)]
      have isRow := inTable transfer (List.mem_cons_self ..)
      have step : reconcileItem program payment paidLineItemIds false (entry transfer)
          { unpaidTransfers, transferTotal := total } (start.link payment linked) =
            (.ok {
              unpaidTransfers := Function.update unpaidTransfers transfer.lineItem
                (rest.filter fun other => (other.lineItem : ℤ) = transfer.lineItem)
              transferTotal := total + transfer.amountDec.cents },
            start.link payment (linked ++ [transfer])) := by
        refine reconcileItem_eq_ok.mpr ⟨transfer, ?_, ?_, rfl, ?_, ?_⟩
        · simp only [entry]
          rw [available, pick_eq_zero]
          rfl
        · exact ofProgram transfer (List.mem_cons_self ..)
        · exact (Database.save_link isRow).symm
        · simp only [entry]
          rw [available, pick_eq_zero]
          rfl
      have stillRemaining (id : ℤ) : Function.update unpaidTransfers transfer.lineItem
          (rest.filter fun other => (other.lineItem : ℤ) = transfer.lineItem) id =
            rest.filter fun other => (other.lineItem : ℤ) = id := by
        rcases eq_or_ne id transfer.lineItem with rfl | different
        · rw [Function.update_self]
        · rw [Function.update_of_ne different, remaining,
            List.filter_cons_of_neg (by simpa using Ne.symm different)]
      rcases @ih (linked ++ [transfer]) _ (total + transfer.amountDec.cents)
        (fun other isRest => inTable other (List.mem_cons_of_mem _ isRest))
        (fun other isRest => ofProgram other (List.mem_cons_of_mem _ isRest))
        stillRemaining with ⟨final, run, isTotal⟩
      refine ⟨final, forEach_cons_eq_ok.mpr ⟨_, _, step, ?_⟩, ?_⟩
      · rw [List.append_assoc, List.singleton_append] at run
        exact run
      · rw [isTotal, totalCents, totalCents, List.map_cons, List.sum_cons]
        ring

section Issued

variable {account : Account} {item : LineItemType} {amountDec : Amount} {amount : ℚ}
  {transactionId : List Char}

theorem lineItemIs_program (isMember : transfer ∈ iac.transfers db) :
    db.lineItemIs (fun lineItem => lineItem.program = iac.program.id) transfer = true := by
  rcases List.mem_map.mp (mem_transfers.mp isMember).2.2 with ⟨item, isItem, sameId⟩
  rcases mem_getLineitemtypes isItem with ⟨isRow, query⟩
  rw [lineitemtypesQ, decide_eq_true_eq] at query
  exact lineItemIs_iff.mpr ⟨item, isRow, sameId, decide_eq_true query.1⟩

theorem candidates_issued :
    candidates iac (iac.paymentTransfer account item amountDec transactionId db.transfers.next)
        ((iac.transfers db).map entry)
        (iac.withPayment db account item amountDec transactionId) = iac.transfers db := by
  rw [candidates, rows_withPayment, List.filter_append,
    List.filter_cons_of_neg (by simp), List.filter_nil, List.append_nil]
  refine List.filter_congr fun transfer isRow => ?_
  have notPayment : transfer.id ≠ db.transfers.next := (db.transfers.below transfer isRow).ne
  rw [decide_eq_decide]
  constructor
  · rintro ⟨ofUser, isEntry, _⟩
    rw [List.map_map] at isEntry
    rcases List.mem_map.mp isEntry with ⟨other, isOther, sameItem⟩
    refine ⟨ofUser, ?_⟩
    rw [← Int.natCast_inj.mp sameItem]
    exact (mem_transfers.mp isOther).2.2
  · rintro ⟨ofUser, isItem⟩
    refine ⟨ofUser, ?_, notPayment⟩
    rw [List.map_map]
    exact List.mem_map.mpr ⟨transfer, mem_transfers.mpr ⟨isRow, ofUser, isItem⟩, rfl⟩

theorem reconcile_issued (nonempty : iac.transfers db ≠ [])
    (unpaid : ∀ transfer ∈ iac.transfers db, transfer.paidIn = none)
    (isTotal : amountDec.cents = totalCents (iac.transfers db)) :
    reconcile iac (iac.paymentTransfer account item amountDec transactionId db.transfers.next)
        ([';'].intercalate ((iac.transfers db).map purchase)) amount false
        (iac.withPayment db account item amountDec transactionId) =
      (.ok ⟨⟩, (iac.withPayment db account item amountDec transactionId).link
        (iac.paymentTransfer account item amountDec transactionId db.transfers.next)
        (iac.transfers db)) := by
  refine lift_bind_eq_ok.mpr ⟨_, parseItems_purchases.mpr ⟨nonempty, rfl⟩, ?_⟩
  rw [read_bind, candidates_issued]
  rcases @reconcile_in_order (iac.withPayment db account item amountDec transactionId)
    (iac.paymentTransfer account item amountDec transactionId db.transfers.next) []
    (iac.transfers db) iac.program
    (((iac.transfers db).filter fun candidate => candidate.paidIn.isSome).map fun candidate =>
      (candidate.lineItem : ℤ))
    (fun lineItemId => (iac.transfers db).filter fun candidate =>
      candidate.paidIn = none ∧ (candidate.lineItem : ℤ) = lineItemId) 0
    (fun _ isMember => List.mem_append_left _ (mem_transfers.mp isMember).1)
    (fun transfer isMember => @lineItemIs_program iac db transfer isMember)
    (fun _ => List.filter_congr fun transfer isMember => by simp [unpaid transfer isMember])
    with ⟨final, run, total⟩
  rw [Database.link_nil, List.nil_append] at run
  refine Action.bind_eq_ok.mpr ⟨final, _, run, ?_⟩
  have exact : final.transferTotal = (iac.paymentTransfer account item amountDec transactionId
      db.transfers.next).amountDec.cents := total.trans ((zero_add _).trans isTotal.symm)
  rw [if_pos exact]
  rfl

theorem recordPayment_issued {shown : ℤ} (isProgram : iac.program ∈ db.programs.rows)
    (isUser : iac.user ∈ db.users) (isAccount : db.account "receivable" = .ok account)
    (isItem : iac.defaultPaymentsLineitemtype db = some item)
    (nonempty : iac.transfers db ≠ [])
    (unpaid : ∀ transfer ∈ iac.transfers db, transfer.paidIn = none)
    (isTotal : totalCents (iac.transfers db) = shown) (isShown : amountDec.cents = shown)
    (fresh : transactionId = [] ∨ isRecorded iac transactionId db = false) :
    recordPaymentFromIdentifier
        (iac.getId ++ ':' :: [';'].intercalate ((iac.transfers db).map purchase)) (shown / 100)
        transactionId false db =
      (.ok (iac.paymentTransfer account item amountDec transactionId db.transfers.next),
        (iac.withPayment db account item amountDec transactionId).link
          (iac.paymentTransfer account item amountDec transactionId db.transfers.next)
          (iac.transfers db)) := by
  have submitted : iac.submitPayment (shown / 100) transactionId false db =
      (.ok (iac.paymentTransfer account item amountDec transactionId db.transfers.next),
        iac.withPayment db account item amountDec transactionId) :=
    submitPayment_eq_ok.mpr ⟨account, amountDec, item, _, isAccount,
      formattedDecimal_eq_ok.mpr isShown, isItem, createTransfer_eq_ok.mpr ⟨rfl, rfl⟩, rfl⟩
  have notRecorded : ¬(transactionId ≠ [] ∧ isRecorded iac transactionId db = true) := by
    rintro ⟨nonempty, recorded⟩
    rw [fresh.resolve_left nonempty] at recorded
    cases recorded
  rw [recordPaymentFromIdentifier, atomic_eq_ok]
  refine lift_bind_eq_ok.mpr ⟨_, unpackPair_eq_ok.mpr (splitOn_identifier rfl), ?_⟩
  refine Action.bind_eq_ok.mpr ⟨iac, db, fromId_getId isProgram isUser, ?_⟩
  rw [read_bind, if_neg notRecorded, bind_of_ok submitted,
    bind_of_ok (reconcile_issued nonempty unpaid (isShown.trans isTotal.symm))]
  rfl

end Issued

/-! ## What is outstanding -/

/-- The user's transfers that are outstanding: they are not paid, and are no payments. -/
def outstanding (iac : IndividualAccountingController) (db : Database) : List Transfer :=
  (iac.transfers db).filter fun transfer =>
    transfer.paidIn = none ∧ !db.lineItemIs LineItemType.forPayments transfer

def AllOutstanding (iac : IndividualAccountingController) (db : Database) : Prop :=
  ∀ transfer ∈ iac.transfers db,
    transfer.paidIn = none ∧ db.lineItemIs LineItemType.forPayments transfer = false

instance : Decidable (iac.AllOutstanding db) :=
  inferInstanceAs (Decidable (∀ transfer ∈ iac.transfers db,
    transfer.paidIn = none ∧ db.lineItemIs LineItemType.forPayments transfer = false))

theorem AllOutstanding.outstanding_eq (all : iac.AllOutstanding db) :
    iac.outstanding db = iac.transfers db := by
  refine List.filter_eq_self.mpr fun transfer isMember => ?_
  rcases all transfer isMember with ⟨unpaid, noPayment⟩
  rw [noPayment]
  exact decide_eq_true ⟨unpaid, rfl⟩

theorem entries_eq {items : List ParsedItem} (standFor : List.Forall₂ StandsFor items linked) :
    items = linked.map entry := by
  induction standFor with
  | nil => rfl
  | cons stands _ ih =>
      rw [List.map_cons, ← ih, entry, stands.1, stands.2]

theorem perm_of_records {items : List ParsedItem} {amount : ℚ} {transactionId : List Char}
    (records : Records iac items amount transactionId linked payment db after)
    (isItems : items = (iac.transfers db).map entry) : linked.Perm (iac.transfers db) := by
  have sameEntries : (iac.transfers db).map entry = linked.map entry := by
    rw [← isItems]
    exact entries_eq records.standFor
  refine (List.subperm_of_subset records.distinct ?_).perm_of_length_le ?_
  · intro transfer isLinked
    rcases records.wasUnpaid transfer isLinked with ⟨isRow, ofUser, _, _⟩
    have isEntry : entry transfer ∈ (iac.transfers db).map entry := by
      rw [sameEntries]
      exact List.mem_map_of_mem isLinked
    rcases List.mem_map.mp isEntry with ⟨other, isOther, same⟩
    have sameItem : other.lineItem = transfer.lineItem :=
      Int.natCast_inj.mp (congrArg Prod.fst same)
    exact mem_transfers.mpr ⟨isRow, ofUser, sameItem ▸ (mem_transfers.mp isOther).2.2⟩
  · have sameLength := congrArg List.length sameEntries
    rw [List.length_map, List.length_map] at sameLength
    exact sameLength.le

/-- The identifier that a user is issued is accepted with the amount that the user is shown,
and marks exactly the outstanding transfers as paid, just if it names some transfers, all of
them are outstanding, and they come to that amount. -/
theorem recordIdentifier_iff {earlier : Database} {due : ℤ}
    (isProgram : iac.program ∈ db.programs.rows) (isUser : iac.user ∈ db.users)
    (shown : iac.amountDue earlier = (.ok due, db)) (transactionId : List Char) :
    (∃ identifier payment after, iac.getIdentifier db = (.ok identifier, db) ∧
        recordPaymentFromIdentifier identifier (due / 100) transactionId false db =
          (.ok payment, after) ∧
        after.transfers.rows =
          db.transfers.rows.map (markPaidIn payment (iac.outstanding db)) ++ [payment]) ↔
      iac.transfers db ≠ [] ∧ iac.AllOutstanding db ∧ totalCents (iac.transfers db) = due ∧
        (∃ item, iac.defaultPaymentsLineitemtype db = some item) ∧ |due| < 10 ^ 9 ∧
        (transactionId = [] ∨ isRecorded iac transactionId db = false) := by
  rcases amountDue_eq_ok shown with ⟨settled, _⟩
  rcases settled.receivable with ⟨account, isAccount⟩
  have issued : iac.getIdentifier db =
      (.ok (iac.getId ++ ':' :: [';'].intercalate ((iac.transfers db).map purchase)), db) := by
    rw [getIdentifier, getTransfers, bind_assoc,
      bind_of_ok (defaultSourceAccount_eq_ok.mpr ⟨isAccount, rfl⟩)]
    rfl
  constructor
  · rintro ⟨identifier, payment, after, isIssued, recorded, rows⟩
    cases issued.symm.trans isIssued
    rcases recordPayment_records recorded with
      ⟨controller, items, linked, identifies, fresh, records⟩
    rcases (identifies_issued_iff isProgram isUser).mp identifies with ⟨same, nonempty, isItems⟩
    rw [same] at records fresh
    have perm := perm_of_records records isItems
    have exact := formattedDecimal_eq_ok.mp records.amount
    rcases records.forPayments with ⟨item, isItem, _⟩
    refine ⟨nonempty, ?_, ?_, ⟨item, isItem⟩, exact ▸ payment.amountDec.fits, fresh⟩
    · -- A transfer that is not outstanding would be marked all the same.
      intro transfer isMember
      have isLinked := perm.mem_iff.mpr isMember
      rcases records.wasUnpaid transfer isLinked with ⟨isRow, _, unpaid, _⟩
      have same := List.map_inj_left.mp
        (List.append_cancel_right (rows.symm.trans records.rows)) transfer isRow
      refine ⟨unpaid, ?_⟩
      by_contra noCharge
      have notOutstanding : transfer ∉ iac.outstanding db := by
        intro isOutstanding
        have holds := of_decide_eq_true (List.mem_filter.mp isOutstanding).2
        exact noCharge (by simpa using holds.2)
      rw [markPaidIn, markPaidIn, if_neg notOutstanding, if_pos isLinked] at same
      have isMarked := congrArg Transfer.paidIn same
      rw [unpaid] at isMarked
      cases isMarked
    · rw [totalCents, ← (perm.map _).sum_eq, ← totalCents, ← records.total, exact]
  · rintro ⟨nonempty, all, isTotal, ⟨item, isItem⟩, fits, fresh⟩
    refine ⟨_, _, _, issued, @recordPayment_issued iac db account item ⟨due, fits⟩ transactionId due
      isProgram isUser isAccount isItem nonempty (fun _ isMember => (all _ isMember).1) isTotal rfl
      fresh, ?_⟩
    have notNamed : iac.paymentTransfer account item ⟨due, fits⟩ transactionId
        db.transfers.next ∉ iac.transfers db := fun isMember =>
      (db.transfers.below _ (mem_transfers.mp isMember).1).ne rfl
    rw [all.outstanding_eq, Database.rows_link, rows_withPayment, List.map_append,
      List.map_singleton]
    exact congrArg (fun last => _ ++ [last]) (if_neg notNamed)

end IndividualAccountingController

/-! ## A first purchase, and a second one -/

namespace Sample

/-- The identifier for the admission is accepted. -/
theorem recordIdentifier_admission :
    ∃ identifier payment after,
      student.getIdentifier (shownTo admission) = (.ok identifier, shownTo admission) ∧
      recordPaymentFromIdentifier identifier ((1000 : ℤ) / 100) [] false (shownTo admission) =
        (.ok payment, after) ∧
      after.transfers.rows =
        (shownTo admission).transfers.rows.map
          (markPaidIn payment (student.outstanding (shownTo admission))) ++ [payment] := by
  have shown : student.amountDue (database admission) = (.ok 1000, shownTo admission) :=
    Prod.ext (by decide) rfl
  refine (IndividualAccountingController.recordIdentifier_iff (by decide)
    (by decide) shown []).mpr
      ⟨by decide, by decide, by decide, ?_, by decide, Or.inl rfl⟩
  exact Option.isSome_iff_exists.mp (by decide)

/-- The student has paid for the admission, and owes a T-shirt. -/
def tShirt : Table Transfer where
  rows := [
    { charge 1 7 1 (dollars 10 ten_fits) with paidIn := some 2 },
    { charge 2 7 2 (dollars 10 ten_fits) with source := none, destination := some 1 },
    charge 3 7 3 (dollars 15 fifteen_fits)]
  next := 4
  ordered := by decide
  below := by decide

/-- The identifier names the admission and its payment too, and is not accepted. -/
theorem recordIdentifier_tShirt :
    (student.amountDue (database tShirt)).1 = .ok 1500 ∧
      (student.getIdentifier (shownTo tShirt)).1 = .ok "1/7:1,10.00;2,10.00;3,15.00".toList ∧
      (recordPaymentFromIdentifier "1/7:1,10.00;2,10.00;3,15.00".toList ((1500 : ℤ) / 100) []
          false (shownTo tShirt)).1 =
        .error (.raised "DuplicatePaymentError"
          "Failed on processing line item type 1: already paid") := by
  decide +kernel

end Sample

end EspWebsite.Accounting
