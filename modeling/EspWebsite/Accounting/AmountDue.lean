import EspWebsite.Accounting.Notifications

/-!
# The amount due

`amount_due` adds the transfers and rows that are missing before it adds up what is there.
In the database it leaves, computing it again changes nothing, and the amount is a sum of
totals.
-/

namespace EspWebsite.Accounting

open Python Tables Transactions Action Binary64

namespace IndividualAccountingController

variable {iac : IndividualAccountingController} {db existing after : Database}
  {item other : LineItemType} {sourceAccount : Account} {transfer : Transfer}

/-! ## Required transfers -/

/-- The transfer for a required line item is there, paid or with the amount of the item. -/
def IsEnsured (iac : IndividualAccountingController) (db : Database) (item : LineItemType) :
    Prop :=
  ∃ transfer, (iac.transfersFor db item).getLast? = some transfer ∧
    (transfer.paidIn.isSome = true ∨ transfer.amountDec = item.amountDec)

theorem mem_transfersFor :
    transfer ∈ iac.transfersFor db item ↔
      transfer ∈ db.transfers.rows ∧ transfer.user = some iac.user ∧
        transfer.lineItem = item.id := by
  rw [transfersFor, List.mem_filter, decide_eq_true_eq]

theorem transfersFor_create {make : ℕ → Transfer} {keyed : ∀ id, (make id).id = id} :
    iac.transfersFor { db with transfers := db.transfers.create make keyed } item =
      iac.transfersFor db item ++ [make db.transfers.next].filter fun transfer =>
        transfer.user = some iac.user ∧ transfer.lineItem = item.id :=
  List.filter_append ..

theorem transfersFor_save {saved : Transfer} (isRow : transfer ∈ db.transfers.rows)
    (sameId : saved.id = transfer.id) (sameUser : saved.user = transfer.user)
    (sameItem : saved.lineItem = transfer.lineItem) :
    iac.transfersFor { db with transfers := db.transfers.save saved } item =
      (iac.transfersFor db item).map fun row => if row.id = saved.id then saved else row := by
  rw [transfersFor, transfersFor, Table.rows_save, List.filter_map]
  refine congrArg (List.map _) (List.filter_congr fun row inTable => ?_)
  rw [Function.comp_apply]
  split
  next same =>
    have isTransfer : row = transfer := Table.eq_of_key_eq inTable isRow (same.trans sameId)
    rw [isTransfer, sameUser, sameItem]
  next => rfl

/-- Ensuring one transfer ensures it, and leaves those for other line items alone. -/
theorem ensureRequiredTransfer_spec
    (same : iac.transfersFor db item = iac.transfersFor existing item) :
    ∃ after, iac.ensureRequiredTransfer existing sourceAccount item db = (.ok ⟨⟩, after) ∧
      after = { db with transfers := after.transfers } ∧ iac.IsEnsured after item ∧
      ∀ other : LineItemType, other.id ≠ item.id →
        iac.transfersFor after other = iac.transfersFor db other := by
  rw [ensureRequiredTransfer]
  cases latest : (iac.transfersFor existing item).getLast? with
  | none =>
      refine ⟨_, rfl, rfl, ⟨iac.requiredTransfer existing sourceAccount item db.transfers.next,
        ?_, Or.inr rfl⟩, ?_⟩
      · refine (congrArg List.getLast? transfersFor_create).trans ?_
        rw [List.filter_cons_of_pos (by simp [requiredTransfer]), List.filter_nil,
          List.getLast?_concat]
      · intro other different
        refine transfersFor_create.trans ?_
        rw [List.filter_cons_of_neg (by simp [requiredTransfer, Ne.symm different]),
          List.filter_nil, List.append_nil]
  | some transfer =>
      have isMember : transfer ∈ iac.transfersFor db item := same ▸ List.mem_of_getLast? latest
      rcases mem_transfersFor.mp isMember with ⟨isRow, _, sameItem⟩
      dsimp only
      split
      next paid =>
        exact ⟨db, rfl, rfl, ⟨transfer, same ▸ latest, Or.inl paid⟩, fun _ _ => rfl⟩
      next =>
        split
        next equal =>
          exact ⟨db, rfl, rfl, ⟨transfer, same ▸ latest, Or.inr equal⟩, fun _ _ => rfl⟩
        next =>
          have saved (other : LineItemType) := @transfersFor_save iac db other transfer
            { transfer with amountDec := item.amountDec } isRow rfl rfl rfl
          refine ⟨_, rfl, rfl, ⟨{ transfer with amountDec := item.amountDec }, ?_, Or.inr rfl⟩,
            ?_⟩
          · refine (congrArg List.getLast? (saved item)).trans ?_
            rw [List.getLast?_map, same, latest, Option.map_some, if_pos rfl]
          · intro other different
            refine (saved other).trans (Eq.trans (List.map_congr_left ?_) (List.map_id' _))
            intro row isOther
            rcases mem_transfersFor.mp isOther with ⟨inTable, _, otherItem⟩
            refine if_neg fun sameId => different ?_
            have isTransfer : row = transfer := Table.eq_of_key_eq inTable isRow sameId
            rw [← otherItem, isTransfer, sameItem]

/-- Ensuring the transfers for line items one after the other ensures all of them. -/
theorem forEach_ensureRequiredTransfer_spec {items : List LineItemType}
    (distinct : (items.map LineItemType.id).Nodup)
    (same : ∀ item ∈ items, iac.transfersFor db item = iac.transfersFor existing item) :
    ∃ after, forEach (fun item _ => iac.ensureRequiredTransfer existing sourceAccount item)
        items ⟨⟩ db = (.ok ⟨⟩, after) ∧
      after = { db with transfers := after.transfers } ∧
      (∀ item ∈ items, iac.IsEnsured after item) ∧
      ∀ other : LineItemType, other.id ∉ items.map LineItemType.id →
        iac.transfersFor after other = iac.transfersFor db other := by
  induction items generalizing db with
  | nil => exact ⟨db, rfl, rfl, fun _ impossible => (nomatch impossible), fun _ _ => rfl⟩
  | cons item rest ih =>
      rw [List.map_cons, List.nodup_cons] at distinct
      rcases @ensureRequiredTransfer_spec iac db existing item sourceAccount
        (same item (List.mem_cons_self ..)) with ⟨between, step, isBetween, ensured, others⟩
      have sameRest : ∀ other ∈ rest,
          iac.transfersFor between other = iac.transfersFor existing other := by
        intro other isRest
        rw [others other fun sameId =>
          distinct.1 (sameId ▸ List.mem_map_of_mem isRest)]
        exact same other (List.mem_cons_of_mem _ isRest)
      rcases ih distinct.2 sameRest with ⟨after, run, isAfter, ensuredRest, othersRest⟩
      refine ⟨after, forEach_cons_eq_ok.mpr ⟨_, _, step, run⟩, ?_, ?_, ?_⟩
      · rw [isBetween] at isAfter
        exact isAfter
      · intro other isMember
        rcases List.mem_cons.mp isMember with rfl | isRest
        · rw [IsEnsured, othersRest other distinct.1]
          exact ensured
        · exact ensuredRest other isRest
      · intro other notItem
        rw [List.map_cons, List.mem_cons, not_or] at notItem
        rw [othersRest other notItem.2, others other notItem.1]

theorem nodup_getLineitemtypes {requiredOnly : Bool} :
    ((iac.getLineitemtypes requiredOnly db).map LineItemType.id).Nodup := by
  have distinct : (db.lineItemTypes.rows.map LineItemType.id).Nodup :=
    db.lineItemTypes.nodup_keys
  refine (List.Perm.nodup_iff ((List.perm_insertionSort _ _).map _)).mpr ?_
  exact distinct.sublist ((List.filter_sublist.trans List.filter_sublist).map _)

theorem mem_getLineitemtypes {requiredOnly : Bool}
    (isMember : item ∈ iac.getLineitemtypes requiredOnly db) :
    item ∈ db.lineItemTypes.rows ∧ iac.lineitemtypesQ requiredOnly item = true := by
  have isMember := List.mem_of_mem_filter ((List.mem_insertionSort _).mp isMember)
  exact List.mem_filter.mp isMember

theorem ensureRequiredTransfers_eq_ok {done : PUnit}
    (run : iac.ensureRequiredTransfers db = (.ok done, after)) :
    (∃ account, db.account "receivable" = .ok account) ∧
      after = { db with transfers := after.transfers } ∧
      ∀ item ∈ iac.getLineitemtypes true db, iac.IsEnsured after item := by
  rw [ensureRequiredTransfers, atomic_eq_ok] at run
  rcases Action.bind_eq_ok.mp run with ⟨account, between, found, loop⟩
  rcases defaultSourceAccount_eq_ok.mp found with ⟨isAccount, rfl⟩
  rw [read_bind] at loop
  rcases @forEach_ensureRequiredTransfer_spec iac between between account
    (iac.getLineitemtypes true between) nodup_getLineitemtypes (fun _ _ => rfl) with
    ⟨final, isFinal, others, ensured, _⟩
  rw [isFinal] at loop
  cases loop
  exact ⟨⟨account, isAccount⟩, others, ensured⟩

theorem ensureRequiredTransfer_of_isEnsured (ensured : iac.IsEnsured db item) :
    iac.ensureRequiredTransfer db sourceAccount item db = (.ok ⟨⟩, db) := by
  rcases ensured with ⟨transfer, latest, settled⟩
  rw [ensureRequiredTransfer, latest]
  dsimp only
  split
  next => rfl
  next unpaid => rw [if_pos (settled.resolve_left unpaid)]; rfl

theorem ensureRequiredTransfers_of_isEnsured {account : Account}
    (isAccount : db.account "receivable" = .ok account)
    (ensured : ∀ item ∈ iac.getLineitemtypes true db, iac.IsEnsured db item) :
    iac.ensureRequiredTransfers db = (.ok ⟨⟩, db) := by
  have loop : forEach (fun item _ => iac.ensureRequiredTransfer db account item)
      (iac.getLineitemtypes true db) ⟨⟩ db = (.ok ⟨⟩, db) := by
    generalize iac.getLineitemtypes true db = items at ensured
    induction items with
    | nil => rfl
    | cons item rest ih =>
        have first := ensured item (List.mem_cons_self ..)
        refine forEach_cons_eq_ok.mpr ⟨⟨⟩, db, ensureRequiredTransfer_of_isEnsured first, ?_⟩
        exact ih fun other isRest => ensured other (List.mem_cons_of_mem _ isRest)
  rw [ensureRequiredTransfers, atomic_eq_ok]
  exact Action.bind_eq_ok.mpr
    ⟨account, db, defaultSourceAccount_eq_ok.mpr ⟨isAccount, rfl⟩, loop⟩

theorem amountRequested_of_isEnsured {account : Account} {forFinaidOnly : Bool}
    (isAccount : db.account "receivable" = .ok account)
    (ensured : ∀ item ∈ iac.getLineitemtypes true db, iac.IsEnsured db item) :
    iac.amountRequested forFinaidOnly db =
      (.ok (totalCents (iac.requested forFinaidOnly db)), db) := by
  rw [amountRequested, bind_of_ok (ensureRequiredTransfers_of_isEnsured isAccount ensured)]
  rfl

theorem amountRequested_eq_ok {forFinaidOnly : Bool} {amount : ℤ}
    (run : iac.amountRequested forFinaidOnly db = (.ok amount, after)) :
    (∃ account, after.account "receivable" = .ok account) ∧
      (∀ item ∈ iac.getLineitemtypes true after, iac.IsEnsured after item) ∧
      amount = totalCents (iac.requested forFinaidOnly after) := by
  rcases Action.bind_eq_ok.mp run with ⟨_, between, ensures, returned⟩
  cases returned
  rcases ensureRequiredTransfers_eq_ok ensures with ⟨⟨account, isAccount⟩, others, ensured⟩
  refine ⟨⟨account, ?_⟩, ?_, rfl⟩
  · rw [others]
    exact isAccount
  · have sameItems : iac.getLineitemtypes true after = iac.getLineitemtypes true db := by
      rw [others]
      rfl
    rw [sameItems]
    exact ensured

/-! ## Discounts and refunds -/

/-- The sibling discount, once the sibling information is there. -/
def siblingdiscount (iac : IndividualAccountingController) (db : Database) : ℤ :=
  if iac.program.siblingDiscount = 0 then 0
  else
    match iac.splashInfo? db with
    | none => 0
    | some info => if info.siblingdiscount then iac.program.siblingDiscount else 0

/-- What was refunded, once the line item for refunds is there. -/
def refunded (iac : IndividualAccountingController) (db : Database) : ℤ :=
  match iac.refundLineitemtypes db, db.account "payable" with
  | [item], .ok account => totalCents (iac.refunds item account db)
  | _, _ => 0

theorem account_eq_ok {name : String} {account : Account}
    (isAccount : db.account name = .ok account) :
    account ∈ db.accounts.rows ∧ account.name = name := by
  rw [Database.account] at isAccount
  split at isAccount
  next other found =>
    cases isAccount
    exact ⟨List.mem_of_find?_eq_some found, by simpa using List.find?_some found⟩
  next => cases isAccount

theorem defaultProgramAccount_ne {account : Account}
    (isAccount : db.account "receivable" = .ok account) :
    iac.defaultProgramAccount db ≠ some account.id := by
  intro same
  rcases Option.map_eq_some_iff.mp same with ⟨programAccount, isFirst, sameId⟩
  have isMember := List.mem_filter.mp (List.mem_of_head? isFirst)
  have isProgram := of_decide_eq_true isMember.2
  rcases account_eq_ok isAccount with ⟨isRow, named⟩
  rw [Table.eq_of_key_eq isMember.1 isRow sameId,
    db.accounts.receivableGlobal account isRow named] at isProgram
  cases isProgram

theorem removeSiblingDiscount_eq_ok {done : PUnit}
    (run : iac.removeSiblingDiscount db = (.ok done, after)) :
    ∃ sourceAccount destAccount, db.account "receivable" = .ok destAccount ∧
      after = { db with
        transfers := db.transfers.delete (iac.isSiblingDiscount
          (iac.defaultSiblingdiscountLineitemtype db) sourceAccount destAccount) } := by
  rw [removeSiblingDiscount, read_bind] at run
  rcases Action.bind_eq_ok.mp run with ⟨sourceAccount, between, isSource, rest⟩
  rw [defaultFinaidAccount, read_bind, lift_apply] at isSource
  cases (congrArg Prod.snd isSource)
  rcases Action.bind_eq_ok.mp rest with ⟨destAccount, between, isDest, rest⟩
  rcases defaultSourceAccount_eq_ok.mp isDest with ⟨isDest, rfl⟩
  split at rest
  next => cases congrArg Prod.fst rest
  next =>
    cases rest
    exact ⟨sourceAccount, destAccount, isDest, rfl⟩

theorem not_isSiblingDiscount {sourceAccount destAccount : Account}
    (isMember : item ∈ iac.getLineitemtypes true db) (sameItem : transfer.lineItem = item.id) :
    iac.isSiblingDiscount (iac.defaultSiblingdiscountLineitemtype db) sourceAccount destAccount
      transfer = false := by
  rw [isSiblingDiscount, decide_eq_false_iff_not]
  rintro ⟨_, _, _, isDiscount⟩
  rcases Option.map_eq_some_iff.mp isDiscount.symm with ⟨discount, isNewest, sameId⟩
  have named := List.mem_filter.mp (List.mem_of_getLast? isNewest)
  rcases mem_getLineitemtypes isMember with ⟨isRow, query⟩
  have same : discount = item := Table.eq_of_key_eq named.1 isRow (sameId.trans sameItem)
  rw [same, Bool.and_eq_true, decide_eq_true_eq, decide_eq_true_eq] at named
  rw [lineitemtypesQ, decide_eq_true_eq, named.2.2] at query
  exact query.2.1 (by decide)

theorem defaultProgramAccount_congr (accounts : after.accounts = db.accounts) :
    iac.defaultProgramAccount after = iac.defaultProgramAccount db := by
  rw [defaultProgramAccount, defaultProgramAccount, accounts]

theorem lineItemIs_congr {condition : LineItemType → Bool}
    (items : after.lineItemTypes = db.lineItemTypes) :
    after.lineItemIs condition transfer = db.lineItemIs condition transfer := by
  rw [Database.lineItemIs, Database.lineItemIs, items]

theorem requested_of_delete {keep : Transfer → Bool} {forFinaidOnly : Bool}
    (items : after.lineItemTypes = db.lineItemTypes) (accounts : after.accounts = db.accounts)
    (rows : after.transfers.rows = db.transfers.rows.filter keep)
    (kept : ∀ transfer, transfer.destination = iac.defaultProgramAccount db →
      keep transfer = true) :
    iac.requested forFinaidOnly after = iac.requested forFinaidOnly db := by
  rw [requested, requested, rows, List.filter_filter]
  refine List.filter_congr fun transfer _ => ?_
  rw [defaultProgramAccount_congr accounts, lineItemIs_congr items, Bool.and_eq_left_iff_imp]
  intro isRequested
  exact kept transfer (of_decide_eq_true isRequested).2.1

theorem transfersFor_of_delete {keep : Transfer → Bool}
    (rows : after.transfers.rows = db.transfers.rows.filter keep)
    (kept : ∀ transfer, transfer.lineItem = item.id → keep transfer = true) :
    iac.transfersFor after item = iac.transfersFor db item := by
  rw [transfersFor, transfersFor, rows, List.filter_filter]
  refine List.filter_congr fun transfer _ => ?_
  rw [Bool.and_eq_left_iff_imp]
  intro isFor
  exact kept transfer (of_decide_eq_true isFor).2

/-- `amount_siblingdiscount` needs no sibling information, finds it, or creates it without a
discount. -/
theorem amountSiblingdiscount_cases {amount : ℤ}
    (run : iac.amountSiblingdiscount db = (.ok amount, after)) :
    (iac.program.siblingDiscount = 0 ∧ amount = 0 ∧ after = db) ∨
      (iac.program.siblingDiscount ≠ 0 ∧ ∃ info, iac.splashInfo? db = some info ∧
        amount = (if info.siblingdiscount then iac.program.siblingDiscount else 0) ∧
        after = db) ∨
      (iac.program.siblingDiscount ≠ 0 ∧ iac.splashInfo? db = none ∧ amount = 0 ∧
        ∃ done, iac.removeSiblingDiscount { db with
          splashInfos := db.splashInfos.create iac.newSplashInfo iac.id_newSplashInfo } =
            (.ok done, after)) := by
  rw [amountSiblingdiscount] at run
  split at run
  next zero =>
    cases run
    exact Or.inl ⟨zero, rfl, rfl⟩
  next nonzero =>
    right
    rcases Action.bind_eq_ok.mp run with ⟨info, between, isInfo, returned⟩
    cases returned
    rw [splashInfoForUser, read_bind] at isInfo
    cases found : iac.splashInfo? db with
    | some known =>
        rw [found] at isInfo
        cases isInfo
        exact Or.inl ⟨nonzero, info, rfl, rfl, rfl⟩
    | none =>
        simp only [found, change_bind] at isInfo
        rcases Action.bind_eq_ok.mp isInfo with ⟨done, removedFrom, removed, returned⟩
        cases returned
        exact Or.inr ⟨nonzero, rfl, rfl, done, removed⟩

theorem amountSiblingdiscount_eq_ok {amount : ℤ} {account : Account}
    (isAccount : db.account "receivable" = .ok account)
    (run : iac.amountSiblingdiscount db = (.ok amount, after)) :
    after = { db with transfers := after.transfers, splashInfos := after.splashInfos } ∧
      (iac.program.siblingDiscount ≠ 0 → ∃ info, iac.splashInfo? after = some info) ∧
      amount = iac.siblingdiscount after ∧
      (∀ forFinaidOnly, iac.requested forFinaidOnly after = iac.requested forFinaidOnly db) ∧
      ∀ item ∈ iac.getLineitemtypes true db,
        iac.transfersFor after item = iac.transfersFor db item := by
  rw [siblingdiscount]
  rcases amountSiblingdiscount_cases run with
    ⟨zero, rfl, rfl⟩ | ⟨nonzero, info, found, rfl, rfl⟩ | ⟨nonzero, found, rfl, _, removed⟩
  · rw [if_pos zero]
    exact ⟨rfl, fun nonzero => absurd zero nonzero, rfl, fun _ => rfl, fun _ _ => rfl⟩
  · rw [if_neg nonzero, found]
    exact ⟨rfl, fun _ => ⟨info, rfl⟩, rfl, fun _ => rfl, fun _ _ => rfl⟩
  · rw [if_neg nonzero]
    rcases removeSiblingDiscount_eq_ok removed with ⟨sourceAccount, destAccount, isDest, rfl⟩
    cases isAccount.symm.trans isDest
    have isThere : iac.splashInfo? { db with
        splashInfos := db.splashInfos.create iac.newSplashInfo iac.id_newSplashInfo } =
          some (iac.newSplashInfo db.splashInfos.next) := by
      rw [splashInfo?, Table.rows_create, List.find?_append]
      rw [splashInfo?] at found
      rw [found, Option.none_or, List.find?_cons_of_pos]
      simp [newSplashInfo]
    refine ⟨rfl, fun _ => ⟨_, isThere⟩, ?_, fun forFinaidOnly => ?_, fun item isMember => ?_⟩
    · change _ = match iac.splashInfo? { db with
          splashInfos := db.splashInfos.create iac.newSplashInfo iac.id_newSplashInfo } with
        | none => 0
        | some info => if info.siblingdiscount then iac.program.siblingDiscount else 0
      rw [isThere]
      rfl
    · refine requested_of_delete rfl rfl rfl fun transfer toProgram => ?_
      have elsewhere := @defaultProgramAccount_ne iac db account isAccount
      rw [← toProgram] at elsewhere
      simp [isSiblingDiscount, elsewhere]
    · refine transfersFor_of_delete rfl fun transfer sameItem => ?_
      exact congrArg not (not_isSiblingDiscount isMember sameItem)

theorem isEnsured_amountSiblingdiscount {amount : ℤ} {account : Account}
    (isAccount : db.account "receivable" = .ok account)
    (ensured : ∀ item ∈ iac.getLineitemtypes true db, iac.IsEnsured db item)
    (run : iac.amountSiblingdiscount db = (.ok amount, after)) :
    after.account "receivable" = .ok account ∧
      ∀ item ∈ iac.getLineitemtypes true after, iac.IsEnsured after item := by
  rcases amountSiblingdiscount_eq_ok isAccount run with ⟨others, _, _, _, sameTransfers⟩
  have sameRequired : iac.getLineitemtypes true after = iac.getLineitemtypes true db := by
    rw [others]
    rfl
  constructor
  · rw [others]
    exact isAccount
  · intro item isMember
    rw [sameRequired] at isMember
    rw [IsEnsured, sameTransfers item isMember]
    exact ensured item isMember

def withRefundLineitemtype (iac : IndividualAccountingController) (db : Database) : Database :=
  { db with
    lineItemTypes :=
      db.lineItemTypes.create iac.newRefundLineitemtype iac.id_newRefundLineitemtype }

theorem lineItemIs_withRefundLineitemtype {condition : LineItemType → Bool}
    (fails : condition (iac.newRefundLineitemtype db.lineItemTypes.next) = false) :
    (iac.withRefundLineitemtype db).lineItemIs condition transfer =
      db.lineItemIs condition transfer := by
  rw [Bool.eq_iff_iff, lineItemIs_iff, lineItemIs_iff]
  constructor
  · rintro ⟨item, isRow, sameId, holds⟩
    rcases List.mem_append.mp isRow with isOld | isNew
    · exact ⟨item, isOld, sameId, holds⟩
    · rw [List.mem_singleton.mp isNew, fails] at holds
      cases holds
  · rintro ⟨item, isRow, sameId, holds⟩
    exact ⟨item, List.mem_append_left _ isRow, sameId, holds⟩

theorem getLineitemtypes_withRefundLineitemtype {requiredOnly : Bool} :
    iac.getLineitemtypes requiredOnly (iac.withRefundLineitemtype db) =
      iac.getLineitemtypes requiredOnly db := by
  have fails : iac.lineitemtypesQ requiredOnly
      (iac.newRefundLineitemtype db.lineItemTypes.next) = false := by
    simp [lineitemtypesQ, newRefundLineitemtype, refundItems]
  have same : (iac.withRefundLineitemtype db).lineItemTypes.rows.filter
      (iac.lineitemtypesQ requiredOnly) =
        db.lineItemTypes.rows.filter (iac.lineitemtypesQ requiredOnly) := by
    rw [withRefundLineitemtype, Table.rows_create, List.filter_append,
      List.filter_cons_of_neg (by rw [fails]; decide), List.filter_nil, List.append_nil]
  rw [getLineitemtypes, getLineitemtypes, same]

theorem defaultPaymentsLineitemtype_withRefundLineitemtype :
    iac.defaultPaymentsLineitemtype (iac.withRefundLineitemtype db) =
      iac.defaultPaymentsLineitemtype db := by
  rw [defaultPaymentsLineitemtype, newestLineitemtype, newestLineitemtype,
    withRefundLineitemtype, Table.rows_create, List.filter_append,
    List.filter_cons_of_neg (by simp [newRefundLineitemtype]), List.filter_nil, List.append_nil]

theorem requested_withRefundLineitemtype {forFinaidOnly : Bool} :
    iac.requested forFinaidOnly (iac.withRefundLineitemtype db) =
      iac.requested forFinaidOnly db := by
  refine List.filter_congr fun transfer _ => ?_
  rw [lineItemIs_withRefundLineitemtype rfl]
  rfl

theorem withRefundLineitemtype_frame
    (others : after = db ∨ after = iac.withRefundLineitemtype db) :
    after = { db with lineItemTypes := after.lineItemTypes } ∧
      (∀ requiredOnly, iac.getLineitemtypes requiredOnly after =
        iac.getLineitemtypes requiredOnly db) ∧
      (∀ forFinaidOnly, iac.requested forFinaidOnly after = iac.requested forFinaidOnly db) ∧
      iac.amountPaid after = iac.amountPaid db := by
  rcases others with rfl | rfl
  · exact ⟨rfl, fun _ => rfl, fun _ => rfl, rfl⟩
  · refine ⟨rfl, fun _ => getLineitemtypes_withRefundLineitemtype,
      fun _ => requested_withRefundLineitemtype, ?_⟩
    rw [amountPaid, payments, defaultPaymentsLineitemtype_withRefundLineitemtype]
    rfl

theorem defaultRefundLineitemtype_of_eq {item : LineItemType}
    (single : iac.refundLineitemtypes db = [item]) :
    iac.defaultRefundLineitemtype db = (.ok item, db) := by
  rw [defaultRefundLineitemtype, read_bind, single]
  rfl

theorem defaultRefundLineitemtype_eq_ok {item : LineItemType}
    (run : iac.defaultRefundLineitemtype db = (.ok item, after)) :
    (after = db ∨ after = iac.withRefundLineitemtype db) ∧
      iac.refundLineitemtypes after = [item] := by
  rw [defaultRefundLineitemtype, read_bind] at run
  rcases known : iac.refundLineitemtypes db with _ | ⟨single, _ | ⟨second, rest⟩⟩
  · rw [known] at run
    cases run
    refine ⟨Or.inr rfl, ?_⟩
    rw [refundLineitemtypes] at known
    rw [refundLineitemtypes, Table.rows_create, List.filter_append, known,
      List.filter_cons_of_pos (by simp [newRefundLineitemtype]), List.filter_nil, List.nil_append]
  · rw [known] at run
    cases run
    exact ⟨Or.inl rfl, known⟩
  · rw [known] at run
    cases congrArg Prod.fst run

theorem amountRefunded_eq_ok {amount : ℤ} (run : iac.amountRefunded db = (.ok amount, after)) :
    (after = db ∨ after = iac.withRefundLineitemtype db) ∧
      (∃ account, after.account "payable" = .ok account) ∧
      (∃ item, iac.refundLineitemtypes after = [item]) ∧ amount = iac.refunded after := by
  rcases Action.bind_eq_ok.mp run with ⟨item, between, isItem, rest⟩
  rcases defaultRefundLineitemtype_eq_ok isItem with ⟨others, single⟩
  rcases Action.bind_eq_ok.mp rest with ⟨account, final, isAccount, returned⟩
  rw [defaultPayableAccount, read_bind, lift_apply] at isAccount
  cases congrArg Prod.snd isAccount
  have isPayable : between.account "payable" = .ok account := congrArg Prod.fst isAccount
  cases returned
  refine ⟨others, ⟨account, isPayable⟩, ⟨item, single⟩, ?_⟩
  rw [refunded, single, isPayable]

/-! ## What is due -/

/-- A database where nothing that `amount_due` needs is missing. -/
structure IsSettled (iac : IndividualAccountingController) (db : Database) : Prop where
  receivable : ∃ account, db.account "receivable" = .ok account
  payable : ∃ account, db.account "payable" = .ok account
  ensured : ∀ item ∈ iac.getLineitemtypes true db, iac.IsEnsured db item
  informed : iac.program.siblingDiscount ≠ 0 → ∃ info, iac.splashInfo? db = some info
  refundable : ∃ item, iac.refundLineitemtypes db = [item]

def amountRequestedIn (iac : IndividualAccountingController) (db : Database) : ℤ :=
  totalCents (iac.requested false db)

/-- The aid, in cents. -/
def finaidIn (iac : IndividualAccountingController) (db : Database) : ℤ :=
  iac.finaid (totalCents (iac.requested true db)) (iac.siblingdiscount db) db

def dueIn (iac : IndividualAccountingController) (db : Database) : ℤ :=
  iac.amountRequestedIn db - iac.finaidIn db - iac.siblingdiscount db - iac.amountPaid db +
    iac.refunded db

theorem amountSiblingdiscount_of_informed
    (informed : iac.program.siblingDiscount ≠ 0 → ∃ info, iac.splashInfo? db = some info) :
    iac.amountSiblingdiscount db = (.ok (iac.siblingdiscount db), db) := by
  rw [amountSiblingdiscount, siblingdiscount]
  split
  next => rfl
  next nonzero =>
    rcases informed nonzero with ⟨info, isInfo⟩
    have found : iac.splashInfoForUser db = (.ok info, db) := by
      rw [splashInfoForUser, read_bind, isInfo]
      rfl
    rw [bind_of_ok found, isInfo]
    rfl

section Settled

variable (settled : iac.IsSettled db)

include settled

theorem amountRequested_of_isSettled {forFinaidOnly : Bool} :
    iac.amountRequested forFinaidOnly db =
      (.ok (totalCents (iac.requested forFinaidOnly db)), db) := by
  rcases settled.receivable with ⟨account, isAccount⟩
  exact amountRequested_of_isEnsured isAccount settled.ensured

theorem amountSiblingdiscount_of_isSettled :
    iac.amountSiblingdiscount db = (.ok (iac.siblingdiscount db), db) :=
  amountSiblingdiscount_of_informed settled.informed

theorem amountFinaid_of_isSettled {amount : Option ℤ}
    (sibling : ∀ value ∈ amount, value = iac.siblingdiscount db) :
    iac.amountFinaid amount db = (.ok (iac.finaidIn db), db) := by
  rw [amountFinaid, bind_of_ok (amountRequested_of_isSettled settled)]
  cases amount with
  | none => exact bind_of_ok (amountSiblingdiscount_of_isSettled settled)
  | some value =>
      rw [finaidIn, ← sibling value rfl]
      rfl

theorem amountRefunded_of_isSettled :
    iac.amountRefunded db = (.ok (iac.refunded db), db) := by
  rcases settled.refundable with ⟨item, single⟩
  rcases settled.payable with ⟨account, isAccount⟩
  have payable : defaultPayableAccount db = (.ok account, db) := by
    rw [defaultPayableAccount, read_bind, isAccount]
    rfl
  rw [amountRefunded, bind_of_ok (defaultRefundLineitemtype_of_eq single), bind_of_ok payable,
    refunded, single, isAccount]
  rfl

theorem amountDue_of_isSettled : iac.amountDue db = (.ok (iac.dueIn db), db) := by
  have finaid := @amountFinaid_of_isSettled iac db settled (some (iac.siblingdiscount db))
    (fun _ same => (Option.some.inj same).symm)
  rw [amountDue, bind_of_ok (amountRequested_of_isSettled settled),
    bind_of_ok (amountSiblingdiscount_of_isSettled settled), bind_of_ok finaid, read_bind,
    bind_of_ok (amountRefunded_of_isSettled settled)]
  rfl

end Settled

theorem amountFinaid_again {amount : ℤ}
    (run : iac.amountFinaid none db = (.ok amount, after)) :
    (iac.amountFinaid none after).1 = .ok amount := by
  rw [amountFinaid] at run
  rcases Action.bind_eq_ok.mp run with ⟨request, required, isRequest, afterRequest⟩
  rcases Action.bind_eq_ok.mp afterRequest with ⟨sibling, informed, isSibling, returned⟩
  cases returned
  rcases amountRequested_eq_ok isRequest with ⟨⟨account, isAccount⟩, ensured, isTotal⟩
  rcases amountSiblingdiscount_eq_ok isAccount isSibling with
    ⟨_, isInformed, isDiscount, sameRequested, _⟩
  rcases isEnsured_amountSiblingdiscount isAccount ensured isSibling with
    ⟨stillAccount, stillEnsured⟩
  have whole : iac.amountFinaid none after = (.ok (iac.finaidIn after), after) := by
    rw [amountFinaid, bind_of_ok (amountRequested_of_isEnsured stillAccount stillEnsured)]
    exact bind_of_ok (amountSiblingdiscount_of_informed isInformed)
  rw [whole, finaidIn, sameRequested true, isTotal, isDiscount]

/-- The parts of `amount_due`: the aid finds the required transfers where the first part has
left them. -/
theorem amountDue_steps {due : ℤ} (run : iac.amountDue db = (.ok due, after)) :
    ∃ request required sibling informed refund,
      iac.amountRequested false db = (.ok request, required) ∧
      iac.amountSiblingdiscount required = (.ok sibling, informed) ∧
      iac.amountRequested true informed =
        (.ok (totalCents (iac.requested true informed)), informed) ∧
      iac.amountRefunded informed = (.ok refund, after) ∧
      due = request - iac.finaid (totalCents (iac.requested true informed)) sibling informed -
        sibling - iac.amountPaid informed + refund := by
  rw [amountDue] at run
  rcases Action.bind_eq_ok.mp run with ⟨request, required, isRequest, afterRequest⟩
  rcases Action.bind_eq_ok.mp afterRequest with ⟨sibling, informed, isSibling, afterSibling⟩
  rcases Action.bind_eq_ok.mp afterSibling with ⟨aid, aided, isAid, afterAid⟩
  rw [read_bind] at afterAid
  rcases Action.bind_eq_ok.mp afterAid with ⟨refund, final, isRefund, returned⟩
  cases returned
  rcases amountRequested_eq_ok isRequest with ⟨⟨account, isAccount⟩, ensured, _⟩
  rcases isEnsured_amountSiblingdiscount isAccount ensured isSibling with
    ⟨stillAccount, stillEnsured⟩
  have again := @amountRequested_of_isEnsured iac informed account true stillAccount stillEnsured
  rw [amountFinaid, bind_of_ok again] at isAid
  cases isAid
  exact ⟨request, required, sibling, informed, refund, isRequest, isSibling, again, isRefund, rfl⟩

theorem amountDue_eq_ok {due : ℤ} (run : iac.amountDue db = (.ok due, after)) :
    iac.IsSettled after ∧ due = iac.dueIn after := by
  rcases amountDue_steps run with
    ⟨request, required, sibling, informed, refund, isRequest, isSibling, _, isRefund, isDue⟩
  -- The required transfers are there after the first part, and stay there.
  rcases amountRequested_eq_ok isRequest with ⟨⟨account, isAccount⟩, ensured, isTotal⟩
  rcases amountSiblingdiscount_eq_ok isAccount isSibling with
    ⟨_, isInformed, isDiscount, sameRequested, _⟩
  rcases isEnsured_amountSiblingdiscount isAccount ensured isSibling with
    ⟨stillAccount, stillEnsured⟩
  -- The line item for refunds changes nothing of what was added up.
  rcases amountRefunded_eq_ok isRefund with ⟨isAfter, payable, refundable, isRefunded⟩
  rcases withRefundLineitemtype_frame isAfter with
    ⟨frame, stillItems, stillRequested, stillPaid⟩
  have stillSibling : iac.siblingdiscount after = iac.siblingdiscount informed := by
    rw [frame]
    rfl
  constructor
  · exact {
      receivable := ⟨account, by rw [frame]; exact stillAccount⟩
      payable := payable
      ensured := by
        intro item isMember
        rw [stillItems] at isMember
        rw [frame]
        exact stillEnsured item isMember
      informed := by
        rw [frame]
        exact isInformed
      refundable := refundable }
  · have stillFinaid : iac.finaidIn after = iac.finaidIn informed := by
      rw [finaidIn, finaidIn, stillRequested, stillSibling, frame]
      rfl
    rw [isDue, dueIn, amountRequestedIn, stillFinaid, stillSibling, stillPaid, stillRequested,
      finaidIn, sameRequested false, sameRequested true, isTotal, isDiscount, isRefunded]

end IndividualAccountingController

end EspWebsite.Accounting
