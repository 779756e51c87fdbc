import EspWebsite.Accounting.FinancialAid

/-!
# The approval of financial aid

`FinancialAidRequest.approve` of `program/models/__init__.py` and
`FinancialAidGrant.finalize` of `accounting/models.py`.  The aid is computed from the grants
that are saved, and a grant is finalized before it is saved.
-/

namespace EspWebsite.Accounting

open Python Tables Transactions Action Binary64

/-- The accounting tables, the requests that are done, and those whose grant is finalized. -/
structure AidDatabase extends Database where
  done : List ℕ
  finalized : List ℕ
  deriving DecidableEq

def onAccounting {α : Type} : Action Database α → Action AidDatabase α :=
  onPart AidDatabase.toDatabase fun db changed => { db with toDatabase := changed }

/-- A grant, which may not be in the database yet. -/
structure Grant extends FinancialAidGrant where
  finalized : Bool
  saved : Bool
  deriving DecidableEq

/-- `grant.save()`: a request has one grant. -/
def Grant.save (grant : Grant) : Action AidDatabase PUnit := do
  let db ← read
  let isSame (other : FinancialAidGrant) : Bool := other.request.id = grant.request.id
  if !grant.saved && db.grants.any isSame then
    raise (.raised "IntegrityError" "duplicate key value violates unique constraint")
  else change fun db =>
    { db with
      grants :=
        if grant.saved then
          db.grants.map fun other => if isSame other then grant.toFinancialAidGrant else other
        else db.grants ++ [grant.toFinancialAidGrant]
      finalized :=
        if grant.finalized then grant.request.id :: db.finalized
        else db.finalized.filter fun id => id ≠ grant.request.id }

/-- `Transfer.objects.get_or_create`, without a transaction. -/
def getOrCreateTransfer (source destination : Account) (user : ℕ)
    (lineItem : Option LineItemType) (amountDec : Amount) : Action Database Transfer := do
  let db ← read
  let found := db.transfers.rows.filter fun transfer =>
    transfer.source = some source.id ∧ transfer.destination = some destination.id ∧
      transfer.user = some user ∧ some transfer.lineItem = lineItem.map LineItemType.id ∧
      transfer.amountDec = amountDec
  match lineItem, found with
  | none, _ => raise (.raised "IntegrityError" "null value in column \"line_item_id\"")
  | some item, [] =>
      createTransfer
        (fun id =>
          { id, source := some source.id, destination := some destination.id,
            user := some user, lineItem := item.id, amountDec, transactionId := [],
            paidIn := none })
        fun _ => rfl
  | some _, [transfer] => return transfer
  | some _, transfers =>
      let count := transfers.length
      raise (.raised "MultipleObjectsReturned"
        s!"get() returned more than one Transfer -- it returned {count}!")

namespace IndividualAccountingController

variable (iac : IndividualAccountingController)

def defaultFinaidLineitemtype : Database → Option LineItemType :=
  iac.newestLineitemtype fun item => item.text = "Financial aid grant"

/-- The transfer that `finalize` gets or creates. -/
def grantTransfer : Action Database Transfer := do
  let sourceAccount ← defaultFinaidAccount
  let destAccount ← defaultSourceAccount
  let db ← read
  let lineItemType := iac.defaultFinaidLineitemtype db
  let amount ← iac.amountFinaid none
  let amountDec ← lift (decimalField amount)
  getOrCreateTransfer sourceAccount destAccount iac.user lineItemType amountDec

end IndividualAccountingController

/-- `IndividualAccountingController(request.program, request.user)`. -/
def FinancialAidRequest.accounting (request : FinancialAidRequest) (program : Program) :
    IndividualAccountingController :=
  { program, user := request.user }

/-- `finalize`, with the transfer that it returns. -/
def Grant.finalize (grant : Grant) : Action AidDatabase (Option Transfer) :=
  if grant.finalized then return none
  else do
    let db ← read
    match db.programs.get? grant.request.program with
    | none => raise (.raised "DoesNotExist" "Program matching query does not exist.")
    | some program =>
        let transfer ← onAccounting (grant.request.accounting program).grantTransfer
        Grant.save { grant with finalized := true }
        return some transfer

namespace FinancialAidRequest

variable (request : FinancialAidRequest)

def approved (db : AidDatabase) : Bool :=
  db.grants.any fun grant => grant.request.id = request.id

/-- The grant that `approve` makes. -/
def newGrant (dollarAmount : Option Amount) (discountPercent : Option ℕ) : Grant :=
  { request, amountMaxDec := dollarAmount, percent := discountPercent, finalized := false,
    saved := false }

/-- `approve`, with the transfer of the grant if there is a new one. -/
def approve (dollarAmount : Option Amount) (discountPercent : Option ℕ) :
    Action AidDatabase (Option Transfer) := do
  let db ← read
  if request.approved db then return none
  else if (∃ amount ∈ dollarAmount, amount.cents ≠ 0) ∨ ∃ percent ∈ discountPercent, percent ≠ 0
  then do
    let transfer ← (request.newGrant dollarAmount discountPercent).finalize
    change fun db => { db with done := request.id :: db.done }
    return transfer
  else
    raise (.raised "ESPError" "Need to supply at least one of dollar_amount and discount_percent")

end FinancialAidRequest

/-! ## The transfer of a grant -/

namespace IndividualAccountingController

section Transfers

variable {iac : IndividualAccountingController} {db after : Database} {amount : ℤ}
  {transfer : Transfer}

/-- A database where nothing that `amount_finaid` needs is missing. -/
structure IsFundable (iac : IndividualAccountingController) (db : Database) : Prop where
  receivable : ∃ account, db.account "receivable" = .ok account
  ensured : ∀ item ∈ iac.getLineitemtypes true db, iac.IsEnsured db item
  informed : iac.program.siblingDiscount ≠ 0 → ∃ info, iac.splashInfo? db = some info

theorem amountFinaid_of_isFundable (fundable : iac.IsFundable db) :
    iac.amountFinaid none db = (.ok (iac.finaidIn db), db) := by
  rcases fundable.receivable with ⟨account, isAccount⟩
  rw [amountFinaid, bind_of_ok (amountRequested_of_isEnsured isAccount fundable.ensured)]
  exact bind_of_ok (amountSiblingdiscount_of_informed fundable.informed)

theorem amountFinaid_eq_ok (run : iac.amountFinaid none db = (.ok amount, after)) :
    iac.IsFundable after ∧ amount = iac.finaidIn after ∧
      (iac.amountRequested true db).1 = .ok (totalCents (iac.requested true after)) ∧
      iac.siblingdiscount after = iac.siblingdiscount db ∧
      after = { db with transfers := after.transfers, splashInfos := after.splashInfos } := by
  rw [amountFinaid] at run
  rcases Action.bind_eq_ok.mp run with ⟨request, required, isRequest, afterRequest⟩
  rcases Action.bind_eq_ok.mp afterRequest with ⟨sibling, informed, isSibling, returned⟩
  cases returned
  rcases amountRequested_eq_ok isRequest with ⟨⟨account, isAccount⟩, ensured, isTotal⟩
  rcases amountSiblingdiscount_eq_ok isAccount isSibling with
    ⟨others, isInformed, isDiscount, sameRequested, _⟩
  rcases isEnsured_amountSiblingdiscount isAccount ensured isSibling with
    ⟨stillAccount, stillEnsured⟩
  rcases Action.bind_eq_ok.mp isRequest with ⟨_, between, ensures, returned⟩
  cases returned
  rcases ensureRequiredTransfers_eq_ok ensures with ⟨_, required, _⟩
  refine ⟨⟨⟨account, stillAccount⟩, stillEnsured, isInformed⟩, ?_, ?_, ?_, ?_⟩
  · rw [finaidIn, sameRequested true, isTotal, isDiscount]
  · rw [amountRequested, bind_of_ok ensures, sameRequested true]
    rfl
  · rw [← isDiscount, siblingdiscount_amountSiblingdiscount isSibling, siblingdiscount,
      siblingdiscount, required]
    rfl
  · rw [others, required]

theorem not_mem_getLineitemtypes {grantItem item : LineItemType} {requiredOnly : Bool}
    (isGrantItem : iac.defaultFinaidLineitemtype db = some grantItem)
    (isMember : item ∈ iac.getLineitemtypes requiredOnly db) : grantItem.id ≠ item.id := by
  intro sameId
  have named := List.mem_filter.mp (List.mem_of_getLast? isGrantItem)
  rcases mem_getLineitemtypes isMember with ⟨isRow, query⟩
  have same : grantItem = item := Table.eq_of_key_eq named.1 isRow sameId
  rw [same, Bool.and_eq_true, decide_eq_true_eq, decide_eq_true_eq] at named
  rw [lineitemtypesQ, decide_eq_true_eq, named.2.2] at query
  exact query.2.1 (by decide)

structure IsGrantTransfer (iac : IndividualAccountingController) (db : Database)
    (transfer : Transfer) : Prop where
  source : ∃ account, db.account "grants" = .ok account ∧ transfer.source = some account.id
  destination : ∃ account, db.account "receivable" = .ok account ∧
    transfer.destination = some account.id
  user : transfer.user = some iac.user
  lineItem : ∃ item, iac.defaultFinaidLineitemtype db = some item ∧
    transfer.lineItem = item.id

theorem isFundable_create {make : ℕ → Transfer} {keyed : ∀ id, (make id).id = id}
    (fundable : iac.IsFundable db) (isGrant : iac.IsGrantTransfer db (make db.transfers.next)) :
    iac.IsFundable { db with transfers := db.transfers.create make keyed } ∧
      iac.requested true { db with transfers := db.transfers.create make keyed } =
        iac.requested true db := by
  rcases isGrant.lineItem with ⟨grantItem, isGrantItem, sameItem⟩
  rcases isGrant.destination with ⟨account, isAccount, sameAccount⟩
  constructor
  · refine ⟨fundable.receivable, fun item isMember => ?_, fundable.informed⟩
    have elsewhere : grantItem.id ≠ item.id := not_mem_getLineitemtypes isGrantItem isMember
    rw [IsEnsured, transfersFor_create, List.filter_cons_of_neg (by simp [sameItem, elsewhere]),
      List.filter_nil, List.append_nil]
    exact fundable.ensured item isMember
  · have elsewhere := @defaultProgramAccount_ne iac db account isAccount
    rw [requested, Table.rows_create, List.filter_append,
      List.filter_cons_of_neg (by
        rw [sameAccount, decide_eq_true_eq]
        rintro ⟨_, toProgram, _⟩
        exact elsewhere toProgram.symm),
      List.filter_nil, List.append_nil]
    rfl

theorem getOrCreateTransfer_eq_ok {source destination : Account} {user : ℕ}
    {lineItem : Option LineItemType} {amountDec : Amount}
    (run : getOrCreateTransfer source destination user lineItem amountDec db =
      (.ok transfer, after)) :
    transfer.source = some source.id ∧ transfer.destination = some destination.id ∧
      transfer.user = some user ∧ some transfer.lineItem = lineItem.map LineItemType.id ∧
      transfer.amountDec = amountDec ∧
      (transfer ∈ db.transfers.rows ∧ after = db ∨
        ∃ make keyed, transfer = make db.transfers.next ∧
          after = { db with transfers := db.transfers.create make keyed }) := by
  rw [getOrCreateTransfer, read_bind] at run
  rcases lineItem with _ | item
  · cases congrArg Prod.fst run
  · rcases isFound : db.transfers.rows.filter fun transfer =>
        transfer.source = some source.id ∧ transfer.destination = some destination.id ∧
          transfer.user = some user ∧ some transfer.lineItem = (some item).map LineItemType.id ∧
          transfer.amountDec = amountDec with _ | ⟨single, _ | ⟨second, rest⟩⟩
    · rw [isFound] at run
      cases run
      exact ⟨rfl, rfl, rfl, rfl, rfl, Or.inr ⟨_, fun _ => rfl, rfl, rfl⟩⟩
    · rw [isFound] at run
      cases run
      have isMember : transfer ∈ [transfer] := List.mem_singleton_self _
      rw [← isFound, List.mem_filter, decide_eq_true_eq] at isMember
      rcases isMember.2 with ⟨fromSource, toDestination, ofUser, ofItem, isAmount⟩
      exact ⟨fromSource, toDestination, ofUser, ofItem, isAmount, Or.inl ⟨isMember.1, rfl⟩⟩
    · rw [isFound] at run
      cases congrArg Prod.fst run

theorem grantTransfer_eq_ok (run : iac.grantTransfer db = (.ok transfer, after)) :
    ∃ between, iac.amountFinaid none db = (.ok transfer.amountDec.cents, between) ∧
      iac.IsGrantTransfer between transfer ∧
      (after = between ∨ ∃ make keyed, transfer = make between.transfers.next ∧
        after = { between with transfers := between.transfers.create make keyed }) := by
  rcases Action.bind_eq_ok.mp run with ⟨source, sourced, isSource, afterSource⟩
  rw [defaultFinaidAccount, read_bind, lift_apply] at isSource
  cases congrArg Prod.snd isSource
  rcases Action.bind_eq_ok.mp afterSource with ⟨destination, _, isDestination, afterAccounts⟩
  rcases defaultSourceAccount_eq_ok.mp isDestination with ⟨isDestination, rfl⟩
  rw [read_bind] at afterAccounts
  rcases Action.bind_eq_ok.mp afterAccounts with ⟨amount, between, isAid, afterAid⟩
  rcases lift_bind_eq_ok.mp afterAid with ⟨amountDec, fits, last⟩
  rcases amountFinaid_eq_ok isAid with ⟨_, _, _, _, others⟩
  rcases getOrCreateTransfer_eq_ok last with
    ⟨fromSource, toDestination, ofUser, ofItem, isAmount, isAfter⟩
  refine ⟨between, ?_, ?_, isAfter.imp_left And.right⟩
  · rw [isAmount, decimalField_eq_ok.mp fits]
    exact isAid
  · rcases Option.map_eq_some_iff.mp ofItem.symm with ⟨item, isItem, sameItem⟩
    rw [others]
    exact ⟨⟨source, congrArg Prod.fst isSource, fromSource⟩,
      ⟨destination, isDestination, toDestination⟩, ofUser, item, isItem, sameItem.symm⟩

theorem isFundable_grantTransfer (run : iac.grantTransfer db = (.ok transfer, after)) :
    iac.IsFundable after ∧
      (iac.amountRequested true db).1 = .ok (totalCents (iac.requested true after)) ∧
      iac.siblingdiscount after = iac.siblingdiscount db ∧ after.grants = db.grants ∧
      transfer.amountDec.cents = iac.finaidIn after := by
  rcases grantTransfer_eq_ok run with ⟨between, isAid, isGrant, isAfter⟩
  rcases amountFinaid_eq_ok isAid with ⟨fundable, isFinaid, isRequest, sameSibling, others⟩
  have sameGrants : between.grants = db.grants := by rw [others]
  rcases isAfter with rfl | ⟨make, keyed, rfl, rfl⟩
  · exact ⟨fundable, isRequest, sameSibling, sameGrants, isFinaid⟩
  · rcases @isFundable_create iac between make keyed fundable isGrant with
      ⟨stillFundable, sameRequested⟩
    refine ⟨stillFundable, ?_, sameSibling, sameGrants, ?_⟩
    · rw [sameRequested]
      exact isRequest
    · rw [isFinaid, finaidIn, finaidIn, sameRequested]
      rfl

end Transfers

end IndividualAccountingController

/-! ## The first approval -/

/-- The dollars of a grant, in cents: no more than what remains after the discount. -/
def grantedDollars (remaining : ℤ) : Option Amount → ℤ
  | none => 0
  | some amountMax => min amountMax.cents remaining

/-- The aid of a grant before it is rounded, in hundredths of a cent. -/
def grantedHundredths (remaining : ℤ) (dollarAmount : Option Amount)
    (discountPercent : Option ℕ) : ℤ :=
  100 * grantedDollars remaining dollarAmount +
    (discountPercent.getD 0 : ℕ) * (remaining - grantedDollars remaining dollarAmount)

section Approval

variable {program : Program} {request : FinancialAidRequest}
  {dollarAmount : Option Amount} {discountPercent : Option ℕ} {db after : AidDatabase}
  {transfer : Transfer} {requested discount eligible : ℤ} {grant : FinancialAidGrant}

theorem aidAmount_eq_grantedHundredths :
    IndividualAccountingController.aidAmount requested discount grant =
      ((grantedHundredths (requested - discount) grant.amountMaxDec grant.percent : ℤ) : ℚ) /
        100 := by
  rcases grant with ⟨_, _ | amountMax, percent⟩
  · cases percent with
    | none => simp [IndividualAccountingController.aidAmount, grantedHundredths, grantedDollars]
    | some percent =>
        rw [IndividualAccountingController.aidAmount, grantedHundredths, grantedDollars]
        push_cast [Option.getD_some]
        ring
  · have dollars : (if requested - discount > amountMax.cents then (amountMax.cents : ℚ)
        else (requested : ℚ) - discount) =
          ((grantedDollars (requested - discount) (some amountMax) : ℤ) : ℚ) := by
      rw [grantedDollars]
      split
      next more => rw [min_eq_left more.le]
      next less => rw [min_eq_right (not_lt.mp less), Int.cast_sub]
    rw [IndividualAccountingController.aidAmount, grantedHundredths]
    dsimp only
    rw [dollars]
    cases percent with
    | none =>
        push_cast [Option.getD_none]
        ring
    | some percent =>
        push_cast [Option.getD_some]
        ring

theorem roundHalfUp_aidAmount_eq_zero_iff :
    roundHalfUp (IndividualAccountingController.aidAmount requested discount grant) = 0 ↔
      |grantedHundredths (requested - discount) grant.amountMaxDec grant.percent| < 50 := by
  rw [roundHalfUp_eq_zero_iff, aidAmount_eq_grantedHundredths]
  generalize grantedHundredths (requested - discount) grant.amountMaxDec grant.percent = aid
  have scaled : |(aid : ℚ) / 100| < 1 / 2 ↔ |(aid : ℚ)| < 50 := by
    rw [abs_div, abs_of_pos (by norm_num : (0 : ℚ) < 100), div_lt_iff₀ (by norm_num)]
    norm_num
  rw [scaled]
  exact_mod_cast Iff.rfl

theorem finalize_eq_ok {grant : Grant}
    (isProgram : db.programs.get? grant.request.program = some program)
    (run : grant.finalize db = (.ok (some transfer), after)) :
    ∃ between, (grant.request.accounting program).grantTransfer db.toDatabase =
        (.ok transfer, between) ∧
      after.toDatabase = { between with
        grants :=
          if grant.saved then
            between.grants.map fun other =>
              if other.request.id = grant.request.id then grant.toFinancialAidGrant else other
          else between.grants ++ [grant.toFinancialAidGrant] } := by
  rw [Grant.finalize] at run
  split at run
  next => cases congrArg Prod.fst run
  next =>
    rw [read_bind, isProgram] at run
    rcases Action.bind_eq_ok.mp run with ⟨created, paid, isCreated, afterCreated⟩
    rcases Action.bind_eq_ok.mp afterCreated with ⟨_, saved, isSaved, returned⟩
    cases returned
    rcases onPart_eq_ok.mp isCreated with ⟨changed, isTransfer, rfl⟩
    rw [Grant.save, read_bind] at isSaved
    split at isSaved
    next => cases congrArg Prod.fst isSaved
    next =>
      cases isSaved
      refine ⟨changed, isTransfer, ?_⟩
      simp only [decide_eq_true_eq]

theorem finalize_saved {grant : Grant} (isSaved : grant.saved = true)
    (unique : ∀ other ∈ db.grants, other.request.id = grant.request.id →
      other = grant.toFinancialAidGrant)
    (isProgram : db.programs.get? grant.request.program = some program)
    (run : grant.finalize db = (.ok (some transfer), after)) :
    (grant.request.accounting program).amountFinaid none after.toDatabase =
      (.ok transfer.amountDec.cents, after.toDatabase) := by
  rcases finalize_eq_ok isProgram run with ⟨between, isTransfer, isAfter⟩
  rcases IndividualAccountingController.isFundable_grantTransfer isTransfer with
    ⟨fundable, _, _, sameGrants, isFinaid⟩
  have unchanged : (between.grants.map fun other =>
      if other.request.id = grant.request.id then grant.toFinancialAidGrant else other) =
        between.grants := by
    refine (List.map_congr_left fun other isMember => ?_).trans (List.map_id _)
    rw [sameGrants] at isMember
    split
    next same => exact (unique other isMember same).symm
    next => rfl
  rw [if_pos isSaved, unchanged] at isAfter
  rw [isAfter, isFinaid]
  exact IndividualAccountingController.amountFinaid_of_isFundable fundable

theorem approve_eq_ok (isProgram : db.programs.get? request.program = some program)
    (run : request.approve dollarAmount discountPercent db = (.ok (some transfer), after)) :
    ∃ between, (request.accounting program).grantTransfer db.toDatabase =
        (.ok transfer, between) ∧
      after.toDatabase = { between with
        grants := between.grants ++
          [(request.newGrant dollarAmount discountPercent).toFinancialAidGrant] } := by
  rw [FinancialAidRequest.approve, read_bind] at run
  split at run
  next => cases congrArg Prod.fst run
  next =>
    split at run
    next =>
      rcases Action.bind_eq_ok.mp run with ⟨finalized, granted, isFinalized, marked⟩
      cases marked
      exact @finalize_eq_ok program db granted transfer
        (request.newGrant dollarAmount discountPercent) isProgram isFinalized
    next => cases congrArg Prod.fst run

theorem approve_of_approved (approved : request.approved db = true) :
    request.approve dollarAmount discountPercent db = (.ok none, db) := by
  rw [FinancialAidRequest.approve, read_bind, if_pos approved]
  rfl

/-- The transfer of a first grant has the amount of the aid that the grant gives exactly where
the grant gives nothing. -/
theorem approve_finaid_iff (isProgram : db.programs.get? request.program = some program)
    (first : (request.accounting program).latestFinaidGrant db.toDatabase = none)
    (isEligible : ((request.accounting program).amountRequested true db.toDatabase).1 =
      .ok eligible)
    (run : request.approve dollarAmount discountPercent db = (.ok (some transfer), after)) :
    ((request.accounting program).amountFinaid none after.toDatabase).1 =
          .ok transfer.amountDec.cents ∧
        (∀ dollarAmount discountPercent,
          request.approve dollarAmount discountPercent after = (.ok none, after)) ↔
      |grantedHundredths
        (eligible - (request.accounting program).siblingdiscount db.toDatabase)
        dollarAmount discountPercent| < 50 := by
  have sameProgram : program.id = request.program := (Table.get?_eq_some.mp isProgram).2
  rcases approve_eq_ok isProgram run with ⟨between, isTransfer, isAfter⟩
  rcases IndividualAccountingController.isFundable_grantTransfer isTransfer with
    ⟨fundable, requests, sameSibling, sameGrants, isFinaid⟩
  cases Except.ok.inj (requests.symm.trans isEligible)
  -- The transfer is computed where there is no grant.
  have nothing : transfer.amountDec.cents = 0 := by
    rw [isFinaid, IndividualAccountingController.finaidIn,
      IndividualAccountingController.finaid,
      IndividualAccountingController.latestFinaidGrant, sameGrants]
    rw [IndividualAccountingController.latestFinaidGrant] at first
    rw [first]
  have latest : (request.accounting program).latestFinaidGrant after.toDatabase =
      some (request.newGrant dollarAmount discountPercent).toFinancialAidGrant := by
    rw [IndividualAccountingController.latestFinaidGrant, List.argmax_eq_none] at first
    rw [IndividualAccountingController.latestFinaidGrant, isAfter, List.filter_append, sameGrants,
      first, List.filter_cons_of_pos (by
        simp [FinancialAidRequest.newGrant, FinancialAidRequest.accounting, sameProgram])]
    rfl
  have stillFundable : (request.accounting program).IsFundable after.toDatabase := by
    rw [isAfter]
    exact ⟨fundable.receivable, fundable.ensured, fundable.informed⟩
  have aid : (request.accounting program).finaidIn after.toDatabase =
      roundHalfUp (IndividualAccountingController.aidAmount
        (totalCents ((request.accounting program).requested true between))
        ((request.accounting program).siblingdiscount db.toDatabase)
        (request.newGrant dollarAmount discountPercent).toFinancialAidGrant) := by
    rw [IndividualAccountingController.finaidIn, IndividualAccountingController.finaid, latest,
      ← sameSibling, isAfter]
    rfl
  have approved : request.approved after = true := by
    rw [FinancialAidRequest.approved, isAfter]
    simp [FinancialAidRequest.newGrant]
  rw [IndividualAccountingController.amountFinaid_of_isFundable stillFundable, nothing,
    Except.ok.injEq, aid, roundHalfUp_aidAmount_eq_zero_iff]
  exact and_iff_left fun _ _ => approve_of_approved approved

end Approval

namespace Sample

def grantItem (id : ℕ) : LineItemType :=
  { id, text := "Financial aid grant", amountDec := dollars 0 zero_fits, program := 1, required := false,
    forPayments := false, forFinaid := false }

theorem id_grantItem (id : ℕ) : (grantItem id).id = id := rfl

/-- The student with a sibling has no grant. -/
def asked (siblingDiscount : ℤ) : AidDatabase :=
  { toDatabase :=
      { sibling siblingDiscount with
        lineItemTypes := lineItemTypes.create grantItem id_grantItem
        grants := [] }
    done := []
    finalized := [] }

def aidRequest : FinancialAidRequest := { id := 1, user := 7, program := 1 }

def grantOf (amountDec : Amount) : Transfer :=
  { id := 3, source := some 3, destination := some 1, user := some 7, lineItem := 4, amountDec,
    transactionId := [], paidIn := none }

/-- Where the discount takes off the whole admission, the transfer has the amount of the
aid. -/
theorem approve_covered :
    ((aidRequest.accounting (discounted 1000).program).amountFinaid none
        (aidRequest.approve none (some 100) (asked 1000)).2.toDatabase).1 =
          .ok (grantOf (dollars 0)).amountDec.cents ∧
      ∀ dollarAmount discountPercent,
        aidRequest.approve dollarAmount discountPercent
            (aidRequest.approve none (some 100) (asked 1000)).2 =
          (.ok none, (aidRequest.approve none (some 100) (asked 1000)).2) :=
  (@approve_finaid_iff (discounted 1000).program aidRequest none (some 100) (asked 1000)
    (aidRequest.approve none (some 100) (asked 1000)).2 (grantOf (dollars 0)) 1000
    (by decide) (by decide) (by decide)
    (Prod.ext (by decide) rfl)).mpr (by decide)

/-- With a discount of four dollars the aid is six dollars, and the transfer is of none. -/
theorem approve_uncovered :
    (aidRequest.accounting (discounted 400).program).latestFinaidGrant (asked 400).toDatabase =
        none ∧
      (aidRequest.approve none (some 100) (asked 400)).1 =
        .ok (some (grantOf (dollars 0))) ∧
      ((aidRequest.accounting (discounted 400).program).amountFinaid none
        (aidRequest.approve none (some 100) (asked 400)).2.toDatabase).1 = .ok 600 := by
  decide +kernel

end Sample

end EspWebsite.Accounting
