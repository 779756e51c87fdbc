import EspWebsite.Accounting.AmountDue

/-!
# Financial aid

The aid covers the items that are eligible for it, less the sibling discount.  Where the
discount is more than these items cost, the aid is negative and is added to what is due.
-/

namespace EspWebsite.Accounting

open Python Tables Transactions Action Binary64

/-- A grant gives a dollar amount that is not negative and a percentage of at most 100. -/
structure FinancialAidGrant.Proper (grant : FinancialAidGrant) : Prop where
  dollars : ∀ amountMax ∈ grant.amountMaxDec, 0 ≤ amountMax.cents
  percent : ∀ percent ∈ grant.percent, percent ≤ 100

namespace IndividualAccountingController

/-! ## The amount of a grant -/

section Grants

variable {requested discount : ℤ} {grant : FinancialAidGrant}

theorem percentage_bounds {dollars remaining percent : ℚ} (nonnegative : 0 ≤ dollars)
    (within : dollars ≤ remaining) (positive : 0 ≤ percent) (atMost : percent ≤ 100) :
    0 ≤ dollars + 1 / 100 * percent * (remaining - dollars) ∧
      dollars + 1 / 100 * percent * (remaining - dollars) ≤ remaining := by
  have left : 0 ≤ remaining - dollars := by linarith
  have share : 0 ≤ percent * (remaining - dollars) := mul_nonneg positive left
  have most : percent * (remaining - dollars) ≤ 100 * (remaining - dollars) :=
    mul_le_mul_of_nonneg_right atMost left
  constructor
  · linarith
  · linarith

theorem withPercentage_bounds {dollars remaining : ℚ} (proper : grant.Proper)
    (nonnegative : 0 ≤ dollars) (within : dollars ≤ remaining) :
    0 ≤ (match grant.percent with
      | none => dollars
      | some percent => dollars + 1 / 100 * percent * (remaining - dollars)) ∧
    (match grant.percent with
      | none => dollars
      | some percent => dollars + 1 / 100 * percent * (remaining - dollars)) ≤ remaining := by
  cases given : grant.percent with
  | none => exact ⟨nonnegative, within⟩
  | some percent =>
      have atMost : (percent : ℚ) ≤ 100 := by
        exact_mod_cast proper.percent percent given
      exact percentage_bounds nonnegative within (Nat.cast_nonneg percent) atMost

theorem aidAmount_bounds (proper : grant.Proper) (covered : discount ≤ requested) :
    0 ≤ aidAmount requested discount grant ∧
      aidAmount requested discount grant ≤ ((requested - discount : ℤ) : ℚ) := by
  have remaining : (0 : ℚ) ≤ requested - discount := by
    rw [sub_nonneg, Int.cast_le]
    exact covered
  rw [aidAmount, Int.cast_sub]
  cases given : grant.amountMaxDec with
  | none => exact withPercentage_bounds proper le_rfl remaining
  | some amountMax =>
      have nonnegative : (0 : ℚ) ≤ amountMax.cents := by
        exact_mod_cast proper.dollars amountMax given
      by_cases more : requested - discount > amountMax.cents
      · have within : (amountMax.cents : ℚ) < requested - discount := by exact_mod_cast more
        simp only [more, if_true]
        exact withPercentage_bounds proper nonnegative within.le
      · simp only [more, if_false]
        exact withPercentage_bounds proper remaining le_rfl

theorem aidAmount_of_lt (proper : grant.Proper) (uncovered : requested < discount) :
    aidAmount requested discount grant =
      if grant.amountMaxDec = none then
        (1 / 100 * (grant.percent.getD 0 : ℕ) * ((requested : ℚ) - discount) : ℚ)
      else (requested : ℚ) - discount := by
  rw [aidAmount]
  cases dollars : grant.amountMaxDec with
  | none =>
      cases grant.percent with
      | none => simp
      | some percent => simp
  | some amountMax =>
      have nonnegative := proper.dollars amountMax dollars
      have below : ¬ requested - discount > amountMax.cents := by omega
      cases grant.percent with
      | none => simp [below]
      | some percent => simp [below]

theorem aidAmount_nonpos (proper : grant.Proper) (uncovered : requested < discount) :
    aidAmount requested discount grant ≤ (0 : ℤ) := by
  have negative : (requested : ℚ) - discount ≤ 0 := by
    have difference : requested - discount ≤ 0 := by omega
    exact_mod_cast difference
  rw [aidAmount_of_lt proper uncovered, Int.cast_zero]
  split
  · have share : (0 : ℚ) ≤ 1 / 100 * (grant.percent.getD 0 : ℕ) := by positivity
    exact mul_nonpos_of_nonneg_of_nonpos share negative
  · exact negative

theorem roundHalfUp_aidAmount_le {total : ℤ} (proper : grant.Proper) (part : requested ≤ total)
    (within : discount ≤ total) :
    roundHalfUp (aidAmount requested discount grant) ≤ total - discount := by
  by_cases covered : discount ≤ requested
  · have rounded := roundHalfUp_le (aidAmount_bounds proper covered).2
    omega
  · have rounded := roundHalfUp_le (aidAmount_nonpos proper (not_le.mp covered))
    omega

/-- The aid for items is not negative, or too small to be rounded below zero. -/
def Covers (requested discount : ℤ) (grant : FinancialAidGrant) : Prop :=
  discount ≤ requested ∨
    grant.amountMaxDec = none ∧ (grant.percent.getD 0 : ℕ) * (discount - requested) < 50

theorem roundHalfUp_aidAmount_iff (proper : grant.Proper) (items : 0 ≤ requested)
    (nonnegative : 0 ≤ discount) :
    0 ≤ roundHalfUp (aidAmount requested discount grant) ∧
        roundHalfUp (aidAmount requested discount grant) ≤ requested ↔
      Covers requested discount grant := by
  rw [Covers]
  by_cases covered : discount ≤ requested
  · have bounds := aidAmount_bounds proper covered
    have rounded := roundHalfUp_le bounds.2
    simp only [covered, true_or, iff_true]
    constructor
    · rw [roundHalfUp_nonneg_iff]
      linarith [bounds.1]
    · omega
  · have negative : (requested : ℚ) - discount ≤ -1 := by
      have difference : requested - discount ≤ -1 := by omega
      exact_mod_cast difference
    have atMost := aidAmount_nonpos proper (by omega : requested < discount)
    have rounded : roundHalfUp (aidAmount requested discount grant) ≤ requested :=
      (roundHalfUp_le atMost).trans items
    simp only [rounded, and_true, covered, false_or]
    rw [roundHalfUp_nonneg_iff, aidAmount_of_lt proper (by omega)]
    by_cases uncapped : grant.amountMaxDec = none
    · simp only [uncapped, if_true, true_and]
      have scaled : (grant.percent.getD 0 : ℕ) * (discount - requested) < 50 ↔
          ((grant.percent.getD 0 : ℕ) : ℚ) * (discount - requested) < 50 := by
        exact_mod_cast Iff.rfl
      rw [scaled]
      constructor
      · intro small
        linarith
      · intro small
        linarith
    · simp only [uncapped, if_false, false_and, iff_false, not_lt]
      linarith

end Grants

/-! ## Amounts that are not negative -/

section Nonnegative

variable {iac : IndividualAccountingController} {db existing : Database}

/-- No line item and no transfer of the user to the program has a negative amount. -/
structure Nonnegative (iac : IndividualAccountingController) (db : Database) : Prop where
  items : ∀ item ∈ db.lineItemTypes.rows, 0 ≤ item.amountDec.cents
  transfers : ∀ transfer ∈ db.transfers.rows, transfer.user = some iac.user →
    transfer.destination = iac.defaultProgramAccount db → 0 ≤ transfer.amountDec.cents

/-- The accounts and grants of a database, and amounts that are not negative. -/
structure Unspoilt (iac : IndividualAccountingController) (initial db : Database) : Prop
    extends Nonnegative iac db where
  accounts : db.accounts = initial.accounts
  grants : db.grants = initial.grants

theorem keeps_createTransfer {make : ℕ → Transfer} {keyed : ∀ id, (make id).id = id}
    (nonnegative : ∀ id, 0 ≤ (make id).amountDec.cents) :
    Keeps (Unspoilt iac db) (createTransfer make keyed) := by
  intro state value after holds run
  cases run
  refine ⟨⟨holds.items, ?_⟩, holds.accounts, holds.grants⟩
  intro transfer isRow isUser toProgram
  rcases List.mem_append.mp isRow with isOld | isNew
  · exact holds.transfers transfer isOld isUser toProgram
  · rw [List.mem_singleton.mp isNew]
    exact nonnegative _

theorem keeps_saveTransfer {saved : Transfer} (nonnegative : 0 ≤ saved.amountDec.cents) :
    Keeps (Unspoilt iac db) saved.save := by
  apply keeps_change
  intro state holds
  refine ⟨⟨holds.items, ?_⟩, holds.accounts, holds.grants⟩
  intro transfer isRow isUser toProgram
  rw [Table.rows_save, List.mem_map] at isRow
  rcases isRow with ⟨row, isOld, rfl⟩
  split
  · exact nonnegative
  · rename_i other
    rw [if_neg other] at isUser toProgram
    exact holds.transfers row isOld isUser toProgram

theorem keeps_ensureRequiredTransfer {sourceAccount : Account} {item : LineItemType}
    (nonnegative : 0 ≤ item.amountDec.cents) :
    Keeps (Unspoilt iac db) (iac.ensureRequiredTransfer existing sourceAccount item) := by
  rw [ensureRequiredTransfer]
  split
  · exact (keeps_createTransfer fun _ => nonnegative).bind fun _ => keeps_pure _
  · split
    · exact keeps_pure _
    · split
      · exact keeps_pure _
      · exact keeps_saveTransfer nonnegative

theorem keeps_account {name : String} : Keeps (Unspoilt iac db) (do
    let db ← read
    lift (db.account name)) :=
  keeps_read_bind fun _ _ => keeps_lift _

theorem keeps_amountRequested {forFinaidOnly : Bool} :
    Keeps (Unspoilt iac db) (iac.amountRequested forFinaidOnly) := by
  have ensures : Keeps (Unspoilt iac db) iac.ensureRequiredTransfers := by
    apply Keeps.atomic
    apply keeps_account.bind
    intro sourceAccount
    apply keeps_read_bind
    intro existing holds
    apply keeps_forEach
    intro item isMember _
    exact keeps_ensureRequiredTransfer
      (holds.items item (mem_getLineitemtypes isMember).1)
  apply ensures.bind
  intro _
  exact keeps_read_bind fun _ _ => keeps_pure _

theorem keeps_amountSiblingdiscount : Keeps (Unspoilt iac db) iac.amountSiblingdiscount := by
  have removes : Keeps (Unspoilt iac db) iac.removeSiblingDiscount := by
    apply keeps_read_bind
    intro state _
    apply keeps_account.bind
    intro sourceAccount
    apply keeps_account.bind
    intro destAccount
    dsimp only
    split
    · exact keeps_raise _
    · apply keeps_change
      intro state holds
      refine ⟨⟨holds.items, ?_⟩, holds.accounts, holds.grants⟩
      intro transfer isRow
      exact holds.transfers transfer (List.mem_of_mem_filter isRow)
  have informs : Keeps (Unspoilt iac db) iac.splashInfoForUser := by
    apply keeps_read_bind
    intro state _
    split
    · exact keeps_pure _
    · have creates : Keeps (Unspoilt iac db) (change fun db =>
          { db with
            splashInfos := db.splashInfos.create iac.newSplashInfo iac.id_newSplashInfo }) :=
        keeps_change fun _ holds =>
          ⟨⟨holds.items, holds.transfers⟩, holds.accounts, holds.grants⟩
      exact creates.bind fun _ => removes.bind fun _ => keeps_pure _
  rw [amountSiblingdiscount]
  split
  · exact keeps_pure _
  · exact informs.bind fun _ => keeps_pure _

theorem keeps_amountFinaid {amount : Option ℤ} :
    Keeps (Unspoilt iac db) (iac.amountFinaid amount) := by
  apply keeps_amountRequested.bind
  intro request
  have aids (sibling : ℤ) : Keeps (Unspoilt iac db) (do
      let db ← read
      return iac.finaid request sibling db) :=
    keeps_read_bind fun _ _ => keeps_pure _
  cases amount with
  | none => exact keeps_amountSiblingdiscount.bind aids
  | some amount => exact (keeps_pure amount).bind aids

theorem keeps_amountRefunded : Keeps (Unspoilt iac db) iac.amountRefunded := by
  have items : Keeps (Unspoilt iac db) iac.defaultRefundLineitemtype := by
    apply keeps_read_bind
    intro state _
    split
    · have creates : Keeps (Unspoilt iac db) (change fun db =>
          { db with
            lineItemTypes :=
              db.lineItemTypes.create iac.newRefundLineitemtype
                iac.id_newRefundLineitemtype }) := by
        apply keeps_change
        intro state holds
        refine ⟨⟨?_, holds.transfers⟩, holds.accounts, holds.grants⟩
        intro item isRow
        rcases List.mem_append.mp isRow with isOld | isNew
        · exact holds.items item isOld
        · rw [List.mem_singleton.mp isNew]
          exact le_rfl
      exact creates.bind fun _ => keeps_pure _
    · exact keeps_pure _
    · exact keeps_raise _
  apply items.bind
  intro refundLineitem
  apply keeps_account.bind
  intro payableAccount
  exact keeps_read_bind fun _ _ => keeps_pure _

theorem keeps_amountDue : Keeps (Unspoilt iac db) iac.amountDue := by
  apply keeps_amountRequested.bind
  intro amtRequest
  apply keeps_amountSiblingdiscount.bind
  intro amtSibling
  apply keeps_amountFinaid.bind
  intro amtFinaid
  apply keeps_read_bind
  intro state _
  exact keeps_amountRefunded.bind fun _ => keeps_pure _

theorem totalCents_nonneg {transfers : List Transfer}
    (nonnegative : ∀ transfer ∈ transfers, 0 ≤ transfer.amountDec.cents) :
    0 ≤ totalCents transfers := by
  apply List.sum_nonneg
  intro cents isMember
  rcases List.mem_map.mp isMember with ⟨transfer, isTransfer, rfl⟩
  exact nonnegative transfer isTransfer

theorem Nonnegative.requested (nonnegative : iac.Nonnegative db) {forFinaidOnly : Bool} :
    ∀ transfer ∈ iac.requested forFinaidOnly db, 0 ≤ transfer.amountDec.cents := by
  intro transfer isMember
  rcases List.mem_filter.mp isMember with ⟨isRow, isRequested⟩
  rw [decide_eq_true_eq] at isRequested
  exact nonnegative.transfers transfer isRow isRequested.1 isRequested.2.1

theorem Nonnegative.eligible_le (nonnegative : iac.Nonnegative db) :
    totalCents (iac.requested true db) ≤ iac.amountRequestedIn db := by
  have eligible : (iac.requested true db).Sublist (iac.requested false db) := by
    apply List.monotone_filter_right
    intro transfer isRequested
    rw [decide_eq_true_eq] at isRequested ⊢
    exact ⟨isRequested.1, isRequested.2.1, by simp⟩
  apply List.Sublist.sum_le_sum (eligible.map _)
  intro cents isMember
  rcases List.mem_map.mp isMember with ⟨transfer, isTransfer, rfl⟩
  exact nonnegative.requested transfer isTransfer

end Nonnegative

/-! ## What is due with a grant -/

section Due

variable {iac : IndividualAccountingController} {db after : Database} {due : ℤ}

def revokeFinancialAid (iac : IndividualAccountingController) (db : Database) : Database :=
  { db with
    grants := db.grants.filter fun grant =>
      ¬ (grant.request.user = iac.user ∧ grant.request.program = iac.program.id) }

theorem finaid_revokeFinancialAid {amountRequested amountSiblingdiscount : ℤ} :
    iac.finaid amountRequested amountSiblingdiscount (iac.revokeFinancialAid db) = 0 := by
  have revoked : iac.latestFinaidGrant (iac.revokeFinancialAid db) = none := by
    simp [latestFinaidGrant, revokeFinancialAid, List.filter_filter]
  rw [finaid, revoked]

section Independent

variable {existing : Database}

theorem independent_account {name : String} : Independent iac.revokeFinancialAid (do
    let db ← read
    lift (db.account name)) :=
  independent_read_bind (fun _ => rfl) fun _ => independent_lift _

theorem independent_ensureRequiredTransfer {sourceAccount : Account} {item : LineItemType} :
    Independent iac.revokeFinancialAid
      (iac.ensureRequiredTransfer existing sourceAccount item) := by
  rw [ensureRequiredTransfer]
  split
  · have creates : Independent iac.revokeFinancialAid
        (createTransfer (iac.requiredTransfer existing sourceAccount item) fun _ => rfl) :=
      fun _ => rfl
    exact creates.bind fun _ => independent_pure _
  · split
    · exact independent_pure _
    · split
      · exact independent_pure _
      · exact independent_change fun _ => rfl

theorem independent_amountRequested (iac : IndividualAccountingController)
    (forFinaidOnly : Bool) :
    Independent iac.revokeFinancialAid (iac.amountRequested forFinaidOnly) := by
  have ensures : Independent iac.revokeFinancialAid iac.ensureRequiredTransfers := by
    apply Independent.atomic
    apply independent_account.bind
    intro sourceAccount
    refine independent_read_bind (fun _ => rfl) fun existing => ?_
    exact independent_forEach (fun _ _ => independent_ensureRequiredTransfer) _ _
  apply ensures.bind
  intro _
  exact independent_read_bind (fun _ => rfl) fun _ => independent_pure _

theorem independent_amountSiblingdiscount (iac : IndividualAccountingController) :
    Independent iac.revokeFinancialAid iac.amountSiblingdiscount := by
  have removes : Independent iac.revokeFinancialAid iac.removeSiblingDiscount := by
    refine independent_read_bind (fun _ => rfl) fun state => ?_
    apply independent_account.bind
    intro sourceAccount
    apply independent_account.bind
    intro destAccount
    dsimp only
    split
    · exact independent_raise _
    · exact independent_change fun _ => rfl
  have informs : Independent iac.revokeFinancialAid iac.splashInfoForUser := by
    refine independent_read_bind (fun _ => rfl) fun state => ?_
    split
    · exact independent_pure _
    · have creates : Independent iac.revokeFinancialAid (change fun db =>
          { db with
            splashInfos := db.splashInfos.create iac.newSplashInfo iac.id_newSplashInfo }) :=
        independent_change fun _ => rfl
      exact creates.bind fun _ => removes.bind fun _ => independent_pure _
  rw [amountSiblingdiscount]
  split
  · exact independent_pure _
  · exact informs.bind fun _ => independent_pure _

theorem independent_amountRefunded (iac : IndividualAccountingController) :
    Independent iac.revokeFinancialAid iac.amountRefunded := by
  have items : Independent iac.revokeFinancialAid iac.defaultRefundLineitemtype := by
    refine independent_read_bind (fun _ => rfl) fun state => ?_
    split
    · have creates : Independent iac.revokeFinancialAid (change fun db =>
          { db with
            lineItemTypes :=
              db.lineItemTypes.create iac.newRefundLineitemtype
                iac.id_newRefundLineitemtype }) :=
        independent_change fun _ => rfl
      exact creates.bind fun _ => independent_pure _
    · exact independent_pure _
    · exact independent_raise _
  apply items.bind
  intro refundLineitem
  apply independent_account.bind
  intro payableAccount
  exact independent_read_bind (fun _ => rfl) fun _ => independent_pure _

end Independent

/-- The sibling discount does not depend on whether the sibling information is there. -/
theorem siblingdiscount_amountSiblingdiscount {amount : ℤ}
    (run : iac.amountSiblingdiscount db = (.ok amount, after)) :
    amount = iac.siblingdiscount db := by
  rw [siblingdiscount]
  rcases amountSiblingdiscount_cases run with
    ⟨zero, rfl, rfl⟩ | ⟨nonzero, info, found, rfl, rfl⟩ | ⟨nonzero, found, rfl, _, _⟩
  · rw [if_pos zero]
  · rw [if_neg nonzero, found]
  · rw [if_neg nonzero, found]

theorem amountDue_inputs (run : iac.amountDue db = (.ok due, after)) :
    (∀ forFinaidOnly, (iac.amountRequested forFinaidOnly db).1 =
        .ok (totalCents (iac.requested forFinaidOnly after))) ∧
      iac.siblingdiscount after = iac.siblingdiscount db ∧
      (iac.amountFinaid none db).1 = .ok (iac.finaidIn after) := by
  rcases amountDue_steps run with
    ⟨request, required, sibling, informed, refund, isRequest, isSibling, _, isRefund, _⟩
  rcases amountRequested_eq_ok isRequest with ⟨⟨account, isAccount⟩, _, _⟩
  rcases amountSiblingdiscount_eq_ok isAccount isSibling with
    ⟨_, _, isDiscount, sameRequested, _⟩
  rcases amountRefunded_eq_ok isRefund with ⟨isAfter, _, _, _⟩
  rcases withRefundLineitemtype_frame isAfter with ⟨frame, _, stillRequested, _⟩
  rcases Action.bind_eq_ok.mp isRequest with ⟨_, between, ensures, returned⟩
  cases returned
  have stillSibling : iac.siblingdiscount after = iac.siblingdiscount informed := by
    rw [frame]
    rfl
  have requests (forFinaidOnly : Bool) : iac.amountRequested forFinaidOnly db =
      (.ok (totalCents (iac.requested forFinaidOnly after)), required) := by
    rw [amountRequested, bind_of_ok ensures, stillRequested, sameRequested]
    rfl
  refine ⟨fun forFinaidOnly => by rw [requests], ?_, ?_⟩
  · rcases ensureRequiredTransfers_eq_ok ensures with ⟨_, others, _⟩
    rw [stillSibling, ← isDiscount, siblingdiscount_amountSiblingdiscount isSibling, others]
    rfl
  · rw [amountFinaid, bind_of_ok (requests true)]
    refine (congrArg Prod.fst (bind_of_ok isSibling)).trans ?_
    rw [finaidIn, stillSibling, ← isDiscount, frame]
    rfl

theorem amountDue_revokeFinancialAid (run : iac.amountDue db = (.ok due, after)) :
    iac.amountDue (iac.revokeFinancialAid db) =
      (.ok (due + iac.finaidIn after), iac.revokeFinancialAid after) := by
  rcases amountDue_steps run with
    ⟨request, required, sibling, informed, refund, isRequest, isSibling, again, isRefund, isDue⟩
  rcases amountRequested_eq_ok isRequest with ⟨⟨account, isAccount⟩, _, _⟩
  rcases amountSiblingdiscount_eq_ok isAccount isSibling with ⟨_, _, isDiscount, _, _⟩
  rcases amountRefunded_eq_ok isRefund with ⟨isAfter, _, _, _⟩
  rcases withRefundLineitemtype_frame isAfter with ⟨frame, _, stillRequested, _⟩
  have sameAid : iac.finaidIn after =
      iac.finaid (totalCents (iac.requested true informed)) sibling informed := by
    have stillSibling : iac.siblingdiscount after = iac.siblingdiscount informed := by
      rw [frame]
      rfl
    rw [finaidIn, stillRequested, stillSibling, ← isDiscount, frame]
    rfl
  have noAid : iac.amountFinaid (some sibling) (iac.revokeFinancialAid informed) =
      (.ok 0, iac.revokeFinancialAid informed) := by
    have requests := iac.independent_amountRequested true informed
    rw [again] at requests
    rw [amountFinaid, bind_of_ok requests]
    exact congrArg (fun amount => (Except.ok amount, _)) finaid_revokeFinancialAid
  have requests := iac.independent_amountRequested false db
  rw [isRequest] at requests
  have discounts := iac.independent_amountSiblingdiscount required
  rw [isSibling] at discounts
  have refunds := iac.independent_amountRefunded informed
  rw [isRefund] at refunds
  rw [amountDue, bind_of_ok requests, bind_of_ok discounts, bind_of_ok noAid, read_bind,
    bind_of_ok refunds, isDue, sameAid]
  refine congrArg (fun amount => (Except.ok amount, _)) ?_
  change request - 0 - sibling - iac.amountPaid informed + refund = _
  ring

/-- Aid is between nothing and what is eligible for it, and never adds to what is due, exactly
where it covers the discount. -/
theorem amountDue_withGrant {eligible total : ℤ} {grant : FinancialAidGrant}
    (run : iac.amountDue db = (.ok due, after)) (nonnegative : iac.Nonnegative db)
    (isEligible : (iac.amountRequested true db).1 = .ok eligible)
    (isTotal : (iac.amountRequested false db).1 = .ok total)
    (discounted : 0 ≤ iac.siblingdiscount db) (within : iac.siblingdiscount db ≤ total)
    (latest : iac.latestFinaidGrant db = some grant) (proper : grant.Proper) :
    (∃ aid withoutGrant, (iac.amountFinaid none db).1 = .ok aid ∧
        (iac.amountDue (iac.revokeFinancialAid db)).1 = .ok withoutGrant ∧
        0 ≤ aid ∧ aid ≤ eligible ∧ due ≤ withoutGrant ∧
        (iac.amountPaid after = 0 → 0 ≤ iac.refunded after → 0 ≤ due)) ↔
      Covers eligible (iac.siblingdiscount db) grant := by
  rcases amountDue_inputs run with ⟨requests, sameSibling, isAid⟩
  cases Except.ok.inj ((requests true).symm.trans isEligible)
  cases Except.ok.inj ((requests false).symm.trans isTotal)
  have unspoilt := keeps_amountDue db due after ⟨nonnegative, rfl, rfl⟩ run
  have sameLatest : iac.latestFinaidGrant after = some grant := by
    rw [latestFinaidGrant, unspoilt.grants]
    exact latest
  have rounded : iac.finaidIn after =
      roundHalfUp (aidAmount (totalCents (iac.requested true after))
        (iac.siblingdiscount db) grant) := by
    rw [finaidIn, finaid, sameLatest, sameSibling]
  have items := totalCents_nonneg (@Nonnegative.requested iac after unspoilt.toNonnegative true)
  have bounds := roundHalfUp_aidAmount_iff proper items discounted
  have most := roundHalfUp_aidAmount_le proper unspoilt.eligible_le within
  have revoked := congrArg Prod.fst (amountDue_revokeFinancialAid run)
  rw [← bounds, ← rounded]
  constructor
  · rintro ⟨aid, withoutGrant, returned, _, positive, atMost, _, _⟩
    cases Except.ok.inj (returned.symm.trans isAid)
    exact ⟨positive, atMost⟩
  · rintro ⟨positive, atMost⟩
    refine ⟨_, _, isAid, revoked, positive, atMost, by omega, ?_⟩
    intro unpaid refunds
    rw [(amountDue_eq_ok run).2, dueIn, unpaid, rounded, sameSibling]
    rw [amountRequestedIn] at most ⊢
    omega

end Due

end IndividualAccountingController

namespace Sample

def discounted (siblingDiscount : ℤ) : IndividualAccountingController where
  program := { id := 1, siblingDiscount }
  user := 7

/-- All of what aid can cover. -/
def fullGrant : FinancialAidGrant :=
  { request := { id := 1, user := 7, program := 1 }, amountMaxDec := none, percent := some 100 }

theorem fullGrant_proper : fullGrant.Proper := ⟨by decide, by decide⟩

/-- The student has a sibling and a grant, owes the admission and has bought a T-shirt. -/
def sibling (siblingDiscount : ℤ) : Database :=
  { database {
      rows := [charge 1 7 1 (dollars 10 ten_fits), charge 2 7 3 (dollars 15 fifteen_fits)]
      next := 3
      ordered := by decide
      below := by decide } with
    programs := {
      rows := [(discounted siblingDiscount).program]
      next := 2
      ordered := by simp
      below := fun row isRow => by rw [List.mem_singleton.mp isRow]; exact one_lt_two }
    grants := [fullGrant]
    splashInfos := {
      rows := [{ id := 1, student := 7, program := some 1, siblingdiscount := true }]
      next := 2
      ordered := by decide
      below := by decide } }

/-- With a discount of four dollars, the grant gives the other six of the admission. -/
theorem fullGrant_covers :
    ∃ aid withoutGrant, ((discounted 400).amountFinaid none (sibling 400)).1 = .ok aid ∧
      ((discounted 400).amountDue ((discounted 400).revokeFinancialAid (sibling 400))).1 =
        .ok withoutGrant ∧
      0 ≤ aid ∧ aid ≤ 1000 ∧ 1500 ≤ withoutGrant ∧
      ((discounted 400).amountPaid ((discounted 400).amountDue (sibling 400)).2 = 0 →
        0 ≤ (discounted 400).refunded ((discounted 400).amountDue (sibling 400)).2 →
        (0 : ℤ) ≤ 1500) :=
  (@IndividualAccountingController.amountDue_withGrant (discounted 400) (sibling 400)
    ((discounted 400).amountDue (sibling 400)).2 1500 1000 2500 fullGrant
    (Prod.ext (by decide +kernel) rfl) ⟨by decide +kernel, by decide +kernel⟩
    (by decide) (by decide) (by decide) (by decide)
    (by decide) fullGrant_proper).mpr (Or.inl (by decide))

/-- With a discount of twelve dollars, the grant has the student pay two dollars more. -/
theorem fullGrant_raises :
    (discounted 1200).Nonnegative (sibling 1200) ∧
      ((discounted 1200).amountRequested true (sibling 1200)).1 = .ok 1000 ∧
      ((discounted 1200).amountRequested false (sibling 1200)).1 = .ok 2500 ∧
      (discounted 1200).siblingdiscount (sibling 1200) = 1200 ∧
      (discounted 1200).latestFinaidGrant (sibling 1200) = some fullGrant ∧
      fullGrant.Proper ∧
      ((discounted 1200).amountFinaid none (sibling 1200)).1 = .ok (-200) ∧
      ((discounted 1200).amountDue (sibling 1200)).1 = .ok 1500 ∧
      ((discounted 1200).amountDue
        ((discounted 1200).revokeFinancialAid (sibling 1200))).1 = .ok 1300 :=
  ⟨⟨by decide, by decide⟩, by decide, by decide,
    by decide +kernel, by decide +kernel, fullGrant_proper, by decide +kernel,
    by decide +kernel, by decide +kernel⟩

end Sample

end EspWebsite.Accounting
