import EspWebsite.Accounting.ChargePayment
import EspWebsite.Library.Runs

/-!
# What the cards are charged

Requests to pay by card go on at the same time.  What is charged is what is recorded, and it
is no more than was due exactly if every card that is charged is charged for an amount that
counted all charges before.
-/

namespace EspWebsite.Accounting

open Python Tables Transactions Action

variable {iac : IndividualAccountingController} {start db after : Database}
  {row transfer other : Transfer} {condition : Transfer → Bool} {paid : ℤ}

/-! ## Rows that are written -/

def Transfer.IsLinked (before after : Transfer) : Prop :=
  after = { before with paidIn := after.paidIn } ∧ after.paidIn.isSome = true

/-- Some transfer of the database becomes this one when it is linked. -/
def Saveable (db : Database) (transfer : Transfer) : Prop :=
  ∃ row ∈ db.transfers.rows, row.IsLinked transfer

/-- The transfer has a key of its own. -/
def Absent (db : Database) (transfer : Transfer) : Prop :=
  ∀ row ∈ db.transfers.rows, row.id ≠ transfer.id

def Database.put (db : Database) (transfer : Transfer) : Database :=
  { db with transfers := db.transfers.put transfer }

theorem Transfer.IsLinked.id_eq (linked : row.IsLinked transfer) : transfer.id = row.id := by
  rw [linked.1]

theorem Transfer.IsLinked.amountDec_eq (linked : row.IsLinked transfer) :
    transfer.amountDec = row.amountDec := by
  rw [linked.1]

theorem Transfer.IsLinked.again (first : row.IsLinked transfer) (second : row.IsLinked other) :
    transfer.IsLinked other := by
  refine ⟨?_, second.2⟩
  rw [first.1]
  exact second.1

theorem write_cons {rows : List Transfer} :
    db.write (transfer :: rows) = (db.put transfer).write rows := rfl

theorem mem_put (isRow : row ∈ (db.put transfer).transfers.rows) :
    row = transfer ∨ row ∈ db.transfers.rows := by
  rcases List.mem_append.mp isRow with isOld | isOther
  · exact Or.inr (List.mem_of_mem_filter isOld)
  · rcases List.mem_cons.mp isOther with same | isOld
    · exact Or.inl same
    · exact Or.inr (List.mem_of_mem_filter isOld)

theorem Saveable.put_of_absent (saveable : Saveable db other) (absent : Absent db transfer) :
    Saveable (db.put transfer) other := by
  rcases saveable with ⟨row, isRow, linked⟩
  exact ⟨row, (Table.perm_put absent).mem_iff.mpr (List.mem_cons_of_mem _ isRow), linked⟩

theorem Saveable.put (saveable : Saveable db other) (written : Saveable db transfer) :
    Saveable (db.put transfer) other := by
  rcases saveable with ⟨row, isRow, linked⟩
  rcases written with ⟨old, isOld, becomes⟩
  have rows : (db.put transfer).transfers.rows =
      db.transfers.rows.map fun row => if row.id = transfer.id then transfer else row :=
    Table.rows_put_of_mem isOld becomes.id_eq
  by_cases same : row.id = transfer.id
  · have isOldRow : row = old := Table.eq_of_key_eq isRow isOld (same.trans becomes.id_eq)
    rw [isOldRow] at linked
    refine ⟨transfer, ?_, becomes.again linked⟩
    rw [rows]
    exact List.mem_map.mpr ⟨row, isRow, if_pos same⟩
  · refine ⟨row, ?_, linked⟩
    rw [rows]
    exact List.mem_map.mpr ⟨row, isRow, if_neg same⟩

/-! ## Payments and links -/

def IgnoresLinks (condition : Transfer → Bool) : Prop :=
  ∀ transfer paidIn, condition { transfer with paidIn := paidIn } = condition transfer

theorem IgnoresLinks.eq (ignores : IgnoresLinks condition) (linked : row.IsLinked transfer) :
    condition transfer = condition row := by
  rw [linked.1]
  exact ignores row transfer.paidIn

theorem filter_put_of_saveable (ignores : IgnoresLinks condition)
    (saveable : Saveable db transfer) :
    (db.put transfer).transfers.rows.filter condition =
      (db.transfers.rows.filter condition).map fun row =>
        if row.id = transfer.id then transfer else row := by
  rcases saveable with ⟨old, isOld, linked⟩
  refine (congrArg (List.filter condition) (Table.rows_put_of_mem isOld linked.id_eq)).trans ?_
  rw [Table.rows_save, List.filter_map]
  refine congrArg (List.map _) (List.filter_congr fun row isRow => ?_)
  rw [Function.comp_apply]
  split
  next same =>
    have isOldRow : row = old := Table.eq_of_key_eq isRow isOld (same.trans linked.id_eq)
    rw [isOldRow]
    exact ignores.eq linked
  next => rfl

theorem totalCents_put_of_saveable (ignores : IgnoresLinks condition)
    (saveable : Saveable db transfer) :
    totalCents ((db.put transfer).transfers.rows.filter condition) =
      totalCents (db.transfers.rows.filter condition) := by
  rw [filter_put_of_saveable ignores saveable, totalCents, totalCents, List.map_map]
  rcases saveable with ⟨old, isOld, linked⟩
  refine congrArg List.sum (List.map_congr_left fun row isMember => ?_)
  rw [Function.comp_apply]
  split
  next same =>
    have isRow := List.mem_of_mem_filter isMember
    have isOldRow : row = old := Table.eq_of_key_eq isRow isOld (same.trans linked.id_eq)
    rw [linked.amountDec_eq, isOldRow]
  next => rfl

theorem filter_put_of_absent (absent : Absent db transfer) (fails : condition transfer = false) :
    (db.put transfer).transfers.rows.filter condition = db.transfers.rows.filter condition :=
  Table.filter_put_of_neg absent fails

theorem totalCents_put_of_absent (absent : Absent db transfer)
    (holds : condition transfer = true) :
    totalCents ((db.put transfer).transfers.rows.filter condition) =
      totalCents (db.transfers.rows.filter condition) + transfer.amountDec.cents := by
  have perm : ((db.put transfer).transfers.rows.filter condition).Perm
      (transfer :: db.transfers.rows.filter condition) := by
    rw [← List.filter_cons_of_pos holds]
    exact (Table.perm_put absent).filter condition
  rw [totalCents, (perm.map _).sum_eq, List.map_cons, List.sum_cons, totalCents, add_comm]

namespace IndividualAccountingController

/-- A payment of the user to the program, of the kind that `submit_payment` makes. -/
def IsPayment (iac : IndividualAccountingController) (db : Database) (transfer : Transfer) :
    Prop :=
  ∃ account item, db.account "receivable" = .ok account ∧
    iac.defaultPaymentsLineitemtype db = some item ∧
    transfer = iac.paymentTransfer account item transfer.amountDec transfer.transactionId
      transfer.id

/-- Since `start`, payments of `paid` cents have been added, and links have been made. -/
structure OnlyPaid (iac : IndividualAccountingController) (start db : Database) (paid : ℤ) :
    Prop where
  others : db = { start with transfers := db.transfers }
  settled : iac.IsSettled db
  requested : ∀ forFinaidOnly, totalCents (iac.requested forFinaidOnly db) =
    totalCents (iac.requested forFinaidOnly start)
  refunded : iac.refunded db = iac.refunded start
  amountPaid : iac.amountPaid db = iac.amountPaid start + paid

namespace OnlyPaid

theorem refl (settled : iac.IsSettled start) : iac.OnlyPaid start start 0 where
  others := rfl
  settled := settled
  requested := fun _ => rfl
  refunded := rfl
  amountPaid := (add_zero _).symm

variable (since : iac.OnlyPaid start db paid)

include since

theorem siblingdiscount : iac.siblingdiscount db = iac.siblingdiscount start := by
  rw [since.others]
  rfl

theorem finaidIn : iac.finaidIn db = iac.finaidIn start := by
  rw [IndividualAccountingController.finaidIn, IndividualAccountingController.finaidIn,
    since.requested, since.siblingdiscount, since.others]
  rfl

theorem isPayment (payment : iac.IsPayment start transfer) : iac.IsPayment db transfer := by
  rw [since.others]
  exact payment

theorem isPayment_start (payment : iac.IsPayment db transfer) : iac.IsPayment start transfer := by
  rw [since.others] at payment
  exact payment

theorem skip : iac.OnlyPaid start db.skipTransfer paid where
  others := by
    conv_lhs => rw [since.others]
    rfl
  settled := { since.settled with }
  requested := since.requested
  refunded := since.refunded
  amountPaid := since.amountPaid

theorem refunded_put
    (same : ∀ item account, totalCents (iac.refunds item account (db.put transfer)) =
      totalCents (iac.refunds item account db)) :
    iac.refunded (db.put transfer) = iac.refunded start := by
  rw [← since.refunded]
  exact refunded_congr rfl same

theorem put_payment (payment : iac.IsPayment start transfer) (absent : Absent db transfer) :
    iac.OnlyPaid start (db.put transfer) (paid + transfer.amountDec.cents) := by
  rcases since.isPayment payment with ⟨account, item, isAccount, isItem, isTransfer⟩
  have elsewhere := @defaultProgramAccount_ne iac db account isAccount
  have unchanged (forFinaidOnly : Bool) : iac.requested forFinaidOnly (db.put transfer) =
      iac.requested forFinaidOnly db := by
    refine filter_put_of_absent absent (decide_eq_false ?_)
    rw [isTransfer]
    intro isRequested
    exact elsewhere isRequested.2.1.symm
  refine {
    others := by
      conv_lhs => rw [since.others]
      rfl
    settled := { since.settled with ensured := ?_ }
    requested := fun forFinaidOnly => by rw [unchanged]; exact since.requested forFinaidOnly
    refunded := since.refunded_put fun refundItem payable => ?_
    amountPaid := ?_ }
  · intro required isMember
    have different : item.id ≠ required.id := ne_of_isRequired isItem isMember
    have sameTransfers : iac.transfersFor (db.put transfer) required =
        iac.transfersFor db required := by
      refine filter_put_of_absent absent (decide_eq_false ?_)
      rw [isTransfer]
      intro isFor
      exact different isFor.2
    rw [IsEnsured, sameTransfers]
    exact since.settled.ensured required isMember
  · have same : iac.refunds refundItem payable (db.put transfer) =
        iac.refunds refundItem payable db := by
      refine filter_put_of_absent absent (decide_eq_false ?_)
      rw [isTransfer]
      intro isRefund
      cases isRefund.2.2.1
    rw [same]
  · have sameItem : iac.defaultPaymentsLineitemtype (db.put transfer) = some item := isItem
    rw [← add_assoc, ← since.amountPaid, IndividualAccountingController.amountPaid,
      IndividualAccountingController.amountPaid, payments, payments, sameItem, isItem]
    refine totalCents_put_of_absent absent (decide_eq_true ?_)
    rw [isTransfer]
    exact ⟨rfl, rfl, rfl⟩

theorem put_link (saveable : Saveable db transfer) :
    iac.OnlyPaid start (db.put transfer) paid := by
  refine {
    others := by
      conv_lhs => rw [since.others]
      rfl
    settled := { since.settled with ensured := ?_ }
    requested := fun forFinaidOnly => ?_
    refunded := since.refunded_put fun refundItem payable => ?_
    amountPaid := ?_ }
  · intro required isMember
    rcases since.settled.ensured required isMember with ⟨last, latest, settled⟩
    have sameTransfers : iac.transfersFor (db.put transfer) required =
        (iac.transfersFor db required).map fun row =>
          if row.id = transfer.id then transfer else row :=
      filter_put_of_saveable (fun _ _ => rfl) saveable
    refine ⟨if last.id = transfer.id then transfer else last, ?_, ?_⟩
    · rw [sameTransfers, List.getLast?_map, latest, Option.map_some]
    · split
      next =>
        rcases saveable with ⟨_, _, linked⟩
        exact Or.inl linked.2
      next => exact settled
  · rw [← since.requested]
    exact totalCents_put_of_saveable (fun _ _ => rfl) saveable
  · exact totalCents_put_of_saveable (fun _ _ => rfl) saveable
  · rw [← since.amountPaid]
    exact totalCents_put_of_saveable (fun _ _ => rfl) saveable

end OnlyPaid

end IndividualAccountingController

/-! ## What a request knows -/

/-- The database has grown by rows that were written: rows stay but for links, and the keys
are old ones, or new ones that satisfy a condition. -/
structure Database.Grows (db after : Database) (fresh : ℕ → Prop) : Prop where
  ids : ∀ row ∈ after.transfers.rows,
    (∃ old ∈ db.transfers.rows, old.id = row.id) ∨ fresh row.id
  next : db.transfers.next ≤ after.transfers.next
  saveable : ∀ transfer, Saveable db transfer → Saveable after transfer

namespace Progress

/-- The transfer that the transaction of a request has written. -/
def pending : Progress → Option Transfer
  | .submitted _ transfer _ _ => some transfer
  | .targeted _ transfer _ => some transfer
  | .linked _ transfer _ => some transfer
  | .charged transfer _ _ => some transfer
  | .recorded transfer _ => some transfer
  | _ => none

/-- The payment that the card was charged for and that is committed next, in cents. -/
def inFlight : Progress → ℤ
  | .charged transfer _ _ => transfer.amountDec.cents
  | .recorded transfer _ => transfer.amountDec.cents
  | _ => 0

end Progress

variable (iac start)

/-- What was paid when the amounts were compared was charged by now. -/
def Counted (total : ℚ) (amtPaid : ℤ) : Prop :=
  (amtPaid : ℚ) ≤ iac.amountPaid start + total

/-- The amount that was posted is the amount due, after what was paid. -/
def Agreed (post : PostData) (total : ℚ) (amtPaid : ℤ) : Prop :=
  Counted iac start total amtPaid ∧
    post.totalcostCents = .number ((iac.dueIn start + iac.amountPaid start - amtPaid : ℤ) : ℚ)

/-- The transaction has written a payment of the amount that was posted. -/
structure Opened (post : PostData) (db : Database) (transfer : Transfer) : Prop where
  isPayment : iac.IsPayment start transfer
  absent : Absent db transfer
  below : transfer.id < db.transfers.next
  amount : (transfer.amountDec.cents : ℚ) = post.amountCentsPost

/-- A request has read what was there at the start, but for the payments. -/
def Progress.Sound (post : PostData) (db : Database) (total : ℚ) : Progress → Prop
  | .received => True
  | .cleared _ => False
  | .donated => True
  | .requested amtRequest => amtRequest = iac.amountRequestedIn start
  | .discounted amtRequest amtSibling =>
      amtRequest = iac.amountRequestedIn start ∧ amtSibling = iac.siblingdiscount start
  | .aided amtRequest amtSibling amtFinaid =>
      amtRequest = iac.amountRequestedIn start ∧ amtSibling = iac.siblingdiscount start ∧
        amtFinaid = iac.finaidIn start
  | .paid amtRequest amtSibling amtFinaid amtPaid =>
      amtRequest = iac.amountRequestedIn start ∧ amtSibling = iac.siblingdiscount start ∧
        amtFinaid = iac.finaidIn start ∧ Counted iac start total amtPaid
  | .agreed amtPaid => Agreed iac start post total amtPaid
  | .submitted amtPaid transfer _ _ =>
      Agreed iac start post total amtPaid ∧ Opened iac start post db transfer
  | .targeted amtPaid transfer _ =>
      Agreed iac start post total amtPaid ∧ Opened iac start post db transfer
  | .linked amtPaid transfer saved =>
      Agreed iac start post total amtPaid ∧ Opened iac start post db transfer ∧
        ∀ link ∈ saved, Saveable db link
  | .charged transfer saved _ =>
      Opened iac start post db transfer ∧ (∀ link ∈ saved, Saveable db link) ∧
        0 ≤ transfer.amountDec.cents
  | .recorded transfer saved =>
      Opened iac start post db transfer ∧ (∀ link ∈ saved, Saveable db link) ∧
        0 ≤ transfer.amountDec.cents
  | .finished _ => True

variable {iac start} {post : PostData} {total later : ℚ} {amtPaid : ℤ} {progress : Progress}
  {fresh : ℕ → Prop}

theorem Counted.mono (counted : Counted iac start total amtPaid) (more : total ≤ later) :
    Counted iac start later amtPaid :=
  counted.trans (add_le_add_right more _)

theorem Opened.mono (opened : Opened iac start post db transfer) (grows : db.Grows after fresh)
    (apart : ¬ fresh transfer.id) : Opened iac start post after transfer where
  isPayment := opened.isPayment
  absent := by
    intro row isRow same
    rcases grows.ids row isRow with ⟨old, isOld, sameId⟩ | isFresh
    · exact opened.absent old isOld (sameId.trans same)
    · rw [same] at isFresh
      exact apart isFresh
  below := opened.below.trans_le grows.next
  amount := opened.amount

/-- What a request knows stays right when others commit and charge. -/
theorem Progress.Sound.mono (sound : progress.Sound iac start post db total)
    (more : total ≤ later) (grows : db.Grows after fresh)
    (apart : ∀ transfer ∈ progress.pending, ¬ fresh transfer.id) :
    progress.Sound iac start post after later := by
  cases progress with
  | received => trivial
  | cleared amount => exact sound
  | donated => trivial
  | requested amtRequest => exact sound
  | discounted amtRequest amtSibling => exact sound
  | aided amtRequest amtSibling amtFinaid => exact sound
  | paid amtRequest amtSibling amtFinaid amtPaid =>
      exact ⟨sound.1, sound.2.1, sound.2.2.1, sound.2.2.2.mono more⟩
  | agreed amtPaid => exact ⟨sound.1.mono more, sound.2⟩
  | submitted amtPaid transfer part targetFull =>
      exact ⟨⟨sound.1.1.mono more, sound.1.2⟩, sound.2.mono grows (apart transfer rfl)⟩
  | targeted amtPaid transfer targetFull =>
      exact ⟨⟨sound.1.1.mono more, sound.1.2⟩, sound.2.mono grows (apart transfer rfl)⟩
  | linked amtPaid transfer saved =>
      exact ⟨⟨sound.1.1.mono more, sound.1.2⟩, sound.2.1.mono grows (apart transfer rfl),
        fun link isLink => grows.saveable link (sound.2.2 link isLink)⟩
  | charged transfer saved chargeId =>
      exact ⟨sound.1.mono grows (apart transfer rfl),
        fun link isLink => grows.saveable link (sound.2.1 link isLink), sound.2.2⟩
  | recorded transfer saved =>
      exact ⟨sound.1.mono grows (apart transfer rfl),
        fun link isLink => grows.saveable link (sound.2.1 link isLink), sound.2.2⟩
  | finished outcome => trivial

theorem Progress.Sound.below_of_pending (sound : progress.Sound iac start post db total)
    (isPending : transfer ∈ progress.pending) : transfer.id < db.transfers.next := by
  cases progress with
  | submitted amtPaid other part targetFull =>
      cases isPending
      exact sound.2.below
  | targeted amtPaid other targetFull =>
      cases isPending
      exact sound.2.below
  | linked amtPaid other saved =>
      cases isPending
      exact sound.2.1.below
  | charged other saved chargeId =>
      cases isPending
      exact sound.1.below
  | recorded other saved =>
      cases isPending
      exact sound.1.below
  | received | cleared | donated | requested | discounted | aided | paid | agreed | finished =>
      cases isPending

theorem grows_refl : db.Grows db fresh where
  ids := fun row isRow => Or.inl ⟨row, isRow, rfl⟩
  next := le_rfl
  saveable := fun _ saveable => saveable

theorem grows_skip : db.Grows db.skipTransfer fresh where
  ids := fun row isRow => Or.inl ⟨row, isRow, rfl⟩
  next := Nat.le_succ _
  saveable := fun _ saveable => saveable

/-- What each link keeps that is saved is kept when all of them are. -/
theorem write_saveable {motive : Database → Prop} {saved : List Transfer} (holds : motive db)
    (saveable : ∀ link ∈ saved, Saveable db link)
    (step : ∀ (between : Database) (link : Transfer), motive between → Saveable between link →
      motive (between.put link)) : motive (db.write saved) := by
  induction saved generalizing db with
  | nil => exact holds
  | cons link rest ih =>
      have written := saveable link (List.mem_cons_self ..)
      rw [write_cons]
      exact ih (step db link holds written) fun other isOther =>
        (saveable other (List.mem_cons_of_mem _ isOther)).put written

theorem grows_write {saved : List Transfer} (absent : Absent db transfer)
    (saveable : ∀ link ∈ saved, Saveable db link) :
    db.Grows (db.write (transfer :: saved)) (· = transfer.id) := by
  have first : db.Grows (db.put transfer) (· = transfer.id) := {
    ids := by
      intro row isRow
      rcases mem_put isRow with same | isOld
      · exact Or.inr (congrArg Transfer.id same)
      · exact Or.inl ⟨row, isOld, rfl⟩
    next := le_max_left _ _
    saveable := fun _ saveable => saveable.put_of_absent absent }
  rw [write_cons]
  refine write_saveable (motive := fun after => db.Grows after (· = transfer.id)) first
    (fun link isLink => first.saveable link (saveable link isLink))
    fun between link grows ⟨old, isOld, linked⟩ => ?_
  exact {
    ids := by
      intro row isRow
      rcases mem_put isRow with same | isBetween
      · rw [same, linked.id_eq]
        exact grows.ids old isOld
      · exact grows.ids row isBetween
    next := grows.next.trans (le_max_left _ _)
    saveable := fun other saveable => (grows.saveable other saveable).put ⟨old, isOld, linked⟩ }

/-- What is due after a transaction is committed. -/
theorem IndividualAccountingController.OnlyPaid.write {saved : List Transfer}
    (since : iac.OnlyPaid start db paid) (payment : iac.IsPayment start transfer)
    (absent : Absent db transfer) (saveable : ∀ link ∈ saved, Saveable db link) :
    iac.OnlyPaid start (db.write (transfer :: saved)) (paid + transfer.amountDec.cents) := by
  rw [write_cons]
  exact write_saveable
    (motive := fun after => iac.OnlyPaid start after (paid + transfer.amountDec.cents))
    (since.put_payment payment absent)
    (fun link isLink => (saveable link isLink).put_of_absent absent)
    fun between link onlyPaid written => onlyPaid.put_link written

/-! ## What the links are -/

theorem saveable_of_mem_changedTransfers {target total : ℚ} {link : Transfer}
    (payment : iac.IsPayment db transfer)
    (loop : IndividualAccountingController.linkUntil transfer target
      (iac.linkable (db.write [transfer])) 0 (db.write [transfer]) = (.ok total, after))
    (changed : link ∈ changedTransfers (db.write [transfer]) after) : Saveable db link := by
  have spec := @IndividualAccountingController.linkUntil_spec (db.write [transfer]) transfer []
    (iac.linkable (db.write [transfer])) target 0
    fun _ => IndividualAccountingController.mem_linkable
  rw [Database.link_nil, List.nil_append, loop] at spec
  have isAfter : after = _ := congrArg Prod.snd spec
  rw [changedTransfers, List.mem_filter, isAfter, Database.rows_link, List.mem_map] at changed
  rcases changed with ⟨⟨row, isRow, isLink⟩, isNew⟩
  rw [markPaidIn] at isLink
  split at isLink
  next isLinked =>
    have isLinkable := List.mem_of_mem_take (List.mem_of_mem_filter isLinked)
    rcases mem_put isRow with same | isOld
    · rcases payment with ⟨account, item, isAccount, isItem, isTransfer⟩
      have sameItem : row.lineItem = item.id := by
        rw [same, isTransfer]
        rfl
      have holds := (List.mem_filter.mp isLinkable).2
      have fails := @IndividualAccountingController.not_isLinkable_payment iac
        (db.write [transfer]) item row isItem sameItem
      rw [fails] at holds
      cases holds
    · rw [← isLink]
      exact ⟨row, isOld, rfl, rfl⟩
  next =>
    rw [← isLink] at isNew
    exact absurd isRow (of_decide_eq_true isNew)

theorem linkIn_cases {target : ℚ} (payment : iac.IsPayment db transfer) :
    (∃ saved, linkIn iac amtPaid transfer target (db.write [transfer]) =
        .linked amtPaid transfer saved ∧ ∀ link ∈ saved, Saveable db link) ∨
      ∃ raised, linkIn iac amtPaid transfer target (db.write [transfer]) =
        .finished (.exception raised) := by
  rw [linkIn]
  split
  next total after loop =>
    split
    next =>
      exact Or.inl ⟨_, rfl, fun link changed =>
        saveable_of_mem_changedTransfers payment loop changed⟩
    next => exact Or.inr ⟨_, rfl⟩
  next => exact Or.inr ⟨_, rfl⟩

/-! ## All requests -/

namespace Charges

/-- What the requests do together: what was charged and is not committed yet is in flight, and
the transactions write different payments. -/
structure Sound (iac : IndividualAccountingController) (start : Database) (state : Charges) :
    Prop where
  committed : ∃ paid : ℤ, iac.OnlyPaid start state.database paid ∧
    state.total = paid + (state.requests.map fun request => request.progress.inFlight).sum
  plain : ∀ request ∈ state.requests, request.post.donation = none
  requests : ∀ request ∈ state.requests,
    request.progress.Sound iac start request.post state.database state.total
  apart : ∀ (index other : ℕ) (first second : Request), state.requests[index]? = some first →
    state.requests[other]? = some second → index ≠ other →
      ∀ transfer ∈ first.progress.pending, ∀ transfer' ∈ second.progress.pending,
        transfer.id ≠ transfer'.id

variable {state : Charges} {index : ℕ} {request : Request} {added : ℤ} {move : Move}

/-- One request goes on: it may commit a payment, charge the card or open a transaction. -/
theorem Sound.set (sound : state.Sound iac start)
    (isRequest : state.requests[index]? = some request)
    (since : ∀ paid, iac.OnlyPaid start state.database paid →
      iac.OnlyPaid start after (paid + added))
    (balance : later = state.total + added + progress.inFlight - request.progress.inFlight)
    (more : state.total ≤ later) (grows : state.database.Grows after fresh)
    (others : ∀ other second, state.requests[other]? = some second → index ≠ other →
      ∀ transfer' ∈ second.progress.pending, ¬ fresh transfer'.id ∧
        ∀ transfer ∈ progress.pending, transfer.id ≠ transfer'.id)
    (next : progress.Sound iac start request.post after later) :
    Sound iac start {
      database := after
      requests := state.requests.set index { request with progress }
      total := later } := by
  rcases List.getElem?_eq_some_iff.mp isRequest with ⟨inRange, isHere⟩
  have isMember : request ∈ state.requests := isHere ▸ List.getElem_mem inRange
  constructor
  · rcases sound.committed with ⟨paid, onlyPaid, isTotal⟩
    refine ⟨paid + added, since paid onlyPaid, ?_⟩
    have sum := List.sum_set' (state.requests.map fun request => request.progress.inFlight) index
      progress.inFlight
    rw [dif_pos (by rw [List.length_map]; exact inRange), List.getElem_map, isHere] at sum
    change later = _ + ((List.map (fun request => request.progress.inFlight)
      (state.requests.set index { request with progress })).sum : ℤ)
    rw [List.map_set, sum, balance, isTotal]
    push_cast
    ring
  · intro other isOther
    rcases List.mem_or_eq_of_mem_set isOther with isOld | same
    · exact sound.plain other isOld
    · rw [same]
      exact sound.plain request isMember
  · intro second isSecond
    rcases List.mem_iff_getElem?.mp isSecond with ⟨other, isThere⟩
    change (state.requests.set index { request with progress })[other]? = _ at isThere
    rw [List.getElem?_set] at isThere
    split at isThere
    next =>
      cases isThere
      exact next
    next different =>
      have isOld := List.mem_of_getElem? isThere
      exact (sound.requests second isOld).mono more grows fun transfer' isPending =>
        (others other second isThere different transfer' isPending).1
  · intro one other first second isFirst isSecond different transfer isPending transfer' isOther
    change (state.requests.set index { request with progress })[one]? = _ at isFirst
    change (state.requests.set index { request with progress })[other]? = _ at isSecond
    rw [List.getElem?_set] at isFirst isSecond
    split at isFirst
    next same =>
      cases isFirst
      rw [if_neg (same.trans_ne different)] at isSecond
      exact (others other second isSecond (same.trans_ne different) transfer' isOther).2
        transfer isPending
    next notOne =>
      split at isSecond
      next same =>
        cases isSecond
        exact ((others one first isFirst notOne transfer isPending).2 transfer' isOther).symm
      next notOther =>
        exact sound.apart one other first second isFirst isSecond different transfer isPending
          transfer' isOther

/-- A request goes on without a change of the database and without a charge. -/
theorem Sound.quiet (sound : state.Sound iac start)
    (isRequest : state.requests[index]? = some request)
    (kept : ∀ transfer ∈ progress.pending, ∃ before ∈ request.progress.pending,
      before.id = transfer.id)
    (inFlight : progress.inFlight = request.progress.inFlight)
    (next : progress.Sound iac start request.post state.database state.total) :
    Sound iac start {
      database := state.database
      requests := state.requests.set index { request with progress }
      total := state.total } := by
  refine @Sound.set _ _ _ _ _ (fun _ => False) _ index request 0 sound isRequest ?_ ?_ le_rfl
    grows_refl ?_ next
  · intro paid onlyPaid
    rw [add_zero]
    exact onlyPaid
  · rw [inFlight]
    push_cast
    ring
  · intro other second isSecond different transfer' isOther
    refine ⟨id, fun transfer isPending => ?_⟩
    rcases kept transfer isPending with ⟨before, isBefore, sameId⟩
    rw [← sameId]
    exact sound.apart index other request second isRequest isSecond different before isBefore
      transfer' isOther

theorem inFlight_nonneg (sound : progress.Sound iac start post db total) :
    0 ≤ progress.inFlight := by
  cases progress with
  | charged transfer saved chargeId => exact sound.2.2
  | recorded transfer saved => exact sound.2.2
  | received | cleared | donated | requested | discounted | aided | paid | agreed | submitted
  | targeted | linked | finished => exact le_rfl

theorem Sound.counted (sound : state.Sound iac start) :
    Counted iac start state.total (iac.amountPaid state.database) := by
  rcases sound.committed with ⟨paid, onlyPaid, isTotal⟩
  have nonneg : 0 ≤ (state.requests.map fun request => request.progress.inFlight).sum := by
    refine List.sum_nonneg fun amount isAmount => ?_
    rcases List.mem_map.mp isAmount with ⟨request, isRequest, rfl⟩
    exact inFlight_nonneg (sound.requests request isRequest)
  have nonneg := Int.cast_nonneg (R := ℚ) nonneg
  rw [Counted, onlyPaid.amountPaid, isTotal, Int.cast_add]
  linarith

theorem amountCentsPost_of_agreed (agreed : Agreed iac start post total amtPaid) :
    post.amountCentsPost =
      ((iac.dueIn start + iac.amountPaid start - amtPaid : ℤ) : ℚ) := by
  rw [PostData.amountCentsPost, agreed.2]

theorem amountCentsPost_nonneg (agreed : Agreed iac start post total amtPaid)
    (bounded : total ≤ iac.dueIn start) : 0 ≤ post.amountCentsPost := by
  have counted : (amtPaid : ℚ) ≤ iac.amountPaid start + total := agreed.1
  rw [amountCentsPost_of_agreed agreed]
  push_cast
  linarith

theorem queryIn_cases {α : Type} (action : Action Database α) (next : α → Progress) :
    (∃ value, queryIn transfer action next db = (next value, db)) ∨
      ∃ raised, queryIn transfer action next db = (.finished (.exception raised), db) := by
  rw [queryIn]
  split
  next value _ => exact Or.inl ⟨value, rfl⟩
  next raised _ => exact Or.inr ⟨raised, rfl⟩

/-- A request that adds up its target goes on with the answers to its queries, or raises. -/
theorem advance_submitted {part : TargetPart} {targetFull : ℤ} {answer : Answer} :
    ∃ next, post.advance iac answer (.submitted amtPaid transfer part targetFull) db = (next, db) ∧
      ((∃ further value, next = .submitted amtPaid transfer further value) ∨
        (∃ value, next = .targeted amtPaid transfer value) ∨
          ∃ raised, next = .finished (.exception raised)) := by
  have answers (action : Action Database ℤ) {next : ℤ → Progress}
      (goes : ∀ value, (∃ further value', next value = .submitted amtPaid transfer further value') ∨
        ∃ value', next value = .targeted amtPaid transfer value') :
      ∃ after, queryIn transfer action next db = (after, db) ∧
        ((∃ further value, after = .submitted amtPaid transfer further value) ∨
          (∃ value, after = .targeted amtPaid transfer value) ∨
            ∃ raised, after = .finished (.exception raised)) := by
    rcases queryIn_cases action next with ⟨value, answered⟩ | ⟨raised, answered⟩
    · exact ⟨_, answered, (goes value).imp_right Or.inl⟩
    · exact ⟨_, answered, Or.inr (Or.inr ⟨raised, rfl⟩)⟩
  cases part with
  | amountPaid | amountSiblingdiscount | amountFinaid =>
      rw [PostData.advance]
      exact answers _ fun _ => Or.inl ⟨_, _, rfl⟩
  | amountRefunded =>
      rw [PostData.advance]
      exact answers _ fun _ => Or.inr ⟨_, rfl⟩

theorem sound_compare {amtDue : ℤ} (counted : Counted iac start total amtPaid)
    (isDue : amtDue = iac.dueIn start + iac.amountPaid start - amtPaid) :
    (post.compare amtPaid amtDue).Sound iac start post db total := by
  rw [PostData.compare]
  split
  next => trivial
  next same =>
    split
    next => trivial
    next => exact ⟨counted, by rw [← isDue]; exact not_not.mp same⟩

theorem pending_compare {amtDue : ℤ} : (post.compare amtPaid amtDue).pending = none := by
  rw [PostData.compare]
  split
  next => rfl
  next => split <;> rfl

theorem inFlight_compare {amtDue : ℤ} : (post.compare amtPaid amtDue).inFlight = 0 := by
  rw [PostData.compare]
  split
  next => rfl
  next => split <;> rfl

/-- A transaction is opened: it writes a payment with a key of its own. -/
theorem Sound.submit (sound : state.Sound iac start)
    (isRequest : state.requests[index]? = some request)
      (isAgreed : request.progress = .agreed amtPaid)
    (submitted : iac.submitPayment (request.post.amountCentsPost / 100) tbd false state.database =
      (.ok transfer, after)) :
    Sound iac start {
      database := state.database.skipTransfer
      requests := state.requests.set index
        { request with progress := .submitted amtPaid transfer .amountPaid 0 }
      total := state.total } := by
  have known := sound.requests request (List.mem_of_getElem? isRequest)
  rw [isAgreed] at known
  rcases sound.committed with ⟨paid, onlyPaid, _⟩
  rcases submitPayment_eq_ok.mp submitted with
    ⟨account, amountDec, item, between, isAccount, isAmount, isItem, created, _⟩
  rcases createTransfer_eq_ok.mp created with ⟨isTransfer, _⟩
  have isNew : transfer.id = state.database.transfers.next := by
    rw [isTransfer]
    rfl
  rw [amountCentsPost_of_agreed known] at isAmount
  refine @Sound.set _ _ _ _ _ (fun _ => False) _ index request 0 sound isRequest ?_ ?_ le_rfl
    grows_skip ?_ ⟨known, ?_⟩
  · intro paid onlyPaid
    rw [add_zero]
    exact onlyPaid.skip
  · rw [isAgreed]
    change _ = _ + ((0 : ℤ) : ℚ) + ((0 : ℤ) : ℚ) - ((0 : ℤ) : ℚ)
    push_cast
    ring
  · intro other second isSecond different transfer' isOther
    refine ⟨id, fun opened isPending => ?_⟩
    cases isPending
    have opened := sound.requests second (List.mem_of_getElem? isSecond)
    rw [isNew]
    exact (opened.below_of_pending isOther).ne'
  · exact {
      isPayment := onlyPaid.isPayment_start ⟨account, item, isAccount, isItem, by
        rw [isTransfer]
        rfl⟩
      absent := fun row isRow => isNew ▸ (state.database.transfers.below row isRow).ne
      below := isNew ▸ Nat.lt_succ_self _
      amount := by
        rw [amountCentsPost_of_agreed known, isTransfer]
        exact congrArg Int.cast (formattedDecimal_eq_ok.mp isAmount) }

theorem Sound.charge {saved : List Transfer} {chargeId : List Char} (sound : state.Sound iac start)
    (bounded : state.total ≤ iac.dueIn start)
    (isRequest : state.requests[index]? = some request)
    (isLinked : request.progress = .linked amtPaid transfer saved) :
    Sound iac start {
      database := state.database
      requests := state.requests.set index
        { request with progress := .charged transfer saved chargeId }
      total := state.total + request.post.amountCentsPost } := by
  have known := sound.requests request (List.mem_of_getElem? isRequest)
  rw [isLinked] at known
  rcases known with ⟨agreed, opened, links⟩
  have nonneg := amountCentsPost_nonneg agreed bounded
  refine @Sound.set _ _ _ _ _ (fun _ => False) _ index request 0 sound isRequest ?_ ?_
    (le_add_of_nonneg_right nonneg) grows_refl ?_ ⟨opened, links, ?_⟩
  · intro paid onlyPaid
    rw [add_zero]
    exact onlyPaid
  · rw [isLinked, ← opened.amount]
    change _ = _ + ((0 : ℤ) : ℚ) + (transfer.amountDec.cents : ℚ) - ((0 : ℤ) : ℚ)
    push_cast
    ring
  · intro other second isSecond different transfer' isOther
    refine ⟨id, fun charged isPending => ?_⟩
    cases isPending
    refine sound.apart index other request second isRequest isSecond different transfer ?_
      transfer' isOther
    rw [isLinked]
    rfl
  · rw [← opened.amount] at nonneg
    exact Int.cast_nonneg_iff.mp nonneg

theorem Sound.commit {saved : List Transfer} (sound : state.Sound iac start)
    (isRequest : state.requests[index]? = some request)
    (isRecorded : request.progress = .recorded transfer saved) :
    Sound iac start {
      database := state.database.write (transfer :: saved)
      requests := state.requests.set index { request with progress := .finished .success }
      total := state.total } := by
  have known := sound.requests request (List.mem_of_getElem? isRequest)
  rw [isRecorded] at known
  rcases known with ⟨opened, links, _⟩
  refine @Sound.set _ _ _ _ _ (· = transfer.id) _ index request transfer.amountDec.cents sound
    isRequest ?_ ?_ le_rfl (grows_write opened.absent links) ?_ trivial
  · intro paid onlyPaid
    exact onlyPaid.write opened.isPayment opened.absent links
  · rw [isRecorded]
    change _ = _ + (transfer.amountDec.cents : ℚ) + ((0 : ℤ) : ℚ) - transfer.amountDec.cents
    push_cast
    ring
  · intro other second isSecond different transfer' isOther
    refine ⟨fun same => ?_, fun _ impossible => nomatch impossible⟩
    refine sound.apart index other request second isRequest isSecond different transfer ?_
      transfer' isOther same.symm
    rw [isRecorded]
    rfl

/-- Every step of a request keeps what holds of all requests, as long as no more was charged
than was due. -/
theorem Sound.step (sound : state.Sound iac start) (bounded : state.total ≤ iac.dueIn start)
    (move : Move) : (state.step iac move).Sound iac start := by
  rw [Charges.step]
  cases isRequest : state.requests[move.index]? with
  | none => exact sound
  | some request =>
      have isMember := List.mem_of_getElem? isRequest
      have known := sound.requests request isMember
      have plain := sound.plain request isMember
      rcases sound.committed with ⟨paid, onlyPaid, _⟩
      have settled := onlyPaid.settled
      rcases request with ⟨post, progress⟩
      dsimp only at known plain ⊢
      have quiet {next : Progress}
          (kept : ∀ transfer ∈ next.pending, ∃ before ∈ progress.pending, before.id = transfer.id)
          (inFlight : next.inFlight = progress.inFlight)
          (sounds : next.Sound iac start post state.database state.total) :
          Sound iac start {
            database := state.database
            requests := state.requests.set move.index { post, progress := next }
            total := state.total + 0 } := by
        rw [add_zero]
        exact @Sound.quiet iac start next state move.index ⟨post, progress⟩ sound isRequest kept
          inFlight sounds
      have gone : ∀ transfer ∈ (none : Option Transfer), ∃ before ∈ progress.pending,
          before.id = transfer.id := fun _ impossible => nomatch impossible
      cases progress with
      | received =>
          rw [PostData.advance, plain]
          exact quiet gone rfl trivial
      | cleared amount => exact known.elim
      | donated =>
          rw [PostData.advance]
          split
          next errorType _ => exact quiet gone rfl trivial
          next =>
            rw [query, IndividualAccountingController.amountRequested_of_isSettled settled]
            exact quiet gone rfl (onlyPaid.requested false)
      | requested amtRequest =>
          rw [PostData.advance, query,
            IndividualAccountingController.amountSiblingdiscount_of_isSettled settled]
          exact quiet gone rfl ⟨known, onlyPaid.siblingdiscount⟩
      | discounted amtRequest amtSibling =>
          rcases known with ⟨isRequested, isSibling⟩
          have finaid := @IndividualAccountingController.amountFinaid_of_isSettled iac
            state.database settled (some amtSibling) fun value same => by
              rw [← Option.some.inj same, isSibling, onlyPaid.siblingdiscount]
          rw [PostData.advance, query, finaid]
          exact quiet gone rfl ⟨isRequested, isSibling, onlyPaid.finaidIn⟩
      | aided amtRequest amtSibling amtFinaid =>
          rw [PostData.advance]
          exact quiet gone rfl ⟨known.1, known.2.1, known.2.2, sound.counted⟩
      | paid amtRequest amtSibling amtFinaid amtPaid =>
          rcases known with ⟨isRequested, isSibling, isFinaid, counted⟩
          rw [PostData.advance, query,
            IndividualAccountingController.amountRefunded_of_isSettled settled]
          refine quiet ?_ inFlight_compare (sound_compare counted ?_)
          · rw [pending_compare]
            exact gone
          · rw [isRequested, isSibling, isFinaid, onlyPaid.refunded,
              IndividualAccountingController.dueIn]
            ring
      | agreed amtPaid =>
          rw [PostData.advance]
          split
          next transfer after submitted =>
            have free : post.charge move.answer (.agreed amtPaid) = 0 := rfl
            rw [free, add_zero]
            exact sound.submit isRequest rfl submitted
          next => exact quiet gone rfl trivial
      | submitted amtPaid transfer part targetFull =>
          rcases @advance_submitted iac state.database transfer post amtPaid part targetFull
            move.answer with ⟨next, advanced, ⟨further, value, rfl⟩ | ⟨value, rfl⟩ | ⟨raised, rfl⟩⟩
          · rw [advanced]
            exact quiet (fun _ isPending => ⟨_, isPending, rfl⟩) rfl known
          · rw [advanced]
            exact quiet (fun _ isPending => ⟨_, isPending, rfl⟩) rfl known
          · rw [advanced]
            exact quiet gone rfl trivial
      | targeted amtPaid transfer targetFull =>
          rw [PostData.advance]
          rcases linkIn_cases (onlyPaid.isPayment known.2.isPayment) with
            ⟨saved, links, saveable⟩ | ⟨raised, raises⟩
          · rw [links]
            exact quiet (fun _ isPending => ⟨_, isPending, rfl⟩) rfl ⟨known.1, known.2, saveable⟩
          · rw [raises]
            exact quiet gone rfl trivial
      | linked amtPaid transfer saved =>
          cases move.answer with
          | charge chargeId =>
              rw [PostData.advance]
              exact sound.charge bounded isRequest rfl
          | refusal error =>
              rw [PostData.advance]
              exact quiet gone rfl trivial
      | charged transfer saved chargeId =>
          rw [PostData.advance]
          refine quiet (fun written isPending => ⟨transfer, rfl, ?_⟩) rfl ⟨?_, known.2⟩
          · cases isPending
            rfl
          · exact {
              isPayment := by
                rcases known.1.isPayment with ⟨account, item, isAccount, isItem, isTransfer⟩
                refine ⟨account, item, isAccount, isItem, ?_⟩
                conv_lhs => rw [isTransfer]
                rfl
              absent := known.1.absent
              below := known.1.below
              amount := known.1.amount }
      | recorded transfer saved =>
          rw [PostData.advance]
          have free : post.charge move.answer (.recorded transfer saved) = 0 := rfl
          rw [free, add_zero]
          exact sound.commit isRequest rfl
      | finished outcome =>
          rw [PostData.advance]
          exact quiet gone rfl trivial

/-! ## What is charged -/

/-- The payments that were recorded since the start, in cents: those that are committed, and
those of the transactions whose cards have been charged. -/
def recorded (iac : IndividualAccountingController) (start : Database) (state : Charges) : ℤ :=
  iac.amountPaid state.database - iac.amountPaid start +
    (state.requests.map fun request => request.progress.inFlight).sum

/-- What was charged is what is recorded, and no more than was due. -/
def Balanced (iac : IndividualAccountingController) (start : Database) (due : ℤ)
    (state : Charges) : Prop :=
  state.total = state.recorded iac start ∧ state.total ≤ due

/-- If the request now charges a card, then what it has read as paid counts all that was
charged. -/
def CountsAll (iac : IndividualAccountingController) (start : Database) (state : Charges)
    (move : Move) : Prop :=
  ∀ request amtPaid transfer saved chargeId, state.requests[move.index]? = some request →
    request.progress = .linked amtPaid transfer saved → move.answer = .charge chargeId →
      (amtPaid : ℚ) = iac.amountPaid start + state.total

theorem Sound.total_eq (sound : state.Sound iac start) :
    state.total = state.recorded iac start := by
  rcases sound.committed with ⟨paid, onlyPaid, isTotal⟩
  rw [recorded, onlyPaid.amountPaid, isTotal]
  push_cast
  ring

theorem charge_eq_zero {answer : Answer}
    (free : ∀ amtPaid transfer saved chargeId, progress = .linked amtPaid transfer saved →
      answer ≠ .charge chargeId) : post.charge answer progress = 0 := by
  cases progress with
  | linked amtPaid transfer saved =>
      cases answer with
      | charge chargeId => exact absurd rfl (free amtPaid transfer saved chargeId rfl)
      | refusal error => rfl
  | received | cleared | donated | requested | discounted | aided | paid | agreed | submitted
  | targeted | charged | recorded | finished => rfl

theorem Sound.total_step_le_iff (sound : state.Sound iac start)
    (bounded : state.total ≤ iac.dueIn start) :
    (state.step iac move).total ≤ iac.dueIn start ↔ state.CountsAll iac start move := by
  rw [Charges.step, CountsAll]
  cases isRequest : state.requests[move.index]? with
  | none => exact iff_of_true bounded fun _ _ _ _ _ impossible => nomatch impossible
  | some request =>
      have known := sound.requests request (List.mem_of_getElem? isRequest)
      by_cases charges : ∃ amtPaid transfer saved chargeId,
          request.progress = .linked amtPaid transfer saved ∧ move.answer = .charge chargeId
      · rcases charges with ⟨amtPaid, transfer, saved, chargeId, isLinked, isCharge⟩
        rw [isLinked] at known
        have counted : (amtPaid : ℚ) ≤ iac.amountPaid start + state.total := known.1.1
        have amount := amountCentsPost_of_agreed known.1
        push_cast at amount
        dsimp only
        rw [isLinked, isCharge, PostData.charge, amount]
        constructor
        · intro fits other otherPaid otherTransfer otherSaved otherId isOther otherLinked _
          cases isOther
          cases isLinked.symm.trans otherLinked
          linarith
        · intro counts
          have all := counts request amtPaid transfer saved chargeId rfl isLinked rfl
          linarith
      · have free : request.post.charge move.answer request.progress = 0 :=
          charge_eq_zero fun amtPaid transfer saved chargeId isLinked isCharge =>
            charges ⟨amtPaid, transfer, saved, chargeId, isLinked, isCharge⟩
        dsimp only
        rw [free, add_zero]
        refine iff_of_true bounded ?_
        intro other amtPaid transfer saved chargeId isOther isLinked isCharge
        cases isOther
        exact absurd ⟨amtPaid, transfer, saved, chargeId, isLinked, isCharge⟩ charges

theorem Sound.balanced_iff {moves : List Move} (sound : state.Sound iac start)
    (bounded : state.total ≤ iac.dueIn start) :
    (∀ before, before <+: moves → (state.run iac before).Balanced iac start (iac.dueIn start)) ↔
      ∀ before move, before ++ [move] <+: moves →
        (state.run iac before).CountsAll iac start move := by
  have steps (state : Charges) (move : Move) (sound : state.Sound iac start)
      (balanced : state.Balanced iac start (iac.dueIn start)) (_ : True) :
      (state.step iac move).Sound iac start ∧
        ((state.step iac move).Balanced iac start (iac.dueIn start) ↔
          state.CountsAll iac start move) := by
    have next := sound.step balanced.2 move
    exact ⟨next, (and_iff_right next.total_eq).trans (sound.total_step_le_iff balanced.2)⟩
  exact Runs.throughout_iff steps sound ⟨sound.total_eq, bounded⟩ fun _ _ _ => trivial

theorem sound_start {posts : List PostData} (settled : iac.IsSettled start)
    (plain : ∀ post ∈ posts, post.donation = none) :
    (Charges.start start posts).Sound iac start where
  committed := by
    refine ⟨0, IndividualAccountingController.OnlyPaid.refl settled, ?_⟩
    have none : ((Charges.start start posts).requests.map fun request =>
        request.progress.inFlight).sum = 0 := by
      rw [Charges.start, List.map_map]
      exact List.sum_eq_zero fun amount isAmount => by
        rcases List.mem_map.mp isAmount with ⟨post, _, rfl⟩
        rfl
    rw [none]
    simp [Charges.start]
  plain := by
    intro request isRequest
    rcases List.mem_map.mp isRequest with ⟨post, isPost, rfl⟩
    exact plain post isPost
  requests := by
    intro request isRequest
    rcases List.mem_map.mp isRequest with ⟨post, _, rfl⟩
    trivial
  apart := by
    intro index other first second isFirst _ _ transfer isPending
    have isMember := List.mem_of_getElem? isFirst
    rcases List.mem_map.mp isMember with ⟨post, _, rfl⟩
    cases isPending

/-- For requests that choose no donation, started in the database that the amount due was
computed in: after every step what was charged is what is recorded, and no more than was due,
exactly if no card is charged for an amount that does not count all charges before. -/
theorem charges_balanced_iff {earlier : Database} {due : ℤ} {posts : List PostData}
    (shown : iac.amountDue earlier = (.ok due, start)) (nonneg : 0 ≤ due)
    (plain : ∀ post ∈ posts, post.donation = none) (moves : List Move) :
    (∀ before, before <+: moves →
      ((Charges.start start posts).run iac before).Balanced iac start due) ↔
        ∀ before move, before ++ [move] <+: moves →
          ((Charges.start start posts).run iac before).CountsAll iac start move := by
  rcases IndividualAccountingController.amountDue_eq_ok shown with ⟨settled, rfl⟩
  exact (sound_start settled plain).balanced_iff (Int.cast_nonneg nonneg)

end Charges

/-! ## Two payments at the same time -/

namespace Sample

def tenDollars : PostData where
  donation := none
  ponumber := student.getId
  totalcostCents := .number 1000
  stripeToken := ['t', 'o', 'k']

/-- A request goes on some steps; its card is charged if it gets that far. -/
def goesOn (index steps : ℕ) : List Move :=
  List.replicate steps { index, answer := .charge ['c', 'h'] }

/-- The student owes ten dollars, and no request chooses a donation. -/
theorem charges_balanced_admission :
    (∀ before, before <+: goesOn 0 16 →
      ((Charges.start (shownTo admission) [tenDollars]).run student before).Balanced student
        (shownTo admission) 1000) ↔
      ∀ before move, before ++ [move] <+: goesOn 0 16 →
        ((Charges.start (shownTo admission) [tenDollars]).run student before).CountsAll student
          (shownTo admission) move :=
  have shown : student.amountDue (database admission) = (.ok 1000, shownTo admission) :=
    Prod.ext (by decide) rfl
  Charges.charges_balanced_iff shown (by decide) (by decide) _

/-- Two requests compare the amounts and open their transactions before the first commits.
Both cards are charged, and twenty dollars are paid for ten. -/
theorem charged_twice :
    student.amountDue (database admission) = (.ok 1000, shownTo admission) ∧
      ¬ ∀ before, before <+:
          goesOn 0 7 ++ goesOn 1 7 ++ goesOn 0 4 ++ goesOn 1 4 ++ goesOn 0 4 ++ goesOn 1 4 →
        ((Charges.start (shownTo admission) [tenDollars, tenDollars]).run student
          before).Balanced student (shownTo admission) 1000 := by
  refine ⟨Prod.ext (by decide) rfl, fun balanced => ?_⟩
  have twice : ((Charges.start (shownTo admission) [tenDollars, tenDollars]).run student
      (goesOn 0 7 ++ goesOn 1 7 ++ goesOn 0 4 ++ goesOn 1 4 ++ goesOn 0 4 ++ goesOn 1 4)).total =
        2000 := by decide +kernel
  have bounded := (balanced _ (List.prefix_refl _)).2
  rw [twice] at bounded
  norm_num at bounded

end Sample

end EspWebsite.Accounting
