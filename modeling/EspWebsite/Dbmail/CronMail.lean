import Mathlib.Algebra.Order.Floor.Semiring
import Mathlib.Data.Rat.Floor
import EspWebsite.Library.Runs

/-!
# Sending the mail that waits in the queue

A run of `send_email_requests` works in batches.  How many there are is counted at its start;
each batch evaluates the query again and takes the first mails that it finds then.  A mail that
failed and may be tried again is found again, ahead of the mails that were not reached.
-/

namespace EspWebsite.Dbmail

open Runs

/-- A mail that is ready to be sent; times are in microseconds. -/
structure TextOfEmail where
  id : ℕ
  created_at : ℤ
  sent : Option ℤ
  sent_by : Option ℤ
  tries : ℕ
deriving Repr, DecidableEq

/-- What `send_mail` ends with: it returns, at a time, or raises an exception. -/
inductive Outcome where
  | delivered (now : ℤ)
  | failed (exceptionType : String)
deriving Repr, DecidableEq

namespace Outcome

/-- Whether the mail went out. -/
def isDelivered : Outcome → Bool
  | .delivered _ => true
  | .failed _ => false

end Outcome

/-- How each attempt of a run ends, by the mail and how often it failed before. -/
abbrev Pattern := ℕ → ℕ → Outcome

/-- One call of `send_mail`. -/
structure Attempt where
  id : ℕ
  outcome : Outcome
deriving Repr, DecidableEq

def batch_size : ℕ := 1000

def ONE_WEEK : ℤ := 7 * 24 * 60 * 60 * 1000000

/-- The value of a setting of the number of retries, where a missing value and `None` mean two. -/
def emailRetries (EMAILRETRIES : Option ℕ) : ℕ := EMAILRETRIES.getD 2

namespace TextOfEmail

def outcome (mail : TextOfEmail) (pattern : Pattern) : Outcome := pattern mail.id mail.tries

/-- The mail as `send` saves it. -/
def send (mail : TextOfEmail) (pattern : Pattern) : TextOfEmail :=
  match mail.outcome pattern with
  | .failed _ => { mail with tries := mail.tries + 1 }
  | .delivered now => { mail with sent := some now }

/-- The filter of the query of a run. -/
def Eligible (retries : ℕ) (now : ℤ) (mail : TextOfEmail) : Prop :=
  (∀ time, mail.sent_by = some time → time ≤ now) ∧ now - ONE_WEEK ≤ mail.created_at ∧
    mail.sent = none ∧ mail.tries ≤ retries

instance (retries : ℕ) (now : ℤ) (mail : TextOfEmail) : Decidable (mail.Eligible retries now) :=
  have : Decidable (∀ time, mail.sent_by = some time → time ≤ now) :=
    inferInstanceAs (Decidable (∀ time ∈ mail.sent_by, time ≤ now))
  inferInstanceAs (Decidable (_ ∧ _ ∧ _ ∧ _))

/-- A mail leaves the query with its next attempt: it is delivered, or no retry is left. -/
def Leaves (retries : ℕ) (pattern : Pattern) (mail : TextOfEmail) : Prop :=
  (mail.outcome pattern).isDelivered ∨ mail.tries = retries

instance (retries : ℕ) (pattern : Pattern) (mail : TextOfEmail) :
    Decidable (mail.Leaves retries pattern) :=
  inferInstanceAs (Decidable (_ ∨ _))

variable {retries : ℕ} {now : ℤ} {pattern : Pattern} {mail : TextOfEmail}

@[simp] theorem id_send : (mail.send pattern).id = mail.id := by
  rw [send]
  split <;> rfl

theorem eligible_send (eligible : mail.Eligible retries now) :
    (mail.send pattern).Eligible retries now ↔ ¬ mail.Leaves retries pattern := by
  have bounded := eligible.2.2.2
  rw [send, Leaves]
  cases mail.outcome pattern with
  | delivered time => simp [Eligible, Outcome.isDelivered]
  | failed exceptionType =>
      simp only [Eligible, Outcome.isDelivered]
      constructor
      · intro again
        have := again.2.2.2
        simp only [Bool.false_eq_true, false_or]
        omega
      · intro stays
        simp only [Bool.false_eq_true, false_or] at stays
        exact ⟨eligible.1, eligible.2.1, eligible.2.2.1, by omega⟩

end TextOfEmail

/-- The stored mails in the order of the query, and the attempts made so far. -/
structure Queue where
  mails : List TextOfEmail
  attempts : List Attempt
  nodup : (mails.map (·.id)).Nodup

namespace Queue

/-- The mails that the query of a run selects. -/
def mailtxts (queue : Queue) (retries : ℕ) (now : ℤ) : List TextOfEmail :=
  queue.mails.filter fun mail => mail.Eligible retries now

theorem ids_save (mails : List TextOfEmail) (pattern : Pattern) (mail : TextOfEmail) :
    (mails.map fun row => if row.id = mail.id then mail.send pattern else row).map (·.id) =
      mails.map (·.id) := by
  rw [List.map_map]
  apply List.map_congr_left
  intro row isRow
  simp only [Function.comp]
  split
  next same => rw [TextOfEmail.id_send, same]
  next => rfl

def sendMail (pattern : Pattern) (queue : Queue) (mail : TextOfEmail) : Queue where
  mails := queue.mails.map fun row => if row.id = mail.id then mail.send pattern else row
  attempts := queue.attempts ++ [⟨mail.id, mail.outcome pattern⟩]
  nodup := by
    rw [ids_save]
    exact queue.nodup

/-- One batch: the query is evaluated, and the first mails of its result are sent. -/
def sendBatch (retries : ℕ) (now : ℤ) (pattern : Pattern) (size : ℕ) (queue : Queue) :
    Queue :=
  ((queue.mailtxts retries now).take size).foldl (sendMail pattern) queue

def sendBatches (retries : ℕ) (now : ℤ) (pattern : Pattern) (size : ℕ) : ℕ → Queue → Queue
  | 0, queue => queue
  | batches + 1, queue =>
      sendBatches retries now pattern size batches (queue.sendBatch retries now pattern size)

def batches (queue : Queue) (retries : ℕ) (now : ℤ) : ℕ :=
  ⌈((queue.mailtxts retries now).length : ℚ) / batch_size⌉₊

/-- One run. -/
def send_email_requests (queue : Queue) (retries : ℕ) (now : ℤ) (pattern : Pattern) : Queue :=
  queue.sendBatches retries now pattern batch_size (queue.batches retries now)

/-- A mail is stored, at any place in the order, under an id that is not in use. -/
def create (queue : Queue) (position : ℕ) (mail : TextOfEmail) : Queue :=
  if unused : mail.id ∉ queue.mails.map (·.id) then
    { mails := queue.mails.take position ++ mail :: queue.mails.drop position
      attempts := queue.attempts
      nodup := by
        have order : (queue.mails.take position ++ mail :: queue.mails.drop position).Perm
            (mail :: queue.mails) := by
          have middle := @List.perm_middle _ mail (queue.mails.take position)
            (queue.mails.drop position)
          rwa [List.take_append_drop] at middle
        rw [(order.map (·.id)).nodup_iff, List.map_cons, List.nodup_cons]
        exact ⟨unused, queue.nodup⟩ }
  else queue

/-- The queue with no attempt recorded yet. -/
def unattempted (queue : Queue) : Queue := { queue with attempts := [] }

def attemptsOf (queue : Queue) (id : ℕ) : ℕ := (queue.attempts.map (·.id)).count id

/-- How often a mail was delivered. -/
def deliveriesOf (queue : Queue) (id : ℕ) : ℕ :=
  queue.attempts.countP fun attempt => attempt.id = id ∧ attempt.outcome.isDelivered

/-- A run attempts every mail that is eligible at its start once. -/
def EachOnce (queue : Queue) (retries : ℕ) (now : ℤ) (pattern : Pattern) : Prop :=
  ∀ mail ∈ queue.mailtxts retries now,
    (queue.send_email_requests retries now pattern).attemptsOf mail.id =
      queue.attemptsOf mail.id + 1

/-- Every mail of the batches before the last one leaves the query with its attempt. -/
def EarlyLeave (queue : Queue) (retries : ℕ) (now : ℤ) (pattern : Pattern) : Prop :=
  ∀ mail ∈ (queue.mailtxts retries now).take (batch_size * (queue.batches retries now - 1)),
    mail.Leaves retries pattern

variable {queue : Queue} {retries size : ℕ} {now : ℤ} {pattern : Pattern} {mail : TextOfEmail}
  {batch before rest : List TextOfEmail}

/-! ## One mail -/

theorem mem_mailtxts :
    mail ∈ queue.mailtxts retries now ↔ mail ∈ queue.mails ∧ mail.Eligible retries now := by
  simp [mailtxts]

theorem nodup_mailtxts (queue : Queue) :
    ((queue.mailtxts retries now).map (·.id)).Nodup :=
  queue.nodup.sublist (List.filter_sublist.map _)

theorem mails_sendMail : (queue.sendMail pattern mail).mails =
    queue.mails.map fun row => if row.id = mail.id then mail.send pattern else row := rfl

theorem map_save (others : ∀ row ∈ batch, row.id ≠ mail.id) :
    (batch.map fun row => if row.id = mail.id then mail.send pattern else row) = batch := by
  calc (batch.map fun row => if row.id = mail.id then mail.send pattern else row)
      = batch.map id := List.map_congr_left fun row isRow => if_neg (others row isRow)
    _ = batch := List.map_id batch

theorem mailtxts_sendMail (selected : queue.mailtxts retries now = before ++ mail :: rest) :
    (queue.sendMail pattern mail).mailtxts retries now =
      before ++ ([mail].filter fun row => ¬ row.Leaves retries pattern).map
        (·.send pattern) ++ rest := by
  rcases List.filter_eq_append_iff.mp selected with ⟨first, further, split, isBefore, isFurther⟩
  rcases List.filter_eq_cons_iff.mp isFurther with
    ⟨skipped, last, splitFurther, notSelected, eligible, isRest⟩
  have distinct := queue.nodup
  rw [split, splitFurther] at distinct
  simp only [List.map_append, List.map_cons, List.nodup_append, List.nodup_cons, List.mem_map,
    List.mem_append, List.mem_cons] at distinct
  have saved : (queue.sendMail pattern mail).mails =
      first ++ (skipped ++ mail.send pattern :: last) := by
    rw [mails_sendMail, split, splitFurther, List.map_append, List.map_append, List.map_cons,
      map_save, map_save, map_save, if_pos rfl]
    · intro row isRow same
      exact distinct.2.1.2.1.1 ⟨row, isRow, same⟩
    · intro row isRow same
      exact distinct.2.1.2.2 _ ⟨row, isRow, rfl⟩ _ (.inl rfl) same
    · intro row isRow same
      exact distinct.2.2 _ ⟨row, isRow, rfl⟩ _ (.inr (.inl rfl)) same
  have none : (skipped.filter fun row => row.Eligible retries now) = [] :=
    List.filter_eq_nil_iff.mpr notSelected
  rw [mailtxts, saved, List.filter_append, List.filter_append, List.filter_cons, isBefore,
    none, isRest]
  have again : (mail.send pattern).Eligible retries now ↔ ¬ mail.Leaves retries pattern :=
    TextOfEmail.eligible_send (of_decide_eq_true eligible)
  by_cases leaves : mail.Leaves retries pattern
  · simp [again, leaves]
  · simp [again, leaves]

/-! ## One batch -/

/-- After some of the selected mails are sent, the query selects those of them that stay, changed
by their attempts, in their place. -/
theorem mailtxts_foldl (selected : queue.mailtxts retries now = before ++ (batch ++ rest)) :
    (batch.foldl (sendMail pattern) queue).mailtxts retries now =
      before ++ ((batch.filter fun row => ¬ row.Leaves retries pattern).map
        (·.send pattern) ++ rest) := by
  induction batch generalizing queue before with
  | nil => simpa using selected
  | cons mail batch ih =>
      have next : (queue.sendMail pattern mail).mailtxts retries now = before ++
          ([mail].filter fun row => ¬ row.Leaves retries pattern).map (·.send pattern) ++
            (batch ++ rest) := mailtxts_sendMail selected
      have split : mail :: batch = [mail] ++ batch := rfl
      rw [List.foldl_cons, ih next, split, List.filter_append, List.map_append]
      simp only [List.append_assoc]

theorem attempts_foldl : (batch.foldl (sendMail pattern) queue).attempts =
    queue.attempts ++ batch.map fun mail => ⟨mail.id, mail.outcome pattern⟩ := by
  induction batch generalizing queue with
  | nil => simp
  | cons mail batch ih =>
      rw [List.foldl_cons, ih, List.map_cons, sendMail, List.append_assoc, List.singleton_append]

theorem mailtxts_sendBatch : (queue.sendBatch retries now pattern size).mailtxts retries now =
    (((queue.mailtxts retries now).take size).filter fun mail =>
      ¬ mail.Leaves retries pattern).map (·.send pattern) ++
        (queue.mailtxts retries now).drop size := by
  have selected : queue.mailtxts retries now = [] ++ ((queue.mailtxts retries now).take size ++
      (queue.mailtxts retries now).drop size) := by
    rw [List.take_append_drop, List.nil_append]
  rw [sendBatch, mailtxts_foldl selected, List.nil_append]

theorem mailtxts_sendBatch_of_leaves (leaves : ∀ mail ∈ (queue.mailtxts retries now).take size,
    mail.Leaves retries pattern) :
    (queue.sendBatch retries now pattern size).mailtxts retries now =
      (queue.mailtxts retries now).drop size := by
  have none : ((queue.mailtxts retries now).take size).filter
      (fun mail => ¬ mail.Leaves retries pattern) = [] := by
    simpa using leaves
  rw [mailtxts_sendBatch, none, List.map_nil, List.nil_append]

theorem attemptsOf_sendBatch (id : ℕ) :
    (queue.sendBatch retries now pattern size).attemptsOf id = queue.attemptsOf id +
      (((queue.mailtxts retries now).take size).map (·.id)).count id := by
  rw [attemptsOf, sendBatch, attempts_foldl, List.map_append, List.count_append, List.map_map]
  rfl

theorem attemptsOf_sendBatch_of_mem (isMail : mail ∈ (queue.mailtxts retries now).take size) :
    (queue.sendBatch retries now pattern size).attemptsOf mail.id =
      queue.attemptsOf mail.id + 1 := by
  have nodup : (((queue.mailtxts retries now).take size).map (·.id)).Nodup :=
    queue.nodup_mailtxts.sublist ((List.take_sublist size _).map _)
  rw [attemptsOf_sendBatch, List.count_eq_one_of_mem nodup (List.mem_map_of_mem isMail)]

theorem attemptsOf_sendBatch_of_notMem {id : ℕ}
    (absent : id ∉ (queue.mailtxts retries now).map (·.id)) :
    (queue.sendBatch retries now pattern size).attemptsOf id = queue.attemptsOf id := by
  have notTaken : id ∉ ((queue.mailtxts retries now).take size).map (·.id) :=
    fun taken => absent (((List.take_sublist size _).map _).subset taken)
  rw [attemptsOf_sendBatch, List.count_eq_zero_of_not_mem notTaken, Nat.add_zero]

theorem ids_sendBatch {id : ℕ} (selected :
    id ∈ ((queue.sendBatch retries now pattern size).mailtxts retries now).map (·.id)) :
    id ∈ (queue.mailtxts retries now).map (·.id) := by
  rw [mailtxts_sendBatch, List.map_append, List.map_map, List.mem_append] at selected
  cases selected with
  | inl stayed =>
      rcases List.mem_map.mp stayed with ⟨mail, isStayed, same⟩
      have isTaken := List.mem_of_mem_take (List.mem_filter.mp isStayed).1
      exact List.mem_map.mpr ⟨mail, isTaken, by simpa using same⟩
  | inr dropped => exact ((List.drop_sublist size _).map _).subset dropped

/-! ## The batches of a run -/

theorem attemptsOf_sendBatches_of_notMem {batches id : ℕ}
    (absent : id ∉ (queue.mailtxts retries now).map (·.id)) :
    (queue.sendBatches retries now pattern size batches).attemptsOf id = queue.attemptsOf id := by
  induction batches generalizing queue with
  | zero => rfl
  | succ batches ih =>
      rw [sendBatches, ih (fun selected => absent (ids_sendBatch selected)),
        attemptsOf_sendBatch_of_notMem absent]

theorem attemptsOf_le_sendBatches {batches id : ℕ} : queue.attemptsOf id ≤
    (queue.sendBatches retries now pattern size batches).attemptsOf id := by
  induction batches generalizing queue with
  | zero => exact Nat.le_refl _
  | succ batches ih =>
      calc queue.attemptsOf id
          ≤ (queue.sendBatch retries now pattern size).attemptsOf id := by
            rw [attemptsOf_sendBatch]
            exact Nat.le_add_right _ _
        _ ≤ _ := ih

/-- A mail that stays in the query after its batch is the reason that some mail is attempted
twice, if there is another batch. -/
theorem exists_attempted_twice {batches : ℕ} (positive : 0 < size)
    (isMail : mail ∈ (queue.mailtxts retries now).take size)
    (stays : ¬ mail.Leaves retries pattern) : ∃ other ∈ queue.mailtxts retries now,
      queue.attemptsOf other.id + 2 ≤
        (queue.sendBatches retries now pattern size (batches + 2)).attemptsOf other.id := by
  have next := @mailtxts_sendBatch queue retries size now pattern
  cases stayed : ((queue.mailtxts retries now).take size).filter
      (fun mail => ¬ mail.Leaves retries pattern) with
  | nil =>
      have leaves := List.filter_eq_nil_iff.mp stayed mail isMail
      simp only [decide_not, Bool.not_eq_true', decide_eq_false_iff_not, not_not] at leaves
      exact absurd leaves stays
  | cons other others =>
      rw [stayed, List.map_cons, List.cons_append] at next
      have isOther : other ∈ (queue.mailtxts retries now).take size := by
        have member : other ∈ other :: others := List.mem_cons_self
        rw [← stayed] at member
        exact (List.mem_filter.mp member).1
      have isNext : other.send pattern ∈
          ((queue.sendBatch retries now pattern size).mailtxts retries now).take size := by
        rw [next]
        cases size with
        | zero => exact absurd positive (Nat.lt_irrefl 0)
        | succ size => exact List.mem_cons_self
      refine ⟨other, List.mem_of_mem_take isOther, ?_⟩
      have first : (queue.sendBatch retries now pattern size).attemptsOf other.id =
          queue.attemptsOf other.id + 1 := attemptsOf_sendBatch_of_mem isOther
      have second : ((queue.sendBatch retries now pattern size).sendBatch retries now pattern
          size).attemptsOf (other.send pattern).id = _ := attemptsOf_sendBatch_of_mem isNext
      rw [TextOfEmail.id_send] at second
      calc queue.attemptsOf other.id + 2
          = ((queue.sendBatch retries now pattern size).sendBatch retries now pattern
              size).attemptsOf other.id := by rw [second, first]
        _ ≤ _ := attemptsOf_le_sendBatches

theorem attempted_once_iff_of_leaves {batches : ℕ}
    (leaves : ∀ mail ∈ (queue.mailtxts retries now).take size, mail.Leaves retries pattern) :
    (∀ mail ∈ queue.mailtxts retries now,
      (queue.sendBatches retries now pattern size (batches + 1)).attemptsOf mail.id =
        queue.attemptsOf mail.id + 1) ↔
    ∀ mail ∈ (queue.sendBatch retries now pattern size).mailtxts retries now,
      ((queue.sendBatch retries now pattern size).sendBatches retries now pattern size
        batches).attemptsOf mail.id =
        (queue.sendBatch retries now pattern size).attemptsOf mail.id + 1 := by
  have further := mailtxts_sendBatch_of_leaves leaves
  have distinct := @nodup_mailtxts retries now queue
  rw [← List.take_append_drop size (queue.mailtxts retries now), List.map_append,
    List.nodup_append] at distinct
  have unattempted : ∀ mail ∈ (queue.mailtxts retries now).drop size,
      (queue.sendBatch retries now pattern size).attemptsOf mail.id =
        queue.attemptsOf mail.id := by
    intro mail isMail
    rw [attemptsOf_sendBatch, List.count_eq_zero_of_not_mem, Nat.add_zero]
    intro taken
    exact distinct.2.2 _ taken _ (List.mem_map_of_mem isMail) rfl
  rw [further]
  constructor
  · intro once mail isMail
    rw [unattempted mail isMail]
    exact once mail (List.mem_of_mem_drop isMail)
  · intro once mail isMail
    rw [← List.take_append_drop size (queue.mailtxts retries now), List.mem_append] at isMail
    cases isMail with
    | inl isTaken =>
        have absent : mail.id ∉
            ((queue.sendBatch retries now pattern size).mailtxts retries now).map (·.id) := by
          rw [further]
          intro dropped
          exact distinct.2.2 _ (List.mem_map_of_mem isTaken) _ dropped rfl
        rw [sendBatches, attemptsOf_sendBatches_of_notMem absent,
          attemptsOf_sendBatch_of_mem isTaken]
    | inr isDropped =>
        rw [← unattempted mail isDropped]
        exact once mail isDropped

theorem attempted_once_iff {batches : ℕ} (positive : 0 < size)
    (enough : (queue.mailtxts retries now).length ≤ size * batches) :
    (∀ mail ∈ queue.mailtxts retries now,
      (queue.sendBatches retries now pattern size batches).attemptsOf mail.id =
        queue.attemptsOf mail.id + 1) ↔
    ∀ mail ∈ (queue.mailtxts retries now).take (size * (batches - 1)),
      mail.Leaves retries pattern := by
  induction batches generalizing queue with
  | zero =>
      have none : queue.mailtxts retries now = [] := List.eq_nil_of_length_eq_zero (by omega)
      simp [none]
  | succ batches ih =>
      have taken : ∀ mail ∈ (queue.mailtxts retries now).take size,
          (queue.sendBatch retries now pattern size).attemptsOf mail.id =
            queue.attemptsOf mail.id + 1 := fun mail => attemptsOf_sendBatch_of_mem
      cases batches with
      | zero =>
          have whole : (queue.mailtxts retries now).take size = queue.mailtxts retries now :=
            List.take_of_length_le (by omega)
          rw [whole] at taken
          exact iff_of_true taken (fun mail absent => nomatch absent)
      | succ batches =>
          by_cases leaves : ∀ mail ∈ (queue.mailtxts retries now).take size,
              mail.Leaves retries pattern
          · have further := mailtxts_sendBatch_of_leaves leaves
            have fewer : ((queue.sendBatch retries now pattern size).mailtxts
                retries now).length ≤ size * (batches + 1) := by
              rw [further, List.length_drop]
              rw [Nat.mul_succ] at enough
              omega
            rw [attempted_once_iff_of_leaves leaves, ih fewer, further]
            have split : size * (batches + 1 + 1 - 1) = size + size * (batches + 1 - 1) := by
              simp only [Nat.add_sub_cancel]
              ring
            rw [split, List.take_add]
            simp only [List.mem_append]
            constructor
            · intro later mail isMail
              exact isMail.elim (leaves mail) (later mail)
            · intro all mail isMail
              exact all mail (.inr isMail)
          · push Not at leaves
            rcases leaves with ⟨mail, isMail, stays⟩
            constructor
            · intro once
              rcases @exists_attempted_twice queue retries size now pattern mail batches positive
                isMail stays with ⟨other, isOther, twice⟩
              rw [once other isOther] at twice
              omega
            · intro early
              exact absurd (early mail (List.take_subset_take_left _ (Nat.le_mul_of_pos_right size
                (Nat.succ_pos batches)) isMail)) stays

/-! ## What every attempt preserves -/

theorem foldl_of_sendMail (property : Queue → Prop)
    (steps : ∀ queue, ∀ mail ∈ queue.mails, mail.Eligible retries now → property queue →
      property (queue.sendMail pattern mail))
    (selected : queue.mailtxts retries now = before ++ (batch ++ rest))
    (holds : property queue) : property (batch.foldl (sendMail pattern) queue) := by
  induction batch generalizing queue before with
  | nil => exact holds
  | cons mail batch ih =>
      have isSelected : mail ∈ queue.mailtxts retries now := by
        rw [selected]
        simp
      have member := mem_mailtxts.mp isSelected
      exact ih (mailtxts_sendMail selected) (steps queue mail member.1 member.2 holds)

theorem send_email_requests_of_sendMail (property : Queue → Prop)
    (steps : ∀ queue, ∀ mail ∈ queue.mails, mail.Eligible retries now → property queue →
      property (queue.sendMail pattern mail))
    (holds : property queue) : property (queue.send_email_requests retries now pattern) := by
  have byBatches : ∀ batches (queue : Queue), property queue →
      property (queue.sendBatches retries now pattern batch_size batches) := by
    intro batches
    induction batches with
    | zero => exact fun queue holds => holds
    | succ batches ih =>
        intro queue holds
        have selected : queue.mailtxts retries now =
            [] ++ ((queue.mailtxts retries now).take batch_size ++
              (queue.mailtxts retries now).drop batch_size) := by
          rw [List.take_append_drop, List.nil_append]
        exact ih _ (foldl_of_sendMail property steps selected holds)
  exact byBatches _ queue holds

/-- The bound on the attempts on a mail, and why it holds: while a mail is not sent, every
attempt on it failed and was counted. -/
structure Bounded (retries : ℕ) (queue : Queue) : Prop where
  stored : ∀ attempt ∈ queue.attempts, attempt.id ∈ queue.mails.map (·.id)
  counted : ∀ mail ∈ queue.mails, mail.sent = none →
    queue.attemptsOf mail.id ≤ mail.tries ∧ queue.deliveriesOf mail.id = 0
  attempts_le : ∀ id, queue.attemptsOf id ≤ retries + 1
  deliveries_le : ∀ id, queue.deliveriesOf id ≤ 1

theorem attemptsOf_sendMail (id : ℕ) : (queue.sendMail pattern mail).attemptsOf id =
    queue.attemptsOf id + if mail.id = id then 1 else 0 := by
  rw [attemptsOf, sendMail, List.map_append, List.count_append, List.map_singleton,
    List.count_singleton]
  simp [attemptsOf]

theorem deliveriesOf_sendMail (id : ℕ) : (queue.sendMail pattern mail).deliveriesOf id =
    queue.deliveriesOf id +
      if mail.id = id ∧ (mail.outcome pattern).isDelivered then 1 else 0 := by
  rw [deliveriesOf, sendMail, List.countP_append, List.countP_singleton]
  simp [deliveriesOf]

theorem ids_sendMail :
    (queue.sendMail pattern mail).mails.map (·.id) = queue.mails.map (·.id) :=
  ids_save queue.mails pattern mail

theorem Bounded.sendMail (bounded : queue.Bounded retries) (isMail : mail ∈ queue.mails)
    (eligible : mail.Eligible retries now) : (queue.sendMail pattern mail).Bounded retries := by
  have counted := bounded.counted mail isMail eligible.2.2.1
  have tries := eligible.2.2.2
  constructor
  · intro attempt isAttempt
    rw [ids_sendMail]
    cases List.mem_append.mp isAttempt with
    | inl old => exact bounded.stored attempt old
    | inr new =>
        rw [List.mem_singleton.mp new]
        exact List.mem_map_of_mem isMail
  · intro row isRow unsent
    rw [mails_sendMail] at isRow
    rcases List.mem_map.mp isRow with ⟨old, isOld, saved⟩
    rw [attemptsOf_sendMail, deliveriesOf_sendMail]
    split at saved
    next same =>
      subst saved
      simp only [TextOfEmail.id_send, true_and, if_true]
      rw [TextOfEmail.send] at unsent ⊢
      cases outcome : mail.outcome pattern with
      | delivered time =>
          rw [outcome] at unsent
          cases unsent
      | failed exceptionType =>
          simp only [Outcome.isDelivered, Bool.false_eq_true, if_false, Nat.add_zero]
          exact ⟨Nat.succ_le_succ counted.1, counted.2⟩
    next other =>
      subst saved
      rw [if_neg (fun same => other same.symm), if_neg (fun both => other both.1.symm)]
      exact bounded.counted old isOld unsent
  · intro id
    rw [attemptsOf_sendMail]
    split
    next same =>
      rw [← same]
      omega
    next => exact bounded.attempts_le id
  · intro id
    rw [deliveriesOf_sendMail]
    split
    next both =>
      rw [← both.1]
      omega
    next => exact bounded.deliveries_le id

theorem bounded_unattempted (queue : Queue) : queue.unattempted.Bounded retries where
  stored attempt absent := nomatch absent
  counted mail _ _ := ⟨Nat.zero_le _, rfl⟩
  attempts_le _ := Nat.zero_le _
  deliveries_le _ := Nat.zero_le _

theorem Bounded.create (bounded : queue.Bounded retries) (position : ℕ) (mail : TextOfEmail) :
    (queue.create position mail).Bounded retries := by
  rw [Queue.create]
  split
  next unused =>
    have isRow : ∀ row, row ∈ queue.mails.take position ++ mail :: queue.mails.drop position ↔
        row = mail ∨ row ∈ queue.mails := by
      intro row
      have order := @List.perm_middle _ mail (queue.mails.take position)
        (queue.mails.drop position)
      rw [List.take_append_drop] at order
      rw [order.mem_iff, List.mem_cons]
    constructor
    · intro attempt isAttempt
      rcases List.mem_map.mp (bounded.stored attempt isAttempt) with ⟨row, isStored, same⟩
      exact List.mem_map.mpr ⟨row, (isRow row).mpr (.inr isStored), same⟩
    · intro row isStored unsent
      cases (isRow row).mp isStored with
      | inl new =>
          subst new
          have unknown : ∀ attempt ∈ queue.attempts, attempt.id ≠ row.id := by
            intro attempt isAttempt same
            rw [← same] at unused
            exact unused (bounded.stored attempt isAttempt)
          have unattempted : queue.attemptsOf row.id = 0 := by
            apply List.count_eq_zero_of_not_mem
            intro attempted
            rcases List.mem_map.mp attempted with ⟨attempt, isAttempt, same⟩
            exact unknown attempt isAttempt same
          have undelivered : queue.deliveriesOf row.id = 0 := by
            apply List.countP_eq_zero.mpr
            intro attempt isAttempt
            simp [unknown attempt isAttempt]
          exact ⟨Nat.le_trans (Nat.le_of_eq unattempted) (Nat.zero_le _), undelivered⟩
      | inr old => exact bounded.counted row old unsent
    · exact bounded.attempts_le
    · exact bounded.deliveries_le
  next => exact bounded

theorem length_le_batches :
    (queue.mailtxts retries now).length ≤ batch_size * queue.batches retries now := by
  have ceiling : ((queue.mailtxts retries now).length : ℚ) / batch_size ≤
      queue.batches retries now := Nat.le_ceil _
  have positive : (0 : ℚ) < batch_size := by norm_num [batch_size]
  rw [div_le_iff₀ positive, mul_comm] at ceiling
  exact_mod_cast ceiling

theorem eachOnce_iff :
    queue.EachOnce retries now pattern ↔ queue.EarlyLeave retries now pattern :=
  attempted_once_iff (by decide) length_le_batches

end Queue

/-! ## Runs over the life of the queue -/

/-- What happens to the queue: a run of the script, or a mail stored for a later run. -/
inductive QueueAction where
  | send_email_requests (now : ℤ) (pattern : Pattern)
  | create (position : ℕ) (mail : TextOfEmail)

/-- One action, under the value of the setting of the number of retries. -/
def queueStep (EMAILRETRIES : Option ℕ) (queue : Queue) : QueueAction → Queue
  | .send_email_requests now pattern =>
      queue.send_email_requests (emailRetries EMAILRETRIES) now pattern
  | .create position mail => queue.create position mail

theorem bounded_queueStep {EMAILRETRIES : Option ℕ} {queue : Queue} {action : QueueAction}
    (bounded : queue.Bounded (emailRetries EMAILRETRIES)) :
    (queueStep EMAILRETRIES queue action).Bounded (emailRetries EMAILRETRIES) := by
  cases action with
  | send_email_requests now pattern =>
      exact Queue.send_email_requests_of_sendMail _
        (fun queue mail isMail eligible bounded => bounded.sendMail isMail eligible) bounded
  | create position mail => exact bounded.create position mail

/-- A run attempts each eligible mail once exactly if the mails of all batches but the last leave
the query; over any runs no mail is delivered twice or attempted more often than allowed. -/
theorem send_email_requests_attempts (EMAILRETRIES : Option ℕ) (queue : Queue) :
    (∀ now pattern, queue.EachOnce (emailRetries EMAILRETRIES) now pattern ↔
      queue.EarlyLeave (emailRetries EMAILRETRIES) now pattern) ∧
    ∀ actions, Throughout (queueStep EMAILRETRIES) (fun later =>
      ∀ id, later.deliveriesOf id ≤ 1 ∧
        later.attemptsOf id ≤ emailRetries EMAILRETRIES + 1) queue.unattempted actions := by
  constructor
  · intro now pattern
    exact Queue.eachOnce_iff
  · intro actions
    have any : AtEach (queueStep EMAILRETRIES) (fun _ _ => True) queue.unattempted actions :=
      fun _ _ _ => trivial
    have bounds : Throughout (queueStep EMAILRETRIES)
        (Queue.Bounded (emailRetries EMAILRETRIES)) queue.unattempted actions :=
      throughout_of_steps (fun _ _ bounded _ => bounded_queueStep bounded)
        queue.bounded_unattempted any
    intro before isPrefix id
    have bounded := bounds before isPrefix
    exact ⟨bounded.deliveries_le id, bounded.attempts_le id⟩

/-- Waiting mails of which none was tried. -/
def crowd (count : ℕ) : Queue where
  mails := (List.range count).map fun id => ⟨id, 0, none, none, 0⟩
  attempts := []
  nodup := by
    rw [List.map_map]
    exact List.nodup_range.map fun _ _ same => same

theorem mailtxts_crowd (count : ℕ) : (crowd count).mailtxts 2 0 = (crowd count).mails := by
  apply List.filter_eq_self.mpr
  intro mail isMail
  rcases List.mem_map.mp isMail with ⟨id, isId, same⟩
  have eligible : TextOfEmail.Eligible 2 0 ⟨id, 0, none, none, 0⟩ :=
    ⟨(fun _ absent => nomatch absent), by simp [ONE_WEEK], rfl, Nat.zero_le 2⟩
  rw [← same]
  exact decide_eq_true eligible

theorem mem_take_crowd {count size : ℕ} (positive : 0 < count) (sizePositive : 0 < size) :
    ⟨0, 0, none, none, 0⟩ ∈ (crowd count).mails.take size := by
  rw [crowd, ← List.map_take, List.take_range]
  exact List.mem_map.mpr ⟨0, List.mem_range.mpr (by omega), rfl⟩

/-- If every attempt fails, a run does not attempt each of more mails than fit in a batch once. -/
theorem crowd_not_eachOnce :
    ¬ (crowd 1001).EachOnce (emailRetries none) 0 fun _ _ => .failed "SMTPException" := by
  have retries : emailRetries none = 2 := rfl
  have two : (crowd 1001).batches 2 0 = 2 := by
    rw [Queue.batches, mailtxts_crowd, crowd, List.length_map, List.length_range]
    norm_num [batch_size]
  intro once
  have early := Queue.eachOnce_iff.mp once ⟨0, 0, none, none, 0⟩
  rw [retries, two, mailtxts_crowd] at early
  cases early (mem_take_crowd (by decide) (by decide)) with
  | inl delivered => cases delivered
  | inr tried => cases tried

end EspWebsite.Dbmail
