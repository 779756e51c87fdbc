import Mathlib.Data.List.MinMax
import EspWebsite.Library.Numerals

/-!
# The change log of the scheduler

`AJAXChangeLogEntry` and `AJAXChangeLog` of `program/modules/program_settings.py`, and
`ajax_change_log` of `program/modules/handlers/ajaxschedulingmodule.py`.
-/

namespace EspWebsite.AjaxScheduling

open Python

/-- What an entry changes: the times and the room of a section, its moderators or its
comment.  `timeslots` is stored as a text, from which `getTimeslots` gets it back. -/
inductive Change where
  | scheduling (timeslots : List ℕ) (roomName : List Char)
  | moderator (moderator : ℕ) (assigned : Bool)
  | comment (comment : List Char) (locked : Bool)
  deriving DecidableEq

/-- `AJAXChangeLogEntry`, with its time in microseconds. -/
structure AJAXChangeLogEntry where
  index : ℕ
  change : Change
  clsId : ℕ
  user : Option ℕ
  time : ℤ
  deriving DecidableEq

/-- The text of timeslots that `setScheduling` stores. -/
def timeslotsText (timeslots : List ℕ) : List Char :=
  [','].intercalate (timeslots.map numeral)

/-- The entries of an `AJAXChangeLog`, in the order in which their rows were made. -/
abbrev AJAXChangeLog := List AJAXChangeLogEntry

/-- How the database orders rows by their index.  Which of two rows with one index comes first
is up to it. -/
structure IndexOrder where
  orderBy : List AJAXChangeLogEntry → List AJAXChangeLogEntry
  perm : ∀ rows, (orderBy rows).Perm rows
  ordered : ∀ rows, (orderBy rows).Pairwise fun earlier later => earlier.index ≤ later.index

/-- What the server answers to a client that asks for changes. -/
inductive ChangeLogResponse where
  | reload (earliestIndex latestIndex : ℕ)
  | changelog (entries : List AJAXChangeLogEntry)

namespace AJAXChangeLog

variable (log : AJAXChangeLog)

def maxLogAge : ℤ := 12 * 60 * 60 * 1000000

def prune (now : ℤ) : AJAXChangeLog :=
  log.filter fun entry => !decide (entry.time ≤ now - maxLogAge)

def getLatestIndex : ℕ := (log.map AJAXChangeLogEntry.index).max?.getD 0

def getEarliestIndex : Option ℕ := (log.map AJAXChangeLogEntry.index).min?

def newEntries (lastIndex : ℕ) : List AJAXChangeLogEntry :=
  log.filter fun entry => lastIndex < entry.index

def getLog (order : IndexOrder) (lastIndex : ℕ) : List AJAXChangeLogEntry :=
  order.orderBy (log.newEntries lastIndex)

/-- The client is told to reload the page. -/
def outdated (lastFetchedIndex : ℕ) : Bool :=
  match log.getEarliestIndex with
  | none => false
  | some earliest => lastFetchedIndex ≠ 0 && lastFetchedIndex < earliest

def ajaxChangeLog (order : IndexOrder) (lastFetchedIndex : ℕ) : ChangeLogResponse :=
  if log.outdated lastFetchedIndex then
    .reload (log.getEarliestIndex.getD 0) log.getLatestIndex
  else .changelog (log.getLog order lastFetchedIndex)

variable {log : AJAXChangeLog} {lastIndex : ℕ} {entry : AJAXChangeLogEntry}

theorem mem_newEntries : entry ∈ log.newEntries lastIndex ↔ entry ∈ log ∧
    lastIndex < entry.index := by
  simp [newEntries]

theorem outdated_iff : log.outdated lastIndex = true ↔
    log ≠ [] ∧ lastIndex ≠ 0 ∧ ∀ entry ∈ log, lastIndex < entry.index := by
  rw [outdated]
  cases earliest : log.getEarliestIndex with
  | none =>
      have empty : log = [] := by
        rw [getEarliestIndex, List.min?_eq_none_iff] at earliest
        exact List.map_eq_nil_iff.mp earliest
      simp [empty]
  | some least =>
      rw [getEarliestIndex, List.min?_eq_some_iff] at earliest
      rcases earliest with ⟨isIndex, isLeast⟩
      rcases List.mem_map.mp isIndex with ⟨first, isFirst, rfl⟩
      have nonempty : log ≠ [] := List.ne_nil_of_mem isFirst
      simp only [ne_eq, decide_not, Bool.and_eq_true, Bool.not_eq_true', decide_eq_false_iff_not,
        decide_eq_true_eq, nonempty, not_false_eq_true, true_and]
      refine and_congr_right fun _ => ⟨fun before entry isEntry => ?_, fun all => all first isFirst⟩
      exact before.trans_le (isLeast _ (List.mem_map_of_mem isEntry))

theorem index_le_getLatestIndex (isEntry : entry ∈ log) : entry.index ≤ log.getLatestIndex := by
  rw [getLatestIndex]
  cases latest : (log.map AJAXChangeLogEntry.index).max? with
  | none =>
      rw [List.max?_eq_none_iff, List.map_eq_nil_iff] at latest
      rw [latest] at isEntry
      cases isEntry
  | some greatest => exact (List.max?_eq_some_iff.mp latest).2 _ (List.mem_map_of_mem isEntry)

theorem newEntries_getLatestIndex : log.newEntries log.getLatestIndex = [] := by
  rw [newEntries, List.filter_eq_nil_iff]
  intro entry isEntry
  rw [decide_eq_true_eq, not_lt]
  exact index_le_getLatestIndex isEntry

theorem newEntries_append (later : lastIndex < entry.index) :
    newEntries (log ++ [entry]) lastIndex = log.newEntries lastIndex ++ [entry] := by
  rw [newEntries, List.filter_append]
  simp [newEntries, later]

/-- A client that is told to reload still is after a later entry. -/
theorem outdated_append (outdated : log.outdated lastIndex = true)
    (later : lastIndex < entry.index) :
    AJAXChangeLog.outdated (log ++ [entry]) lastIndex = true := by
  rw [outdated_iff] at outdated ⊢
  refine ⟨by simp, outdated.2.1, fun other isOther => ?_⟩
  rcases List.mem_append.mp isOther with isOld | isNew
  · exact outdated.2.2 other isOld
  · rw [List.mem_singleton.mp isNew]
    exact later

theorem newEntries_filter {keep : AJAXChangeLogEntry → Bool}
    (spared : ∀ entry ∈ log.newEntries lastIndex, entry ∈ log.filter keep) :
    newEntries (log.filter keep) lastIndex = log.newEntries lastIndex := by
  rw [newEntries, newEntries, List.filter_filter]
  apply List.filter_congr
  intro entry isEntry
  cases later : decide (lastIndex < entry.index) with
  | false => rfl
  | true =>
      have isNew := mem_newEntries.mpr ⟨isEntry, of_decide_eq_true later⟩
      rw [(List.mem_filter.mp (spared entry isNew)).2]
      rfl

theorem outdated_filter {keep : AJAXChangeLogEntry → Bool}
    (outdated : log.outdated lastIndex = true)
    (spared : ∀ entry ∈ log.newEntries lastIndex, entry ∈ log.filter keep) :
    AJAXChangeLog.outdated (log.filter keep) lastIndex = true := by
  rw [outdated_iff] at outdated ⊢
  rcases List.exists_mem_of_ne_nil log outdated.1 with ⟨first, isFirst⟩
  have isNew := mem_newEntries.mpr ⟨isFirst, outdated.2.2 first isFirst⟩
  refine ⟨List.ne_nil_of_mem (spared first isNew), outdated.2.1, fun entry isEntry => ?_⟩
  exact outdated.2.2 entry (List.mem_of_mem_filter isEntry)

/-- The index of the last of some entries, or else the index after which they come. -/
def lastIndexOf (lastIndex : ℕ) (entries : List AJAXChangeLogEntry) : ℕ :=
  (entries.getLast?.map AJAXChangeLogEntry.index).getD lastIndex

theorem newEntries_lastIndexOf
    (increasing : (log.newEntries lastIndex).Pairwise fun earlier later =>
      earlier.index < later.index) :
    log.newEntries (lastIndexOf lastIndex (log.newEntries lastIndex)) = [] := by
  rw [lastIndexOf]
  cases final : (log.newEntries lastIndex).getLast? with
  | none => exact List.getLast?_eq_none_iff.mp final
  | some final' =>
      rcases List.getLast?_eq_some_iff.mp final with ⟨earlier, split⟩
      have isFinal : final' ∈ log.newEntries lastIndex := by simp [split]
      rw [newEntries, List.filter_eq_nil_iff]
      intro entry isEntry
      rw [Option.map_some, Option.getD_some, decide_eq_true_eq, not_lt]
      by_cases isNew : entry ∈ log.newEntries lastIndex
      · rw [split] at isNew increasing
        rcases List.mem_append.mp isNew with isEarlier | isLast
        · exact ((List.pairwise_append.mp increasing).2.2 entry isEarlier final' (by simp)).le
        · rw [List.mem_singleton.mp isLast]
      · have old : ¬lastIndex < entry.index := fun later =>
          isNew (mem_newEntries.mpr ⟨isEntry, later⟩)
        exact (not_lt.mp old).trans (mem_newEntries.mp isFinal).2.le

theorem orderBy_of_increasing (order : IndexOrder) {rows : List AJAXChangeLogEntry}
    (increasing : rows.Pairwise fun earlier later => earlier.index < later.index) :
    order.orderBy rows = rows := by
  have distinct : (rows.map AJAXChangeLogEntry.index).Nodup :=
    (List.pairwise_map.mpr increasing).imp ne_of_lt
  refine List.Perm.eq_of_pairwise ?_ (order.ordered rows) (increasing.imp le_of_lt)
    (order.perm rows)
  intro first second isFirst isSecond before after
  exact List.inj_on_of_nodup_map distinct ((order.perm rows).mem_iff.mp isFirst) isSecond
    (le_antisymm before after)

end AJAXChangeLog

end EspWebsite.AjaxScheduling
