import EspWebsite.AjaxScheduling.Browser

/-!
# Clients that poll the change log

When clients that poll `ajax_change_log` get all entries, while others append entries, the log is
pruned or cleared, and pages are loaded.
-/

namespace EspWebsite.AjaxScheduling

open Runs

/-- A page with its `last_applied_index`.  `indexed` tells whether that index counts from when the
page was loaded: the page was told the latest index, or the log was empty when it was loaded.
`reload` tells whether the page was told to reload, `applied` are the entries that it has applied,
and `appended` are those that were appended since it was loaded. -/
structure Client (page : Page) where
  board : Board page
  lastAppliedIndex : ℕ
  indexed : Bool
  reload : Bool
  applied : List AJAXChangeLogEntry
  appended : List AJAXChangeLogEntry

/-- The log, the index that each writer is about to write, and the clients. -/
structure Polling (page : Page) where
  log : AJAXChangeLog
  writing : ℕ → Option ℕ
  clients : ℕ → Option (Client page)

/-- What happens to the log and its clients.  `append` reads the latest index first and writes
its entry later.  A page that is loaded asks for the latest index, and `lastChanged` is the
answer.  A user may change a page between its polls. -/
inductive Act (page : Page) where
  | read (writer : ℕ)
  | write (writer : ℕ) (change : Change) (clsId : ℕ) (user : Option ℕ) (time : ℤ)
  | prune (now : ℤ)
  | clear
  | load (client : ℕ) (board : Board page)
  | lastChanged (client : ℕ)
  | poll (client : ℕ) (completes : AJAXChangeLogEntry → Bool)
  | edit (client : ℕ) (board : Board page)

namespace Client

variable {page : Page}

/-- The changes of `applyChangeLog`: an entry counts as applied when the page does not throw. -/
def receive (completes : AJAXChangeLogEntry → Bool) :
    List AJAXChangeLogEntry → Client page → Client page
  | [], client => client
  | entry :: rest, client =>
      match client.board.applyChange completes entry with
      | (board, true) => receive completes rest
          { client with
            board
            lastAppliedIndex := entry.index
            applied := client.applied ++ [entry] }
      | (board, false) => { client with board }

def applyChangeLog (client : Client page) (completes : AJAXChangeLogEntry → Bool) :
    ChangeLogResponse → Client page
  | .reload _ _ => { client with reload := true }
  | .changelog entries => client.receive completes entries

/-- A client polls the log, until it is told to reload. -/
def getChanges (client : Client page) (order : IndexOrder) (completes : AJAXChangeLogEntry → Bool)
    (log : AJAXChangeLog) : Client page :=
  if client.reload then client
  else client.applyChangeLog completes (log.ajaxChangeLog order client.lastAppliedIndex)

end Client

namespace Polling

variable {page : Page} (order : IndexOrder)

def changeClient (system : Polling page) (client : ℕ) (change : Client page → Client page) :
    Polling page :=
  { system with
    clients := Function.update system.clients client ((system.clients client).map change) }

/-- What an act makes of the log and its clients. -/
def step (system : Polling page) : Act page → Polling page
  | .read writer => { system with
      writing := Function.update system.writing writer (some (system.log.getLatestIndex + 1)) }
  | .write writer change clsId user time =>
      match system.writing writer with
      | none => system
      | some index =>
          let entry : AJAXChangeLogEntry := ⟨index, change, clsId, user, time⟩
          { log := system.log ++ [entry]
            writing := Function.update system.writing writer none
            clients := fun client => (system.clients client).map fun client =>
              { client with appended := client.appended ++ [entry] } }
  | .prune now => { system with log := system.log.prune now }
  | .clear => { system with log := [] }
  | .load client board => { system with
      clients := Function.update system.clients client
        (some ⟨board, 0, system.log.newEntries 0 = [], false, [], []⟩) }
  | .lastChanged client => system.changeClient client fun client =>
      { client with lastAppliedIndex := system.log.getLatestIndex, indexed := true }
  | .poll client completes => system.changeClient client fun client =>
      client.getChanges order completes system.log
  | .edit client board => system.changeClient client fun client => { client with board }

/-- A client that polls is told to reload, or it has applied exactly the entries that were appended
since it was loaded. -/
def Serves (system : Polling page) : Act page → Prop
  | .poll client completes => ∀ state,
      (system.step order (.poll client completes)).clients client = some state →
        state.reload = true ∨ state.applied = state.appended
  | _ => True

end Polling

namespace Client

variable {page : Page}

/-- An entry with this index comes after all that the client has applied or has yet to get, unless
it will be told to reload.  A client without its index is told later. -/
def Precedes (log : AJAXChangeLog) (client : Client page) (index : ℕ) : Prop :=
  client.reload = false → client.indexed = true →
    client.lastAppliedIndex < index ∧
      (log.outdated client.lastAppliedIndex = true ∨
        ∀ entry ∈ log.newEntries client.lastAppliedIndex, entry.index < index)

/-- A client loses none of the entries that it has yet to get when the log becomes another,
unless it will be told to reload. -/
def Keeps (log after : AJAXChangeLog) (client : Client page) : Prop :=
  client.reload = false → client.indexed = true →
    after.outdated client.lastAppliedIndex = true ∨
      ∀ entry ∈ log.newEntries client.lastAppliedIndex, entry ∈ after

/-- A client may poll if it has its index, and does not throw in the middle of its new entries. -/
def MayPoll (log : AJAXChangeLog) (completes : AJAXChangeLogEntry → Bool)
    (client : Client page) : Prop :=
  client.reload = false → client.indexed = true ∧
    (log.outdated client.lastAppliedIndex = false →
      (Board.applyChanges completes (log.newEntries client.lastAppliedIndex) client.board).2 = true)

/-- A client will be told to reload, or the entries that it has yet to get are in the log, with
increasing indices.  A client without its index has applied nothing. -/
def Sound (log : AJAXChangeLog) (client : Client page) : Prop :=
  client.reload = false → client.indexed = true →
    log.outdated client.lastAppliedIndex = true ∨
      (client.appended = client.applied ++ log.newEntries client.lastAppliedIndex ∧
        (log.newEntries client.lastAppliedIndex).Pairwise
          fun earlier later => earlier.index < later.index)

end Client

namespace Polling

variable {page : Page} (order : IndexOrder)

/-- An entry that is written has an index above those of all entries that a client has applied or
has yet to get; no entry is deleted that a client has yet to get; a client is told the latest
index when it has applied all entries since it was loaded; and it polls with its index, and
applies its entries to the end.  None of this matters to clients that will be told to reload. -/
def Careful (system : Polling page) : Act page → Prop
  | .write writer _ _ _ _ => ∀ index, system.writing writer = some index →
      ∀ client state, system.clients client = some state → state.Precedes system.log index
  | .prune now => ∀ client state, system.clients client = some state →
      state.Keeps system.log (system.log.prune now)
  | .clear => ∀ client state, system.clients client = some state → state.Keeps system.log []
  | .lastChanged client => ∀ state, system.clients client = some state →
      state.reload = false → state.applied = state.appended
  | .poll client completes => ∀ state, system.clients client = some state →
      state.MayPoll system.log completes
  | _ => True

def Sound (system : Polling page) : Prop :=
  ∀ client state, system.clients client = some state → state.Sound system.log

end Polling

/-! ## Clients -/

namespace Client

variable {page : Page} {client : Client page} {log : AJAXChangeLog}
  {completes : AJAXChangeLogEntry → Bool}

theorem receive_of_completes {entries : List AJAXChangeLogEntry}
    (whole : (Board.applyChanges completes entries client.board).2 = true) :
    client.receive completes entries = { client with
      board := (Board.applyChanges completes entries client.board).1
      lastAppliedIndex := AJAXChangeLog.lastIndexOf client.lastAppliedIndex entries
      applied := client.applied ++ entries } := by
  induction entries generalizing client with
  | nil =>
      rw [List.append_nil]
      rfl
  | cons entry rest ih =>
      rw [receive.eq_def]
      rw [Board.applyChanges] at whole ⊢
      dsimp only
      cases outcome : client.board.applyChange completes entry with
      | mk board complete =>
          rw [outcome] at whole
          cases complete with
          | false => cases whole
          | true =>
              dsimp only at whole ⊢
              rw [ih whole]
              simp [AJAXChangeLog.lastIndexOf, List.getLast?_cons]

/-- A sound client that polls with its index, and does not throw, is told to reload or gets all
entries. -/
theorem Sound.getChanges {order : IndexOrder} (sound : client.Sound log)
    (polls : client.MayPoll log completes) :
    ((client.getChanges order completes log).reload = true ∨
      (client.getChanges order completes log).applied =
        (client.getChanges order completes log).appended) ∧
      (client.getChanges order completes log).Sound log := by
  rw [Client.getChanges]
  cases reload : client.reload with
  | true =>
      rw [if_pos rfl]
      exact ⟨.inl reload, fun stays => nomatch reload.symm.trans stays⟩
  | false =>
      have mayPoll := polls reload
      rw [if_neg (by decide), AJAXChangeLog.ajaxChangeLog]
      cases outdated : log.outdated client.lastAppliedIndex with
      | true => exact ⟨.inl rfl, fun stays => nomatch stays⟩
      | false =>
          have upToDate := (sound reload mayPoll.1).resolve_left (by rw [outdated]; decide)
          have whole := mayPoll.2 outdated
          rw [if_neg (by decide), applyChangeLog, AJAXChangeLog.getLog,
            AJAXChangeLog.orderBy_of_increasing order upToDate.2, receive_of_completes whole]
          refine ⟨.inr upToDate.1.symm, fun _ _ => .inr ?_⟩
          dsimp only
          rw [AJAXChangeLog.newEntries_lastIndexOf upToDate.2, List.append_nil]
          exact ⟨upToDate.1, List.Pairwise.nil⟩

theorem Sound.write {entry : AJAXChangeLogEntry} (sound : client.Sound log)
    (precedes : client.Precedes log entry.index) :
    { client with appended := client.appended ++ [entry] }.Sound (log ++ [entry]) := by
  intro reload indexed
  rcases precedes reload indexed with ⟨later, above⟩
  rcases sound reload indexed with outdated | ⟨same, increasing⟩
  · exact .inl (AJAXChangeLog.outdated_append outdated later)
  · rcases above with outdated | above
    · exact .inl (AJAXChangeLog.outdated_append outdated later)
    · right
      dsimp only
      rw [AJAXChangeLog.newEntries_append later, same, List.append_assoc]
      refine ⟨rfl, List.pairwise_append.mpr ⟨increasing, List.pairwise_singleton _ _, ?_⟩⟩
      intro earlier isEarlier last isLast
      rw [List.mem_singleton.mp isLast]
      exact above earlier isEarlier

theorem Sound.filter {keep : AJAXChangeLogEntry → Bool} (sound : client.Sound log)
    (keeps : client.Keeps log (log.filter keep)) : client.Sound (log.filter keep) := by
  intro reload indexed
  rcases keeps reload indexed with outdated | spared
  · exact .inl outdated
  · rcases sound reload indexed with outdated | upToDate
    · exact .inl (AJAXChangeLog.outdated_filter outdated spared)
    · right
      rw [AJAXChangeLog.newEntries_filter spared]
      exact upToDate

end Client

/-! ## Runs -/

namespace Polling

variable {page : Page} {order : IndexOrder} {system : Polling page}

theorem Sound.changeClient (sound : system.Sound) {client : ℕ} {change : Client page → Client page}
    (changed : ∀ state, system.clients client = some state → (change state).Sound system.log) :
    (system.changeClient client change).Sound := by
  intro other state isState
  rw [Polling.changeClient] at isState
  dsimp only at isState
  by_cases same : other = client
  · rw [same, Function.update_self] at isState
    rcases Option.map_eq_some_iff.mp isState with ⟨before, isBefore, rfl⟩
    exact changed before isBefore
  · rw [Function.update_of_ne same] at isState
    exact sound other state isState

theorem Sound.step (sound : system.Sound) {act : Act page} (careful : system.Careful act) :
    (system.step order act).Sound := by
  cases act with
  | read writer => exact sound
  | write writer change clsId user time =>
      rw [Polling.step]
      cases writing : system.writing writer with
      | none => exact sound
      | some index =>
          intro client state isState
          rcases Option.map_eq_some_iff.mp isState with ⟨before, isBefore, rfl⟩
          exact (sound client before isBefore).write (careful index writing client before isBefore)
  | prune now =>
      intro client state isState
      exact (sound client state isState).filter (careful client state isState)
  | clear =>
      intro client state isState
      have kept := careful client state isState
      have none : ([] : AJAXChangeLog) = system.log.filter fun _ => false := by simp
      rw [none] at kept
      have still := (sound client state isState).filter kept
      rw [← none] at still
      exact still
  | load client board =>
      intro other state isState
      rw [Polling.step] at isState
      dsimp only at isState
      by_cases same : other = client
      · rw [same, Function.update_self] at isState
        cases isState
        intro _ indexed
        right
        have empty : system.log.newEntries 0 = [] := of_decide_eq_true indexed
        dsimp only
        rw [Polling.step]
        dsimp only
        rw [empty]
        exact ⟨rfl, List.Pairwise.nil⟩
      · rw [Function.update_of_ne same] at isState
        exact sound other state isState
  | lastChanged client =>
      refine sound.changeClient fun state isState => ?_
      intro reload _
      right
      dsimp only
      rw [AJAXChangeLog.newEntries_getLatestIndex, List.append_nil]
      exact ⟨(careful state isState reload).symm, List.Pairwise.nil⟩
  | poll client completes =>
      refine sound.changeClient fun state isState => ?_
      exact ((sound client state isState).getChanges (careful state isState)).2
  | edit client board =>
      refine sound.changeClient fun state isState => ?_
      exact sound client state isState

theorem Sound.serves (sound : system.Sound) {act : Act page} (careful : system.Careful act) :
    system.Serves order act := by
  cases act with
  | poll client completes =>
      intro state isState
      rw [Polling.step, Polling.changeClient] at isState
      dsimp only at isState
      rw [Function.update_self] at isState
      rcases Option.map_eq_some_iff.mp isState with ⟨before, isBefore, rfl⟩
      exact ((sound client before isBefore).getChanges (careful before isBefore)).1
  | _ => trivial

/-- In every run of careful acts, each client that polls and is not told to reload has applied
exactly the entries that were appended since it was loaded, each once and in order. -/
theorem serves_throughout {acts : List (Act page)} (unloaded : system.clients = fun _ => none)
    (careful : AtEach (step order) Careful system acts) :
    AtEach (step order) (Serves order) system acts := by
  have initially : system.Sound := by
    intro client state isState
    rw [unloaded] at isState
    cases isState
  refine atEach_of_steps (fun before act sound allowed => ?_) initially careful
  exact ⟨sound.step allowed, sound.serves allowed⟩

end Polling

namespace Sample

open Polling

/-- Rows with one index come in the order in which they were made. -/
def byIndex : IndexOrder where
  orderBy rows := rows.insertionSort fun earlier later => earlier.index ≤ later.index
  perm rows := List.perm_insertionSort _ rows
  ordered rows := List.pairwise_insertionSort (fun earlier later : AJAXChangeLogEntry =>
    earlier.index ≤ later.index) rows

/-- A page of a program without rooms. -/
def bare : Page where
  timeslots := []
  lunchTimeslots := []
  minimumDifference := some 20
  rooms := []
  sections := [1]
  length := fun _ => 1

def blank : Board bare where
  cells := fun _ _ => none
  assignments := fun _ => ⟨.null, []⟩
  onGrid := fun _ _ occupied => nomatch occupied

/-- No page is loaded, and the log is empty. -/
def unloaded : Polling bare := ⟨[], fun _ => none, fun _ => none⟩

def comments (writer : ℕ) : Act bare := .write writer (.comment ['a'] false) 1 none 0

def polls : Act bare := .poll 0 fun _ => true

/-- The page gets the entry that is written after it was loaded. -/
theorem entry_applied : AtEach (step byIndex) (Serves byIndex) unloaded
    [.load 0 blank, .lastChanged 0, .read 1, comments 1, polls] := by
  refine serves_throughout rfl (atEach_cons.mpr ⟨trivial, atEach_cons.mpr ⟨?_,
    atEach_cons.mpr ⟨trivial, atEach_cons.mpr ⟨?_, atEach_cons.mpr ⟨?_, atEach_nil⟩⟩⟩⟩⟩)
  · intro state isState _
    cases isState
    rfl
  · intro index isIndex client state isState _ _
    cases isIndex
    cases client with
    | zero =>
        cases isState
        exact ⟨by decide, .inr (by decide)⟩
    | succ client => cases isState
  · intro state isState _
    cases isState
    exact ⟨rfl, fun _ => rfl⟩

/-- Two writers take the same index, and the page polls between their entries. -/
def sameIndex : List (Act bare) :=
  [.load 0 blank, .lastChanged 0, .read 1, .read 2, comments 1, polls, comments 2, polls]

/-- The log is cleared after the page has applied an entry, and another entry takes its index. -/
def restarted : List (Act bare) :=
  [.load 0 blank, .lastChanged 0, .read 1, comments 1, polls, .clear, .read 1, comments 1, polls]

/-- In both runs the page misses an entry. -/
theorem entry_missed : ¬AtEach (step byIndex) (Serves byIndex) unloaded sameIndex ∧
    ¬AtEach (step byIndex) (Serves byIndex) unloaded restarted := by
  constructor
  · intro serves
    have final := serves sameIndex.dropLast polls ⟨[], rfl⟩ _ rfl
    revert final
    decide
  · intro serves
    have final := serves restarted.dropLast polls ⟨[], rfl⟩ _ rfl
    revert final
    decide

end Sample

end EspWebsite.AjaxScheduling
