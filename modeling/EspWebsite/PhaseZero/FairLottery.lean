import EspWebsite.Library.GreedyChoice
import EspWebsite.PhaseZero.Roles

/-!
# The lottery and the caps

The default lottery takes whole groups one after another, and leaves out exactly those for which
there is no room any more.
-/

namespace EspWebsite.PhaseZero

open Tables GreedyChoice

/-! ## Seats -/

def Program.seats (program : Program) (grades : List ℤ) (groups : List PhaseZeroRecord) : ℕ :=
  (groups.flatMap PhaseZeroRecord.user).countP fun user => program.getGrade user ∈ grades

/-- There is room for groups under every cap. -/
def Program.fits (program : Program) (groups : List PhaseZeroRecord) : Bool :=
  program.gradeCaps.all fun cap => program.seats cap.1 groups ≤ cap.2

def Counted (program : Program) (groups : List PhaseZeroRecord) (counts : Counts) : Prop :=
  ∀ cap ∈ program.gradeCaps, counts cap.1 = program.seats cap.1 groups

section Draw

variable {program : Program} {counts : Counts} {users : List ℕ}
  {records taken : List PhaseZeroRecord} {record : PhaseZeroRecord} {drawn : Draw}

theorem countSibs_of_errors (none : (countSibs program users counts).2 = []) :
    ∀ cap ∈ program.gradeCaps, (countSibs program users counts).1 cap.1 =
      counts cap.1 + users.countP fun user => program.getGrade user ∈ cap.1 := by
  induction users generalizing counts with
  | nil => simp [countSibs]
  | cons user users ih =>
      intro cap isCap
      rw [countSibs] at none ⊢
      split at none
      next only single =>
        have isOnly : program.getGrade user ∈ cap.1 ↔ cap = only := by
          have : cap ∈ [only] ↔ program.getGrade user ∈ cap.1 := by
            rw [← single, List.mem_filter, decide_eq_true_eq]
            exact and_iff_right isCap
          rw [← this, List.mem_singleton]
        rw [ih none cap isCap, List.countP_cons]
        by_cases same : cap = only
        · have inside := isOnly.mpr same
          subst same
          simp only [Function.update_self, inside, decide_true, if_true]
          push_cast
          ring
        · have outside : program.getGrade user ∉ cap.1 := mt isOnly.mp same
          have isOnlyCap :
              only ∈ program.gradeCaps.filter fun cap => program.getGrade user ∈ cap.1 := by
            rw [single]
            exact List.mem_singleton_self only
          have inside : program.getGrade user ∈ only.1 :=
            of_decide_eq_true (List.mem_filter.mp isOnlyCap).2
          have apart : cap.1 ≠ only.1 := fun equal => outside (equal ▸ inside)
          simp [apart, outside]
      next => cases none
      next => cases none

theorem errors_isPrefix_drawGroups (program : Program) (records : List PhaseZeroRecord)
    (counts : Counts) (drawn : Draw) :
    drawn.errors <+: (drawGroups program records counts drawn).errors := by
  induction records generalizing counts drawn with
  | nil => exact List.prefix_rfl
  | cons record records ih =>
      rw [drawGroups]
      dsimp only
      split
      · exact (List.prefix_append drawn.errors _).trans (ih _ ⟨_, _⟩)
      · exact (List.prefix_append drawn.errors _).trans (ih _ ⟨_, _⟩)

theorem Counted.concat (counted : Counted program taken counts)
    (none : (countSibs program record.user counts).2 = []) :
    Counted program (taken ++ [record]) (countSibs program record.user counts).1 := by
  intro cap isCap
  rw [countSibs_of_errors none cap isCap, counted cap isCap]
  simp [Program.seats]

theorem students_drawGroups (counted : Counted program taken counts)
    (none : (drawGroups program records counts drawn).errors = [])
    (same : drawn.students = taken.flatMap PhaseZeroRecord.user) :
    (drawGroups program records counts drawn).students =
      (records.foldl (choose program.fits) taken).flatMap PhaseZeroRecord.user := by
  induction records generalizing counts drawn taken with
  | nil => exact same
  | cons record records ih =>
      have noError : (countSibs program record.user counts).2 = [] := by
        have started : drawn.errors ++ (countSibs program record.user counts).2 <+:
            (drawGroups program (record :: records) counts drawn).errors := by
          rw [drawGroups]
          dsimp only
          split <;> exact errors_isPrefix_drawGroups program records _ ⟨_, _⟩
        rw [none, List.prefix_nil, List.append_eq_nil_iff] at started
        exact started.2
      have more := counted.concat noError
      have decides : (program.gradeCaps.all fun cap =>
          (countSibs program record.user counts).1 cap.1 ≤ cap.2) =
          program.fits (taken ++ [record]) := by
        rw [Bool.eq_iff_iff]
        simp only [Program.fits, List.all_eq_true, decide_eq_true_eq]
        exact forall₂_congr fun cap isCap => by rw [more cap isCap]
      rw [drawGroups] at none ⊢
      dsimp only at none ⊢
      rw [decides] at none ⊢
      rw [List.foldl_cons, choose]
      cases fitting : program.fits (taken ++ [record]) with
      | true =>
          rw [fitting] at none
          exact ih more none (by simp [same])
      | false =>
          rw [fitting] at none
          exact ih counted none same

/-! ## What a lottery of groups has to do -/

/-- Whole groups are taken in an order; they respect the caps, and each group that is left out
exceeds a cap together with the groups that were taken before it. -/
structure Fair (program : Program) (order accepted : List PhaseZeroRecord) : Prop where
  sublist : accepted.Sublist order
  capped : ∀ cap ∈ program.gradeCaps, program.seats cap.1 accepted ≤ cap.2
  leftOut : ∀ earlier record later, order = earlier ++ record :: later → record ∉ accepted →
    ∃ cap ∈ program.gradeCaps,
      cap.2 < program.seats cap.1 ((accepted.filter fun other => other ∈ earlier) ++ [record])

theorem fits_iff : program.fits records = true ↔
    ∀ cap ∈ program.gradeCaps, program.seats cap.1 records ≤ cap.2 := by
  simp [Program.fits]

theorem fair_choices (distinct : records.Nodup) (nonneg : ∀ cap ∈ program.gradeCaps, 0 ≤ cap.2) :
    Fair program records (choices program.fits records) where
  sublist := choices_sublist
  capped := fits_iff.mp (fits_foldl_choose (fits_iff.mpr nonneg))
  leftOut earlier record later isOrder leftOut := by
    subst isOrder
    have exceeds := not_fits_of_not_mem leftOut
    rw [choices_eq_filter distinct, ← Bool.not_eq_true, fits_iff] at exceeds
    simpa using exceeds

theorem fair_draw {state : State} {shuffle : Shuffle}
    (nonneg : ∀ cap ∈ program.gradeCaps, 0 ≤ cap.2)
    (none : (draw program state (.default shuffle)).errors = []) :
    ∃ accepted, Fair program (shuffle.order state.records.rows) accepted ∧
      (draw program state (.default shuffle)).students = accepted.flatMap PhaseZeroRecord.user := by
  have distinct : (shuffle.order state.records.rows).Nodup :=
    (shuffle.perm state.records.rows).nodup_iff.mpr state.records.nodup_rows
  rw [draw] at none ⊢
  split at none
  next => cases none
  next some =>
    have counted : Counted program [] fun _ => 0 := fun cap _ => by simp [Program.seats]
    rw [if_neg some]
    exact ⟨_, fair_choices distinct nonneg, students_drawGroups counted none rfl⟩

end Draw

/-- The lottery reports an error and adds nobody, or adds the students of groups that are fairly
chosen. -/
theorem lottery_fair (program : NamedProgram) (nonneg : ∀ cap ∈ program.gradeCaps, 0 ≤ cap.2)
    (site : Site) (shuffle : Shuffle) (role : String) (post : Post)
    (isDefault : post.mode = .default shuffle) :
    ((site.lottery program role post).1 ≠ [] ∧
      (∀ name user, (site.lottery program role post).2.IsMember name user ↔
        site.IsMember name user) ∧
      (site.lottery program role post).2.permissions = site.permissions) ∨
    ((site.lottery program role post).1 = [] ∧
      ∃ accepted, Fair program.toProgram (shuffle.order site.records.rows) accepted ∧
        ∀ name user, (site.lottery program role post).2.IsMember name user ↔
          site.IsMember name user ∨ name = role ∧ ∃ record ∈ accepted, user ∈ record.user) := by
  by_cases none : (draw program.toProgram site.state post.mode).errors = []
  · obtain ⟨permissions, same, -⟩ := Site.lottery_of_no_errors none
    have noError : (site.lottery program role post).1 = [] := by rw [same]
    rw [isDefault] at none
    obtain ⟨accepted, fair, students⟩ := fair_draw nonneg none
    refine .inr ⟨noError, accepted, fair, fun name user => ?_⟩
    rw [Site.isMember_lottery, isDefault, students]
    simp [noError]
  · have failed := @Site.lottery_of_errors program site role post none
    refine .inl ⟨?_, fun name user => ?_, ?_⟩
    · rwa [failed]
    · rw [failed]
      exact Site.isMember_getOrCreate
    · rw [failed]
      exact Site.permissions_getOrCreate

namespace Sample

def splash : NamedProgram := { single with id := 1, str := "Splash" }

/-- Three students have entered, and there are no roles yet. -/
def site : Site where
  records := entered.records
  lotteryRun := false
  groups := ⟨⟨[], 0, .nil, by simp⟩, .nil⟩
  permissions := ⟨[], 0, .nil, by simp⟩

def byLot (rolename : String) : Post where
  mode := .default inOrder
  rolename := some rolename
  perms := true
  confirm := true
  now := 0

/-- Of three students one wins, and the other ones exceed the cap together with this one. -/
theorem lottery_fair_site :
    ∃ accepted, Fair single site.records.rows accepted ∧
      ∀ name user, (site.lottery splash splash.winner (byLot splash.winner)).2.IsMember name user ↔
        site.IsMember name user ∨
          name = splash.winner ∧ ∃ record ∈ accepted, user ∈ record.user :=
  ((lottery_fair splash (by decide) site inOrder splash.winner (byLot splash.winner)
    rfl).resolve_left fun failed => failed.1 rfl).2

end Sample

end EspWebsite.PhaseZero
