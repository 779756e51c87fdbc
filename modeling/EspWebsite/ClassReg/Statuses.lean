import EspWebsite.ClassReg.Controller
import EspWebsite.Library.Runs

/-!
# Statuses of classes and sections

`accept`, `propose`, `reject` and `cancel` of `ClassSubject`, `save` and `cancel` of
`ClassSection`: when a class has the status that all its sections have.
-/

namespace EspWebsite.ClassReg

open Runs

def ClassStatus.ACCEPTED : ℤ := 10

/-- The status of a class, and those of its sections in the order of their ids. -/
@[ext] structure Statuses where
  parentClass : ℤ
  sections : List ℤ
  deriving DecidableEq

/-- What is done with a class, or with one of its sections. -/
inductive StatusChange where
  | accept
  | propose
  | reject
  | cancel
  | saveSection (sec : ℕ) (status : ℤ)
  | cancelSection (sec : ℕ)
  deriving DecidableEq

namespace Statuses

variable (statuses : Statuses)

/-- `save` of a section with a status. -/
def saveSection (sec : ℕ) (status : ℤ) : Statuses :=
  if sec < statuses.sections.length then
    let sections := statuses.sections.set sec status
    if ∀ other ∈ sections, other = status then ⟨status, sections⟩
    else ⟨statuses.parentClass, sections⟩
  else statuses

/-- The sections that a test selects are saved with a status, one after the other. -/
def saveSections (selects : ℤ → Bool) (status : ℤ) : Statuses :=
  (List.range statuses.sections.length).foldl
    (fun statuses sec => if statuses.sections[sec]?.any selects then statuses.saveSection sec status
      else statuses) statuses

/-- `set_all_sections_to_status` passes over cancelled and rejected sections, unless there is
only one section. -/
def skips (status : ℤ) : Bool :=
  decide (1 < statuses.sections.length) &&
    (decide (status = ClassStatus.CANCELLED) || decide (status = ClassStatus.REJECTED))

/-- `set_all_sections_to_status`, with its default arguments. -/
def setAllSectionsToStatus (status : ℤ) : Statuses :=
  { statuses with parentClass := status }.saveSections (fun old => !statuses.skips old) status

def accept : Statuses :=
  if 0 < statuses.parentClass then statuses
  else statuses.setAllSectionsToStatus ClassStatus.ACCEPTED

def propose : Statuses := statuses.setAllSectionsToStatus ClassStatus.UNREVIEWED

def reject : Statuses := statuses.setAllSectionsToStatus ClassStatus.REJECTED

/-- `cancel` of a section. -/
def cancelSection (sec : ℕ) : Statuses := statuses.saveSection sec ClassStatus.CANCELLED

def cancel : Statuses :=
  { statuses.saveSections (fun old => decide (old ≠ ClassStatus.CANCELLED)) ClassStatus.CANCELLED
    with parentClass := ClassStatus.CANCELLED }

def step : StatusChange → Statuses
  | .accept => statuses.accept
  | .propose => statuses.propose
  | .reject => statuses.reject
  | .cancel => statuses.cancel
  | .saveSection sec status => statuses.saveSection sec status
  | .cancelSection sec => statuses.cancelSection sec

def Share (status : ℤ) : Prop :=
  statuses.sections ≠ [] ∧ ∀ other ∈ statuses.sections, other = status

/-- If all sections share a status, the class has it too. -/
def Coherent : Prop := ∀ status, statuses.Share status → statuses.parentClass = status

/-- Several sections that are all cancelled, or all rejected, get no other status through their
class. -/
def Keeps (change : StatusChange) : Prop :=
  match change with
  | .accept | .propose => 1 < statuses.sections.length →
      ¬statuses.Share ClassStatus.CANCELLED ∧ ¬statuses.Share ClassStatus.REJECTED
  | .reject => 1 < statuses.sections.length → ¬statuses.Share ClassStatus.CANCELLED
  | .cancel | .saveSection _ _ | .cancelSection _ => True

variable {statuses} {sec : ℕ} {status : ℤ} {selects : ℤ → Bool}

/-! ## Saving sections -/

theorem sections_saveSection :
    (statuses.saveSection sec status).sections = statuses.sections.set sec status := by
  rw [saveSection]
  split
  next =>
    dsimp only
    split
    · rfl
    · rfl
  next outside => exact (List.set_eq_of_length_le (not_lt.mp outside)).symm

theorem parentClass_saveSection :
    (statuses.saveSection sec status).parentClass = statuses.parentClass ∨
      (statuses.saveSection sec status).parentClass = status := by
  rw [saveSection]
  split
  next =>
    dsimp only
    split
    · exact Or.inr rfl
    · exact Or.inl rfl
  next => exact Or.inl rfl

theorem coherent_saveSection (coherent : statuses.Coherent) :
    (statuses.saveSection sec status).Coherent := by
  intro shared share
  rw [Share, sections_saveSection] at share
  rw [saveSection]
  split
  next inside =>
    have saved := share.2 status (List.mem_set inside status)
    dsimp only
    rw [if_pos fun other isOther => (share.2 other isOther).trans saved.symm]
    exact saved
  next outside =>
    rw [List.set_eq_of_length_le (not_lt.mp outside)] at share
    exact coherent shared share

theorem sections_foldl_saveSection {count : ℕ} (inside : count ≤ statuses.sections.length) :
    ((List.range count).foldl (fun statuses sec =>
      if statuses.sections[sec]?.any selects then statuses.saveSection sec status
      else statuses) statuses).sections =
        (statuses.sections.take count).map (fun old => if selects old then status else old) ++
          statuses.sections.drop count := by
  induction count with
  | zero => simp
  | succ count ih =>
      have before : count < statuses.sections.length := inside
      have sections := ih before.le
      have length : ((statuses.sections.take count).map fun old =>
          if selects old then status else old).length = count := by
        simp [before.le]
      rw [List.range_succ, List.foldl_append, List.foldl_cons, List.foldl_nil]
      rw [List.drop_eq_getElem_cons before] at sections
      have here : ((statuses.sections.take count).map (fun old => if selects old then status else old)
          ++ statuses.sections[count] :: statuses.sections.drop (count + 1))[count]? =
            some statuses.sections[count] := by
        rw [List.getElem?_append_right length.le, length, Nat.sub_self, List.getElem?_cons_zero]
      rw [← sections] at here
      rw [here, Option.any_some, List.take_succ_eq_append_getElem before, List.map_append,
        List.map_singleton, List.append_assoc, List.singleton_append]
      split
      next selected =>
        rw [sections_saveSection, sections, List.set_append_right _ _ length.le, length,
          Nat.sub_self, List.set_cons_zero]
      next => exact sections

theorem sections_saveSections : (statuses.saveSections selects status).sections =
    statuses.sections.map fun old => if selects old then status else old := by
  rw [saveSections, sections_foldl_saveSection le_rfl, List.take_length, List.drop_length,
    List.append_nil]

theorem parentClass_saveSections (same : statuses.parentClass = status) :
    (statuses.saveSections selects status).parentClass = status := by
  rw [saveSections]
  refine List.foldlRecOn (motive := fun statuses : Statuses => statuses.parentClass = status) _ _ same
    fun between holds sec _ => ?_
  split
  next => exact parentClass_saveSection.elim (fun kept => kept.trans holds) id
  next => exact holds

/-! ## Operations -/

theorem setAllSectionsToStatus_eq : statuses.setAllSectionsToStatus status =
    ⟨status, statuses.sections.map fun old => if statuses.skips old then old else status⟩ := by
  ext1
  · exact parentClass_saveSections rfl
  · rw [setAllSectionsToStatus, sections_saveSections]
    refine List.map_congr_left fun old _ => ?_
    cases statuses.skips old <;> rfl

theorem cancel_eq : statuses.cancel =
    ⟨ClassStatus.CANCELLED, statuses.sections.map fun _ => ClassStatus.CANCELLED⟩ := by
  rw [cancel, sections_saveSections]
  congr 1
  refine List.map_congr_left fun old _ => ?_
  by_cases cancelled : old = ClassStatus.CANCELLED
  · simp [cancelled]
  · simp [cancelled]

theorem coherent_setAllSectionsToStatus_iff :
    (statuses.setAllSectionsToStatus status).Coherent ↔
      ∀ shared, statuses.Share shared → statuses.skips shared = true → status = shared := by
  rw [setAllSectionsToStatus_eq]
  constructor
  · intro coherent shared share skipped
    refine coherent shared ⟨by simpa using share.1, fun other isOther => ?_⟩
    rcases List.mem_map.mp isOther with ⟨old, isOld, rfl⟩
    rw [share.2 old isOld, if_pos skipped]
  · intro same shared share
    by_contra different
    have kept : ∀ old ∈ statuses.sections, statuses.skips old = true ∧ old = shared := by
      intro old isOld
      have become := share.2 _ (List.mem_map_of_mem isOld)
      cases skipped : statuses.skips old with
      | true =>
          rw [if_pos skipped] at become
          exact ⟨rfl, become⟩
      | false =>
          rw [if_neg (by simp [skipped])] at become
          exact absurd become different
    have nonempty : statuses.sections ≠ [] := by
      intro none
      exact share.1 (by simp [none])
    rcases List.exists_mem_of_ne_nil _ nonempty with ⟨old, isOld⟩
    have skipped := (kept old isOld).1
    rw [(kept old isOld).2] at skipped
    exact different (same shared ⟨nonempty, fun old isOld => (kept old isOld).2⟩ skipped)

theorem skips_iff : statuses.skips status = true ↔ 1 < statuses.sections.length ∧
    (status = ClassStatus.CANCELLED ∨ status = ClassStatus.REJECTED) := by
  simp [skips]

theorem parentClass_nonpos (coherent : statuses.Coherent) (share : statuses.Share status)
    (skipped : statuses.skips status = true) : ¬0 < statuses.parentClass := by
  rw [coherent status share]
  rcases (skips_iff.mp skipped).2 with rfl | rfl
  · decide
  · decide

theorem forall_passed_iff (notCancelled : status ≠ ClassStatus.CANCELLED)
    (notRejected : status ≠ ClassStatus.REJECTED) :
    (∀ shared, statuses.Share shared → statuses.skips shared = true → status = shared) ↔
      (1 < statuses.sections.length →
        ¬statuses.Share ClassStatus.CANCELLED ∧ ¬statuses.Share ClassStatus.REJECTED) := by
  constructor
  · intro same several
    constructor
    · intro share
      exact notCancelled (same _ share (skips_iff.mpr ⟨several, .inl rfl⟩))
    · intro share
      exact notRejected (same _ share (skips_iff.mpr ⟨several, .inr rfl⟩))
  · intro keeps shared share skipped
    rcases skips_iff.mp skipped with ⟨several, rfl | rfl⟩
    · exact absurd share (keeps several).1
    · exact absurd share (keeps several).2

theorem coherent_step_iff (coherent : statuses.Coherent) (change : StatusChange) :
    (statuses.step change).Coherent ↔ statuses.Keeps change := by
  cases change with
  | accept =>
      rw [step, accept, Keeps]
      split
      next accepted =>
        refine iff_of_true coherent fun several => ⟨fun share => ?_, fun share => ?_⟩
        · exact parentClass_nonpos coherent share (skips_iff.mpr ⟨several, .inl rfl⟩) accepted
        · exact parentClass_nonpos coherent share (skips_iff.mpr ⟨several, .inr rfl⟩) accepted
      next =>
        rw [coherent_setAllSectionsToStatus_iff]
        exact forall_passed_iff (by decide) (by decide)
  | propose =>
      rw [step, propose, Keeps, coherent_setAllSectionsToStatus_iff]
      exact forall_passed_iff (by decide) (by decide)
  | reject =>
      rw [step, reject, Keeps, coherent_setAllSectionsToStatus_iff]
      constructor
      · intro same several share
        exact absurd (same _ share (skips_iff.mpr ⟨several, .inl rfl⟩)) (by decide)
      · intro keeps shared share skipped
        rcases skips_iff.mp skipped with ⟨several, rfl | rfl⟩
        · exact absurd share (keeps several)
        · rfl
  | cancel =>
      rw [step, cancel_eq]
      refine iff_of_true (fun shared share => ?_) trivial
      rcases List.exists_mem_of_ne_nil _ share.1 with ⟨other, isOther⟩
      rcases List.mem_map.mp isOther with ⟨_, _, rfl⟩
      exact share.2 _ isOther
  | saveSection sec status => exact iff_of_true (coherent_saveSection coherent) trivial
  | cancelSection sec => exact iff_of_true (coherent_saveSection coherent) trivial

theorem throughout_steps_iff (coherent : statuses.Coherent) (changes : List StatusChange) :
    Throughout step Coherent statuses changes ↔ AtEach step Keeps statuses changes := by
  have steps : ∀ (statuses : Statuses) change, True → statuses.Coherent → True → True ∧
      ((step statuses change).Coherent ↔ Keeps statuses change) :=
    fun statuses change _ coherent _ => ⟨trivial, coherent_step_iff coherent change⟩
  exact throughout_iff steps trivial coherent fun _ _ _ => trivial

instance Share.decidable (status : ℤ) : Decidable (statuses.Share status) :=
  inferInstanceAs (Decidable (_ ∧ _))

/-- The class has the status that its sections share throughout a run, exactly if it had it before
and several sections that were all cancelled, or all rejected, never got another status through
their class. -/
theorem throughout_coherent_iff (statuses : Statuses) (changes : List StatusChange) :
    Throughout step Coherent statuses changes ↔
      statuses.Coherent ∧ AtEach step Keeps statuses changes := by
  constructor
  · intro coherent
    refine ⟨coherent.start, ?_⟩
    exact (throughout_steps_iff coherent.start changes).mp coherent
  · intro meets
    exact (throughout_steps_iff meets.1 changes).mpr meets.2

namespace Sample

/-- Two sections, cancelled with their class, which is then accepted: no section is, but the class
has the status of accepted classes. -/
theorem cancelled_accepted :
    ¬Throughout step Coherent ⟨ClassStatus.UNREVIEWED, [ClassStatus.UNREVIEWED,
      ClassStatus.UNREVIEWED]⟩ [StatusChange.cancel, StatusChange.accept] := by
  intro coherent
  have accepted := coherent [.cancel, .accept] (List.prefix_refl _) ClassStatus.CANCELLED (by decide)
  exact absurd accepted (by decide)

end Sample

end Statuses

end EspWebsite.ClassReg
