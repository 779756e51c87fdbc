import EspWebsite.Registration.Calls

/-!
# Open registrations

The registrations as enrolled that have no end.  After the last call they are the valid ones,
and registering and unregistering change them as one would expect.
-/

namespace EspWebsite.Registration

namespace Database

/-- The student has a registration as enrolled in the section that has no end. -/
def IsOpen (db : Database) (user sec : ℕ) : Prop :=
  ∃ row ∈ db.registrations, row.user = user ∧ row.classSection = sec ∧
    row.relationship = "Enrolled" ∧ row.endDate = none

variable {db : Database} {user other sec another : ℕ} {verb : String} {now : DateTime}
  {condition : StudentRegistration → Bool}

theorem isOpen_register :
    (db.register sec user now verb).IsOpen other another ↔
      db.IsOpen other another ∨ user = other ∧ sec = another ∧ verb = "Enrolled" := by
  constructor
  · intro isOpen
    rcases isOpen with ⟨row, isRow, ofUser, ofSection, enrolled, endless⟩
    rcases List.mem_append.mp isRow with isOld | isNew
    · exact .inl ⟨row, isOld, ofUser, ofSection, enrolled, endless⟩
    · rw [List.mem_singleton.mp isNew] at ofUser ofSection enrolled
      exact .inr ⟨ofUser, ofSection, enrolled⟩
  · intro either
    rcases either with isOpen | ⟨ofUser, ofSection, enrolled⟩
    · rcases isOpen with ⟨row, isRow, rest⟩
      exact ⟨row, List.mem_append_left _ isRow, rest⟩
    · exact ⟨_, List.mem_append_right _ (List.mem_singleton_self _), ofUser, ofSection, enrolled,
        rfl⟩

theorem isOpen_expire :
    (db.expire now condition).IsOpen other another ↔
      ∃ row ∈ db.registrations, row.user = other ∧ row.classSection = another ∧
        row.relationship = "Enrolled" ∧ row.endDate = none ∧ condition row = false := by
  constructor
  · intro isOpen
    rcases isOpen with ⟨row, isRow, rest⟩
    rcases List.mem_map.mp isRow with ⟨old, isOld, rfl⟩
    cases selected : condition old with
    | true => simp [selected] at rest
    | false =>
        simp only [selected, Bool.false_eq_true, if_false] at rest
        exact ⟨old, isOld, rest.1, rest.2.1, rest.2.2.1, rest.2.2.2, selected⟩
  · intro isOpen
    rcases isOpen with ⟨row, isRow, ofUser, ofSection, enrolled, endless, free⟩
    refine ⟨row, List.mem_map.mpr ⟨row, isRow, ?_⟩, ofUser, ofSection, enrolled, endless⟩
    rw [free, if_neg Bool.false_ne_true]

theorem isOpen_congr {left right : Database} (same : left.registrations = right.registrations) :
    left.IsOpen user sec ↔ right.IsOpen user sec := by
  rw [IsOpen, IsOpen, same]

end Database

section Rows

variable {site : Site} {db : Database} {user other sec another : ℕ} {now : DateTime}
  {options : Options} {moment : Moment} {concerns : ℕ → ℕ → String → Prop}

theorem Settled.mem_students_iff (settled : Settled concerns moment)
    (isConcerned : concerns user sec "Enrolled") (later : moment.last < now) :
    user ∈ moment.db.students sec "Enrolled" now ↔
      moment.db.IsOpen user sec := by
  rw [Database.mem_students]
  constructor
  · intro enrolled
    rcases enrolled with ⟨row, isRow, valid, rfl, verb, rfl⟩
    rw [← verb] at isConcerned
    exact ⟨row, isRow, rfl, rfl, verb, (settled.isValid_iff isRow isConcerned later).mp valid⟩
  · intro isOpen
    rcases isOpen with ⟨row, isRow, rfl, rfl, verb, endless⟩
    rw [← verb] at isConcerned
    exact ⟨row, isRow, (settled.isValid_iff isRow isConcerned later).mpr endless, rfl, verb, rfl⟩

theorem isOpen_annotate :
    (Site.annotate db sec user now options).IsOpen other another ↔
      db.IsOpen other another := by
  rw [Site.annotate]
  split
  next =>
    rw [Database.isOpen_register]
    exact or_iff_left fun enrolled => absurd enrolled.2.2 (by decide)
  next =>
    split
    next =>
      rw [Database.isOpen_register]
      exact or_iff_left fun enrolled => absurd enrolled.2.2 (by decide)
    next => rfl

theorem isOpen_addRegistrations
    (opens : user = other → site.verb sec options = "Enrolled" →
      user ∈ db.students sec "Enrolled" now → db.IsOpen user sec) :
    (site.addRegistrations db sec user now options).IsOpen other another ↔
      db.IsOpen other another ∨
        user = other ∧ sec = another ∧ site.verb sec options = "Enrolled" := by
  rw [Site.addRegistrations]
  split
  next => exact Database.isOpen_register
  next =>
    split
    next already =>
      rcases List.any_eq_true.mp already with ⟨row, isRow, verb⟩
      refine (or_iff_left_of_imp ?_).symm
      intro enrolls
      rcases enrolls with ⟨sameUser, sameSection, enrolled⟩
      rw [← sameUser, ← sameSection]
      refine opens sameUser enrolled (Database.mem_students_iff_exists_getRegistrations.mpr ?_)
      exact ⟨row, isRow, (of_decide_eq_true verb).trans enrolled⟩
    next => exact isOpen_annotate.trans Database.isOpen_register

theorem isOpen_unpreregisterStudent {verbs : List String}
    (covers : verbs = [] ∨ "Enrolled" ∈ verbs)
    (started : user = other → ∀ row ∈ db.registrations, row.user = user →
      row.classSection = sec → row.relationship = "Enrolled" → row.endDate = none →
        row.isValid now = true) :
    (site.unpreregisterStudent db sec user now verbs).IsOpen other another ↔
      db.IsOpen other another ∧ ¬(user = other ∧ sec = another) := by
  rw [Database.isOpen_congr registrations_unpreregisterStudent, Database.isOpen_expire]
  constructor
  · intro isOpen
    rcases isOpen with ⟨row, isRow, ofUser, ofSection, verb, endless, free⟩
    refine ⟨⟨row, isRow, ofUser, ofSection, verb, endless⟩, fun leaves => ?_⟩
    have valid := started leaves.1 row isRow (ofUser.trans leaves.1.symm)
      (ofSection.trans leaves.2.symm) verb endless
    have concerned : Database.concerns sec user now verbs row = true := by
      rw [Database.concerns, valid, decide_eq_true (ofSection.trans leaves.2.symm),
        decide_eq_true (ofUser.trans leaves.1.symm), verb]
      rcases covers with rfl | covered
      · rfl
      · rw [decide_eq_true covered, Bool.or_true]
        rfl
    rw [concerned] at free
    cases free
  · intro isOpen
    rcases isOpen with ⟨⟨row, isRow, ofUser, ofSection, verb, endless⟩, stays⟩
    refine ⟨row, isRow, ofUser, ofSection, verb, endless, Bool.eq_false_of_not_eq_true ?_⟩
    intro leaves
    simp only [Database.concerns, Bool.and_eq_true, decide_eq_true_eq] at leaves
    exact stays ⟨leaves.1.2.symm.trans ofUser, leaves.1.1.2.symm.trans ofSection⟩

end Rows

end EspWebsite.Registration
