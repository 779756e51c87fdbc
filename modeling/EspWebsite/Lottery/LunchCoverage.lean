import EspWebsite.Lottery.Attendance

/-!
# Who goes without lunch

A student who is passed over has no free lunch period with a lunch section that has room.
Lunches only fill sections and schedules, so this is still so when all have been given out.
-/

namespace EspWebsite.Lottery.LotteryAssignmentController

open Python Loops Draws

variable {Weight : Type} {c : LotteryAssignmentController Weight} {state : c.State}
  {lunch between after : c.LunchState} {student : c.Student} {periods : List c.Timeslot}

/-! ## Lunches only add -/

/-- Sections, schedules and counts only grow. -/
structure Grown (lunch after : c.LunchState) : Prop where
  sections : ∀ student sec, lunch.1.studentSections student sec = true →
    after.1.studentSections student sec = true
  schedules : ∀ student ts, lunch.1.studentSchedules student ts = true →
    after.1.studentSchedules student ts = true
  counts : ∀ sec, lunch.2 sec ≤ after.2 sec

theorem Grown.refl (lunch : c.LunchState) : Grown lunch lunch :=
  ⟨fun _ _ held => held, fun _ _ busy => busy, fun _ => Nat.le_refl _⟩

theorem Grown.trans (first : Grown lunch between) (second : Grown between after) :
    Grown lunch after := by
  refine ⟨?_, ?_, ?_⟩
  · intro student sec held
    exact second.sections student sec (first.sections student sec held)
  · intro student ts busy
    exact second.schedules student ts (first.schedules student ts busy)
  · intro sec
    exact (first.counts sec).trans (second.counts sec)

theorem grown_assignLunch (returns : assignLunch periods student lunch = .ok after) :
    Grown lunch after := by
  rw [assignLunch] at returns
  split at returns
  · cases returns
    exact .refl lunch
  · rename_i sec source _
    cases returns
    refine ⟨?_, ?_, ?_⟩
    · intro other held member
      exact giveLunch_sections.mpr (.inr member)
    · intro other ts busy
      exact giveLunch_schedules.mpr (.inr busy)
    · intro other
      change lunch.2 other ≤ Function.update lunch.2 sec (lunch.2 sec + 1) other
      by_cases same : other = sec
      · subst same
        rw [Function.update_self]
        exact Nat.le_succ _
      · rw [Function.update_of_ne same]

/-! ## Students who have been seen to -/

/-- A student has a lunch section in one of the periods, or the lunch sections are full in
all those in which he is free. -/
def Served (periods : List c.Timeslot) (student : c.Student) (lunch : c.LunchState) : Prop :=
  hasLunch lunch.1 periods student = true ∨
    ∀ ts ∈ periods, lunch.1.studentSchedules student ts = false →
      ∀ sec ∈ c.lunchSectionsByTimeslot ts, c.sectionCapacities sec ≤ lunch.2 sec

theorem hasLunch_iff : hasLunch state periods student = true ↔
    ∃ ts ∈ periods, ∃ sec ∈ c.lunchSectionsByTimeslot ts,
      state.studentSections student sec = true := by
  simp only [hasLunch, List.any_eq_true]

theorem Served.grown (served : Served periods student lunch) (grown : Grown lunch after) :
    Served periods student after := by
  rcases served with given | full
  · rcases hasLunch_iff.mp given with ⟨ts, inPeriods, sec, meets, held⟩
    exact .inl (hasLunch_iff.mpr
      ⟨ts, inPeriods, sec, meets, grown.sections student sec held⟩)
  · right
    intro ts inPeriods free sec meets
    have freeBefore : lunch.1.studentSchedules student ts = false := by
      rw [Bool.eq_false_iff]
      intro busy
      rw [grown.schedules student ts busy] at free
      cases free
    exact (full ts inPeriods freeBefore sec meets).trans (grown.counts sec)

theorem drawLeast_isSome {α : Type} {key : α → ℕ} {items : List α} {source : Source}
    (nonempty : items ≠ []) : (drawLeast key items source).isSome := by
  cases found : items.argmin key with
  | none => exact absurd (List.argmin_eq_none.mp found) nonempty
  | some least =>
      have member : least ∈ items.filter fun item =>
          items.all fun other => decide (key item ≤ key other) := by
        rw [List.mem_filter, List.all_eq_true]
        refine ⟨List.argmin_mem found, ?_⟩
        intro other listed
        exact decide_eq_true (List.le_of_mem_argmin listed found)
      have bound := Nat.mod_lt (source 0) (List.length_pos_of_mem member)
      rw [drawLeast, Option.isSome_map, Source.below, List.getElem?_eq_getElem bound]
      rfl

theorem lunchOptions_eq_nil (hungry : hasLunch lunch.1 periods student = false)
    (declined : chooseLunch lunch periods student = none) :
    lunchOptions lunch periods student = [] := by
  by_contra options
  rw [chooseLunch, hungry, if_neg Bool.false_ne_true, Option.bind_eq_bind,
    Option.bind_eq_none_iff] at declined
  rcases Option.isSome_iff_exists.mp (@drawLeast_isSome _
    (fun option => periodSize lunch.2 option.1) _ lunch.1.source options) with
    ⟨⟨option, rest⟩, drawn⟩
  have nonempty := (mem_lunchOptions.mp (mem_of_drawLeast drawn)).2.2.1
  have undrawn : drawLeast lunch.2 option.2 rest = none := declined _ drawn
  have given := @drawLeast_isSome _ lunch.2 _ rest nonempty
  rw [undrawn] at given
  cases given

theorem served_assignLunch (returns : assignLunch periods student lunch = .ok after) :
    Served periods student after := by
  rw [assignLunch] at returns
  cases choice : chooseLunch lunch periods student with
  | none =>
      rw [choice] at returns
      cases returns
      cases hungry : hasLunch lunch.1 periods student with
      | true => exact .inl hungry
      | false =>
          right
          intro ts inPeriods free sec meets
          have full : (c.lunchSectionsByTimeslot ts).filter
              (fun sec => decide (lunch.2 sec < c.sectionCapacities sec)) = [] := by
            by_contra room
            have option : (ts, _) ∈ lunchOptions lunch periods student :=
              mem_lunchOptions.mpr ⟨inPeriods, free, room, rfl⟩
            rw [lunchOptions_eq_nil hungry choice] at option
            cases option
          simpa using List.filter_eq_nil_iff.mp full sec meets
  | some chosen =>
      rw [choice] at returns
      cases returns
      have spec := chosen_of_chooseLunch choice
      rcases spec.free with ⟨ts, inPeriods, meets, -⟩
      left
      apply hasLunch_iff.mpr
      refine ⟨ts, inPeriods, chosen.1, ?_, giveLunch_sections.mpr (.inl ⟨rfl, rfl⟩)⟩
      rw [lunchSectionsByTimeslot, mem_nonzero, spec.isLunch, meets]
      rfl

/-! ## All students on all days -/

theorem grown_assignDay {attending : List c.Student} {day : List c.Timeslot}
    (returns : assignDay attending day lunch = .ok after) : Grown lunch after := by
  rw [assignDay] at returns
  split at returns
  · cases returns
    exact .refl lunch
  · apply forLoop_invariant (Grown lunch) _ _ returns
    · intro student _ between after grown step
      exact grown.trans (grown_assignLunch step)
    · exact ⟨fun _ _ held => held, fun _ _ busy => busy, fun _ => Nat.le_refl _⟩

theorem served_assignDay {attending : List c.Student} {day : List c.Timeslot}
    (returns : assignDay attending day lunch = .ok after) :
    ∀ student ∈ attending, Served (lunchPeriods day) student after := by
  rw [assignDay] at returns
  split at returns
  · rename_i none
    intro student _
    rw [none]
    exact .inr fun ts member => absurd member List.not_mem_nil
  · intro student member
    apply (forLoop_establishes (fun _ => True) (Served (lunchPeriods day)) _ trivial returns).2
      student (mem_lunchOrder.mpr member)
    intro student _ lunch after _ step
    refine ⟨trivial, served_assignLunch step, ?_⟩
    intro other served
    exact served.grown (grown_assignLunch step)

/-- After the main lottery, giving out lunches ends with every attending student having a
lunch section on each day that has any, unless all lunch sections are full in the lunch
periods of the day in which he is free.  No lunch section is over its capacity. -/
theorem assignLunches_serves (c : LotteryAssignmentController Weight) (source : Source)
    (state : c.State) (assigned : c.mainLottery source = .ok state) :
    ∃ final, assignLunches state = .ok final ∧
      (∀ student ∈ attendingStudents state, ∀ day ∈ c.lunchTimeslotIndices,
        lunchPeriods day ≠ [] →
          hasLunch final (lunchPeriods day) student = true ∨
            ∀ ts ∈ lunchPeriods day, final.studentSchedules student ts = false →
              ∀ sec ∈ c.lunchSectionsByTimeslot ts,
                enrollment final sec = c.sectionCapacities sec) ∧
      ∀ sec, c.isLunch sec = true → enrollment final sec ≤ c.sectionCapacities sec := by
  have lawful := (lawful_mainLottery source).1 state assigned
  rcases assignLunches_returns state with ⟨lunch, returns⟩
  rcases forLoop_establishes Counted
    (fun day lunch => ∀ student ∈ attendingStudents state,
      Served (lunchPeriods day) student lunch)
    (fun day _ before between kept step => ⟨(counted_assignDay kept step).1,
      served_assignDay step, fun other served student member =>
        (served student member).grown (grown_assignDay step)⟩)
    (counted_of_lawful lawful) returns with ⟨counted, served⟩
  refine ⟨lunch.1, ?_, ?_, fun sec _ => counted.capacity sec⟩
  · rw [assignLunches, returns]
    rfl
  · intro student member day listed _
    rcases served day listed student member with given | full
    · exact .inl given
    · right
      intro ts inPeriods free sec meets
      have taken := full ts inPeriods free sec meets
      rw [counted.counts] at taken
      exact Nat.le_antisymm (counted.capacity sec) taken

theorem assignLunches_serves_longLunch : ∃ state,
    longLunch.mainLottery (fun _ => 0) = .ok state ∧
      ∃ final, assignLunches state = .ok final ∧
        (∀ student ∈ attendingStudents state, ∀ day ∈ longLunch.lunchTimeslotIndices,
          lunchPeriods day ≠ [] →
            hasLunch final (lunchPeriods day) student = true ∨
              ∀ ts ∈ lunchPeriods day, final.studentSchedules student ts = false →
                ∀ sec ∈ longLunch.lunchSectionsByTimeslot ts,
                  enrollment final sec = longLunch.sectionCapacities sec) ∧
        ∀ sec, longLunch.isLunch sec = true →
          enrollment final sec ≤ longLunch.sectionCapacities sec := by
  rcases longLunch_assigned with ⟨state, assigned⟩
  exact ⟨state, assigned, assignLunches_serves longLunch (fun _ => 0) state assigned⟩

end EspWebsite.Lottery.LotteryAssignmentController
