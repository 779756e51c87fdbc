import Mathlib

/-!
# Patterns with captures

A regular expression tries the ways to match a text one after the other and keeps the first that
goes through.  A pattern lists the ways that there are at the start of a text, in this order.
-/

namespace Patterns

/-- The ways to match at the start of a text: what each one captures and what is left over. -/
def Pattern (α : Type) : Type := List Char → List (α × List Char)

namespace Pattern

variable {α β γ : Type}

instance : Monad Pattern where
  pure value text := [(value, text)]
  bind pattern next text := (pattern text).flatMap fun way => next way.1 way.2

instance : LawfulMonad Pattern :=
  LawfulMonad.mk' Pattern (fun pattern => funext fun text => List.flatMap_singleton' (pattern text))
    (fun value next => funext fun text =>
      List.flatMap_singleton (fun way : _ × List Char => next way.1 way.2) (value, text))
    (fun _ _ _ => funext fun _ => List.flatMap_assoc)

/-- The way that is kept. -/
def first (pattern : Pattern α) (text : List Char) : Option (α × List Char) :=
  (pattern text).head?

/-- `re.match`. -/
def «match» (pattern : Pattern α) (text : List Char) : Option α :=
  (pattern.first text).map Prod.fst

/-- A fixed text. -/
def literal (expected : List Char) : Pattern Unit := fun text =>
  if expected <+: text then [((), text.drop expected.length)] else []

/-- `(pattern)?`. -/
def optional (pattern : Pattern α) : Pattern (Option α) := fun text =>
  (pattern text).map (fun way => (some way.1, way.2)) ++ [(none, text)]

/-- `(.+?)`, where a dot is no line feed. -/
def reluctant : Pattern (List Char)
  | [] => []
  | char :: text =>
      if char = '\n' then []
      else ([char], text) :: (reluctant text).map fun way => (char :: way.1, way.2)

/-- `(.+)`, which tries the longest text first. -/
def greedy : Pattern (List Char) := fun text => (reluctant text).reverse

/-- `$`, which is also before a line feed at the end. -/
def atEnd : Pattern Unit := fun text => if text = [] ∨ text = ['\n'] then [((), text)] else []

variable {pattern : Pattern α} {next : α → Pattern β} {text rest : List Char}
  {result : β × List Char} {value : α}

theorem first_bind :
    (pattern >>= next).first text =
      (pattern text).findSome? fun way => (next way.1).first way.2 :=
  List.head?_flatMap

@[simp] theorem first_pure : (pure value : Pattern α).first text = some (value, text) := rfl

/-! ## What is kept -/

theorem match_eq_some : pattern.match text = some value ↔
    ∃ rest, pattern.first text = some (value, rest) := by
  simp [Pattern.match]

theorem first_literal_bind {expected : List Char} {next : Unit → Pattern β} :
    (literal expected >>= next).first text = some result ↔
      ∃ rest, text = expected ++ rest ∧ (next ()).first rest = some result := by
  rw [first_bind, literal]
  split
  next starts =>
    obtain ⟨rest, rfl⟩ := starts
    simp
  next differs =>
    simp only [List.findSome?_nil, reduceCtorEq, false_iff]
    rintro ⟨rest, rfl, -⟩
    exact differs (List.prefix_append _ _)

theorem first_atEnd_bind {next : Unit → Pattern β} :
    (atEnd >>= next).first text = some result ↔
      (text = [] ∨ text = ['\n']) ∧ (next ()).first text = some result := by
  rw [first_bind, atEnd]
  split <;> simp_all

theorem first_optional_bind {next : Option α → Pattern β} :
    (optional pattern >>= next).first text = some result ↔
      (pattern >>= fun value => next (some value)).first text = some result ∨
        (pattern >>= fun value => next (some value)).first text = none ∧
          (next none).first text = some result := by
  simp only [first_bind, optional, List.findSome?_append, List.findSome?_map,
    List.findSome?_singleton, Option.or_eq_some_iff]
  rfl

theorem mem_reluctant {captured : List Char} :
    (captured, rest) ∈ reluctant text ↔
      text = captured ++ rest ∧ captured ≠ [] ∧ '\n' ∉ captured := by
  induction text generalizing captured with
  | nil => simp +contextual [reluctant]
  | cons char text ih =>
      cases captured with
      | nil =>
          rw [reluctant]
          split <;> simp
      | cons other captured =>
          rw [reluctant]
          split
          next isEnd =>
            simp [isEnd]
            grind
          next notEnd =>
            simp [ih]
            grind

theorem pairwise_reluctant :
    (reluctant text).Pairwise fun way other => way.1.length < other.1.length := by
  induction text with
  | nil => exact .nil
  | cons char text ih =>
      rw [reluctant]
      split
      · exact .nil
      · refine List.pairwise_cons.mpr ⟨?_, by simpa [List.pairwise_map] using ih⟩
        simp only [List.mem_map]
        rintro _ ⟨way, isWay, rfl⟩
        have := (mem_reluctant.mp isWay).2.1
        simpa [Nat.pos_iff_ne_zero] using this

theorem mem_greedy {captured : List Char} :
    (captured, rest) ∈ greedy text ↔
      text = captured ++ rest ∧ captured ≠ [] ∧ '\n' ∉ captured :=
  List.mem_reverse.trans mem_reluctant

theorem pairwise_greedy :
    (greedy text).Pairwise fun way other => other.1.length < way.1.length :=
  List.pairwise_reverse.mpr pairwise_reluctant

theorem findSome?_eq_some_of_pairwise {before : α → α → Prop} [Std.Asymm before] {ways : List α}
    (sorted : ways.Pairwise before) {find : α → Option β} {found : β} :
    ways.findSome? find = some found ↔
      ∃ way ∈ ways, find way = some found ∧
        ∀ other ∈ ways, before other way → find other = none := by
  rw [List.findSome?_eq_some_iff]
  constructor
  · rintro ⟨earlier, way, later, rfl, isFound, none⟩
    refine ⟨way, by simp, isFound, fun other isOther isBefore => ?_⟩
    have after := (List.pairwise_cons.mp (List.pairwise_append.mp sorted).2.1).1
    rcases List.mem_append.mp isOther with isEarlier | isLater
    · exact none other isEarlier
    · rcases List.mem_cons.mp isLater with rfl | isLater
      · exact absurd isBefore (Std.Asymm.asymm _ _ isBefore)
      · exact absurd isBefore (Std.Asymm.asymm _ _ (after other isLater))
  · rintro ⟨way, isWay, isFound, none⟩
    obtain ⟨earlier, later, rfl⟩ := List.append_of_mem isWay
    refine ⟨earlier, way, later, rfl, isFound,
      fun other isOther => none other (by simp [isOther]) ?_⟩
    exact (List.pairwise_append.mp sorted).2.2 other isOther way List.mem_cons_self

instance : Std.Asymm fun way other : List Char × List Char => way.1.length < other.1.length :=
  ⟨fun _ _ => Nat.lt_asymm⟩

instance : Std.Asymm fun way other : List Char × List Char => other.1.length < way.1.length :=
  ⟨fun _ _ => Nat.lt_asymm⟩

/-- What `(.+?)` keeps: nothing shorter goes through. -/
theorem first_reluctant_bind {next : List Char → Pattern β} :
    (reluctant >>= next).first text = some result ↔
      ∃ captured rest, text = captured ++ rest ∧ captured ≠ [] ∧ '\n' ∉ captured ∧
        (next captured).first rest = some result ∧
        ∀ shorter rest, text = shorter ++ rest → shorter ≠ [] →
          shorter.length < captured.length → (next shorter).first rest = none := by
  simp only [first_bind, findSome?_eq_some_of_pairwise pairwise_reluctant, Prod.exists,
    Prod.forall, mem_reluctant]
  constructor
  · rintro ⟨captured, rest, ⟨rfl, some, line⟩, goesThrough, none⟩
    refine ⟨captured, rest, rfl, some, line, goesThrough,
      fun shorter other isOther some' isShorter =>
        none shorter other ⟨isOther, some', fun isEnd => line ?_⟩ isShorter⟩
    have starts : shorter <+: captured :=
      List.prefix_of_prefix_length_le ⟨other, isOther.symm⟩ (List.prefix_append _ _) isShorter.le
    exact starts.subset isEnd
  · rintro ⟨captured, rest, rfl, some, line, goesThrough, none⟩
    exact ⟨captured, rest, ⟨rfl, some, line⟩, goesThrough,
      fun shorter other isOther isShorter => none shorter other isOther.1 isOther.2.1 isShorter⟩

/-- What `(.+)` keeps: nothing longer goes through. -/
theorem first_greedy_bind {next : List Char → Pattern β} :
    (greedy >>= next).first text = some result ↔
      ∃ captured rest, text = captured ++ rest ∧ captured ≠ [] ∧ '\n' ∉ captured ∧
        (next captured).first rest = some result ∧
        ∀ longer rest, text = longer ++ rest → '\n' ∉ longer →
          captured.length < longer.length → (next longer).first rest = none := by
  simp only [first_bind, findSome?_eq_some_of_pairwise pairwise_greedy, Prod.exists,
    Prod.forall, mem_greedy]
  constructor
  · rintro ⟨captured, rest, ⟨rfl, some, line⟩, goesThrough, none⟩
    refine ⟨captured, rest, rfl, some, line, goesThrough, fun longer other isOther same isLonger =>
      none longer other ⟨isOther, ?_, same⟩ isLonger⟩
    rintro rfl
    cases isLonger
  · rintro ⟨captured, rest, rfl, some, line, goesThrough, none⟩
    exact ⟨captured, rest, ⟨rfl, some, line⟩, goesThrough,
      fun longer other isOther isLonger => none longer other isOther.1 isOther.2.2 isLonger⟩

theorem line_inj {line other ending rest : List Char} (isLine : '\n' ∉ line)
    (otherLine : '\n' ∉ other) (isEnding : ending = [] ∨ ending = ['\n'])
    (isRest : rest = [] ∨ rest = ['\n']) (same : line ++ ending = other ++ rest) :
    line = other := by
  rcases isEnding with rfl | rfl <;> rcases isRest with rfl | rfl
  · simpa using same
  · rw [List.append_nil] at same
    simp [same] at isLine
  · rw [List.append_nil] at same
    simp [← same] at otherLine
  · exact List.append_cancel_right same

theorem first_line_bind {next : List Char → Pattern β} :
    (greedy >>= fun line => atEnd >>= fun _ => next line).first text = some result ↔
      ∃ line ending, text = line ++ ending ∧ line ≠ [] ∧ '\n' ∉ line ∧
        (ending = [] ∨ ending = ['\n']) ∧ (next line).first ending = some result := by
  simp only [first_greedy_bind, first_atEnd_bind]
  constructor
  · rintro ⟨line, ending, rfl, some, isLine, ⟨isEnding, goesThrough⟩, -⟩
    exact ⟨line, ending, rfl, some, isLine, isEnding, goesThrough⟩
  · rintro ⟨line, ending, rfl, some, isLine, isEnding, goesThrough⟩
    refine ⟨line, ending, rfl, some, isLine, ⟨isEnding, goesThrough⟩,
      fun longer rest same alsoLine isLonger =>
        Option.eq_none_iff_forall_ne_some.mpr fun other => ?_⟩
    rw [Ne, first_atEnd_bind]
    rintro ⟨isRest, -⟩
    exact absurd isLonger (line_inj isLine alsoLine isEnding isRest same ▸ lt_irrefl _)

end Pattern

end Patterns
