import Mathlib

/-!
# Fields between separators

Texts of fields that end with a separator each, with one more separator in front.
-/

namespace Delimited

universe u v

variable {α : Type u} [DecidableEq α]

/-- `text.strip(separator)`. -/
def strip (separator : α) (text : List α) : List α :=
  (text.dropWhile fun char => char = separator).rdropWhile fun char => char = separator

/-- Fields with a separator after each. -/
def ended (separator : α) (fields : List (List α)) : List α :=
  fields.flatMap fun field => field ++ [separator]

/-- Fields with a separator after each and one in front. -/
def enclosed (separator : α) (fields : List (List α)) : List α :=
  separator :: ended separator fields

/-- A list without the empty lists at its ends. -/
def trim {β : Type v} (lists : List (List β)) : List (List β) :=
  (lists.dropWhile List.isEmpty).rdropWhile List.isEmpty

/-- There is a list with something in it, and no empty one between two of those. -/
def Together {β : Type v} (lists : List (List β)) : Prop :=
  trim lists ≠ [] ∧ [] ∉ trim lists

instance {β : Type v} [DecidableEq β] (lists : List (List β)) : Decidable (Together lists) :=
  inferInstanceAs (Decidable (_ ∧ _))

section Trim

variable {β : Type v} {γ : Type u} {lists : List (List β)}

theorem flatten_trim : (trim lists).flatten = lists.flatten := by
  have left (lists : List (List β)) :
      (lists.dropWhile List.isEmpty).flatten = lists.flatten := by
    induction lists with
    | nil => rfl
    | cons head rest ih =>
        cases head with
        | nil => exact ih
        | cons value values => rfl
  have right (lists : List (List β)) :
      (lists.rdropWhile List.isEmpty).flatten = lists.flatten := by
    induction lists using List.reverseRecOn with
    | nil => rfl
    | append_singleton rest last ih =>
        cases last with
        | nil =>
            rw [List.rdropWhile_concat_pos List.isEmpty rest [] rfl, ih, List.flatten_append,
              List.flatten_singleton, List.append_nil]
        | cons value values =>
            rw [List.rdropWhile_concat_neg List.isEmpty rest (value :: values) Bool.false_ne_true]
  rw [trim, right, left]

/-- Trimming before each list is replaced by some that are empty exactly if it is. -/
theorem trim_flatMap {replace : List β → List (List γ)} (empty : replace [] = [[]])
    (filled : ∀ list, list ≠ [] → replace list ≠ [] ∧ [] ∉ replace list) :
    trim (lists.flatMap replace) = (trim lists).flatMap replace := by
  have left (lists : List (List β)) : (lists.flatMap replace).dropWhile List.isEmpty =
      (lists.dropWhile List.isEmpty).flatMap replace := by
    induction lists with
    | nil => rfl
    | cons head rest ih =>
        cases head with
        | nil =>
            rw [List.flatMap_cons, empty]
            exact ih
        | cons value values =>
            have replaced := filled (value :: values) (List.cons_ne_nil _ _)
            rcases List.exists_cons_of_ne_nil replaced.1 with ⟨field, fields, isReplace⟩
            have nonempty : ¬field.isEmpty = true := by
              rw [List.isEmpty_iff]
              rintro rfl
              exact replaced.2 (isReplace ▸ List.mem_cons_self)
            rw [List.dropWhile_cons_of_neg Bool.false_ne_true, List.flatMap_cons, isReplace,
              List.cons_append, List.dropWhile_cons_of_neg nonempty]
  have right (lists : List (List β)) : (lists.flatMap replace).rdropWhile List.isEmpty =
      (lists.rdropWhile List.isEmpty).flatMap replace := by
    induction lists using List.reverseRecOn with
    | nil => rfl
    | append_singleton rest last ih =>
        rw [List.flatMap_append, List.flatMap_singleton]
        cases last with
        | nil =>
            rw [empty, List.rdropWhile_concat_pos _ _ _ rfl, ih,
              List.rdropWhile_concat_pos _ _ _ rfl]
        | cons value values =>
            have replaced := filled (value :: values) (List.cons_ne_nil _ _)
            rcases List.eq_nil_or_concat (replace (value :: values)) with
              none | ⟨fields, field, isReplace⟩
            · exact absurd none replaced.1
            rw [List.concat_eq_append] at isReplace
            have nonempty : ¬field.isEmpty = true := by
              rw [List.isEmpty_iff]
              rintro rfl
              refine replaced.2 ?_
              rw [isReplace]
              exact List.mem_append_right _ (List.mem_singleton_self _)
            rw [List.rdropWhile_concat_neg List.isEmpty rest (value :: values)
              Bool.false_ne_true, List.flatMap_append, List.flatMap_singleton, isReplace,
              ← List.append_assoc, List.rdropWhile_concat_neg _ _ _ nonempty]
  rw [trim, trim, left, right]

/-- Lists that stand together, before each is replaced by one field for each of its values. -/
theorem flatMap_trim {replace : List β → List (List γ)} {field : β → List γ}
    (filled : ∀ list, list ≠ [] → replace list = list.map field) (together : [] ∉ trim lists) :
    (trim lists).flatMap replace = lists.flatten.map field := by
  rw [← flatten_trim, List.map_flatten, ← List.flatMap_def]
  refine List.flatMap_congr fun list isList => filled list ?_
  rintro rfl
  exact together isList

end Trim

section Texts

variable {separator : α} {fields : List (List α)} {part field rest : List α}

omit [DecidableEq α] in
theorem ended_cons : ended separator (field :: fields) = field ++ enclosed separator fields := by
  rw [ended, List.flatMap_cons, List.append_assoc]
  rfl

omit [DecidableEq α] in
theorem ended_append {others : List (List α)} :
    ended separator (fields ++ others) = ended separator fields ++ ended separator others :=
  List.flatMap_append

omit [DecidableEq α] in
theorem ended_concat :
    ended separator (fields ++ [field]) = ended separator fields ++ field ++ [separator] := by
  rw [ended_append, ended_cons, List.append_assoc]
  rfl

omit [DecidableEq α] in
theorem intercalate_append (nonempty : fields ≠ []) :
    [separator].intercalate fields ++ [separator] = ended separator fields := by
  rcases List.exists_cons_of_ne_nil nonempty with ⟨first, rest, rfl⟩
  clear nonempty
  induction rest generalizing first with
  | nil => rw [List.intercalate_singleton, ended, List.flatMap_singleton]
  | cons second rest ih =>
      rw [List.intercalate_cons_cons, List.append_assoc, List.append_assoc, ih]
      exact ended_cons.symm

theorem eq_of_isPrefix (partHas : separator ∉ part) (fieldHas : separator ∉ field)
    (found : part ++ [separator] <+: field ++ separator :: rest) : part = field := by
  rcases found with ⟨after, same⟩
  have takes {text after : List α} (without : separator ∉ text) :
      (text ++ separator :: after).takeWhile (fun char => char ≠ separator) = text := by
    rw [List.takeWhile_append_of_pos, List.takeWhile_cons_of_neg (by simp), List.append_nil]
    intro char isChar
    rw [decide_eq_true_eq]
    rintro rfl
    exact without isChar
  rw [List.append_assoc, List.singleton_append] at same
  rw [← takes partHas, same, takes fieldHas]

omit [DecidableEq α] in
/-- What starts with a separator does not start inside a field. -/
theorem isInfix_append (fieldHas : separator ∉ field) :
    separator :: part <:+: field ++ rest ↔ separator :: part <:+: rest := by
  induction field with
  | nil => rfl
  | cons char field ih =>
      rw [List.mem_cons, not_or] at fieldHas
      rw [List.cons_append, List.infix_cons_iff, List.cons_prefix_cons, ih fieldHas.2]
      exact or_iff_right fun starts => fieldHas.1 starts.1

theorem isInfix_enclosed (partHas : separator ∉ part)
    (apart : ∀ field ∈ fields, separator ∉ field) :
    separator :: (part ++ [separator]) <:+: enclosed separator fields ↔ part ∈ fields := by
  induction fields with
  | nil =>
      refine ⟨fun found => ?_, fun isNil => absurd isNil List.not_mem_nil⟩
      have length := found.length_le
      simp [enclosed, ended] at length
  | cons field fields ih =>
      rw [List.forall_mem_cons] at apart
      have first : part ++ [separator] <+: field ++ enclosed separator fields ↔ part = field := by
        refine ⟨eq_of_isPrefix partHas apart.1, ?_⟩
        rintro rfl
        exact ⟨ended separator fields, by rw [enclosed, List.append_assoc]; rfl⟩
      rw [enclosed, ended_cons, List.infix_cons_iff, List.cons_prefix_cons,
        isInfix_append apart.1, ih apart.2, first, List.mem_cons, eq_self, true_and]

theorem dropWhile_ended (apart : ∀ field ∈ fields, separator ∉ field) :
    (ended separator fields).dropWhile (fun char => char = separator) =
      ended separator (fields.dropWhile List.isEmpty) := by
  induction fields with
  | nil => rfl
  | cons field fields ih =>
      rw [List.forall_mem_cons] at apart
      cases field with
      | nil =>
          rw [ended_cons, List.nil_append, enclosed, List.dropWhile_cons_of_pos (by simp),
            ih apart.2]
          rfl
      | cons char field =>
          have different : char ≠ separator := by
            rintro rfl
            exact apart.1 List.mem_cons_self
          rw [ended_cons, List.cons_append, List.dropWhile_cons_of_neg (by simpa using different),
            List.dropWhile_cons_of_neg Bool.false_ne_true, ended_cons, List.cons_append]

theorem rdropWhile_ended (apart : ∀ field ∈ fields, separator ∉ field) :
    (ended separator fields).rdropWhile (fun char => char = separator) =
      [separator].intercalate (fields.rdropWhile List.isEmpty) := by
  induction fields using List.reverseRecOn with
  | nil => rfl
  | append_singleton fields field ih =>
      rw [ended_concat, List.rdropWhile_concat_pos _ _ _ (by simp)]
      rcases List.eq_nil_or_concat field with rfl | ⟨start, char, rfl⟩
      · rw [List.append_nil, ih fun field isField => apart field (List.mem_append_left _ isField),
          List.rdropWhile_concat_pos _ _ _ rfl]
      · rw [List.concat_eq_append] at apart ⊢
        have different : char ≠ separator := by
          rintro rfl
          exact apart _ (List.mem_append_right _ (List.mem_singleton_self _))
            (List.mem_append_right _ (List.mem_singleton_self _))
        have nonempty : ¬(start ++ [char]).isEmpty = true := by simp
        rw [← List.append_assoc, List.rdropWhile_concat_neg _ _ _ (by simpa using different),
          List.rdropWhile_concat_neg _ _ _ nonempty]
        refine @List.append_cancel_right _ _ [separator] _ ?_
        rw [intercalate_append (by simp), ended_concat, ← List.append_assoc]

/-- What is left between the separators, when those at the ends are taken off. -/
theorem splitOn_strip (apart : ∀ field ∈ fields, separator ∉ field) :
    (strip separator (enclosed separator fields)).splitOn separator =
      if trim fields = [] then [[]] else trim fields := by
  have dropped : ∀ field ∈ fields.dropWhile List.isEmpty, separator ∉ field := fun field isField =>
    apart field ((List.dropWhile_suffix _).mem isField)
  have trimmed : ∀ field ∈ trim fields, separator ∉ field := fun field isField =>
    dropped field ((List.rdropWhile_prefix _ _).mem isField)
  rw [strip, enclosed, List.dropWhile_cons_of_pos (by simp), dropWhile_ended apart,
    rdropWhile_ended dropped, ← trim]
  split
  next none => rw [none]; rfl
  next some => rw [List.splitOn_intercalate separator trimmed some]

end Texts

end Delimited
