import Mathlib

/-!
# Dictionaries

Dictionaries that keep the order in which their keys were set.
-/

namespace Dicts

universe u v

/-- A dictionary as the list of its items. -/
abbrev Dict (Key : Type u) (Value : Type v) := List (Key × Value)

variable {Key : Type u} {Value : Type v} [DecidableEq Key]

/-- `dict.get(key)`. -/
def get? : Dict Key Value → Key → Option Value
  | [], _ => none
  | (other, value) :: rest, key => if other = key then some value else get? rest key

/-- `dict[key] = value`: the value of a key changes in its place. -/
def setItem : Dict Key Value → Key → Value → Dict Key Value
  | [], key, value => [(key, value)]
  | (other, old) :: rest, key, value =>
      if other = key then (key, value) :: rest else (other, old) :: setItem rest key value

variable {dict : Dict Key Value} {key other : Key} {value written : Value}

@[simp] theorem get?_nil : get? ([] : Dict Key Value) key = none := rfl

theorem mem_of_get?_eq_some (found : get? dict key = some value) : (key, value) ∈ dict := by
  induction dict with
  | nil => simp at found
  | cons item rest ih =>
      by_cases same : item.1 = key
      · have isValue : item.2 = value := by simpa [get?, same] using found
        exact List.mem_cons.mpr (.inl (Prod.ext same.symm isValue.symm))
      · exact List.mem_cons_of_mem _ (ih (by simpa [get?, same] using found))

@[simp] theorem get?_setItem_self : get? (setItem dict key value) key = some value := by
  induction dict with
  | nil => simp [setItem, get?]
  | cons item rest ih =>
      by_cases same : item.1 = key
      · simp [setItem, get?, same]
      · simp [setItem, get?, same, ih]

theorem get?_setItem_of_ne (different : key ≠ other) :
    get? (setItem dict key value) other = get? dict other := by
  induction dict with
  | nil => simp [setItem, get?, different]
  | cons item rest ih =>
      by_cases same : item.1 = key
      · simp [setItem, get?, same, different]
      · simp [setItem, get?, same, ih]

@[simp] theorem setItem_setItem :
    setItem (setItem dict key value) key written = setItem dict key written := by
  induction dict with
  | nil => simp [setItem]
  | cons item rest ih =>
      by_cases same : item.1 = key
      · simp [setItem, same]
      · simp [setItem, same, ih]

theorem setItem_eq_self_iff : setItem dict key value = dict ↔ get? dict key = some value := by
  induction dict with
  | nil => simp [setItem]
  | cons item rest ih =>
      rcases item with ⟨other, old⟩
      by_cases same : other = key
      · simp [setItem, get?, same, eq_comm]
      · simp [setItem, get?, same, ih]

/-- Setting two keys commutes where the first one is there already. -/
theorem setItem_comm (different : key ≠ other) (isKey : (get? dict key).isSome) :
    setItem (setItem dict key value) other written =
      setItem (setItem dict other written) key value := by
  induction dict with
  | nil => simp at isKey
  | cons item rest ih =>
      rcases item with ⟨name, old⟩
      by_cases first : name = key
      · simp [setItem, first, different]
      · have further : (get? rest key).isSome := by simpa [get?, first] using isKey
        by_cases second : name = other
        · simp [setItem, second, different.symm]
        · simp [setItem, first, second, ih further]

end Dicts
