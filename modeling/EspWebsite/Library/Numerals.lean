import EspWebsite.Library.Binary64

/-!
# Numbers and texts of the host language

How Python writes numbers and reads them.  Texts are in ASCII.
-/

namespace Python

open Binary64

/-- What `strip` takes off both ends of a text. -/
def isSpace (char : Char) : Bool :=
  char.toNat = 32 ∨ (9 ≤ char.toNat ∧ char.toNat ≤ 13) ∨ (28 ≤ char.toNat ∧ char.toNat ≤ 31)

/-- `text.strip()`. -/
def strip (text : List Char) : List Char :=
  ((text.dropWhile isSpace).reverse.dropWhile isSpace).reverse

/-- Digits, in groups with an underscore between them. -/
def digitPart (text : List Char) : Option (List Char) :=
  let groups := text.splitOn '_'
  if groups.all fun group => !group.isEmpty && group.all Char.isDigit then some groups.flatten
  else none

/-- The number that an unsigned text stands for, with the sign that may stand before it. -/
def signed {Number : Type} [Neg Number] (unsigned : List Char → Option Number) :
    List Char → Option Number
  | '-' :: rest => (unsigned rest).map Neg.neg
  | '+' :: rest => unsigned rest
  | text => unsigned text

/-- The integer that digits stand for. -/
def unsignedInt (text : List Char) : Option ℤ :=
  (digitPart text).map fun digits => Nat.ofDigitChars 10 digits 0

/-- `int(text)`. -/
def parseInt (text : List Char) : Option ℤ :=
  signed unsignedInt (strip text)

/-- The digits on one side of a decimal point, where there need not be any. -/
def pointPart (text : List Char) : Option (List Char) :=
  if text = [] then some [] else digitPart text

def unsignedDecimal (text : List Char) : Option ℚ :=
  match text.splitOn '.' with
  | [whole] => (unsignedInt whole).map fun number => (number : ℚ)
  | [whole, fraction] =>
      match pointPart whole, pointPart fraction with
      | some whole, some fraction =>
          if whole = [] ∧ fraction = [] then none
          else some ((Nat.ofDigitChars 10 (whole ++ fraction) 0 : ℚ) / 10 ^ fraction.length)
      | _, _ => none
  | _ => none

def unsignedFloat (text : List Char) : Option ℚ :=
  match text.splitOnP fun char => char = 'e' ∨ char = 'E' with
  | [number] => unsignedDecimal number
  | [number, exponent] =>
      match unsignedDecimal number, signed unsignedInt exponent with
      | some number, some exponent => some (number * 10 ^ exponent)
      | _, _ => none
  | _ => none

/-- `float(text)`, for finite numbers. -/
def parseFloat (text : List Char) : Option ℚ :=
  (signed unsignedFloat (strip text)).map nearest

/-- `str(number)` for a natural number. -/
def numeral (number : ℕ) : List Char := Nat.toDigits 10 number

/-- The hundredths in `'%.2f' % value`. -/
def hundredths (value : ℚ) : ℤ := roundHalfEven (100 * value)

/-- `'%.2f' % value`. -/
def twoPlaces (value : ℚ) : List Char :=
  let units := (hundredths value).natAbs
  (if value < 0 then ['-'] else []) ++ numeral (units / 100) ++
    ['.', Nat.digitChar (units / 10 % 10), Nat.digitChar (units % 10)]

section Numerals

variable {number : ℕ} {value : ℚ} {char : Char}

theorem isDigit_of_mem_numeral (written : char ∈ numeral number) : char.isDigit = true :=
  Nat.isDigit_of_mem_toDigits (by decide) (by decide) written

theorem isDigit_digitChar (small : number < 10) : (Nat.digitChar number).isDigit = true := by
  rw [Nat.isDigit_digitChar, decide_eq_true small]

theorem numeral_ne_nil : numeral number ≠ [] := Nat.toDigits_ne_nil

theorem digitPart_of_isDigit {text : List Char} (nonempty : text ≠ [])
    (digits : ∀ char ∈ text, char.isDigit = true) : digitPart text = some text := by
  have single : text.splitOn '_' = [text] := by
    refine List.splitOn_eq_singleton fun underscore => ?_
    have isDigit := digits _ underscore
    revert isDigit
    decide
  rw [digitPart, single]
  simp [nonempty, List.all_eq_true.mpr digits]

theorem strip_strip (text : List Char) : strip (strip text) = strip text := by
  have ends : (strip text).rdropWhile isSpace = strip text := List.rdropWhile_idempotent _ _
  have starts : (strip text).dropWhile isSpace = strip text := by
    rw [List.dropWhile_eq_self_iff]
    intro nonempty
    have kept : strip text <+: text.dropWhile isSpace := List.rdropWhile_prefix _ _
    have first := List.dropWhile_eq_self_iff.mp
      (List.dropWhile_idempotent isSpace text) (nonempty.trans_le kept.length_le)
    rwa [kept.getElem nonempty]
  have again : strip (strip text) = ((strip text).dropWhile isSpace).rdropWhile isSpace := rfl
  rw [again, starts, ends]


theorem strip_of_isDigit {text : List Char} (digits : ∀ char ∈ text, char.isDigit = true) :
    strip text = text := by
  have keeps : ∀ text : List Char, (∀ char ∈ text, char.isDigit = true) →
      text.dropWhile isSpace = text := by
    intro text digits
    cases text with
    | nil => rfl
    | cons char rest =>
        have range : 48 ≤ char.toNat ∧ char.toNat ≤ 57 :=
          Char.isDigit_iff_toNat.mp (digits char (List.mem_cons_self ..))
        have noSpace : ¬isSpace char = true := by
          rw [isSpace, decide_eq_true_eq]
          omega
        rw [List.dropWhile_cons_of_neg noSpace]
  rw [strip, keeps text digits, keeps text.reverse, List.reverse_reverse]
  intro char isMember
  exact digits char (List.mem_reverse.mp isMember)

theorem signed_of_isDigit {Number : Type} [Neg Number] {unsigned : List Char → Option Number}
    {text : List Char} (digits : ∀ char ∈ text, char.isDigit = true) :
    signed unsigned text = unsigned text := by
  rw [signed.eq_def]
  split
  next rest => exact absurd (digits '-' (List.mem_cons_self ..)) (by decide)
  next rest => exact absurd (digits '+' (List.mem_cons_self ..)) (by decide)
  next => rfl

@[simp] theorem parseInt_numeral (number : ℕ) : parseInt (numeral number) = some (number : ℤ) := by
  have digits : ∀ char ∈ numeral number, char.isDigit = true := fun _ => isDigit_of_mem_numeral
  rw [parseInt, strip_of_isDigit digits, signed_of_isDigit digits, unsignedInt,
    digitPart_of_isDigit numeral_ne_nil digits, Option.map_some, numeral,
    Nat.ofDigitChars_ten_toDigits]

theorem mem_twoPlaces (written : char ∈ twoPlaces value) :
    char = '-' ∨ char = '.' ∨ char.isDigit = true := by
  simp only [twoPlaces, List.mem_append, List.mem_cons, List.not_mem_nil, or_false] at written
  rcases written with (sign | whole) | point | tenth | hundredth
  · split at sign
    next => exact Or.inl (List.mem_singleton.mp sign)
    next => cases sign
  · exact Or.inr (Or.inr (isDigit_of_mem_numeral whole))
  · exact Or.inr (Or.inl point)
  · rw [tenth]
    exact Or.inr (Or.inr (isDigit_digitChar (Nat.mod_lt _ (by decide))))
  · rw [hundredth]
    exact Or.inr (Or.inr (isDigit_digitChar (Nat.mod_lt _ (by decide))))

end Numerals

section Hundredths

variable {number : ℤ}

theorem abs_nearest_hundredths_sub_le (number : ℤ) :
    |100 * nearest (number / 100) - number| ≤ |(number : ℚ)| / 2 ^ 53 := by
  have error := abs_nearest_sub_le ((number : ℚ) / 100)
  have scaled : 100 * nearest (number / 100) - number =
      100 * (nearest (number / 100) - number / 100) := by ring
  rw [scaled, abs_mul, abs_of_pos (by norm_num : (0 : ℚ) < 100)]
  rw [abs_div, abs_of_pos (by norm_num : (0 : ℚ) < 100)] at error
  linarith

theorem hundredths_nearest (small : |number| < 2 ^ 52) :
    hundredths (nearest (number / 100)) = number := by
  have bound : |(number : ℚ)| < 2 ^ 52 := by exact_mod_cast small
  refine roundHalfEven_eq ((abs_nearest_hundredths_sub_le number).trans_lt ?_)
  rw [div_lt_iff₀ (by norm_num)]
  linarith

theorem le_abs_hundredths_nearest (large : 2 ^ 52 ≤ |number|) :
    2 ^ 51 ≤ |hundredths (nearest (number / 100))| := by
  have bound : (2 : ℚ) ^ 52 ≤ |(number : ℚ)| := by exact_mod_cast large
  have error := abs_nearest_hundredths_sub_le number
  have rounded := abs_roundHalfEven_sub_le (100 * nearest (number / 100))
  have apart : |(number : ℚ)| - |(hundredths (nearest (number / 100)) : ℚ)| ≤
      |(number : ℚ)| / 2 ^ 53 + 1 / 2 := by
    calc |(number : ℚ)| - |(hundredths (nearest (number / 100)) : ℚ)|
        ≤ |(number : ℚ) - hundredths (nearest (number / 100))| := abs_sub_abs_le_abs_sub _ _
      _ = |(hundredths (nearest (number / 100)) - 100 * nearest (number / 100)) +
            (100 * nearest (number / 100) - number)| := by
          rw [abs_sub_comm]
          ring_nf
      _ ≤ |(number : ℚ)| / 2 ^ 53 + 1 / 2 := by
          rw [add_comm (|(number : ℚ)| / 2 ^ 53)]
          exact (abs_add_le _ _).trans (add_le_add rounded error)
  have halves : (2 : ℚ) ^ 51 ≤ |(hundredths (nearest (number / 100)) : ℚ)| := by linarith
  exact_mod_cast halves

end Hundredths

end Python
