import EspWebsite.Library.Python

/-!
# Masks and random draws

Boolean arrays indexed by position, as `numpy.nonzero` and the sums over them read them,
and what the generators of `random` and `numpy.random` do with the raw numbers they draw:
every source of draws is one outcome of the random choices.
-/

namespace Draws

universe u

variable {α : Type u} {n : ℕ}

instance neZero_two : NeZero 2 := ⟨two_ne_zero⟩

instance neZero_three : NeZero 3 := ⟨three_ne_zero⟩

/-! ## Masks -/

/-- `numpy.nonzero(mask)[0]`. -/
def nonzero (mask : Fin n → Bool) : List (Fin n) := (List.finRange n).filter mask

/-- `numpy.count_nonzero(mask)`, and `numpy.sum` of a boolean array. -/
def countNonzero (mask : Fin n → Bool) : ℕ := (nonzero mask).length

/-- `mask.any()`. -/
def anyOf (mask : Fin n → Bool) : Bool := (List.finRange n).any mask

/-! ## Draws -/

/-- The raw numbers that a generator draws. -/
abbrev Source := ℕ → ℕ

def Source.rest (source : Source) : Source := fun index => source (index + 1)

def Source.below (source : Source) (bound : ℕ) : ℕ := source 0 % bound

/-- `x[i], x[j] = x[j], x[i]` for a list or an array with one axis. -/
def exchangeItems (items : Array α) (i j : ℕ) : Array α := items.swapIfInBounds i j

/-- `x[i], x[j] = x[j], x[i]` for an array with two axes.  The rows on the right are views,
so `x[j]` is assigned what `x[i]` has just been overwritten with. -/
def exchangeRows (rows : Array α) (i j : ℕ) : Array α :=
  match rows[j]? with
  | some row => rows.setIfInBounds i row
  | none => rows

/-- The exchanges of a shuffle, from a position down to the second one. -/
def shuffleFrom (exchange : Array α → ℕ → ℕ → Array α) : ℕ → Array α → Source → Array α × Source
  | 0, items, source => (items, source)
  | i + 1, items, source =>
      shuffleFrom exchange i (exchange items (i + 1) (source.below (i + 2))) source.rest

/-- `shuffle(x)` for a list or an array with one axis. -/
def shuffle (items : List α) (source : Source) : List α × Source :=
  let shuffled := shuffleFrom exchangeItems (items.length - 1) items.toArray source
  (shuffled.1.toList, shuffled.2)

/-- `random.shuffle(x)` for an array with two axes. -/
def shuffleRows (rows : List α) (source : Source) : List α × Source :=
  let shuffled := shuffleFrom exchangeRows (rows.length - 1) rows.toArray source
  (shuffled.1.toList, shuffled.2)

/-- `numpy.random.choice(pool, size, replace=False)`, which permutes the pool. -/
def choice (pool : List α) (size : ℕ) (source : Source) : List α × Source :=
  let permuted := shuffle pool source
  (permuted.1.take size, permuted.2)

/-! ## Priority queues -/

/-- `queue.PriorityQueue.get`: the least entry, and the queue without it. -/
def popLeast [LinearOrder α] (entries : List α) : Option (α × List α) :=
  entries.min?.map fun least => (least, entries.erase least)

/-! ## Rules -/

@[simp] theorem mem_nonzero {mask : Fin n → Bool} {index : Fin n} :
    index ∈ nonzero mask ↔ mask index = true := by
  simp [nonzero]

theorem nonzero_nodup (mask : Fin n → Bool) : (nonzero mask).Nodup :=
  (List.nodup_finRange n).filter _

theorem countNonzero_le (mask : Fin n → Bool) : countNonzero mask ≤ n := by
  simpa [countNonzero, nonzero] using List.length_filter_le mask (List.finRange n)

theorem countNonzero_eq_card (mask : Fin n → Bool) :
    countNonzero mask = (Finset.univ.filter fun index => mask index = true).card := by
  rw [countNonzero, ← List.toFinset_card_of_nodup (nonzero_nodup mask)]
  congr 1
  ext index
  simp

theorem countNonzero_or {left right : Fin n → Bool}
    (disjoint : ∀ index, left index = true → right index = false) :
    (countNonzero fun index => left index || right index) =
      countNonzero left + countNonzero right := by
  rw [countNonzero_eq_card, countNonzero_eq_card, countNonzero_eq_card,
    ← Finset.card_union_of_disjoint]
  · congr 1
    ext index
    simp
  · rw [Finset.disjoint_filter]
    intro index _ inLeft inRight
    rw [disjoint index inLeft] at inRight
    cases inRight

@[simp] theorem countNonzero_beq (index : Fin n) :
    (countNonzero fun other => other == index) = 1 := by
  simp [countNonzero_eq_card, Finset.filter_eq']

@[simp] theorem anyOf_eq_true {mask : Fin n → Bool} :
    anyOf mask = true ↔ ∃ index, mask index = true := by
  simp [anyOf]

@[simp] theorem anyOf_eq_false {mask : Fin n → Bool} :
    anyOf mask = false ↔ ∀ index, mask index = false := by
  simp [anyOf]

theorem exchangeItems_perm (items : Array α) (i j : ℕ) :
    (exchangeItems items i j).toList.Perm items.toList := by
  rw [exchangeItems, Array.swapIfInBounds_def]
  split
  · split
    · exact (Array.swap_perm _ _).toList
    · exact .refl _
  · exact .refl _

theorem shuffleFrom_perm {exchange : Array α → ℕ → ℕ → Array α}
    (perm : ∀ items i j, (exchange items i j).toList.Perm items.toList)
    (position : ℕ) (items : Array α) (source : Source) :
    (shuffleFrom exchange position items source).1.toList.Perm items.toList := by
  induction position generalizing items source with
  | zero => exact .refl _
  | succ position ih => exact (ih _ _).trans (perm items _ _)

theorem shuffle_perm (items : List α) (source : Source) :
    (shuffle items source).1.Perm items :=
  shuffleFrom_perm exchangeItems_perm _ _ _

theorem choice_subperm (pool : List α) (size : ℕ) (source : Source) :
    (choice pool size source).1.Subperm pool :=
  (List.take_sublist _ _).subperm.trans (shuffle_perm pool source).subperm

/-- Choosing draws as many items as are asked for. -/
theorem choice_length {pool : List α} {size : ℕ} (enough : size ≤ pool.length)
    (source : Source) : (choice pool size source).1.length = size := by
  rw [choice, List.length_take, (shuffle_perm pool source).length_eq, Nat.min_eq_left enough]

theorem exchangeRows_size (rows : Array α) (i j : ℕ) :
    (exchangeRows rows i j).size = rows.size := by
  rw [exchangeRows]
  cases rows[j]? with
  | none => rfl
  | some row => simp

theorem mem_exchangeRows {rows : Array α} {i j : ℕ} {row : α}
    (member : row ∈ exchangeRows rows i j) : row ∈ rows := by
  rw [exchangeRows] at member
  cases atJ : rows[j]? with
  | none => simpa [atJ] using member
  | some other =>
      rw [atJ] at member
      rcases Array.mem_or_eq_of_mem_setIfInBounds member with old | rfl
      · exact old
      · exact Array.mem_of_getElem? atJ

theorem shuffleRows_length (rows : List α) (source : Source) :
    (shuffleRows rows source).1.length = rows.length := by
  suffices size : ∀ position (items : Array α) source,
      (shuffleFrom exchangeRows position items source).1.size = items.size by
    simpa [shuffleRows] using size (rows.length - 1) rows.toArray source
  intro position
  induction position with
  | zero =>
      intro items source
      rfl
  | succ position ih =>
      intro items source
      rw [shuffleFrom, ih, exchangeRows_size]

theorem mem_shuffleRows {rows : List α} {source : Source} {row : α}
    (member : row ∈ (shuffleRows rows source).1) : row ∈ rows := by
  suffices invented : ∀ position (items : Array α) source,
      row ∈ (shuffleFrom exchangeRows position items source).1 → row ∈ items by
    simpa using invented (rows.length - 1) rows.toArray source (by simpa [shuffleRows] using member)
  intro position
  induction position with
  | zero =>
      intro items source member
      exact member
  | succ position ih =>
      intro items source member
      exact mem_exchangeRows (ih _ _ member)

theorem popLeast_eq_none [LinearOrder α] {entries : List α} :
    popLeast entries = none ↔ entries = [] := by
  simp [popLeast]

theorem le_of_popLeast [LinearOrder α] {entries rest : List α} {least entry : α}
    (popped : popLeast entries = some (least, rest)) (member : entry ∈ entries) :
    least ≤ entry := by
  rw [popLeast, Option.map_eq_some_iff] at popped
  rcases popped with ⟨value, minimum, equal⟩
  cases equal
  exact (List.min?_eq_some_iff.mp minimum).2 entry member

theorem perm_of_popLeast [LinearOrder α] {entries rest : List α} {least : α}
    (popped : popLeast entries = some (least, rest)) : entries.Perm (least :: rest) := by
  rw [popLeast, Option.map_eq_some_iff] at popped
  rcases popped with ⟨value, minimum, equal⟩
  cases equal
  exact List.perm_cons_erase (List.min?_mem minimum)

end Draws
