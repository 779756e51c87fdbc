import EspWebsite.Library.Loops

/-!
# Unused usernames

`get_unused_username` of `users/models/__init__.py`, which looks for a free name before it takes
out the characters that usernames do not have.
-/

namespace EspWebsite.Users

open Python Loops

/-- What Python knows of characters: `lower`, and `\w` for those that are not ASCII. -/
structure Unicode where
  lower : List Char → List Char
  wordBeyondAscii : Char → Bool

namespace Unicode

variable (unicode : Unicode)

/-- `\w`. -/
def isWord (char : Char) : Bool :=
  if char.toNat < 128 then char.isAlphanum || char = '_' else unicode.wordBeyondAscii char

/-- The characters that usernames may have. -/
def isAllowed (char : Char) : Bool :=
  unicode.isWord char || decide (char ∈ ['.', '@', '+', '-'])

/-- `re.sub(r'[^\w.@+-]', '', username)`. -/
def sanitize (username : List Char) : List Char := username.filter unicode.isAllowed

/-- The first letter of a first name and a last name, in lower case. -/
def baseUname (initial : Char) (lastName : List Char) : List Char :=
  unicode.lower (initial :: lastName)

end Unicode

/-- `base_uname + str(i)`. -/
def numbered (baseUname : List Char) (i : ℕ) : List Char := baseUname ++ (toString i).toList

/-- `get_unused_username`, as far as it gets in a number of rounds of its loop. -/
def getUnusedUsername (unicode : Unicode) (usernames : Finset (List Char))
    (firstName lastName : List Char) (rounds : ℕ) : Option (Raises (List Char)) :=
  match firstName with
  | [] => some (.error .indexError)
  | initial :: _ =>
      let baseUname := unicode.baseUname initial lastName
      if baseUname ∈ usernames then
        (searchFrom (fun i => numbered baseUname i ∉ usernames) rounds 2).map fun i =>
          .ok (unicode.sanitize (numbered baseUname i))
      else some (.ok (unicode.sanitize baseUname))

/-- It ends with a text of allowed characters that is not a username yet. -/
def ReturnsUnused (unicode : Unicode) (usernames : Finset (List Char))
    (firstName lastName : List Char) : Prop :=
  ∃ username, (∃ rounds, getUnusedUsername unicode usernames firstName lastName rounds =
      some (.ok username)) ∧
    (∀ char ∈ username, unicode.isAllowed char = true) ∧ username ∉ usernames

/-- The first of a name, the name with 2, the name with 3 and so on that is not taken, is not
taken either without the characters that usernames do not have. -/
def StaysUnused (unicode : Unicode) (usernames : Finset (List Char)) (baseUname : List Char) :
    Prop :=
  (baseUname ∉ usernames → unicode.sanitize baseUname ∉ usernames) ∧
    ∀ i, 2 ≤ i → baseUname ∈ usernames →
      (∀ earlier, 2 ≤ earlier → earlier < i → numbered baseUname earlier ∈ usernames) →
      numbered baseUname i ∉ usernames → unicode.sanitize (numbered baseUname i) ∉ usernames

variable {unicode : Unicode} {usernames : Finset (List Char)} {baseUname username : List Char}
  {i : ℕ}

theorem allowed_of_mem_sanitize {char : Char} (isKept : char ∈ unicode.sanitize username) :
    unicode.isAllowed char = true :=
  (List.mem_filter.mp isKept).2

theorem numbered_injective : Function.Injective (numbered baseUname) := by
  intro i other same
  have digits := List.append_cancel_left same
  exact Nat.repr_inj.mp (String.toList_inj.mp digits)

/-- The loop ends, since there are only so many usernames. -/
theorem exists_unused : ∃ rounds i,
    searchFrom (fun i => numbered baseUname i ∉ usernames) rounds 2 = some i := by
  have infinite : (Set.range fun i => numbered baseUname (i + 2)).Infinite :=
    Set.infinite_range_of_injective (numbered_injective.comp (add_left_injective 2))
  rcases infinite.exists_notMem_finset usernames with ⟨_, ⟨i, rfl⟩, unused⟩
  exact exists_searchFrom (Nat.le_add_left 2 i) unused

theorem getUnusedUsername_eq_ok {initial : Char} {firstRest lastName : List Char} :
    (∃ rounds, getUnusedUsername unicode usernames (initial :: firstRest) lastName rounds =
        some (.ok username)) ↔
      if unicode.baseUname initial lastName ∈ usernames then
        ∃ rounds i, searchFrom (fun i => numbered (unicode.baseUname initial lastName) i ∉ usernames)
          rounds 2 = some i ∧
            unicode.sanitize (numbered (unicode.baseUname initial lastName) i) = username
      else unicode.sanitize (unicode.baseUname initial lastName) = username := by
  simp only [getUnusedUsername]
  split
  next => simp only [Option.map_eq_some_iff, Except.ok.injEq]
  next => simp only [Option.some.injEq, Except.ok.injEq, exists_const]

/-- `get_unused_username` ends with an unused text of allowed characters exactly if the first
free one of the names that it tries stays unused when it is sanitized. -/
theorem returnsUnused_iff (unicode : Unicode) (usernames : Finset (List Char)) (initial : Char)
    (firstRest lastName : List Char) :
    ReturnsUnused unicode usernames (initial :: firstRest) lastName ↔
      StaysUnused unicode usernames (unicode.baseUname initial lastName) := by
  simp only [ReturnsUnused, getUnusedUsername_eq_ok]
  constructor
  · rintro ⟨username, returned, _, unused⟩
    refine ⟨fun free => ?_, fun i after taken others free => ?_⟩
    · rw [if_neg free] at returned
      rw [returned]
      exact unused
    · rw [if_pos taken] at returned
      rcases returned with ⟨rounds, found, isFound, same⟩
      rcases searchFrom_eq_some.mp isFound with ⟨foundAfter, _, foundFree, none⟩
      have first : i = found := by
        rcases lt_trichotomy i found with before | same | before
        · exact absurd free (none i after before)
        · exact same
        · exact absurd (others found foundAfter before) foundFree
      rw [first, same]
      exact unused
  · intro stays
    by_cases taken : unicode.baseUname initial lastName ∈ usernames
    · rcases @exists_unused usernames (unicode.baseUname initial lastName) with
        ⟨rounds, i, isFound⟩
      rcases searchFrom_eq_some.mp isFound with ⟨after, _, free, none⟩
      refine ⟨_, (if_pos taken).mpr ⟨rounds, i, isFound, rfl⟩,
        fun char => allowed_of_mem_sanitize, ?_⟩
      exact stays.2 i after taken (fun earlier notBefore before =>
        not_not.mp (none earlier notBefore before)) free
    · exact ⟨_, (if_neg taken).mpr rfl, fun char => allowed_of_mem_sanitize, stays.1 taken⟩

namespace Sample

def ascii : Unicode where
  lower := List.map Char.toLower
  wordBeyondAscii := fun _ => false

/-- There is a user joneill, and Jane O'Neill gets the same username. -/
theorem apostrophe_taken :
    ¬ReturnsUnused ascii {"joneill".toList} "Jane".toList "O'Neill".toList := by
  rintro ⟨username, ⟨rounds, same⟩, _, unused⟩
  have returned : getUnusedUsername ascii {"joneill".toList} "Jane".toList "O'Neill".toList rounds =
      some (.ok "joneill".toList) := rfl
  rw [returned] at same
  cases same
  exact unused (Finset.mem_singleton_self _)

end Sample

end EspWebsite.Users
