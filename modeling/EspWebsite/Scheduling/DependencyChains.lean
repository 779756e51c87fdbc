import EspWebsite.Library.Dicts
import EspWebsite.Library.Worklists

/-!
# Chains of moderators who wait for each other

`_trace_dependency_chains` of `program/modules/handlers/schedulingcheckmodule.py`, which follows
all branches that begin with a dependency of one moderator on another.
-/

namespace EspWebsite.Scheduling

open Dicts Worklists Worklists.Worklist Relation

variable {Moderator : Type} [DecidableEq Moderator]

/-- The moderators on whom a moderator depends, for those who depend on some. -/
abbrev DependencyGraph (Moderator : Type) := Dict Moderator (List Moderator)

/-- A chain, and `has_loop`: whether it returns to the moderator with whom it starts. -/
abbrev Chain (Moderator : Type) := List Moderator × Bool

section Trace

variable (username : Moderator → String) (graph : DependencyGraph Moderator)
  (startModerator firstDependency : Moderator)

/-- `next_candidates` of a chain, sorted by name. -/
def nextCandidates (chain : List Moderator) : List Moderator :=
  ((get? graph (chain.getLastD startModerator)).getD []).insertionSort
    fun left right => username left ≤ username right

/-- One round of the loop: what is done with a chain from the stack. -/
def branches : Worklist (List Moderator) (Chain Moderator) where
  outputs chain :=
    let candidates := nextCandidates username graph startModerator chain
    if candidates = [] then [(chain, false)]
    else
      candidates.flatMap fun candidate =>
        if candidate = startModerator then [(chain ++ [startModerator], true)]
        else if candidate ∉ chain then []
        else [(chain ++ [candidate], false)]
  pushes chain :=
    ((nextCandidates username graph startModerator chain).filter fun candidate =>
      candidate ≠ startModerator ∧ candidate ∉ chain).map fun candidate => chain ++ [candidate]

def signature (chain : Chain Moderator) : List String × Bool := (chain.1.map username, chain.2)

/-- The loop that keeps the first chain with each signature. -/
def dedupe (kept : List (Chain Moderator) × List (List String × Bool)) (chain : Chain Moderator) :
    List (Chain Moderator) × List (List String × Bool) :=
  if signature username chain ∈ kept.2 then kept
  else (kept.1 ++ [chain], signature username chain :: kept.2)

/-- `_trace_dependency_chains`, as far as it gets in a number of rounds of its loop. -/
def traceDependencyChains (rounds : ℕ) : Option (List (Chain Moderator)) :=
  ((branches username graph startModerator).loop rounds [[startModerator, firstDependency]] []).map
    fun chains => (chains.foldl (dedupe username) ([], [])).1

end Trace

/-! ## The chains that there are -/

/-- One moderator depends on another. -/
def Edge (graph : DependencyGraph Moderator) (moderator next : Moderator) : Prop :=
  next ∈ (get? graph moderator).getD []

structure SimplePath (graph : DependencyGraph Moderator)
    (startModerator firstDependency : Moderator) (path : List Moderator) : Prop where
  starts : [startModerator, firstDependency] <+: path
  edges : path.IsChain (Edge graph)
  nodup : path.Nodup

/-- The chains of a dependency.  Loops are the simple cycles through the moderator with whom they
start; the others are the simple paths that cannot go on, and the simple paths with one more edge
that goes back to another earlier moderator. -/
def IsDependencyChain (graph : DependencyGraph Moderator)
    (startModerator firstDependency : Moderator) : Chain Moderator → Prop
  | (chain, true) => ∃ path, SimplePath graph startModerator firstDependency path ∧
      Edge graph (path.getLastD startModerator) startModerator ∧ chain = path ++ [startModerator]
  | (chain, false) =>
      SimplePath graph startModerator firstDependency chain ∧
          (∀ next, ¬Edge graph (chain.getLastD startModerator) next) ∨
        ∃ path next, SimplePath graph startModerator firstDependency path ∧
          Edge graph (path.getLastD startModerator) next ∧ next ∈ path.dropLast ∧
          next ≠ startModerator ∧ chain = path ++ [next]

variable {username : Moderator → String} {graph : DependencyGraph Moderator}
  {startModerator firstDependency : Moderator} {chain path : List Moderator}

theorem mem_nextCandidates {candidate : Moderator} :
    candidate ∈ nextCandidates username graph startModerator chain ↔
      Edge graph (chain.getLastD startModerator) candidate := by
  rw [nextCandidates, List.mem_insertionSort, Edge]

theorem simplePath_concat_iff {candidate : Moderator} (long : 2 ≤ path.length) :
    SimplePath graph startModerator firstDependency (path ++ [candidate]) ↔
      SimplePath graph startModerator firstDependency path ∧
        Edge graph (path.getLastD startModerator) candidate ∧ candidate ∉ path := by
  have nonempty : path ≠ [] := by
    rintro rfl
    simp at long
  have isLast : path.getLastD startModerator = path.getLast nonempty := by
    simp [List.getLastD_eq_getLast?, List.getLast?_eq_some_getLast nonempty]
  constructor
  · rintro ⟨starts, edges, nodup⟩
    rw [List.isChain_append] at edges
    have fresh : candidate ∉ path := fun isOn => (List.nodup_append.mp nodup).2.2 _ isOn _
      (List.mem_singleton_self _) rfl
    refine ⟨⟨List.prefix_of_prefix_length_le starts (List.prefix_append _ _) long, edges.1,
      (List.nodup_append.mp nodup).1⟩, ?_, fresh⟩
    rw [isLast]
    exact edges.2.2 _ (List.getLast?_eq_some_getLast nonempty) _ rfl
  · rintro ⟨⟨starts, edges, nodup⟩, edge, fresh⟩
    refine ⟨starts.trans (List.prefix_append _ _), ?_, ?_⟩
    · rw [List.isChain_append]
      refine ⟨edges, List.isChain_singleton _, ?_⟩
      intro last isLast' next isNext
      rw [List.getLast?_eq_some_getLast nonempty] at isLast'
      simp only [Option.mem_def, Option.some.injEq, List.head?_cons] at isLast' isNext
      rw [← isLast', ← isNext, ← isLast]
      exact edge
    · refine List.nodup_append.mpr ⟨nodup, List.nodup_singleton _, ?_⟩
      intro moderator isOn other isOther
      rw [List.mem_singleton.mp isOther]
      exact fun same => fresh (same ▸ isOn)

theorem reaches_iff (different : startModerator ≠ firstDependency)
    (edge : Edge graph startModerator firstDependency) :
    (branches username graph startModerator).Reaches [startModerator, firstDependency] path ↔
      SimplePath graph startModerator firstDependency path := by
  have begins : SimplePath graph startModerator firstDependency
      [startModerator, firstDependency] :=
    ⟨List.prefix_refl _, by simpa using edge, by simpa using different⟩
  constructor
  · intro reaches
    induction reaches with
    | refl => exact begins
    | tail _ isPushed ih =>
        obtain ⟨candidate, isCandidate, rfl⟩ := List.mem_map.mp isPushed
        simp only [List.mem_filter, mem_nextCandidates, decide_eq_true_eq] at isCandidate
        exact (simplePath_concat_iff ih.starts.length_le).mpr
          ⟨ih, isCandidate.1, isCandidate.2.2⟩
  · intro simple
    obtain ⟨rest, rfl⟩ := simple.starts
    induction rest using List.reverseRecOn with
    | nil => exact .refl
    | append_singleton rest candidate ih =>
        rw [← List.append_assoc] at simple ⊢
        obtain ⟨shorter, onward, fresh⟩ := (simplePath_concat_iff (by simp)).mp simple
        refine (ih shorter).tail (List.mem_map.mpr ⟨candidate, ?_, rfl⟩)
        have notStart : candidate ≠ startModerator := by
          rintro rfl
          simp at fresh
        exact List.mem_filter.mpr
          ⟨mem_nextCandidates.mpr onward, decide_eq_true ⟨notStart, fresh⟩⟩

theorem mem_outputs_true_iff :
    (chain, true) ∈ (branches username graph startModerator).outputs path ↔
      Edge graph (path.getLastD startModerator) startModerator ∧
        chain = path ++ [startModerator] := by
  have isCandidate := @mem_nextCandidates _ _ username graph startModerator path
  by_cases none : nextCandidates username graph startModerator path = []
  · simp only [none, List.not_mem_nil, false_iff] at isCandidate
    simp [branches, none, -List.getLastD_eq_getLast?, isCandidate]
  · simp only [branches, none, if_false, List.mem_flatMap, isCandidate]
    constructor
    · rintro ⟨candidate, edge, isOutput⟩
      split at isOutput
      next same =>
        subst same
        exact ⟨edge, by simpa using isOutput⟩
      next =>
        split at isOutput <;> simp at isOutput
    · rintro ⟨edge, rfl⟩
      exact ⟨startModerator, edge, by simp⟩

theorem mem_outputs_false_iff :
    (chain, false) ∈ (branches username graph startModerator).outputs path ↔
      chain = path ∧ (∀ next, ¬Edge graph (path.getLastD startModerator) next) ∨
        ∃ next, Edge graph (path.getLastD startModerator) next ∧ next ∈ path ∧
          next ≠ startModerator ∧ chain = path ++ [next] := by
  have isCandidate := @mem_nextCandidates _ _ username graph startModerator path
  by_cases none : nextCandidates username graph startModerator path = []
  · simp only [none, List.not_mem_nil, false_iff] at isCandidate
    simp [branches, none, -List.getLastD_eq_getLast?, isCandidate]
  · have some : ¬∀ next, ¬Edge graph (path.getLastD startModerator) next := by
      intro noEdge
      exact none (List.eq_nil_iff_forall_not_mem.mpr fun next isNext =>
        noEdge next (isCandidate.mp isNext))
    simp only [branches, none, if_false, List.mem_flatMap, isCandidate, some, and_false, false_or]
    refine exists_congr fun next => and_congr_right fun edge => ?_
    by_cases returns : next = startModerator
    · simp [returns]
    · by_cases isOn : next ∈ path
      · simp [returns, isOn]
      · simp [returns, isOn]

theorem exists_outputs_iff (noSelfLoop : ∀ moderator, ¬Edge graph moderator moderator)
    {entry : Chain Moderator} :
    (∃ path, SimplePath graph startModerator firstDependency path ∧
        entry ∈ (branches username graph startModerator).outputs path) ↔
      IsDependencyChain graph startModerator firstDependency entry := by
  rcases entry with ⟨chain, _ | _⟩
  · simp only [mem_outputs_false_iff, IsDependencyChain]
    have earlier {path : List Moderator} {next : Moderator}
        (simple : SimplePath graph startModerator firstDependency path)
        (edge : Edge graph (path.getLastD startModerator) next) :
        next ∈ path ↔ next ∈ path.dropLast := by
      have nonempty : path ≠ [] := by
        rintro rfl
        exact absurd simple.starts.length_le (by simp)
      have isLast : path.getLastD startModerator = path.getLast nonempty := by
        simp [List.getLastD_eq_getLast?, List.getLast?_eq_some_getLast nonempty]
      have notLast : next ≠ path.getLast nonempty := by
        rintro rfl
        rw [isLast] at edge
        exact noSelfLoop _ edge
      conv_lhs => rw [← List.dropLast_append_getLast nonempty]
      simp [notLast]
    constructor
    · rintro ⟨path, simple, ⟨rfl, noEdge⟩ | ⟨next, edge, isOn, returns, rfl⟩⟩
      · exact .inl ⟨simple, noEdge⟩
      · exact .inr ⟨path, next, simple, edge, (earlier simple edge).mp isOn, returns, rfl⟩
    · rintro (⟨simple, noEdge⟩ | ⟨path, next, simple, edge, isOn, returns, rfl⟩)
      · exact ⟨chain, simple, .inl ⟨rfl, noEdge⟩⟩
      · exact ⟨path, simple, .inr ⟨next, edge, (earlier simple edge).mpr isOn, returns, rfl⟩⟩
  · simp only [mem_outputs_true_iff, IsDependencyChain]

omit [DecidableEq Moderator] in
theorem signature_injective (distinct : Function.Injective username) :
    Function.Injective (signature username) := by
  rintro ⟨left, loops⟩ ⟨right, also⟩ same
  simp only [signature, Prod.mk.injEq] at same
  rw [List.map_injective_iff.mpr distinct same.1, same.2]

omit [DecidableEq Moderator] in
theorem foldl_dedupe (distinct : Function.Injective username) {chains : List (Chain Moderator)}
    {kept : List (Chain Moderator) × List (List String × Bool)} (nodup : kept.1.Nodup)
    (seen : ∀ entry, signature username entry ∈ kept.2 ↔ entry ∈ kept.1) :
    (chains.foldl (dedupe username) kept).1.Nodup ∧
      ∀ entry, entry ∈ (chains.foldl (dedupe username) kept).1 ↔
        entry ∈ kept.1 ∨ entry ∈ chains := by
  induction chains generalizing kept with
  | nil => simpa using nodup
  | cons chain rest ih =>
      rw [List.foldl_cons]
      by_cases known : signature username chain ∈ kept.2
      · have same : dedupe username kept chain = kept := if_pos known
        have isKept := (seen chain).mp known
        rw [same]
        refine ⟨(ih nodup seen).1, fun entry => ?_⟩
        rw [(ih nodup seen).2, List.mem_cons]
        constructor
        · exact Or.imp_right .inr
        · rintro (isOld | rfl | isLater)
          · exact .inl isOld
          · exact .inl isKept
          · exact .inr isLater
      · have added : dedupe username kept chain =
            (kept.1 ++ [chain], signature username chain :: kept.2) := if_neg known
        rw [added]
        have fresh : chain ∉ kept.1 := fun isKept => known ((seen chain).mpr isKept)
        have stillNodup : (kept.1 ++ [chain]).Nodup := by
          refine List.nodup_append.mpr ⟨nodup, List.nodup_singleton _, ?_⟩
          rintro entry isKept other isNew rfl
          exact fresh (List.mem_singleton.mp isNew ▸ isKept)
        have stillSeen (entry : Chain Moderator) :
            signature username entry ∈ signature username chain :: kept.2 ↔
              entry ∈ kept.1 ++ [chain] := by
          simp [seen, (signature_injective distinct).eq_iff, or_comm]
        refine ⟨(ih stillNodup stillSeen).1, fun entry => ?_⟩
        rw [(ih stillNodup stillSeen).2]
        simp [or_assoc]

/-- The loop ends, and what it returns are the chains of the dependency, each once. -/
theorem traceDependencyChains_iff (distinct : Function.Injective username)
    (noSelfLoop : ∀ moderator, ¬Edge graph moderator moderator)
    (edge : Edge graph startModerator firstDependency) :
    ∃ chains, (∃ rounds, ∀ more, rounds ≤ more →
        traceDependencyChains username graph startModerator firstDependency more = some chains) ∧
      chains.Nodup ∧
      ∀ entry, entry ∈ chains ↔ IsDependencyChain graph startModerator firstDependency entry := by
  have different : startModerator ≠ firstDependency := by
    rintro rfl
    exact noSelfLoop _ edge
  -- a chain that is pushed leaves one moderator of the graph less who is not on it
  let moderators := (graph.flatMap Prod.snd).toFinset
  have isModerator {moderator next : Moderator} (edge : Edge graph moderator next) :
      next ∈ moderators := by
    cases found : get? graph moderator with
    | none => simp [Edge, found] at edge
    | some dependencies =>
        have isNext : next ∈ dependencies := by simpa [Edge, found] using edge
        exact List.mem_toFinset.mpr
          (List.mem_flatMap.mpr ⟨_, mem_of_get?_eq_some found, isNext⟩)
  have decreases (path : List Moderator) :
      ∀ chain ∈ (branches username graph startModerator).pushes path,
        (moderators \ chain.toFinset).card < (moderators \ path.toFinset).card := by
    intro chain isPushed
    obtain ⟨candidate, isCandidate, rfl⟩ := List.mem_map.mp isPushed
    simp only [List.mem_filter, mem_nextCandidates, decide_eq_true_eq] at isCandidate
    refine Finset.card_lt_card (Finset.ssubset_iff_of_subset ?_ |>.mpr ⟨candidate, ?_, ?_⟩)
    · exact Finset.sdiff_subset_sdiff (Finset.Subset.refl _) (by simp)
    · simpa [isCandidate.2.2] using isModerator isCandidate.1
    · simp
  obtain ⟨rounds, result, ends⟩ := exists_loop
    (fun path : List Moderator => (moderators \ path.toFinset).card) decreases
    [[startModerator, firstDependency]] []
  have kept := @foldl_dedupe _ username distinct result ([], []) List.nodup_nil (by simp)
  refine ⟨_, ⟨rounds, fun more isMore => ?_⟩, kept.1, fun entry => ?_⟩
  · rw [traceDependencyChains, loop_of_le ends isMore]
    rfl
  · rw [kept.2, mem_loop_iff ends, ← @exists_outputs_iff _ _ username _ _ _ noSelfLoop]
    simp [reaches_iff different edge]

namespace Sample

/-- Anna waits for Ben, who waits for her and for Carl, who waits for Ben. -/
def waiting : DependencyGraph String :=
  [("anna", ["ben"]), ("ben", ["anna", "carl"]), ("carl", ["ben"])]

/-- The chains of Anna's dependency on Ben: one loop, and one that goes back to Ben. -/
theorem traceDependencyChains_waiting :
    Function.Injective (id : String → String) ∧
      (∀ moderator, ¬Edge waiting moderator moderator) ∧ Edge waiting "anna" "ben" ∧
      ∃ chains, (∃ rounds, ∀ more, rounds ≤ more →
          traceDependencyChains id waiting "anna" "ben" more = some chains) ∧
        chains.Nodup ∧
        ∀ entry, entry ∈ chains ↔ IsDependencyChain waiting "anna" "ben" entry :=
  have noSelfLoop : ∀ moderator, ¬Edge waiting moderator moderator := by
    intro moderator edge
    simp only [Edge, waiting, get?] at edge
    split_ifs at edge with anna ben carl
    · simp [← anna] at edge
    · simp [← ben] at edge
    · simp [← carl] at edge
    · simp at edge
  have edge : Edge waiting "anna" "ben" := by simp [Edge, waiting, get?]
  ⟨Function.injective_id, noSelfLoop, edge,
    traceDependencyChains_iff Function.injective_id noSelfLoop edge⟩

example : traceDependencyChains id waiting "anna" "ben" 3 =
    some [(["anna", "ben", "anna"], true), (["anna", "ben", "carl", "ben"], false)] := by
  decide

end Sample

end EspWebsite.Scheduling
