import Mathlib

/-!
# The big board

`chunk_times` and `make_graph_data` of `program/modules/handlers/bigboardmodule.py`.  Times are
in microseconds.
-/

namespace EspWebsite.Program

/-- A metric and its time. -/
abbrev Point := ℚ × ℤ

def hour : ℤ := 3600 * 1000000

def day : ℤ := 24 * hour

/-! ## Chunks -/

section Chunks

variable (finish delta : ℤ) (cumulative : Bool)

/-- The loop of `chunk_times`, in which `times` are the points from the index on.  It is
interrupted when it runs out of fuel. -/
def chunkFrom : ℕ → List Point → ℤ → ℚ → Option (List ℚ)
  | 0, _, _, _ => none
  | fuel + 1, times, start, count =>
      let next := (chunkFrom fuel times (start + delta) (if cumulative then count else 0)).map
        fun chunks => count :: chunks
      if start < finish + delta then
        match times with
        | [] => next
        | (metric, time) :: rest =>
            if time < start then chunkFrom fuel rest start (count + metric) else next
      else some []

def chunkTimes (fuel : ℕ) (times : List Point) (start : ℤ) : Option (List ℚ) :=
  chunkFrom finish delta cumulative fuel times start 0

end Chunks

/-! ## Graphs -/

/-- A description, points that may have no time, and whether they are summed up. -/
structure Series where
  description : String
  times : List (ℚ × Option ℤ)
  cumulative : Bool

/-- The points that have a time. -/
def Series.dated (series : Series) : List Point :=
  series.times.filterMap fun (metric, time) => time.map fun time => (metric, time)

section Graphs

variable (dropBeg dropEnd cutoff : ℕ) (now : ℤ)

def longEnough (timess : List Series) : List Series :=
  timess.filter fun series =>
    cutoff ≤ series.dated.length ∧ dropBeg + dropEnd < series.dated.length

/-- `times[drop_beg:(len(times) - drop_end)]`. -/
def trimmed (series : Series) : List Point :=
  (series.dated.take (series.dated.length - dropEnd)).drop dropBeg

/-- `time.replace(hour=0, minute=0, second=0, microsecond=0)`. -/
def midnight (time : ℤ) : ℤ := time - time % day

/-- The start and the end of the graph, if there is a series. -/
def bounds (timess : List Series) : Option (ℤ × ℤ) := do
  let kept := longEnough dropBeg dropEnd cutoff timess
  let first ← (kept.filterMap fun series => (trimmed dropBeg dropEnd series).head?.map Prod.snd).min?
  let last ← (kept.filterMap fun series =>
    (trimmed dropBeg dropEnd series).getLast?.map Prod.snd).max?
  return (midnight first, min (midnight last + day) now)

/-- The descriptions and the data, and the start. -/
def makeGraphData (fuel : ℕ) (timess : List Series) :
    Option (List (String × List ℚ) × Option ℤ) :=
  match bounds dropBeg dropEnd cutoff now timess with
  | none => some ([], none)
  | some (start, finish) => do
      let graphData ← (longEnough dropBeg dropEnd cutoff timess).mapM fun series =>
        (chunkTimes finish hour series.cumulative fuel series.dated start).map fun data =>
          (series.description, data)
      return (graphData, some start)

end Graphs

/-! ## What is summed up -/

/-- The sum of the metrics of the points whose times satisfy a condition. -/
def total (times : List Point) (condition : ℤ → Bool) : ℚ :=
  ((times.filter fun point => condition point.2).map Prod.fst).sum

/-- A time belongs to a chunk: it is before the mark and, unless chunks are cumulative, not before
the mark before that. -/
def inChunk (start delta : ℤ) (cumulative : Bool) (chunk : ℕ) (time : ℤ) : Bool :=
  time < start + chunk * delta ∧
    (cumulative = true ∨ chunk = 0 ∨ start + ((chunk : ℤ) - 1) * delta ≤ time)

section Sums

variable {times rest : List Point} {condition other : ℤ → Bool} {metric : ℚ} {time start delta : ℤ}
  {cumulative : Bool} {chunk : ℕ}

theorem total_cons : total ((metric, time) :: rest) condition =
    (if condition time = true then metric else 0) + total rest condition := by
  cases holds : condition time <;> simp [total, holds]

theorem total_congr (same : ∀ point ∈ times, condition point.2 = other point.2) :
    total times condition = total times other := by
  rw [total, total, List.filter_congr same]

theorem total_eq_zero (none : ∀ point ∈ times, condition point.2 = false) :
    total times condition = 0 := by
  rw [total, List.filter_eq_nil_iff.mpr fun point isPoint => by rw [none point isPoint]; decide]
  rfl

theorem inChunk_of_lt (positive : 0 < delta) (before : time < start) :
    inChunk start delta cumulative chunk time = decide (cumulative = true ∨ chunk = 0) := by
  rw [inChunk, decide_eq_decide]
  have marks : (0 : ℤ) ≤ chunk * delta := by positivity
  constructor
  · rintro ⟨_, isCumulative | first | later⟩
    · exact Or.inl isCumulative
    · exact Or.inr first
    · by_contra neither
      have one : (1 : ℤ) ≤ chunk := by
        have := fun none => neither (Or.inr none)
        omega
      have steps : 0 ≤ ((chunk : ℤ) - 1) * delta := mul_nonneg (by omega) positive.le
      omega
  · intro either
    exact ⟨by omega, either.imp_right Or.inl⟩

theorem inChunk_zero (after : start ≤ time) : inChunk start delta cumulative 0 time = false := by
  rw [inChunk, decide_eq_false_iff_not]
  rintro ⟨before, _⟩
  rw [Nat.cast_zero, zero_mul, add_zero] at before
  exact absurd before (not_lt.mpr after)

theorem inChunk_succ (after : start ≤ time) :
    inChunk (start + delta) delta cumulative chunk time =
      inChunk start delta cumulative (chunk + 1) time := by
  have mark : start + delta + (chunk : ℤ) * delta = start + ((chunk + 1 : ℕ) : ℤ) * delta := by
    push_cast
    ring
  have earlier : start + delta + ((chunk : ℤ) - 1) * delta =
      start + (((chunk + 1 : ℕ) : ℤ) - 1) * delta := by
    push_cast
    ring
  rw [inChunk, inChunk, mark, earlier, decide_eq_decide]
  refine and_congr_right fun _ => or_congr_right ?_
  constructor
  · rintro (rfl | later)
    · right
      simpa using after
    · exact Or.inr later
  · rintro (isZero | later)
    · exact absurd isZero (Nat.succ_ne_zero _)
    · exact Or.inr later

end Sums

/-! ## The loop -/

section Loop

variable {finish delta start : ℤ} {cumulative : Bool} {times : List Point} {fuel : ℕ}

/-- The loop ends, and gives the sum of each chunk: the points that are left belong to it, and
those that were counted to the first one, or to all. -/
theorem chunkFrom_spec (positive : 0 < delta) {count : ℚ}
    (sorted : times.Pairwise fun earlier later => earlier.2 ≤ later.2)
    (enough : times.length + (finish + delta - start).toNat < fuel) :
    ∃ chunks, chunkFrom finish delta cumulative fuel times start count = some chunks ∧
      ∀ chunk : ℕ, chunks[chunk]? =
        if start + chunk * delta < finish + delta then
          some ((if cumulative = true ∨ chunk = 0 then count else 0) +
            total times (inChunk start delta cumulative chunk))
        else none := by
  induction fuel generalizing times start count with
  | zero => exact absurd enough (Nat.not_lt_zero _)
  | succ fuel ih =>
  rw [chunkFrom.eq_def]
  dsimp only
  by_cases going : start < finish + delta
  case neg =>
    refine ⟨[], if_neg going, fun chunk => ?_⟩
    have marks : (0 : ℤ) ≤ chunk * delta := by positivity
    rw [if_neg (by omega)]
    rfl
  case pos =>
  -- the chunk that ends here, where no point that is left is before the mark
  have moves (after : ∀ point ∈ times, start ≤ point.2) :
      ∃ chunks, (chunkFrom finish delta cumulative fuel times (start + delta)
          (if cumulative = true then count else 0)).map (fun chunks => count :: chunks) =
            some chunks ∧
        ∀ chunk : ℕ, chunks[chunk]? =
          if start + chunk * delta < finish + delta then
            some ((if cumulative = true ∨ chunk = 0 then count else 0) +
              total times (inChunk start delta cumulative chunk))
          else none := by
    rcases @ih (start + delta) times (if cumulative = true then count else 0) sorted (by omega)
      with ⟨chunks, ended, later⟩
    refine ⟨count :: chunks, by rw [ended]; rfl, fun chunk => ?_⟩
    cases chunk with
    | zero =>
        rw [List.getElem?_cons_zero, Nat.cast_zero, zero_mul, add_zero, if_pos going,
          if_pos (Or.inr rfl), total_eq_zero fun point isPoint =>
            inChunk_zero (after point isPoint), add_zero]
    | succ chunk =>
        have mark : start + delta + (chunk : ℤ) * delta = start + ((chunk + 1 : ℕ) : ℤ) * delta := by
          push_cast
          ring
        have carried : (if cumulative = true ∨ chunk = 0 then
            (if cumulative = true then count else 0) else 0) =
              if cumulative = true ∨ chunk + 1 = 0 then count else 0 := by
          cases cumulative <;> simp
        rw [List.getElem?_cons_succ, later, mark, carried, total_congr fun point isPoint =>
          inChunk_succ (after point isPoint)]
  rw [if_pos going]
  cases times with
  | nil => exact moves fun point isPoint => absurd isPoint List.not_mem_nil
  | cons point rest =>
      rcases point with ⟨metric, time⟩
      rw [List.pairwise_cons] at sorted
      rw [List.length_cons] at enough
      by_cases before : time < start
      · rcases @ih start rest (count + metric) sorted.2 (by omega) with ⟨chunks, ended, sums⟩
        refine ⟨chunks, by rw [← ended]; exact if_pos before, fun chunk => ?_⟩
        rw [sums, total_cons, inChunk_of_lt positive before]
        by_cases counts : cumulative = true ∨ chunk = 0
        · simp only [if_pos counts, decide_eq_true counts, if_pos, add_assoc]
        · simp only [if_neg counts, decide_eq_false counts, Bool.false_eq_true, if_false, zero_add]
      · simp only [if_neg before]
        refine moves fun point isPoint => ?_
        rcases List.mem_cons.mp isPoint with rfl | isRest
        · exact not_lt.mp before
        · exact (not_lt.mp before).trans (sorted.1 point isRest)

theorem chunkTimes_spec (positive : 0 < delta)
    (sorted : times.Pairwise fun earlier later => earlier.2 ≤ later.2)
    (enough : times.length + (finish + delta - start).toNat < fuel) :
    ∃ chunks, chunkTimes finish delta cumulative fuel times start = some chunks ∧
      ∀ chunk : ℕ, chunks[chunk]? =
        if start + chunk * delta < finish + delta then
          some (total times (inChunk start delta cumulative chunk))
        else none := by
  have spec := @chunkFrom_spec finish delta start cumulative times fuel positive 0 sorted enough
  rw [chunkTimes]
  simpa using spec

/-- The last value of cumulative chunks is the total before the first mark that is not before
the end. -/
theorem exists_of_getLast {chunks : List ℚ} {last : ℚ}
    (sums : ∀ chunk : ℕ, chunks[chunk]? =
      if start + chunk * delta < finish + delta then
        some (total times (inChunk start delta true chunk))
      else none)
    (isLast : chunks.getLast? = some last) :
    ∃ steps : ℕ, finish ≤ start + steps * delta ∧ start + steps * delta < finish + delta ∧
      last = total times fun time => time < start + steps * delta := by
  rw [List.getLast?_eq_getElem?] at isLast
  have inside := (List.getElem?_eq_some_iff.mp isLast).1
  have beyond := sums chunks.length
  rw [List.getElem?_eq_none le_rfl] at beyond
  have value := sums (chunks.length - 1)
  rw [isLast] at value
  split at value
  next going =>
    refine ⟨chunks.length - 1, ?_, going, ?_⟩
    · have stops : ¬ start + (chunks.length : ℤ) * delta < finish + delta := by
        intro more
        rw [if_pos more] at beyond
        cases beyond
      have steps : ((chunks.length - 1 : ℕ) : ℤ) * delta = (chunks.length : ℤ) * delta - delta := by
        rw [Nat.cast_sub (by omega)]
        push_cast
        ring
      rw [steps]
      omega
    · rw [Option.some.inj value]
      exact total_congr fun point _ => by simp [inChunk]
  next => cases value

end Loop

/-! ## The graph -/

/-- A value is the total of a series before the last mark, which is the total before now if no point
is from now on and before that mark. -/
def IsLastTotal (now start finish : ℤ) (series : Series) (last : ℚ) : Prop :=
  ∃ hours : ℕ, finish ≤ start + hours * hour ∧ start + hours * hour < finish + hour ∧
    last = total series.dated (fun time => time < start + hours * hour) ∧
      ((∀ point ∈ series.dated, now ≤ point.2 → start + hours * hour ≤ point.2) →
        last = total series.dated fun time => time < now)

section Graphs

variable {dropBeg cutoff fuel : ℕ} {now start finish : ℤ} {timess : List Series} {series : Series}

theorem lt_midnight_add_day {last : ℤ} (isKept : series ∈ longEnough dropBeg 0 cutoff timess)
    (sorted : series.dated.Pairwise fun earlier later => earlier.2 ≤ later.2)
    (isLast : ((longEnough dropBeg 0 cutoff timess).filterMap fun series =>
      (trimmed dropBeg 0 series).getLast?.map Prod.snd).max? = some last) :
    ∀ point ∈ series.dated, point.2 < midnight last + day := by
  intro point isPoint
  have long := (List.mem_filter.mp isKept).2
  rw [decide_eq_true_eq] at long
  have nonempty : series.dated ≠ [] := List.ne_nil_of_mem isPoint
  have ends : (trimmed dropBeg 0 series).getLast? = some (series.dated.getLast nonempty) := by
    rw [trimmed, Nat.sub_zero, List.take_length, List.getLast?_drop, if_neg (by omega),
      List.getLast?_eq_some_getLast nonempty]
  have notAfter : point.2 ≤ (series.dated.getLast nonempty).2 := by
    rcases List.mem_iff_getElem.mp isPoint with ⟨index, inside, rfl⟩
    rw [List.getLast_eq_getElem]
    rcases Nat.lt_or_ge index (series.dated.length - 1) with before | same
    · exact List.pairwise_iff_getElem.mp sorted _ _ inside (by omega) before
    · exact le_of_eq (by congr 2; omega)
  have most := (List.max?_eq_some_iff.mp isLast).2 (series.dated.getLast nonempty).2
    (List.mem_filterMap.mpr ⟨series, isKept, by rw [ends]; rfl⟩)
  have left : last % day < day := Int.emod_lt_of_pos _ (by decide)
  rw [midnight]
  omega

theorem isLastTotal_of_getLast {chunks : List ℚ} {last : ℚ}
    (isBounds : bounds dropBeg 0 cutoff now timess = some (start, finish))
    (isKept : series ∈ longEnough dropBeg 0 cutoff timess)
    (sorted : series.dated.Pairwise fun earlier later => earlier.2 ≤ later.2)
    (sums : ∀ chunk : ℕ, chunks[chunk]? =
      if start + chunk * hour < finish + hour then
        some (total series.dated (inChunk start hour true chunk))
      else none)
    (isLast : chunks.getLast? = some last) : IsLastTotal now start finish series last := by
  rcases exists_of_getLast sums isLast with ⟨hours, reached, near, same⟩
  refine ⟨hours, reached, near, same, fun noneBetween => ?_⟩
  rw [same]
  refine total_congr fun point isPoint => ?_
  rw [decide_eq_decide]
  simp only [bounds, Option.bind_eq_bind, Option.bind_eq_some_iff, Option.pure_def,
    Option.some.injEq, Prod.mk.injEq] at isBounds
  rcases isBounds with ⟨first, isFirst, latest, isLatest, rfl, rfl⟩
  have before := lt_midnight_add_day isKept sorted isLatest point isPoint
  have between := noneBetween point isPoint
  constructor <;> intro earlier <;> omega

theorem exists_mapM_eq_some {α β : Type} {compute : α → Option β} {related : α → β → Prop}
    {items : List α} (each : ∀ item ∈ items, ∃ value, compute item = some value ∧ related item value) :
    ∃ values, items.mapM compute = some values ∧ List.Forall₂ related items values := by
  induction items with
  | nil => exact ⟨[], rfl, .nil⟩
  | cons item rest ih =>
      rcases each item List.mem_cons_self with ⟨value, computes, isRelated⟩
      rcases ih fun other isRest => each other (List.mem_cons_of_mem _ isRest) with
        ⟨values, computesAll, allRelated⟩
      refine ⟨value :: values, ?_, .cons isRelated allRelated⟩
      rw [List.mapM_cons, computes, computesAll]
      rfl

theorem makeGraphData_of_fuel (isBounds : bounds dropBeg 0 cutoff now timess = some (start, finish))
    (allSorted : ∀ series ∈ timess,
      series.dated.Pairwise fun earlier later => earlier.2 ≤ later.2)
    (enough : ∀ series ∈ timess,
      series.dated.length + (finish + hour - start).toNat < fuel) :
    ∃ data, makeGraphData dropBeg 0 cutoff now fuel timess = some (data, some start) ∧
      List.Forall₂ (fun series entry => entry.1 = series.description ∧
          (series.cumulative = true → ∀ last, entry.2.getLast? = some last →
            IsLastTotal now start finish series last))
        (longEnough dropBeg 0 cutoff timess) data := by
  rcases @exists_mapM_eq_some _ _ (fun series =>
      (chunkTimes finish hour series.cumulative fuel series.dated start).map fun data =>
        (series.description, data))
      (fun series entry => entry.1 = series.description ∧
        (series.cumulative = true → ∀ last, entry.2.getLast? = some last →
          IsLastTotal now start finish series last))
      (longEnough dropBeg 0 cutoff timess) (by
    intro series isKept
    have isSeries := List.mem_of_mem_filter isKept
    rcases @chunkTimes_spec finish hour start series.cumulative series.dated fuel (by decide)
      (allSorted series isSeries) (enough series isSeries) with ⟨chunks, ends, sums⟩
    refine ⟨(series.description, chunks), by rw [ends]; rfl, rfl, fun isCumulative last isLast => ?_⟩
    rw [isCumulative] at sums
    exact isLastTotal_of_getLast isBounds isKept (allSorted series isSeries) sums isLast) with
    ⟨data, computes, related⟩
  refine ⟨data, ?_, related⟩
  rw [makeGraphData, isBounds]
  dsimp only
  rw [computes]
  rfl

end Graphs

namespace Sample

/-- Two points, of which one is a quarter of an hour from now. -/
def enrolled : Series where
  description := "Enrolled"
  times := [(1, some (2 * hour)), (1, some (10 * hour + hour / 2 + hour / 4)), (1, none)]
  cumulative := true

def now : ℤ := 10 * hour + hour / 2

end Sample

end EspWebsite.Program
