import EspWebsite.Library.Calendar
import EspWebsite.Library.Numerals
import EspWebsite.Library.Python
import EspWebsite.Library.QuerySets

/-!
# Building queries

`utils/query_builder.py`, which turns what the client sends, a tree of filters, into a query set.
-/

namespace EspWebsite.Utils

open Python Calendar Queries

/-! ## What the client sends -/

inductive Json where
  | null
  | bool (value : Bool)
  | number (value : ℤ)
  | float (repr : String)
  | text (value : String)
  | list (items : List Json)
  | object (fields : List (String × Json))

namespace Json

/-- `value[key]` for a key that is a text. -/
def getItem (key : String) : Json → Raises Json
  | .object fields =>
      match fields.lookup key with
      | some value => .ok value
      | none => .error .keyError
  | _ => .error .typeError

/-- What a loop over the value goes through. -/
def iterate : Json → Raises (List Json)
  | .list items => .ok items
  | .text value => .ok (value.toList.map fun char => .text (String.singleton char))
  | .object fields => .ok (fields.map fun field => .text field.1)
  | _ => .error .typeError

/-- `value in options` for the keys of a dictionary, which are texts. -/
def isIn (options : List String) : Json → Raises Bool
  | .text value => .ok (value ∈ options)
  | .list _ | .object _ => .error .typeError
  | _ => .ok false

/-- `str(value)` of a value that can be a key. -/
def str : Json → String
  | .bool true => "True"
  | .bool false => "False"
  | .number value => toString value
  | .float repr => repr
  | .text value => value
  | _ => "None"

end Json

/-- A number of one or two digits. -/
def shortNumber (text : List Char) : Option ℕ :=
  if (text.length = 1 ∨ text.length = 2) ∧ text.all Char.isDigit then
    some (Nat.ofDigitChars 10 text 0)
  else none

/-- The day of a month, which may have a space in place of a leading zero. -/
def dayNumber : List Char → Option ℕ
  | [' ', digit] => shortNumber [digit]
  | text => shortNumber text

/-- `datetime.strptime(text, "%m/%d/%Y %H:%M")`. -/
def strptime (text : List Char) : Option Calendar.DateTime :=
  match text.splitOn '/' with
  | [month, day, rest] =>
      let year := rest.take 4
      let spaces := (rest.drop 4).takeWhile isSpace
      match ((rest.drop 4).dropWhile isSpace).splitOn ':' with
      | [hour, minute] =>
          if year.length = 4 ∧ year.all Char.isDigit ∧ spaces ≠ [] then do
            Calendar.DateTime.ofFields? (Nat.ofDigitChars 10 year 0) (← shortNumber month) (← dayNumber day)
              (← shortNumber hour) (← shortNumber minute) 0 0
          else none
      | _ => none
  | _ => none

/-! ## Inputs and filters -/

/-- What a field is compared with. -/
inductive LookupValue where
  | json (value : Json)
  | time (value : Calendar.DateTime)

/-- A keyword argument of `Q`: a field, with the name of the comparison, and a value. -/
structure Lookup where
  field : String
  value : LookupValue

inductive Input where
  | select (fieldName : String) (options : List String)
  | selectQ (options : List (String × Q Lookup))
  | constant (q : Q Lookup)
  | optional (inner : Input)
  | datetime (fieldName : String)
  | text (fieldName : String)

namespace Input

/-- The lookup of a `DatetimeInput`. -/
def datetimeLookup (fieldName : String) : Json → String
  | .text "before" => fieldName ++ "__lt"
  | .text "after" => fieldName ++ "__gt"
  | _ => fieldName

def asQ : Input → Json → Raises (Q Lookup)
  | .select fieldName options, value => do
      if ← value.isIn options then return .of [⟨fieldName, .json value⟩]
      else
        .error (.raised "ESPError"
          ("Invalid choice " ++ value.str ++ " for input " ++ fieldName))
  | .selectQ options, value => do
      if ← value.isIn (options.map Prod.fst) then
        return (options.lookup value.str).getD {}
      else return {}
  | .constant q, _ => .ok q
  | .optional _, .null => .ok {}
  | .optional inner, value => do inner.asQ (← value.getItem "inner")
  | .datetime fieldName, value => do
      let lookup := datetimeLookup fieldName (← value.getItem "comparison")
      match ← value.getItem "datetime" with
      | Json.text given =>
          match strptime given.toList with
          | some dt => return .of [⟨lookup, .time dt⟩]
          | none => .error .valueError
      | _ => .error .typeError
  | .text fieldName, value => .ok (.of [⟨fieldName, .json value⟩])

end Input

/-- `SearchFilter`. -/
structure SearchFilter where
  name : String
  inverted : Bool
  inputs : List Input

/-- `reduce(op, values)`, which raises where there is no value. -/
def reduce {α : Type} (op : α → α → α) : List α → Raises α
  | [] => .error .typeError
  | value :: rest => .ok (rest.foldl op value)

theorem reduce_eq_ok {α : Type} {op : α → α → α} {values : List α} {result : α} :
    reduce op values = .ok result ↔
      ∃ first rest, values = first :: rest ∧ rest.foldl op first = result := by
  cases values with
  | nil => simp [reduce]
  | cons first rest => simp [reduce]

theorem exists_reduce_mapM_iff {α β : Type} (op : β → β → β) {f : α → Raises β} {values : List α} :
    (∃ result, (do reduce op (← values.mapM f)) = .ok result) ↔
      values ≠ [] ∧ ∀ value ∈ values, ∃ result, f value = .ok result := by
  rw [← exists_mapM_iff]
  cases values with
  | nil => simp [reduce]
  | cons first rest => simp [reduce_eq_ok, List.mapM_cons, bind_eq_ok]

def SearchFilter.asQ (filter : SearchFilter) (value : Json) : Raises (Q Lookup) := do
  reduce Q.and (← (filter.inputs.zip (← value.iterate)).mapM fun (input, value) => input.asQ value)

/-! ## The query builder -/

/-- A node of the tree: `and` or `or` with the nodes below, or a filter with the values of its
inputs. -/
inductive Node where
  | combined (filter : Connector) (negated : Bool) (values : List Node)
  | single (filter : String) (isFilter : filter ∉ ["and", "or"]) (negated : Bool) (values : Json)

/-- The rows that are related to the objects, and the lookups that hold at a row or at nulls. -/
structure Database (Object Row : Type) where
  related : Object → List Row
  holds : Lookup → Object → Option Row → Bool

/-- Rows are joined by left joins. -/
def Database.model {Object Row : Type} (db : Database Object Row) :
    Model Lookup Object (Option Row) where
  rows := leftJoin db.related
  holds := db.holds

/-- `QueryBuilder`. -/
structure QueryBuilder (Object Row : Type) where
  base : QuerySet Object (Option Row)
  filters : List SearchFilter

namespace QueryBuilder

variable {Object Row : Type} (db : Database Object Row) (builder : QueryBuilder Object Row)

/-- `filter_dict`, where the last filter with a name counts. -/
def filterDict (name : String) : Option SearchFilter :=
  builder.filters.reverse.find? fun filter => filter.name = name

/-- The operator of a connector. -/
def op : Connector → QuerySet Object (Option Row) → QuerySet Object (Option Row) →
    QuerySet Object (Option Row)
  | .and => QuerySet.and
  | .or => QuerySet.or

mutual

def asQueryset : Node → Raises (QuerySet Object (Option Row))
  | .combined filter negated values => do
      let combined ← reduce (op filter) (← asQuerysets values)
      return if negated then builder.base.excludePk db.model combined else combined
  | .single filter _ negated values =>
      match builder.filterDict filter with
      | some filterObj => do
          let filterQ ← filterObj.asQ values
          let filtered := builder.base.filter db.model filterQ
          return if negated ^^ filterObj.inverted then
            builder.base.excludePk db.model filtered
          else filtered
      | none => .error (.raised "ESPError" ("Invalid filter " ++ filter))

/-- `map(self.as_queryset, values)`. -/
def asQuerysets : List Node → Raises (List (QuerySet Object (Option Row)))
  | [] => .ok []
  | node :: nodes => do
      let first ← asQueryset node
      let rest ← asQuerysets nodes
      return first :: rest

end

end QueryBuilder

/-! ## The tree as a formula -/

/-- Whether an input is satisfied by an object and a row, with the value that was entered. -/
def Input.Accepts {Object Row : Type} (db : Database Object Row) (object : Object)
    (row : Option Row) : Input → Json → Prop
  | .select fieldName _, value => db.holds ⟨fieldName, .json value⟩ object row = true
  | .selectQ options, .text value =>
      ∀ q, options.lookup value = some q → q.Holds db.model object row false
  | .selectQ _, _ => True
  | .constant q, _ => q.Holds db.model object row false
  | .optional _, .null => True
  | .optional inner, value =>
      ∀ given, value.getItem "inner" = .ok given → inner.Accepts db object row given
  | .datetime fieldName, value =>
      ∀ comparison given dt, value.getItem "comparison" = .ok comparison →
        value.getItem "datetime" = .ok (.text given) → strptime given.toList = some dt →
          db.holds ⟨datetimeLookup fieldName comparison, .time dt⟩ object row = true
  | .text fieldName, value => db.holds ⟨fieldName, .json value⟩ object row = true

section Formula

variable {Object Row : Type} (db : Database Object Row)

theorem Database.rows_ne_nil (object : Object) : db.model.rows object ≠ [] :=
  leftJoin_ne_nil db.related object

theorem holds_of_single {lookup : Lookup} {object : Object} {row : Option Row} :
    (Q.of [lookup]).Holds db.model object row false ↔ db.holds lookup object row = true := by
  simp [Q.holds_of, Database.model]

theorem holds_empty {object : Object} {row : Option Row} :
    ({} : Q Lookup).Holds db.model object row false :=
  Q.holds_of_isVacuous rfl

theorem Input.asQ_selectQ_text {options : List (String × Q Lookup)} {value : String} :
    (Input.selectQ options).asQ (.text value) = .ok ((options.lookup value).getD {}) := by
  by_cases isOption : value ∈ options.map Prod.fst
  · simp [asQ, Json.isIn, Json.str, isOption]
  · have missing : options.lookup value = none := by
      rw [List.lookup_eq_none_iff]
      intro option among
      have : value ≠ option.1 := fun same => isOption (same ▸ List.mem_map_of_mem among)
      simpa using this
    simp [asQ, Json.isIn, isOption, missing]

theorem Input.holds_asQ {object : Object} {row : Option Row} {input : Input} {value : Json}
    {q : Q Lookup} (isQuery : input.asQ value = .ok q) :
    q.Holds db.model object row false ↔ input.Accepts db object row value := by
  induction input generalizing value with
  | select fieldName options =>
      simp only [asQ, bind_eq_ok] at isQuery
      obtain ⟨isOption, -, isQuery⟩ := isQuery
      split at isQuery
      · cases isQuery
        exact holds_of_single db
      · cases isQuery
  | selectQ options =>
      cases value with
      | text value =>
          rw [asQ_selectQ_text, Except.ok.injEq] at isQuery
          subst isQuery
          cases found : options.lookup value with
          | none => exact iff_of_true (holds_empty db) (by simp [Accepts, found])
          | some option => simp [Accepts, found]
      | list | object => cases isQuery
      | _ =>
          cases isQuery
          exact iff_of_true (holds_empty db) trivial
  | constant constant =>
      cases isQuery
      exact Iff.rfl
  | optional inner ih =>
      cases value with
      | null =>
          cases isQuery
          exact iff_of_true (holds_empty db) trivial
      | _ =>
          simp only [asQ, bind_eq_ok] at isQuery
          obtain ⟨given, isGiven, isQuery⟩ := isQuery
          simp [Accepts, isGiven, ih isQuery]
  | datetime fieldName =>
      simp only [asQ, bind_eq_ok] at isQuery
      obtain ⟨comparison, isComparison, given, isGiven, isQuery⟩ := isQuery
      split at isQuery
      next text =>
        split at isQuery
        next dt isTime =>
          cases isQuery
          rw [holds_of_single]
          constructor
          · intro holds other asText time isOther isText isParsed
            rw [isComparison, Except.ok.injEq] at isOther
            rw [isGiven, Except.ok.injEq, Json.text.injEq] at isText
            rw [← isText, isTime, Option.some.injEq] at isParsed
            rwa [← isOther, ← isParsed]
          · intro accepts
            exact accepts comparison text dt isComparison isGiven isTime
        next => cases isQuery
      next => cases isQuery
  | text fieldName =>
      cases isQuery
      exact holds_of_single db

/-- Whether a filter is true of an object: the inputs accept one row together. -/
def SearchFilter.Matches (filter : SearchFilter) (object : Object) (values : Json) : Prop :=
  ∀ given, values.iterate = .ok given → ∃ row ∈ db.model.rows object,
    ∀ pair ∈ filter.inputs.zip given, pair.1.Accepts db object row pair.2

theorem holds_foldl_and {object : Object} {row : Option Row} {first : Q Lookup}
    {rest : List (Q Lookup)} :
    (rest.foldl Q.and first).Holds db.model object row false ↔
      ∀ q ∈ first :: rest, q.Holds db.model object row false := by
  induction rest generalizing first with
  | nil => simp
  | cons second rest ih =>
      rw [List.foldl_cons, ih]
      simp [Q.holds_and, and_assoc]

theorem SearchFilter.selects_asQ {filter : SearchFilter} {object : Object} {values : Json}
    {q : Q Lookup} (isQuery : filter.asQ values = .ok q) :
    q.Selects db.model object ↔ filter.Matches db object values := by
  rw [asQ, bind_eq_ok] at isQuery
  obtain ⟨given, isGiven, isQuery⟩ := isQuery
  rw [bind_eq_ok] at isQuery
  obtain ⟨queries, areQueries, isQuery⟩ := isQuery
  obtain ⟨first, rest, rfl, rfl⟩ := reduce_eq_ok.mp isQuery
  have holds (row : Option Row) : (rest.foldl Q.and first).Holds db.model object row false ↔
      ∀ pair ∈ filter.inputs.zip given, pair.1.Accepts db object row pair.2 := by
    rw [holds_foldl_and]
    exact forall_mem_congr (mapM_eq_ok.mp areQueries) fun _ _ => Input.holds_asQ db
  simp [Q.Selects, Matches, holds, isGiven]

namespace QueryBuilder

variable (builder : QueryBuilder Object Row)

/-- A statement or its negation. -/
def Signed (negated : Bool) (statement : Prop) : Prop :=
  if negated then ¬statement else statement

mutual

/-- Whether the tree, read as a formula, is true of an object. -/
def Satisfies (object : Object) : Node → Prop
  | .combined .and negated nodes => Signed negated (SatisfiesEach object nodes)
  | .combined .or negated nodes => Signed negated (SatisfiesSome object nodes)
  | .single name _ negated values =>
      ∀ filter, builder.filterDict name = some filter →
        Signed (negated ^^ filter.inverted) (filter.Matches db object values)

def SatisfiesEach (object : Object) : List Node → Prop
  | [] => True
  | node :: nodes => Satisfies object node ∧ SatisfiesEach object nodes

def SatisfiesSome (object : Object) : List Node → Prop
  | [] => False
  | node :: nodes => Satisfies object node ∨ SatisfiesSome object nodes

end

mutual

/-- Whether a tree is one that the page can send: no connector is empty, the filters exist, and
their inputs can read the values. -/
def Answerable : Node → Prop
  | .combined _ _ nodes => nodes ≠ [] ∧ EachAnswerable nodes
  | .single name _ _ values => ∃ filter given, builder.filterDict name = some filter ∧
      values.iterate = .ok given ∧ filter.inputs.zip given ≠ [] ∧
      ∀ pair ∈ filter.inputs.zip given, ∃ q, pair.1.asQ pair.2 = .ok q

def EachAnswerable : List Node → Prop
  | [] => True
  | node :: nodes => Answerable node ∧ EachAnswerable nodes

end

variable {db builder} {object : Object}

theorem satisfiesEach_iff {nodes : List Node} :
    builder.SatisfiesEach db object nodes ↔ ∀ node ∈ nodes, builder.Satisfies db object node := by
  induction nodes with
  | nil => simp [SatisfiesEach]
  | cons node nodes ih => simp [SatisfiesEach, ih]

theorem satisfiesSome_iff {nodes : List Node} :
    builder.SatisfiesSome db object nodes ↔ ∃ node ∈ nodes, builder.Satisfies db object node := by
  induction nodes with
  | nil => simp [SatisfiesSome]
  | cons node nodes ih => simp [SatisfiesSome, ih]

theorem selects_foldl_and {first : QuerySet Object (Option Row)}
    {rest : List (QuerySet Object (Option Row))} :
    (rest.foldl (op .and) first).Selects db.model object ↔
      ∀ querySet ∈ first :: rest, querySet.Selects db.model object := by
  induction rest generalizing first with
  | nil => simp
  | cons second rest ih =>
      rw [List.foldl_cons, ih]
      simp [op, QuerySet.selects_and, and_assoc]

theorem selects_foldl_or {first : QuerySet Object (Option Row)}
    {rest : List (QuerySet Object (Option Row))} :
    (rest.foldl (op .or) first).Selects db.model object ↔
      ∃ querySet ∈ first :: rest, querySet.Selects db.model object := by
  induction rest generalizing first with
  | nil => simp
  | cons second rest ih =>
      rw [List.foldl_cons, ih]
      simp [op, QuerySet.selects_or (db.rows_ne_nil object), or_assoc]

/-- What is left of the base when a part of it is taken out or kept. -/
theorem selects_signed {negated : Bool} {part : QuerySet Object (Option Row)} {formula : Prop}
    (isPart : part.Selects db.model object ↔
      builder.base.Selects db.model object ∧ formula) :
    (if negated then builder.base.excludePk db.model part else part).Selects db.model object ↔
      builder.base.Selects db.model object ∧ Signed negated formula := by
  cases negated with
  | false => simpa [Signed] using isPart
  | true =>
      simp only [Signed, if_true, QuerySet.selects_excludePk, isPart]
      tauto

mutual

theorem selects_of_asQueryset : ∀ {node : Node} {querySet : QuerySet Object (Option Row)},
    builder.asQueryset db node = .ok querySet →
      (querySet.Selects db.model object ↔
        builder.base.Selects db.model object ∧ builder.Satisfies db object node)
  | .combined connector negated nodes, querySet, isQuerySet => by
      rw [asQueryset, bind_eq_ok] at isQuerySet
      obtain ⟨parts, areParts, isQuerySet⟩ := isQuerySet
      rw [bind_eq_ok] at isQuerySet
      obtain ⟨combined, isCombined, result⟩ := isQuerySet
      have each := selects_of_asQuerysets areParts
      obtain ⟨first, rest, rfl, rfl⟩ := reduce_eq_ok.mp isCombined
      cases result
      cases connector with
      | and =>
          rw [Satisfies]
          refine selects_signed ?_
          rw [selects_foldl_and, satisfiesEach_iff, forall_mem_congr each fun _ _ same => same]
          obtain ⟨node, nodes, -, -, rfl⟩ := List.forall₂_cons_right_iff.mp each
          constructor
          · intro all
            exact ⟨(all node List.mem_cons_self).1, fun other isOther => (all other isOther).2⟩
          · rintro ⟨inBase, all⟩ other isOther
            exact ⟨inBase, all other isOther⟩
      | or =>
          rw [Satisfies]
          refine selects_signed ?_
          rw [selects_foldl_or, satisfiesSome_iff, exists_mem_congr each fun _ _ same => same]
          constructor
          · rintro ⟨node, isNode, inBase, isTrue⟩
            exact ⟨inBase, node, isNode, isTrue⟩
          · rintro ⟨inBase, node, isNode, isTrue⟩
            exact ⟨node, isNode, inBase, isTrue⟩
  | .single name isFilter negated values, querySet, isQuerySet => by
      rw [asQueryset] at isQuerySet
      split at isQuerySet
      next filter found =>
        rw [bind_eq_ok] at isQuerySet
        obtain ⟨q, isQuery, result⟩ := isQuerySet
        cases result
        rw [Satisfies]
        simp only [found, Option.some.injEq, forall_eq']
        refine selects_signed ?_
        rw [QuerySet.selects_filter, SearchFilter.selects_asQ db isQuery]
      next => cases isQuerySet

theorem selects_of_asQuerysets : ∀ {nodes : List Node}
    {querySets : List (QuerySet Object (Option Row))},
    builder.asQuerysets db nodes = .ok querySets →
      List.Forall₂ (fun node querySet => querySet.Selects db.model object ↔
        builder.base.Selects db.model object ∧ builder.Satisfies db object node) nodes querySets
  | [], querySets, areQuerySets => by
      cases areQuerySets
      exact .nil
  | node :: nodes, querySets, areQuerySets => by
      rw [asQuerysets, bind_eq_ok] at areQuerySets
      obtain ⟨first, isFirst, others⟩ := areQuerySets
      rw [bind_eq_ok] at others
      obtain ⟨rest, areRest, result⟩ := others
      cases result
      exact .cons (selects_of_asQueryset isFirst) (selects_of_asQuerysets areRest)

end

theorem exists_asQ_iff {filter : SearchFilter} {values : Json} :
    (∃ q, filter.asQ values = .ok q) ↔ ∃ given, values.iterate = .ok given ∧
      filter.inputs.zip given ≠ [] ∧
      ∀ pair ∈ filter.inputs.zip given, ∃ q, pair.1.asQ pair.2 = .ok q := by
  simp only [SearchFilter.asQ, bind_eq_ok, ← exists_reduce_mapM_iff Q.and]
  tauto

theorem asQuerysets_eq_mapM {nodes : List Node} :
    builder.asQuerysets db nodes = nodes.mapM (builder.asQueryset db) := by
  induction nodes with
  | nil => rfl
  | cons node nodes ih => rw [asQuerysets, ih, List.mapM_cons]

mutual

theorem exists_asQueryset_iff : ∀ {node : Node},
    (∃ querySet, builder.asQueryset db node = .ok querySet) ↔ builder.Answerable node
  | .combined connector negated nodes => by
      have each : builder.EachAnswerable nodes ↔
          ∀ node ∈ nodes, ∃ querySet, builder.asQueryset db node = .ok querySet :=
        eachAnswerable_iff
      rw [Answerable, each, ← exists_reduce_mapM_iff (op connector), ← asQuerysets_eq_mapM]
      simp only [asQueryset, bind_eq_ok]
      constructor
      · rintro ⟨_, parts, areParts, combined, isCombined, -⟩
        exact ⟨combined, parts, areParts, isCombined⟩
      · rintro ⟨combined, parts, areParts, isCombined⟩
        exact ⟨_, parts, areParts, combined, isCombined, rfl⟩
  | .single name isFilter negated values => by
      rw [Answerable]
      simp only [asQueryset]
      cases found : builder.filterDict name with
      | none => simp
      | some filter =>
          simp only [Option.some.injEq, exists_and_left, exists_eq_left', ← exists_asQ_iff]
          simp [bind_eq_ok]

theorem eachAnswerable_iff : ∀ {nodes : List Node}, builder.EachAnswerable nodes ↔
    ∀ node ∈ nodes, ∃ querySet, builder.asQueryset db node = .ok querySet
  | [] => by simp [EachAnswerable]
  | node :: nodes => by
      rw [EachAnswerable, ← exists_asQueryset_iff, eachAnswerable_iff, List.forall_mem_cons]

end

/-- A tree that the page can send gets the objects of the base of which it is true as a formula. -/
theorem asQueryset_selects_iff (db : Database Object Row) (builder : QueryBuilder Object Row)
    (node : Node) :
    ((∃ querySet, builder.asQueryset db node = .ok querySet) ↔ builder.Answerable node) ∧
      ∀ querySet, builder.asQueryset db node = .ok querySet → ∀ object,
        (querySet.Selects db.model object ↔
          builder.base.Selects db.model object ∧ builder.Satisfies db object node) :=
  ⟨exists_asQueryset_iff, fun _ isQuerySet _ => selects_of_asQueryset isQuerySet⟩

end QueryBuilder

end Formula

namespace QueryBuilder.Sample

/-- The first class has two flags, every other one has one of them. -/
def db : Database ℕ String where
  related object := if object = 1 then ["1", "2"] else ["1"]
  holds lookup _ row :=
    match lookup.value with
    | .json (.text value) => row = some value
    | _ => false

def builder : QueryBuilder ℕ String where
  base := { joins := 0, condition _ _ := true }
  filters :=
    [{ name := "flag", inverted := false, inputs := [.select "flags__flag_type" ["1", "2"]] }]

/-- A class has a flag of the one type and a flag of the other one. -/
def bothFlags : Node :=
  .combined .and false [
    .single "flag" (by decide) false (.list [.text "1"]),
    .single "flag" (by decide) false (.list [.text "2"])]

/-- The flags that make the two filters true are two rows. -/
theorem satisfies_bothFlags :
    builder.Satisfies db 1 bothFlags ∧ ¬builder.Satisfies db 2 bothFlags := by
  have selects := (asQueryset_selects_iff db builder bothFlags).2 _ rfl
  constructor
  · exact ((selects 1).mp (by decide)).2
  · intro isTrue
    exact absurd ((selects 2).mpr ⟨by decide, isTrue⟩) (by decide)

end QueryBuilder.Sample

end EspWebsite.Utils
