import EspWebsite.Cache.Interleavings

/-!
# Bulk reads

`get_many` reads the metadata of all keys and then the chunks of all large values.  It finds
for each key what `get` finds.
-/

namespace EspWebsite.Cache

namespace CacheClass

variable {Other : Type} (backend : CacheClass Other)

def found (store : Store Other) (key : String) (version : Nat) : Option (PyObject Other) :=
  let cacheKey := backend.makeKey key version
  match store (version, cacheKey) with
  | none => none
  | some value =>
      if isMetadata value then backend.resolveMetadata (some store) version cacheKey value
      else some value

/-- A fresh object as default: it is not metadata, and neither is it stored nor does
unpickling give it. -/
structure FreshDefault (store : Store Other) (default : PyObject Other) : Prop where
  plain : isMetadata default = false
  notStored : ∀ storeKey, store storeKey ≠ some default
  notLoaded : ∀ serialized, backend.loads serialized ≠ some default

variable {backend} {store : Store Other} {key : String} {version : Nat}
  {default value : PyObject Other}

theorem get_eq_getD (plain : isMetadata default = false) :
    backend.get (some store) (some store) key default version =
      (backend.found store key version).getD default := by
  rw [get, found]
  rw [wrappedGet]
  cases store (version, backend.makeKey key version) with
  | none => simp [plain]
  | some value =>
      rw [Option.getD_some]
      cases metadata : isMetadata value with
      | false => simp [metadata]
      | true => simp [metadata]

theorem resolveMetadata_ne {reading : Reading Other} {cacheKey : String}
    {object : PyObject Other} (notLoaded : ∀ serialized, backend.loads serialized ≠ some default) :
    backend.resolveMetadata reading version cacheKey object ≠ some default := by
  rw [resolveMetadata]
  split
  · exact (Option.some_ne_none _).symm
  · rw [deserializeChunkMap]
    split
    · exact (Option.some_ne_none _).symm
    · split
      · exact (Option.some_ne_none _).symm
      · exact notLoaded _

theorem found_ne_default (fresh : backend.FreshDefault store default) :
    backend.found store key version ≠ some default := by
  rw [found]
  split
  · exact nofun
  · rename_i value isValue
    split
    · exact resolveMetadata_ne fresh.notLoaded
    · rw [← isValue]
      exact fresh.notStored _

theorem found_eq_some_iff (fresh : backend.FreshDefault store default) :
    backend.found store key version = some value ↔
      backend.get (some store) (some store) key default version ≠ default ∧
        backend.get (some store) (some store) key default version = value := by
  have notDefault := @found_ne_default _ _ _ key version _ fresh
  rw [get_eq_getD fresh.plain]
  cases isFound : backend.found store key version with
  | none => simp
  | some object =>
      rw [isFound, ne_eq, Option.some.injEq] at notDefault
      rw [Option.getD_some, Option.some.injEq]
      exact (and_iff_right notDefault).symm

theorem joinChunks_congr {left right : Store Other} {storeKeys : List StoreKey}
    (same : ∀ storeKey ∈ storeKeys, left storeKey = right storeKey) :
    joinChunks left storeKeys = joinChunks right storeKeys := by
  induction storeKeys with
  | nil => rfl
  | cons storeKey rest ih =>
      rw [joinChunks, joinChunks, same storeKey List.mem_cons_self,
        ih fun other listed => same other (List.mem_cons_of_mem _ listed)]

theorem wrappedGetMany_of_mem {storeKeys : List StoreKey} {storeKey : StoreKey}
    (listed : storeKey ∈ storeKeys) :
    wrappedGetMany (some store) storeKeys storeKey = store storeKey :=
  if_pos listed

/-- What `get_many` answers for an entry is what is found, when its chunks are read among
others. -/
theorem answer_classify {wrapped : Store Other} {allStoreKeys : List StoreKey}
    (isWrapped : wrapped (version, backend.makeKey key version) =
      store (version, backend.makeKey key version))
    (requested : ∀ storeKey ∈
      (backend.classify wrapped version (backend.makeKey key version)).storeKeys,
        storeKey ∈ allStoreKeys) :
    backend.answer (wrappedGetMany (some store) allStoreKeys)
        (backend.classify wrapped version (backend.makeKey key version)) =
      backend.found store key version := by
  rw [found]
  rw [classify, isWrapped] at requested ⊢
  cases stored : store (version, backend.makeKey key version) with
  | none => rfl
  | some value =>
      simp only [stored] at requested ⊢
      cases metadata : isMetadata value with
      | false => rfl
      | true =>
          simp only [metadata, Bool.not_true, Bool.false_eq_true, if_false, if_true] at requested ⊢
          rw [resolveMetadata]
          cases decoded : decodeMetadata value with
          | none => rfl
          | some parsed =>
              simp only [decoded, Entry.storeKeys] at requested
              dsimp only
              rw [answer, deserializeChunkMap, deserializeChunkMap]
              rw [joinChunks_congr fun storeKey listed =>
                (wrappedGetMany_of_mem (requested storeKey listed)).trans
                  (wrappedGetMany_of_mem listed).symm]

theorem getMany_eq_filterMap {keys : List String} :
    backend.getMany (some store) (some store) keys version =
      keys.dedup.filterMap fun key =>
        (backend.found store key version).map fun value => (key, value) := by
  rw [getMany, List.filterMap_map]
  refine List.filterMap_congr fun key isKey => ?_
  rw [Function.comp_apply]
  dsimp only
  rw [answer_classify]
  · exact wrappedGetMany_of_mem (List.mem_map_of_mem isKey)
  · intro storeKey isRequested
    exact List.mem_flatMap.mpr ⟨_, List.mem_map_of_mem isKey, isRequested⟩

theorem mem_getMany {keys : List String} :
    (key, value) ∈ backend.getMany (some store) (some store) keys version ↔
      key ∈ keys ∧ backend.found store key version = some value := by
  rw [getMany_eq_filterMap, List.mem_filterMap]
  constructor
  · rintro ⟨other, isKey, isFound⟩
    rcases Option.map_eq_some_iff.mp isFound with ⟨object, isObject, same⟩
    cases same
    exact ⟨List.mem_dedup.mp isKey, isObject⟩
  · rintro ⟨isKey, isFound⟩
    exact ⟨key, List.mem_dedup.mpr isKey, by rw [isFound]; rfl⟩

theorem nodup_getMany {keys : List String} :
    ((backend.getMany (some store) (some store) keys version).map Prod.fst).Nodup := by
  rw [getMany_eq_filterMap, List.map_filterMap]
  apply keys.nodup_dedup.filterMap
  intro left right key isLeft isRight
  simp only [Option.mem_def, Option.map_map, Option.map_eq_some_iff] at isLeft isRight
  rcases isLeft with ⟨_, _, rfl⟩
  rcases isRight with ⟨_, _, same⟩
  exact same.symm

/-- `get_many` gives exactly the keys for which `get` does not return a fresh default, each once
and with the value that `get` returns. -/
theorem getMany_eq_get {keys : List String} (fresh : backend.FreshDefault store default) :
    ((backend.getMany (some store) (some store) keys version).map Prod.fst).Nodup ∧
      ∀ key value,
        (key, value) ∈ backend.getMany (some store) (some store) keys version ↔
          key ∈ keys ∧ backend.get (some store) (some store) key default version ≠ default ∧
            backend.get (some store) (some store) key default version = value := by
  constructor
  · exact nodup_getMany
  · intro key value
    rw [mem_getMany, found_eq_some_iff fresh]

end CacheClass

namespace TwoWriters

/-- A small value, and metadata of a large value whose chunks were evicted. -/
def partlyEvicted : Store Empty := fun storeKey =>
  if storeKey = (1, small.makeKey "k" 1) then some (.bytes [97])
  else if storeKey = (1, small.makeKey "j" 1) then
    some (.str (CacheClass.encodeMetadata 2 "45e5e894a2decf896eeb709645579031"))
  else none

theorem fresh_partlyEvicted : small.FreshDefault partlyEvicted (.str "default") where
  plain := by decide
  notStored storeKey := by
    rw [partlyEvicted]
    split_ifs
    · exact nofun
    · rw [ne_eq, Option.some.injEq, PyObject.str.injEq]
      decide
    · exact nofun
  notLoaded _ := nofun

/-- Of two keys that are asked for, one is found. -/
theorem getMany_partlyEvicted :
    ((small.getMany (some partlyEvicted) (some partlyEvicted) ["k", "j", "k"] 1).map
        Prod.fst).Nodup ∧
      ∀ key value,
        (key, value) ∈ small.getMany (some partlyEvicted) (some partlyEvicted)
            ["k", "j", "k"] 1 ↔
          key ∈ ["k", "j", "k"] ∧
            small.get (some partlyEvicted) (some partlyEvicted) key (.str "default") 1 ≠
              .str "default" ∧
            small.get (some partlyEvicted) (some partlyEvicted) key (.str "default") 1 =
              value :=
  CacheClass.getMany_eq_get fresh_partlyEvicted

example : small.getMany (some partlyEvicted) (some partlyEvicted) ["k", "j", "k"] 1 =
    [("k", .bytes [97])] := by
  decide

end TwoWriters

end EspWebsite.Cache
