import EspWebsite.Cache.BulkReads
import EspWebsite.Cache.SingleClient

/-!
# Adding

`add` leaves it to the wrapped cache whether there is an entry for a small value, and looks for
an entry itself for a large one.  Where `get` calls an entry a miss, `add` need not.
-/

namespace EspWebsite.Cache

open Python

/-- What is stored under a key: an object, or what cannot be unpickled. -/
inductive Item (Other : Type) where
  | object (object : PyObject Other)
  | unreadable
  deriving DecidableEq

/-- What is in the wrapped cache, whether it can be read or not. -/
abbrev Items (Other : Type) := StoreKey → Option (Item Other)

namespace Items

variable {Other : Type} (items : Items Other)

/-- The objects that can be read. -/
def store : Store Other := fun storeKey =>
  match items storeKey with
  | some (.object object) => some object
  | some .unreadable | none => none

def isUnreadable (storeKey : StoreKey) : Bool :=
  match items storeKey with
  | some .unreadable => true
  | some (.object _) | none => false

/-- A read of keys, which raises if what is stored under one of them cannot be unpickled. -/
def reading (storeKeys : List StoreKey) : CacheClass.Reading Other :=
  if storeKeys.any items.isUnreadable then none else some items.store

/-- A write of the wrapped cache. -/
def put (storeKey : StoreKey) (object : PyObject Other) : Items Other :=
  Function.update items storeKey (some (.object object))

/-- Writes one after the other. -/
def putAll (writes : List (StoreKey × PyObject Other)) : Items Other :=
  writes.foldl (fun items write => items.put write.1 write.2) items

end Items

namespace CacheClass

variable {Other : Type} (backend : CacheClass Other)

/-- The keys that `_resolve_metadata` reads. -/
def resolvedKeys (version : Nat) (cacheKey : String) (value : PyObject Other) : List StoreKey :=
  match decodeMetadata value with
  | none => []
  | some (chunkCount, _) => backend.chunkStoreKeys version cacheKey chunkCount

/-- `get`, where some of what is stored may be unreadable. -/
def getItem (items : Items Other) (key : String) (default : PyObject Other) (version : Nat) :
    PyObject Other :=
  let cacheKey := backend.makeKey key version
  let first := items.reading [(version, cacheKey)]
  let value := wrappedGet first (version, cacheKey) default
  backend.get first (items.reading (backend.resolvedKeys version cacheKey value)) key default
    version

/-- `add`, with what it leaves in the wrapped cache.  `noneObject` is `None`. -/
def add [DecidableEq Other] (noneObject : Other) (items : Items Other) (key : String)
    (value : PyObject Other) (version : Nat) : Raises (Items Other × Bool) := do
  let cacheKey := backend.makeKey key version
  let (_, chunks) ← backend.splitValue value
  match chunks with
  | none =>
      -- The wrapped cache stores a value only where there is nothing.
      match items (version, cacheKey) with
      | none => return (items.put (version, cacheKey) value, true)
      | some _ => return (items, false)
  | some _ =>
      let existing :=
        wrappedGet (items.reading [(version, cacheKey)]) (version, cacheKey) (.other noneObject)
      if existing ≠ .other noneObject then return (items, false)
      else
        let (writes, stored) ← backend.setWrites version cacheKey value
        return (items.putAll writes, stored)

end CacheClass

/-! ## What is found -/

namespace Items

variable {Other : Type} {items left right : Items Other} {storeKey : StoreKey}
  {object : PyObject Other} {writes : List (StoreKey × PyObject Other)}

theorem put_self : items.put storeKey object storeKey = some (.object object) :=
  Function.update_self ..

theorem put_of_ne {other : StoreKey} (different : other ≠ storeKey) :
    items.put storeKey object other = items other :=
  Function.update_of_ne different ..

theorem putAll_of_notMem (notWritten : storeKey ∉ writes.map Prod.fst) :
    items.putAll writes storeKey = items storeKey := by
  induction writes generalizing items with
  | nil => rfl
  | cons write rest ih =>
      rw [List.map_cons, List.mem_cons, not_or] at notWritten
      exact (ih notWritten.2).trans (put_of_ne notWritten.1)

theorem putAll_of_mem (distinct : (writes.map Prod.fst).Nodup)
    (written : (storeKey, object) ∈ writes) :
    items.putAll writes storeKey = some (.object object) := by
  induction writes generalizing items with
  | nil => cases written
  | cons write rest ih =>
      rw [List.map_cons, List.nodup_cons] at distinct
      rcases List.mem_cons.mp written with rfl | later
      · exact (putAll_of_notMem distinct.1).trans put_self
      · exact ih distinct.2 later

theorem store_of_object (stored : items storeKey = some (.object object)) :
    items.store storeKey = some object := by
  rw [store, stored]

theorem reading_of_readable {storeKeys : List StoreKey}
    (readable : ∀ storeKey ∈ storeKeys, items.isUnreadable storeKey = false) :
    items.reading storeKeys = some items.store := by
  apply if_neg
  rw [List.any_eq_true]
  rintro ⟨storeKey, listed, unreadable⟩
  rw [readable storeKey listed] at unreadable
  cases unreadable

/-- A read depends only on what is stored under the keys that are read. -/
theorem wrappedGetMany_congr {storeKeys : List StoreKey}
    (same : ∀ storeKey ∈ storeKeys, left storeKey = right storeKey) :
    CacheClass.wrappedGetMany (left.reading storeKeys) storeKeys =
      CacheClass.wrappedGetMany (right.reading storeKeys) storeKeys := by
  have sameUnreadable : storeKeys.any left.isUnreadable = storeKeys.any right.isUnreadable := by
    rw [Bool.eq_iff_iff, List.any_eq_true, List.any_eq_true]
    refine exists_congr fun storeKey => and_congr_right fun listed => ?_
    rw [isUnreadable, isUnreadable, same storeKey listed]
  rw [reading, reading, sameUnreadable]
  split
  · rfl
  · funext storeKey
    rw [CacheClass.wrappedGetMany, CacheClass.wrappedGetMany]
    dsimp only
    split
    · rename_i listed
      rw [store, store, same storeKey listed]
    · rfl

end Items

namespace CacheClass

variable {Other : Type} {backend : CacheClass Other} {items : Items Other} {key : String}
  {version : Nat} {default value object : PyObject Other}

/-- What `get` finds under a key, if anything. -/
def foundItem (backend : CacheClass Other) (items : Items Other) (key : String)
    (version : Nat) : Option (PyObject Other) :=
  let cacheKey := backend.makeKey key version
  match items (version, cacheKey) with
  | none | some .unreadable => none
  | some (.object value) =>
      if isMetadata value then
        backend.resolveMetadata (items.reading (backend.resolvedKeys version cacheKey value))
          version cacheKey value
      else some value

theorem wrappedGet_reading {storeKey : StoreKey} :
    wrappedGet (items.reading [storeKey]) storeKey default =
      (items.store storeKey).getD default := by
  cases stored : items storeKey with
  | none => simp [Items.reading, Items.isUnreadable, Items.store, wrappedGet, stored]
  | some item =>
      cases item with
      | object object => simp [Items.reading, Items.isUnreadable, Items.store, wrappedGet, stored]
      | unreadable => simp [Items.reading, Items.isUnreadable, Items.store, wrappedGet, stored]

theorem getItem_eq_getD (plain : isMetadata default = false) :
    backend.getItem items key default version =
      (backend.foundItem items key version).getD default := by
  rw [getItem, foundItem, get, wrappedGet_reading, Items.store]
  cases items (version, backend.makeKey key version) with
  | none => simp [plain]
  | some item =>
      cases item with
      | unreadable => simp [plain]
      | object value =>
          rw [Option.getD_some]
          cases metadata : isMetadata value with
          | false => simp [metadata]
          | true => simp [metadata]

theorem getItem_eq_default_iff (fresh : backend.FreshDefault items.store default) :
    backend.getItem items key default version = default ↔
      backend.foundItem items key version = none := by
  rw [getItem_eq_getD fresh.plain]
  cases isFound : backend.foundItem items key version with
  | none => simp
  | some value =>
      rw [Option.getD_some]
      simp only [reduceCtorEq, iff_false]
      rintro rfl
      rw [foundItem] at isFound
      split at isFound
      · cases isFound
      · cases isFound
      · rename_i object stored
        split at isFound
        · exact resolveMetadata_ne fresh.notLoaded isFound
        · exact fresh.notStored _ (isFound ▸ Items.store_of_object stored)

/-! ## What was written is found -/

theorem parseInt_toString (number : Nat) :
    parseInt (toString number).toList = some (number : Int) := by
  have written : (toString number).toList = Nat.toDigits 10 number := Nat.toList_repr
  have digits : ∀ char ∈ Nat.toDigits 10 number, char.isDigit = true := fun _ isMember =>
    Nat.isDigit_of_mem_toDigits (by decide) (by decide) isMember
  have keeps : ∀ text : List Char, (∀ char ∈ text, char.isDigit = true) →
      text.dropWhile Char.isWhitespace = text := by
    intro text digits
    cases text with
    | nil => rfl
    | cons char rest =>
        have range := Char.isDigit_iff_toNat.mp (digits char List.mem_cons_self)
        apply List.dropWhile_cons_of_neg
        intro space
        simp only [Char.isWhitespace, Bool.or_eq_true, decide_eq_true_eq] at space
        rcases space with ((rfl | rfl) | rfl) | rfl
        all_goals exact absurd range (by decide)
  have reversed : ∀ char ∈ (Nat.toDigits 10 number).reverse, char.isDigit = true :=
    fun char isMember => digits char (List.mem_reverse.mp isMember)
  have single : (Nat.toDigits 10 number).splitOn '_' = [Nat.toDigits 10 number] :=
    List.splitOn_eq_singleton Nat.underscore_not_in_toDigits
  rw [parseInt, written, keeps _ digits, keeps _ reversed, List.reverse_reverse]
  dsimp only
  split
  · rename_i rest same
    exact absurd (digits '-' (same ▸ List.mem_cons_self)) (by decide)
  · rename_i rest same
    exact absurd (digits '+' (same ▸ List.mem_cons_self)) (by decide)
  · rw [single]
    simp [Nat.toDigits_ne_nil, List.all_eq_true.mpr digits, Nat.ofDigitChars_ten_toDigits]

/-- Unpickling restores a pickled object, and digests are texts of hexadecimal digits. -/
structure Restores (backend : CacheClass Other) : Prop where
  loads_dumps : ∀ object serialized, backend.dumps object = some serialized →
    backend.loads serialized = some object
  digest_nonempty : ∀ data, backend.shortDigest data ≠ ""
  digest_hexadecimal : ∀ data, multikeyMetaSeparator ∉ (backend.shortDigest data).toList

theorem decodeMetadata_of_restores (restores : backend.Restores) {chunkCount : Nat}
    (positive : 0 < chunkCount) {data : Bytes} :
    decodeMetadata (.str (encodeMetadata chunkCount (backend.shortDigest data)) :
      PyObject Other) = some (chunkCount, backend.shortDigest data) := by
  have notNil : (backend.shortDigest data).toList ≠ [] := by
    rw [ne_eq, String.toList_eq_nil_iff]
    exact restores.digest_nonempty data
  rw [decodeMetadata, isMetadata_encodeMetadata, splitOn_encodeMetadata,
    List.splitOn_eq_singleton (restores.digest_hexadecimal data)]
  dsimp only
  rw [parseInt_toString]
  simp [notNil, Nat.ne_of_gt positive]

theorem flatten_chunks {serialized : Bytes} (positive : 0 < backend.valueChunkSize) :
    (backend.chunks serialized).flatten = serialized := by
  have pieces : ∀ count : Nat, ((List.range count).map fun index =>
      (serialized.drop (index * backend.valueChunkSize)).take backend.valueChunkSize).flatten =
        serialized.take (count * backend.valueChunkSize) := by
    intro count
    induction count with
    | zero => simp
    | succ count ih =>
        rw [List.range_succ, List.map_append, List.flatten_append, ih, Nat.succ_mul,
          List.take_add]
        simp
  rw [chunks, pieces]
  apply List.take_of_length_le
  have enough := Nat.lt_div_mul_add (a := serialized.length + backend.valueChunkSize - 1) positive
  omega

theorem joinChunks_of_bytes {chunkMap : Store Other} {chunks : List Bytes}
    {storeKeys : List StoreKey}
    (isChunk : List.Forall₂ (fun storeKey data => chunkMap storeKey = some (.bytes data))
      storeKeys chunks) :
    joinChunks chunkMap storeKeys = some chunks.flatten := by
  induction isChunk with
  | nil => rfl
  | cons first _ ih =>
      rw [joinChunks, first, ih]
      rfl

section Written

variable {serialized : Bytes} {pieces : List Bytes} {cacheKey : String}

theorem splitValue_eq_chunks (split : backend.splitValue value = .ok (serialized, some pieces)) :
    backend.dumps value = some serialized ∧ 0 < backend.valueChunkSize ∧
      pieces = backend.chunks serialized ∧ 0 < pieces.length := by
  rw [splitValue] at split
  split at split
  · cases split
  · rename_i data dumped
    split at split
    · cases split
    · split at split
      · cases split
      · rename_i positive
        cases split
        refine ⟨dumped, Nat.pos_of_ne_zero positive, rfl, ?_⟩
        rw [chunks, List.length_map, List.length_range]
        apply Nat.div_pos
        · omega
        · exact Nat.pos_of_ne_zero positive

theorem chunkStoreKeys_eq :
    backend.chunkStoreKeys version cacheKey pieces.length =
      pieces.zipIdx.map fun entry =>
        (version, chunkKey (backend.chunkPrefix cacheKey) entry.2) := by
  rw [chunkStoreKeys, chunkKeys, List.map_map, List.range_eq_range', ← List.zipIdx_map_snd 0 pieces,
    List.map_map]
  rfl

theorem nodup_chunkStoreKeys {count : Nat} :
    (backend.chunkStoreKeys version cacheKey count).Nodup := by
  rw [chunkStoreKeys, chunkKeys, List.map_map]
  apply List.nodup_range.map
  intro left right same
  have sameKey : chunkKey (backend.chunkPrefix cacheKey) left =
      chunkKey (backend.chunkPrefix cacheKey) right := congrArg Prod.snd same
  have sameText : toString left = toString right := (String.append_right_inj _).mp sameKey
  have sameNumber := congrArg (fun text : String => parseInt text.toList) sameText
  simp only [parseInt_toString, Option.some.injEq] at sameNumber
  exact Int.ofNat.inj sameNumber

theorem notMem_chunkStoreKeys {count : Nat} :
    (version, backend.makeKey key version) ∉
      backend.chunkStoreKeys version (backend.makeKey key version) count := by
  intro listed
  rcases List.mem_map.mp listed with ⟨chunk, isChunk, same⟩
  rcases List.mem_map.mp isChunk with ⟨index, _, rfl⟩
  exact makeKey_ne_chunkKey key version _ index (congrArg Prod.snd same).symm

/-- The writes for a value that is stored in chunks: the chunks, and last the metadata. -/
def splitWrites (backend : CacheClass Other) (version : Nat) (cacheKey : String)
    (serialized : Bytes) (pieces : List Bytes) : List (StoreKey × PyObject Other) :=
  (pieces.zipIdx.map fun entry =>
    ((version, chunkKey (backend.chunkPrefix cacheKey) entry.2), .bytes entry.1)) ++
  [((version, cacheKey), .str (encodeMetadata pieces.length (backend.shortDigest serialized)))]

theorem setWrites_of_chunks (split : backend.splitValue value = .ok (serialized, some pieces))
    (fits : pieces.length ≤ backend.maxChunks) :
    backend.setWrites version cacheKey value =
      .ok (backend.splitWrites version cacheKey serialized pieces, true) := by
  rw [setWrites, split]
  exact if_neg (not_lt.mpr fits)

theorem nodup_splitWrites :
    ((backend.splitWrites version (backend.makeKey key version) serialized pieces).map
      Prod.fst).Nodup := by
  have keys : (backend.splitWrites version (backend.makeKey key version) serialized pieces).map
      Prod.fst =
        backend.chunkStoreKeys version (backend.makeKey key version) pieces.length ++
          [(version, backend.makeKey key version)] := by
    rw [splitWrites, List.map_append, chunkStoreKeys_eq, List.map_map]
    rfl
  rw [keys, List.nodup_append_comm]
  exact List.nodup_cons.mpr ⟨notMem_chunkStoreKeys, nodup_chunkStoreKeys⟩

theorem foundItem_putAll (restores : backend.Restores)
    (split : backend.splitValue value = .ok (serialized, some pieces)) :
    backend.foundItem
        (items.putAll (backend.splitWrites version (backend.makeKey key version) serialized
          pieces)) key version = some value := by
  rcases splitValue_eq_chunks split with ⟨dumped, positive, isChunks, nonempty⟩
  have distinct := @nodup_splitWrites _ backend key version serialized pieces
  generalize isAfter : items.putAll _ = after
  have metadata : after (version, backend.makeKey key version) =
      some (.object (.str (encodeMetadata pieces.length (backend.shortDigest serialized)))) := by
    rw [← isAfter]
    apply Items.putAll_of_mem distinct
    exact List.mem_append_right _ (List.mem_singleton.mpr rfl)
  have chunk : ∀ entry ∈ pieces.zipIdx,
      after (version, chunkKey (backend.chunkPrefix (backend.makeKey key version)) entry.2) =
        some (.object (.bytes entry.1)) := by
    intro entry listed
    rw [← isAfter]
    apply Items.putAll_of_mem distinct
    exact List.mem_append_left _ (List.mem_map_of_mem listed)
  have readable : after.reading
      (backend.chunkStoreKeys version (backend.makeKey key version) pieces.length) =
        some after.store := by
    apply Items.reading_of_readable
    intro storeKey listed
    rw [chunkStoreKeys_eq] at listed
    rcases List.mem_map.mp listed with ⟨entry, isEntry, rfl⟩
    rw [Items.isUnreadable, chunk entry isEntry]
  have areChunks : List.Forall₂
      (fun storeKey data => after.store storeKey = some (.bytes data))
      (pieces.zipIdx.map fun entry =>
        (version, chunkKey (backend.chunkPrefix (backend.makeKey key version)) entry.2))
      (pieces.zipIdx.map Prod.fst) := by
    rw [List.forall₂_map_left_iff, List.forall₂_map_right_iff, List.forall₂_same]
    exact fun entry listed => Items.store_of_object (chunk entry listed)
  rw [← chunkStoreKeys_eq, List.zipIdx_map_fst] at areChunks
  have joined : joinChunks (wrappedGetMany (some after.store)
      (backend.chunkStoreKeys version (backend.makeKey key version) pieces.length))
        (backend.chunkStoreKeys version (backend.makeKey key version) pieces.length) =
          some serialized := by
    rw [joinChunks_congr fun _ listed => wrappedGetMany_of_mem listed,
      joinChunks_of_bytes areChunks, isChunks, flatten_chunks positive]
  rw [foundItem, metadata]
  dsimp only
  rw [isMetadata_encodeMetadata, if_pos rfl, resolveMetadata, resolvedKeys,
    decodeMetadata_of_restores restores nonempty]
  dsimp only
  rw [readable, deserializeChunkMap, joined]
  dsimp only
  rw [if_neg (not_not.mpr rfl), restores.loads_dumps value serialized dumped]

end Written

/-! ## When adding sees a miss -/

/-- The value is stored in chunks. -/
def Chunked (backend : CacheClass Other) (value : PyObject Other) : Prop :=
  ∃ serialized pieces, backend.splitValue value = .ok (serialized, some pieces) ∧
    pieces.length ≤ backend.maxChunks

/-- What metadata leads to. -/
def resolved (backend : CacheClass Other) (items : Items Other) (version : Nat)
    (cacheKey : String) (value : PyObject Other) : Option (PyObject Other) :=
  backend.resolveMetadata (items.reading (backend.resolvedKeys version cacheKey value)) version
    cacheKey value

/-- Where there is no entry, the value can be stored and does not look like metadata of
another one.  Where there is one, it can be read and is not `None`, or the value is stored in
chunks over one that cannot be read, or nothing is stored over `None`. -/
def SeesMiss (backend : CacheClass Other) (noneObject : Other) (items : Items Other)
    (key : String) (value : PyObject Other) (version : Nat) : Prop :=
  let cacheKey := backend.makeKey key version
  match items (version, cacheKey) with
  | none =>
      Chunked backend value ∨
        Unsplit backend value ∧
          (isMetadata value = true → backend.resolved items version cacheKey value = some value)
  | some .unreadable => Chunked backend value
  | some (.object object) =>
      if isMetadata object then backend.resolved items version cacheKey object ≠ none
      else object = .other noneObject → ¬Chunked backend value

/-- `add` stores the value and returns `True` if and only if `get` misses, and otherwise does
not change what `get` returns. -/
def AddsOnMiss [DecidableEq Other] (backend : CacheClass Other) (noneObject : Other)
    (items : Items Other) (key : String) (value default : PyObject Other) (version : Nat) :
    Prop :=
  ∃ after stored, backend.add noneObject items key value version = .ok (after, stored) ∧
    (backend.getItem items key default version = default ↔
      stored = true ∧ backend.getItem after key default version = value) ∧
    (backend.getItem items key default version ≠ default →
      backend.getItem after key default version = backend.getItem items key default version)

theorem notMem_resolvedKeys :
    (version, backend.makeKey key version) ∉
      backend.resolvedKeys version (backend.makeKey key version) value := by
  rw [resolvedKeys]
  split
  · exact List.not_mem_nil
  · exact notMem_chunkStoreKeys

/-- Writing under the key itself does not change what metadata leads to. -/
theorem resolved_put :
    backend.resolved (items.put (version, backend.makeKey key version) object) version
        (backend.makeKey key version) value =
      backend.resolved items version (backend.makeKey key version) value := by
  have same : ∀ storeKey ∈ backend.resolvedKeys version (backend.makeKey key version) value,
      items.put (version, backend.makeKey key version) object storeKey = items storeKey := by
    intro storeKey listed
    apply Items.put_of_ne
    rintro rfl
    exact notMem_resolvedKeys listed
  rw [resolved, resolved, resolveMetadata, resolveMetadata]
  rw [resolvedKeys] at same ⊢
  split
  · rfl
  · rename_i chunkCount digest decoded
    simp only [decoded] at same ⊢
    rw [Items.wrappedGetMany_congr same]

theorem foundItem_put :
    backend.foundItem (items.put (version, backend.makeKey key version) value) key version =
      if isMetadata value then backend.resolved items version (backend.makeKey key version) value
      else some value := by
  rw [foundItem, Items.put_self]
  dsimp only
  rw [← resolved, resolved_put]

theorem foundItem_of_object
    (stored : items (version, backend.makeKey key version) = some (.object object)) :
    backend.foundItem items key version =
      if isMetadata object then
        backend.resolved items version (backend.makeKey key version) object
      else some object := by
  rw [foundItem, stored]
  rfl

section AddsOnMiss

variable [DecidableEq Other] {noneObject : Other} {serialized : Bytes} {pieces : List Bytes}
  {after : Items Other}

theorem addsOnMiss_of_missed (fresh : backend.FreshDefault items.store default)
    (added : backend.add noneObject items key value version = .ok (after, true))
    (missed : backend.foundItem items key version = none) :
    AddsOnMiss backend noneObject items key value default version ↔
      backend.getItem after key default version = value := by
  have misses := (getItem_eq_default_iff fresh).mpr missed
  constructor
  · rintro ⟨_, _, same, stores, _⟩
    cases added.symm.trans same
    exact (stores.mp misses).2
  · intro isFound
    exact ⟨after, true, added, iff_of_true misses ⟨rfl, isFound⟩,
      fun notMissed => absurd misses notMissed⟩

theorem addsOnMiss_of_stored (fresh : backend.FreshDefault items.store default)
    (added : backend.add noneObject items key value version = .ok (after, true))
    (isFound : backend.getItem after key default version = value) :
    AddsOnMiss backend noneObject items key value default version ↔
      backend.foundItem items key version = none := by
  constructor
  · rintro ⟨_, _, same, stores, _⟩
    cases added.symm.trans same
    exact (getItem_eq_default_iff fresh).mp (stores.mpr ⟨rfl, isFound⟩)
  · intro missed
    exact (addsOnMiss_of_missed fresh added missed).mpr isFound

theorem addsOnMiss_of_refused (fresh : backend.FreshDefault items.store default)
    (added : backend.add noneObject items key value version = .ok (items, false)) :
    AddsOnMiss backend noneObject items key value default version ↔
      backend.foundItem items key version ≠ none := by
  rw [ne_eq, ← getItem_eq_default_iff fresh]
  constructor
  · rintro ⟨_, _, same, stores, _⟩ misses
    cases added.symm.trans same
    cases (stores.mp misses).1
  · intro notMissed
    exact ⟨items, false, added, iff_of_false notMissed nofun, fun _ => rfl⟩

theorem addsOnMiss_of_unsplit (fresh : backend.FreshDefault items.store default)
    (split : backend.splitValue value = .ok (serialized, none)) :
    AddsOnMiss backend noneObject items key value default version ↔
      SeesMiss backend noneObject items key value version := by
  have unsplit : Unsplit backend value := ⟨serialized, split⟩
  have notChunked : ¬Chunked backend value := by
    rintro ⟨_, _, chunked, _⟩
    cases split.symm.trans chunked
  rw [SeesMiss]
  cases stored : items (version, backend.makeKey key version) with
  | none =>
      have added : backend.add noneObject items key value version =
          .ok (items.put (version, backend.makeKey key version) value, true) := by
        rw [add, split]
        change (match items (version, backend.makeKey key version) with
          | none => _
          | some _ => _) = _
        rw [stored]
        rfl
      have missed : backend.foundItem items key version = none := by
        rw [foundItem, stored]
      rw [addsOnMiss_of_missed fresh added missed, getItem_eq_getD fresh.plain, foundItem_put]
      simp only [notChunked, unsplit, false_or, true_and]
      cases metadata : isMetadata value with
      | false => simp
      | true =>
          simp only [if_true, true_implies]
          constructor
          · intro isFound
            cases leads : backend.resolved items version (backend.makeKey key version) value with
            | none =>
                rw [leads, Option.getD_none] at isFound
                rw [← isFound, fresh.plain] at metadata
                cases metadata
            | some found =>
                rw [leads, Option.getD_some] at isFound
                rw [isFound]
          · intro leads
            rw [leads, Option.getD_some]
  | some item =>
      have added : backend.add noneObject items key value version = .ok (items, false) := by
        rw [add, split]
        change (match items (version, backend.makeKey key version) with
          | none => _
          | some _ => _) = _
        rw [stored]
        rfl
      rw [addsOnMiss_of_refused fresh added]
      cases item with
      | unreadable =>
          have missed : backend.foundItem items key version = none := by
            rw [foundItem, stored]
          simp [missed, notChunked]
      | object object =>
          rw [foundItem_of_object stored]
          cases metadata : isMetadata object with
          | false => simp [metadata, notChunked]
          | true => simp [metadata]

theorem add_of_existing (split : backend.splitValue value = .ok (serialized, some pieces))
    (stored : items (version, backend.makeKey key version) = some (.object object))
    (notNone : object ≠ .other noneObject) :
    backend.add noneObject items key value version = .ok (items, false) := by
  rw [add, split]
  change (if wrappedGet _ _ _ ≠ _ then _ else _) = _
  rw [wrappedGet_reading, Items.store, stored]
  exact if_pos notNone

theorem add_of_none (split : backend.splitValue value = .ok (serialized, some pieces))
    (isNone : (items.store (version, backend.makeKey key version)).getD (.other noneObject) =
      .other noneObject) :
    backend.add noneObject items key value version =
      if pieces.length ≤ backend.maxChunks then
        .ok (items.putAll
          (backend.splitWrites version (backend.makeKey key version) serialized pieces), true)
      else .ok (items, false) := by
  rw [add, split]
  change (if wrappedGet _ _ _ ≠ _ then _ else _) = _
  rw [wrappedGet_reading, isNone, if_neg (not_not.mpr rfl)]
  split
  · rename_i fits
    rw [setWrites_of_chunks split fits]
    rfl
  · rename_i tooMany
    have refused : backend.setWrites version (backend.makeKey key version) value =
        .ok ([], false) := by
      rw [setWrites, split]
      exact if_pos (not_le.mp tooMany)
    rw [refused]
    rfl

theorem addsOnMiss_of_split (restores : backend.Restores)
    (fresh : backend.FreshDefault items.store default)
    (split : backend.splitValue value = .ok (serialized, some pieces)) :
    AddsOnMiss backend noneObject items key value default version ↔
      SeesMiss backend noneObject items key value version := by
  have notUnsplit : ¬Unsplit backend value := by
    rintro ⟨_, unsplit⟩
    cases split.symm.trans unsplit
  have chunked : Chunked backend value ↔ pieces.length ≤ backend.maxChunks := by
    constructor
    · rintro ⟨_, _, other, fits⟩
      cases split.symm.trans other
      exact fits
    · exact fun fits => ⟨serialized, pieces, split, fits⟩
  -- Without an entry that is seen, the value is stored or refused.
  have unseen (isNone : (items.store (version, backend.makeKey key version)).getD
      (.other noneObject) = .other noneObject) :
      AddsOnMiss backend noneObject items key value default version ↔
        (Chunked backend value ↔ backend.foundItem items key version = none) := by
    have added := add_of_none split isNone
    rw [chunked]
    split at added
    · rename_i fits
      have isFound := @foundItem_putAll _ _ items key version _ _ _ restores split
      rw [addsOnMiss_of_stored fresh added (by
        rw [getItem_eq_getD fresh.plain, isFound, Option.getD_some])]
      exact (iff_true_left fits).symm
    · rename_i tooMany
      rw [addsOnMiss_of_refused fresh added]
      exact (iff_false_left tooMany).symm
  rw [SeesMiss]
  cases stored : items (version, backend.makeKey key version) with
  | none =>
      have missed : backend.foundItem items key version = none := by
        rw [foundItem, stored]
      rw [unseen (by rw [Items.store, stored]; rfl)]
      simp [missed, notUnsplit]
  | some item =>
      cases item with
      | unreadable =>
          have missed : backend.foundItem items key version = none := by
            rw [foundItem, stored]
          rw [unseen (by rw [Items.store, stored]; rfl)]
          simp [missed]
      | object object =>
          by_cases isNone : object = .other noneObject
          · rw [unseen (by rw [Items.store, stored]; exact isNone),
              foundItem_of_object stored, isNone]
            simp [isMetadata]
          · rw [addsOnMiss_of_refused fresh (add_of_existing split stored isNone),
              foundItem_of_object stored]
            cases metadata : isMetadata object with
            | false => simp [metadata, isNone]
            | true => simp [metadata]

/-- `add` stores a value and returns `True` exactly where `get` misses, if and only if it sees
the miss. -/
theorem addsOnMiss_iff (restores : backend.Restores)
    (fresh : backend.FreshDefault items.store default) {split : Bytes × Option (List Bytes)}
    (isSplit : backend.splitValue value = .ok split) :
    AddsOnMiss backend noneObject items key value default version ↔
      SeesMiss backend noneObject items key value version := by
  rcases split with ⟨serialized, pieces⟩
  cases pieces with
  | none => exact addsOnMiss_of_unsplit fresh isSplit
  | some pieces => exact addsOnMiss_of_split restores fresh isSplit

end AddsOnMiss

end CacheClass

namespace TwoWriters

/-- The digests that are used, and one digest for all other bytes. -/
def shortDigest (data : Bytes) : String :=
  if data = pickle [97, 98] then "ba91c9bbb31b44a2ec8e49faba3e3648"
  else if data = encode "NH_ESPk" then "a439da9401783c28e4c678ec9c4b886b"
  else "e3b0c44298fc1c149afbf4c8996fb924"

/-- A backend with chunks of 16 bytes, for objects of which `None` is one. -/
def withNone : CacheClass Unit where
  cachePrefix := "ESP"
  keyPrefix := ""
  valueChunkSize := 16
  maxChunks := 16
  dumps object :=
    match object with
    | .bytes data => some (pickle data)
    | .str _ | .other _ => none
  loads serialized := some (.bytes ((serialized.drop 13).dropLast.dropLast))
  hexdigest := shortDigest
  shortDigest := shortDigest

theorem restores_withNone : withNone.Restores where
  loads_dumps object serialized dumped := by
    cases object with
    | str _ => cases dumped
    | bytes data =>
        rw [← Option.some.inj dumped]
        simp [withNone, pickle]
    | other _ => cases dumped
  digest_nonempty data := by
    change shortDigest data ≠ ""
    rw [shortDigest]
    split_ifs
    all_goals decide
  digest_hexadecimal data := by
    change _ ∉ (shortDigest data).toList
    rw [shortDigest]
    split_ifs
    all_goals decide

theorem fresh_empty : withNone.FreshDefault (Items.store fun _ => none) (.str "default") where
  plain := by decide
  notStored _ same := by
    rw [Items.store] at same
    cases same
  notLoaded _ := nofun

/-- A large value is added to an empty cache. -/
theorem addsOnMiss_empty :
    withNone.AddsOnMiss () (fun _ => none) "k" (.bytes [97, 98]) (.str "default") 1 :=
  (CacheClass.addsOnMiss_iff restores_withNone fresh_empty
    (rfl : withNone.splitValue (.bytes [97, 98]) =
      .ok (pickle [97, 98], some (withNone.chunks (pickle [97, 98]))))).mpr
    (Or.inl ⟨_, _, rfl, by decide⟩)

def evicted : Items Unit := fun storeKey =>
  if storeKey = (1, withNone.makeKey "k" 1) then
    some (.object (.str (CacheClass.encodeMetadata 2 "ba91c9bbb31b44a2ec8e49faba3e3648")))
  else none

theorem fresh_evicted : withNone.FreshDefault evicted.store (.str "default") where
  plain := by decide
  notStored storeKey same := by
    rw [Items.store, evicted] at same
    split_ifs at same
    exact absurd (Option.some.inj same) (by decide)
  notLoaded _ := nofun

/-- `get` misses, but `add` stores nothing. -/
theorem not_addsOnMiss_evicted :
    withNone.FreshDefault evicted.store (.str "default") ∧
      withNone.getItem evicted "k" (.str "default") 1 = .str "default" ∧
      (withNone.add () evicted "k" (.bytes [97]) 1).map Prod.snd = .ok false ∧
      ¬withNone.AddsOnMiss () evicted "k" (.bytes [97]) (.str "default") 1 := by
  have misses : withNone.getItem evicted "k" (.str "default") 1 = .str "default" := by
    decide
  have refuses : (withNone.add () evicted "k" (.bytes [97]) 1).map Prod.snd = .ok false := by
    decide
  refine ⟨fresh_evicted, misses, refuses, ?_⟩
  rintro ⟨after, stored, added, stores, _⟩
  rw [added, (stores.mp misses).1] at refuses
  cases refuses

end TwoWriters

end EspWebsite.Cache
