import EspWebsite.Cache.MultikeyBackend

/-!
# Interleaved writers

Several calls of `set` write their entries one by one, in any order among each other.
Any write may fail, and any entry may be evicted at any time.  What `get` and `get_many`
return was stored as a whole by one of the calls.
-/

namespace EspWebsite.Cache

open Python

variable {Other : Type}

/-- A call of `set`. -/
structure SetCall (Other : Type) where
  version : Nat
  key : String
  value : PyObject Other

/-- A call that is being made: how often `try_multi` will still repeat it, and the writes
that are left of this attempt. -/
structure Writer (Other : Type) where
  call : SetCall Other
  retries : Nat
  pending : List (StoreKey × PyObject Other)

/-- The wrapped cache, all calls of `set` made so far, and those still being made. -/
structure System (Other : Type) where
  store : Store Other
  calls : List (SetCall Other)
  writers : List (Writer Other)

namespace System

/-- Nothing is stored and nobody has called. -/
def initial : System Other := ⟨fun _ => none, [], []⟩

end System

variable (backend : CacheClass Other)

def SetCall.writes (call : SetCall Other) : Raises (List (StoreKey × PyObject Other) × Bool) :=
  backend.setWrites call.version (backend.makeKey call.key call.version) call.value

/-- What happens next.  A write that fails deletes the entry.  One that raises may have
stored or deleted the entry or not, and makes the call start again, if it has a try
left. -/
inductive Step : System Other → System Other → Prop where
  | call {system : System Other} {call : SetCall Other}
      {writes : List (StoreKey × PyObject Other)} {answer : Bool}
      (planned : call.writes backend = .ok (writes, answer)) :
      Step system
        { system with
          calls := call :: system.calls
          writers := ⟨call, 7, writes⟩ :: system.writers }
  | write {store : Store Other} {calls : List (SetCall Other)}
      {before after : List (Writer Other)} {call : SetCall Other} {retries : Nat}
      {storeKey : StoreKey} {object : PyObject Other}
      {rest : List (StoreKey × PyObject Other)} :
      Step ⟨store, calls, before ++ ⟨call, retries, (storeKey, object) :: rest⟩ :: after⟩
        ⟨Function.update store storeKey (some object), calls,
          before ++ ⟨call, retries, rest⟩ :: after⟩
  | fail {store : Store Other} {calls : List (SetCall Other)}
      {before after : List (Writer Other)} {call : SetCall Other} {retries : Nat}
      {storeKey : StoreKey} {object : PyObject Other}
      {rest : List (StoreKey × PyObject Other)} :
      Step ⟨store, calls, before ++ ⟨call, retries, (storeKey, object) :: rest⟩ :: after⟩
        ⟨Function.update store storeKey none, calls,
          before ++ ⟨call, retries, rest⟩ :: after⟩
  | raise {store storeAfter : Store Other} {calls : List (SetCall Other)}
      {before after : List (Writer Other)} {call : SetCall Other} {retries : Nat}
      {storeKey : StoreKey} {object : PyObject Other}
      {rest writes : List (StoreKey × PyObject Other)} {answer : Bool}
      (planned : call.writes backend = .ok (writes, answer))
      (left : storeAfter = store ∨ storeAfter = Function.update store storeKey none ∨
        storeAfter = Function.update store storeKey (some object)) :
      Step ⟨store, calls, before ++ ⟨call, retries, (storeKey, object) :: rest⟩ :: after⟩
        ⟨storeAfter, calls,
          before ++ ⟨call, retries - 1, if retries = 0 then [] else writes⟩ :: after⟩
  | evict {system : System Other} {storeKey : StoreKey} :
      Step system { system with store := Function.update system.store storeKey none }

/-- Finitely many steps. -/
abbrev Reaches : System Other → System Other → Prop :=
  Relation.ReflTransGen (Step backend)

/-- A reading that finds each entry as it is at some time in a run up to the given
system. -/
def Observed (final : System Other) (reading : CacheClass.Reading Other) : Prop :=
  ∀ store, reading = some store → ∀ storeKey, ∃ system : System Other,
    Reaches backend .initial system ∧ Reaches backend system final ∧
      store storeKey = system.store storeKey

/-- What the claims about values assume: unpickling restores a pickled object, and the
digest distinguishes all serialized values. -/
structure Faithful : Prop where
  loads_dumps : ∀ object serialized, backend.dumps object = some serialized →
    backend.loads serialized = some object
  digest_injective : Function.Injective backend.shortDigest

variable {backend}

/-! ## Entries come from calls -/

def SetCall.Writes (backend : CacheClass Other) (call : SetCall Other) (storeKey : StoreKey)
    (object : PyObject Other) : Prop :=
  ∃ writes answer, call.writes backend = .ok (writes, answer) ∧ (storeKey, object) ∈ writes

/-- Every entry, and every write that is left to do, is one of the writes of a call. -/
structure System.Written (backend : CacheClass Other) (system : System Other) : Prop where
  stored : ∀ storeKey object, system.store storeKey = some object →
    ∃ call ∈ system.calls, call.Writes backend storeKey object
  pending : ∀ writer ∈ system.writers, writer.call ∈ system.calls ∧
    ∀ write ∈ writer.pending, writer.call.Writes backend write.1 write.2

namespace System.Written

theorem initial : (System.initial : System Other).Written backend where
  stored storeKey object stored := by cases stored
  pending writer listed := by cases listed

theorem stored_of_delete {store : Store Other} {calls : List (SetCall Other)}
    (stored : ∀ storeKey object, store storeKey = some object →
      ∃ call ∈ calls, call.Writes backend storeKey object)
    (deleted : StoreKey) :
    ∀ storeKey object, Function.update store deleted none storeKey = some object →
      ∃ call ∈ calls, call.Writes backend storeKey object := by
  intro storeKey object found
  by_cases same : storeKey = deleted
  · subst same
    simp at found
  · rw [Function.update_of_ne same] at found
    exact stored storeKey object found

theorem stored_of_write {store : Store Other} {calls : List (SetCall Other)}
    (stored : ∀ storeKey object, store storeKey = some object →
      ∃ call ∈ calls, call.Writes backend storeKey object)
    {call : SetCall Other} (called : call ∈ calls) {written : StoreKey}
    {object : PyObject Other} (writes : call.Writes backend written object) :
    ∀ storeKey other, Function.update store written (some object) storeKey = some other →
      ∃ call ∈ calls, call.Writes backend storeKey other := by
  intro storeKey other found
  by_cases same : storeKey = written
  · subst same
    rw [Function.update_self, Option.some.injEq] at found
    subst found
    exact ⟨call, called, writes⟩
  · rw [Function.update_of_ne same] at found
    exact stored storeKey other found

theorem pending_of_replace {calls : List (SetCall Other)} {before after : List (Writer Other)}
    {writer replaced : Writer Other}
    (pending : ∀ writer ∈ before ++ replaced :: after, writer.call ∈ calls ∧
      ∀ write ∈ writer.pending, writer.call.Writes backend write.1 write.2)
    (called : writer.call ∈ calls)
    (writes : ∀ write ∈ writer.pending, writer.call.Writes backend write.1 write.2) :
    ∀ other ∈ before ++ writer :: after, other.call ∈ calls ∧
      ∀ write ∈ other.pending, other.call.Writes backend write.1 write.2 := by
  intro other listed
  rcases List.mem_append.mp listed with early | late
  · exact pending other (by simp [early])
  · rcases List.mem_cons.mp late with same | later
    · subst same
      exact ⟨called, writes⟩
    · exact pending other (by simp [later])

theorem step {system next : System Other} (written : system.Written backend)
    (step : Step backend system next) : next.Written backend := by
  cases step with
  | @call _ call writes answer planned =>
      constructor
      · intro storeKey object found
        rcases written.stored storeKey object found with ⟨earlier, called, writesEarlier⟩
        exact ⟨earlier, List.mem_cons_of_mem _ called, writesEarlier⟩
      · intro writer listed
        rcases List.mem_cons.mp listed with same | earlier
        · subst same
          exact ⟨List.mem_cons_self, fun write isWrite => ⟨writes, answer, planned, isWrite⟩⟩
        · have pending := written.pending writer earlier
          exact ⟨List.mem_cons_of_mem _ pending.1, pending.2⟩
  | @write store calls before after call retries storeKey object rest =>
      have current := written.pending ⟨call, retries, (storeKey, object) :: rest⟩ (by simp)
      constructor
      · exact stored_of_write written.stored current.1
          (current.2 (storeKey, object) List.mem_cons_self)
      · exact pending_of_replace written.pending current.1
          fun write isWrite => current.2 write (List.mem_cons_of_mem _ isWrite)
  | @fail store calls before after call retries storeKey object rest =>
      have current := written.pending ⟨call, retries, (storeKey, object) :: rest⟩ (by simp)
      constructor
      · exact stored_of_delete written.stored storeKey
      · exact pending_of_replace written.pending current.1
          fun write isWrite => current.2 write (List.mem_cons_of_mem _ isWrite)
  | @raise store storeAfter calls before after call retries storeKey object rest writes answer
      planned left =>
      have current := written.pending ⟨call, retries, (storeKey, object) :: rest⟩ (by simp)
      constructor
      · rcases left with same | deleted | stored
        · subst same
          exact written.stored
        · subst deleted
          exact stored_of_delete written.stored storeKey
        · subst stored
          exact stored_of_write written.stored current.1
            (current.2 (storeKey, object) List.mem_cons_self)
      · refine pending_of_replace written.pending current.1 ?_
        intro write isWrite
        cases retries with
        | zero => simp at isWrite
        | succ retries => exact ⟨writes, answer, planned, by simpa using isWrite⟩
  | @evict _ storeKey =>
      exact ⟨stored_of_delete written.stored storeKey, written.pending⟩

theorem reaches {system : System Other} (reached : Reaches backend .initial system) :
    system.Written backend := by
  induction reached with
  | refl => exact initial
  | tail _ next ih => exact ih.step next

end System.Written

theorem calls_subset {system final : System Other} (reached : Reaches backend system final) :
    system.calls ⊆ final.calls := by
  induction reached with
  | refl => exact List.Subset.refl _
  | tail _ step ih =>
      cases step with
      | call planned => exact List.Subset.trans ih (List.subset_cons_self _ _)
      | write | fail | raise _ _ | evict => exact ih

theorem Observed.writes {final : System Other} {reading : CacheClass.Reading Other}
    (observed : Observed backend final reading) {store : Store Other}
    (isStore : reading = some store) {storeKey : StoreKey} {object : PyObject Other}
    (found : store storeKey = some object) :
    ∃ call ∈ final.calls, call.Writes backend storeKey object := by
  rcases observed store isStore storeKey with ⟨system, reached, later, same⟩
  rw [same] at found
  rcases (System.Written.reaches reached).stored storeKey object found with
    ⟨call, called, writes⟩
  exact ⟨call, calls_subset later called, writes⟩

/-! ## What is stored under a key -/

theorem head_ascii {key : String} :
    (ascii (noHashPrefix ++ backend.cachePrefix ++ key)).toList.head? = some 'N' := by
  have head : String.utf8EncodeChar 'N' = [78] := by decide
  have quoted : quoteByte 78 = ['N'] := by decide
  simp [ascii, encode, noHashPrefix, head, quoted]

theorem makeKey_ne_chunkKey (key : String) (version : Nat) (cacheKey : String)
    (index : Nat) :
    backend.makeKey key version ≠ CacheClass.chunkKey (backend.chunkPrefix cacheKey) index := by
  have chunkHead : (CacheClass.chunkKey (backend.chunkPrefix cacheKey) index).toList.head? =
      some 'M' := by
    simp [CacheClass.chunkKey, CacheClass.chunkPrefix, chunkPrefixText]
  have keyHead : (backend.makeKey key version).toList.head? = some 'N' ∨
      (backend.makeKey key version).toList.head? = some 'H' := by
    rw [CacheClass.makeKey]
    dsimp only
    split
    · exact Or.inl head_ascii
    · right
      simp [hashPrefix]
  intro same
  rw [same, chunkHead] at keyHead
  simp at keyHead

theorem separator_notMem_digits (number : Nat) :
    multikeyMetaSeparator ∉ (toString number).toList := by
  intro separator
  have isDigit := Nat.isDigit_of_mem_toDigits (by decide) (by decide)
    (Nat.toList_repr (n := number) ▸ separator)
  revert isDigit
  decide

theorem splitOn_encodeMetadata (chunkCount : Nat) (digest : String) :
    (CacheClass.encodeMetadata chunkCount digest).toList.splitOn multikeyMetaSeparator =
      multikeySentinel.toList :: (toString chunkCount).toList ::
        digest.toList.splitOn multikeyMetaSeparator := by
  have sentinel : multikeyMetaSeparator ∉ multikeySentinel.toList := by decide
  rw [CacheClass.encodeMetadata, String.toList_ofList,
    List.splitOn_append_cons_self_of_not_mem sentinel,
    List.splitOn_append_cons_self_of_not_mem (separator_notMem_digits chunkCount)]

theorem isMetadata_encodeMetadata {chunkCount : Nat} {digest : String} :
    CacheClass.isMetadata (.str (CacheClass.encodeMetadata chunkCount digest) :
      PyObject Other) = true := by
  rw [CacheClass.isMetadata, CacheClass.encodeMetadata, String.toList_ofList,
    List.isPrefixOf_iff_prefix]
  exact ⟨_, by rw [List.append_assoc]; rfl⟩

theorem decodeMetadata_encodeMetadata {chunkCount count : Nat} {digest decoded : String}
    (isDecoded : CacheClass.decodeMetadata
      (.str (CacheClass.encodeMetadata chunkCount digest) : PyObject Other) =
        some (count, decoded)) :
    decoded = digest := by
  rw [CacheClass.decodeMetadata, splitOn_encodeMetadata] at isDecoded
  split at isDecoded
  next =>
    split at isDecoded
    next sentinel number read parts =>
      have single : digest.toList.splitOn multikeyMetaSeparator = [read] :=
        (List.cons.inj (List.cons.inj parts).2).2
      have whole := @List.intercalate_splitOn _ digest.toList _ _ multikeyMetaSeparator
      rw [single] at whole
      split at isDecoded
      next => cases isDecoded
      next =>
        split at isDecoded
        next => cases isDecoded
        next =>
          have same := (Prod.mk.inj (Option.some.inj isDecoded)).2
          rw [← same]
          have readAll : read = digest.toList := by simpa using whole
          rw [readAll, String.ofList_toList]
    next => cases isDecoded
  next => cases isDecoded

/-- What a call writes under its key is its value, or metadata with the digest of its
value; everything else it writes is chunks. -/
theorem SetCall.Writes.cases {call : SetCall Other} {storeKey : StoreKey}
    {object : PyObject Other} (writes : call.Writes backend storeKey object) :
    (storeKey = (call.version, backend.makeKey call.key call.version) ∧
        (object = call.value ∨ ∃ chunkCount serialized,
          backend.dumps call.value = some serialized ∧
            object = .str (CacheClass.encodeMetadata chunkCount
              (backend.shortDigest serialized)))) ∨
      ∃ cacheKey index,
        storeKey.2 = CacheClass.chunkKey (backend.chunkPrefix cacheKey) index := by
  rcases writes with ⟨all, answer, planned, listed⟩
  rw [SetCall.writes, CacheClass.setWrites, bind_eq_ok] at planned
  rcases planned with ⟨⟨serialized, chunks⟩, split, planned⟩
  have dumped : backend.dumps call.value = some serialized := by
    rw [CacheClass.splitValue] at split
    cases dumped : backend.dumps call.value with
    | none => simp [dumped] at split
    | some data =>
        simp only [dumped] at split
        split at split
        next => cases split; rfl
        next =>
          split at split
          next => cases split
          next => cases split; rfl
  cases chunks with
  | none =>
      cases planned
      left
      have same := List.mem_singleton.mp listed
      exact ⟨congrArg Prod.fst same, Or.inl (congrArg Prod.snd same)⟩
  | some chunks =>
      dsimp only at planned
      split at planned
      next =>
        cases planned
        cases listed
      next =>
        cases planned
        rcases List.mem_append.mp listed with chunk | last
        · right
          rcases List.mem_map.mp chunk with ⟨entry, -, same⟩
          exact ⟨_, entry.2, (congrArg (fun write => write.1.2) same).symm⟩
        · left
          have same := List.mem_singleton.mp last
          exact ⟨congrArg Prod.fst same,
            Or.inr ⟨_, serialized, dumped, congrArg Prod.snd same⟩⟩

/-! ## Reads -/

section Reads

variable {final : System Other} {reading : CacheClass.Reading Other} {version : Nat}
  {key : String}

/-- No call at another key uses the same key of the wrapped cache. -/
def KeysApart (backend : CacheClass Other) (final : System Other) (version : Nat)
    (key : String) : Prop :=
  ∀ call ∈ final.calls, call.version = version →
    backend.makeKey call.key version = backend.makeKey key version → call.key = key

/-- A value that a call of `set` stored under a key. -/
def StoredBySet (final : System Other) (version : Nat) (key : String)
    (value : PyObject Other) : Prop :=
  ∃ call ∈ final.calls, call.version = version ∧ call.key = key ∧ call.value = value

theorem Observed.found (observed : Observed backend final reading)
    (apart : KeysApart backend final version key) {store : Store Other}
    (isStore : reading = some store) {object : PyObject Other}
    (found : store (version, backend.makeKey key version) = some object) :
    ∃ call ∈ final.calls, call.version = version ∧ call.key = key ∧
      (object = call.value ∨ ∃ chunkCount serialized,
        backend.dumps call.value = some serialized ∧
          object = .str (CacheClass.encodeMetadata chunkCount
            (backend.shortDigest serialized))) := by
  rcases observed.writes isStore found with ⟨call, called, writes⟩
  rcases writes.cases with ⟨sameKey, content⟩ | ⟨cacheKey, index, chunk⟩
  · rcases Prod.mk.inj sameKey with ⟨sameVersion, sameCacheKey⟩
    rw [← sameVersion] at sameCacheKey
    exact ⟨call, called, sameVersion.symm,
      apart call called sameVersion.symm sameCacheKey.symm, content⟩
  · exact absurd chunk (makeKey_ne_chunkKey key version cacheKey index)

theorem deserializeChunkMap_eq (faithful : Faithful backend) {object value : PyObject Other}
    {serialized : Bytes} (dumped : backend.dumps object = some serialized)
    {storeKeys : List StoreKey} {chunkMap : Store Other}
    (returned : backend.deserializeChunkMap storeKeys (backend.shortDigest serialized)
      chunkMap = some value) :
    value = object := by
  rw [CacheClass.deserializeChunkMap] at returned
  split at returned
  next => cases returned
  next joined _ =>
    split at returned
    next => cases returned
    next sameDigest =>
      have sameBytes := faithful.digest_injective (not_not.mp sameDigest)
      rw [sameBytes, faithful.loads_dumps object serialized dumped] at returned
      exact (Option.some.inj returned).symm

theorem resolveMetadata_eq (faithful : Faithful backend) {object value : PyObject Other}
    {serialized : Bytes} (dumped : backend.dumps object = some serialized)
    {chunkCount : Nat} {cacheKey : String}
    (returned : backend.resolveMetadata reading version cacheKey
      (.str (CacheClass.encodeMetadata chunkCount (backend.shortDigest serialized))) =
        some value) :
    value = object := by
  rw [CacheClass.resolveMetadata] at returned
  split at returned
  next => cases returned
  next count digest decoded =>
    rw [decodeMetadata_encodeMetadata decoded] at returned
    exact deserializeChunkMap_eq faithful dumped returned

variable {first second : CacheClass.Reading Other} {default : PyObject Other}

theorem get_cases (faithful : Faithful backend)
    (noSentinel : ∀ call ∈ final.calls, CacheClass.isMetadata call.value = false)
    (observed : Observed backend final first) (apart : KeysApart backend final version key)
    (plainDefault : CacheClass.isMetadata default = false) :
    backend.get first second key default version = default ∨
      StoredBySet final version key (backend.get first second key default version) := by
  rw [CacheClass.get]
  cases first with
  | none => simp [CacheClass.wrappedGet, plainDefault]
  | some store =>
      rw [CacheClass.wrappedGet]
      cases found : store (version, backend.makeKey key version) with
      | none => simp [plainDefault]
      | some object =>
          rcases observed.found apart rfl found with
            ⟨call, called, sameVersion, sameKey, isValue | ⟨chunkCount, serialized, dumped,
              isMetadata⟩⟩
          · have plain := noSentinel call called
            rw [← isValue] at plain
            right
            simp only [Option.getD_some, plain, Bool.not_false, if_true]
            exact ⟨call, called, sameVersion, sameKey, isValue.symm⟩
          · have large : CacheClass.isMetadata object = true := by
              rw [isMetadata]
              exact isMetadata_encodeMetadata
            simp only [Option.getD_some, large, Bool.not_true, Bool.false_eq_true, if_false]
            cases resolved : backend.resolveMetadata second version
                (backend.makeKey key version) object with
            | none => exact Or.inl rfl
            | some value =>
                right
                rw [isMetadata] at resolved
                have same := resolveMetadata_eq faithful dumped resolved
                exact ⟨call, called, sameVersion, sameKey, same.symm⟩

theorem getMany_cases (faithful : Faithful backend)
    (noSentinel : ∀ call ∈ final.calls, CacheClass.isMetadata call.value = false)
    (observed : Observed backend final first) {keys : List String}
    (apart : ∀ key ∈ keys, KeysApart backend final version key) :
    ∀ entry ∈ backend.getMany first second keys version,
      entry.1 ∈ keys ∧ StoredBySet final version entry.1 entry.2 := by
  intro entry listed
  rcases List.mem_filterMap.mp listed with ⟨⟨key, classified⟩, isEntry, answered⟩
  rcases List.mem_map.mp isEntry with ⟨_, keyListed, same⟩
  cases same
  have inKeys := List.mem_dedup.mp keyListed
  rcases Option.map_eq_some_iff.mp answered with ⟨value, answer, same⟩
  subst same
  refine ⟨inKeys, ?_⟩
  cases lookup : CacheClass.wrappedGetMany first
      (keys.dedup.map fun key => (version, backend.makeKey key version))
      (version, backend.makeKey key version) with
  | none => simp [CacheClass.classify, lookup, CacheClass.answer] at answer
  | some object =>
      simp only [CacheClass.classify, lookup] at answer
      have stored : ∃ store, first = some store ∧
          store (version, backend.makeKey key version) = some object := by
        cases first with
        | none => simp [CacheClass.wrappedGetMany] at lookup
        | some store =>
            refine ⟨store, rfl, ?_⟩
            rw [CacheClass.wrappedGetMany] at lookup
            dsimp only at lookup
            split at lookup
            next => exact lookup
            next => cases lookup
      rcases stored with ⟨store, isStore, found⟩
      rcases observed.found (apart key inKeys) isStore found with
        ⟨call, called, sameVersion, sameKey, isValue | ⟨chunkCount, serialized, dumped,
          isMetadata⟩⟩
      · have plain := noSentinel call called
        rw [← isValue] at plain
        simp only [plain, Bool.not_false, if_true, CacheClass.answer,
          Option.some.injEq] at answer
        exact ⟨call, called, sameVersion, sameKey, by rw [← isValue, answer]⟩
      · have large : CacheClass.isMetadata object = true := by
          rw [isMetadata]
          exact isMetadata_encodeMetadata
        simp only [large, Bool.not_true, Bool.false_eq_true, if_false] at answer
        cases decoded : CacheClass.decodeMetadata object with
        | none => simp [decoded, CacheClass.answer] at answer
        | some parsed =>
            rcases parsed with ⟨count, digest⟩
            simp only [decoded, CacheClass.answer] at answer
            rw [isMetadata] at decoded
            rw [decodeMetadata_encodeMetadata decoded] at answer
            have same := deserializeChunkMap_eq faithful dumped answer
            exact ⟨call, called, sameVersion, sameKey, same.symm⟩

/-- Whatever the writers and the wrapped cache do, `get` and `get_many` return nothing but
values that were stored under the key, if the default does not look like metadata. -/
theorem reads_storedBySet (faithful : Faithful backend)
    (noSentinel : ∀ call ∈ final.calls, CacheClass.isMetadata call.value = false)
    (observed : Observed backend final first) :
    (∀ key default version, KeysApart backend final version key →
      CacheClass.isMetadata default = false →
        backend.get first second key default version = default ∨
          StoredBySet final version key (backend.get first second key default version)) ∧
      ∀ keys version, (∀ key ∈ keys, KeysApart backend final version key) →
        ∀ entry ∈ backend.getMany first second keys version,
          entry.1 ∈ keys ∧ StoredBySet final version entry.1 entry.2 :=
  ⟨fun _ _ _ apart plainDefault => get_cases faithful noSentinel observed apart plainDefault,
    fun _ _ apart => getMany_cases faithful noSentinel observed apart⟩

end Reads

/-! ## Two writers -/

namespace TwoWriters

/-- How a short bytes object is pickled. -/
def pickle (data : Bytes) : Bytes :=
  let length := UInt8.ofNat data.length
  [128, 4, 149, length + 4, 0, 0, 0, 0, 0, 0, 0, 67, length] ++ data ++ [148, 46]

/-- The texts of the digests that are used, and different texts for all other bytes. -/
def digest (data : Bytes) : String :=
  if data = pickle [97, 98] then "ba91c9bbb31b44a2ec8e49faba3e3648"
  else if data = pickle [99, 100] then "9dbe2099ce5e302313311e0fd7bb413e"
  else if data = pickle [97, 100] then "45e5e894a2decf896eeb709645579031"
  else if data = encode "NH_ESPk" then "a439da9401783c28e4c678ec9c4b886b"
  else .ofList ('#' :: data.map fun byte => Char.ofNat byte.toNat)

/-- A backend with chunks of 14 bytes that pickles bytes objects only. -/
def small : CacheClass Empty where
  cachePrefix := "ESP"
  keyPrefix := ""
  valueChunkSize := 14
  maxChunks := 16
  dumps object :=
    match object with
    | .bytes data => some (pickle data)
    | .str _ => none
  loads serialized := some (.bytes ((serialized.drop 13).dropLast.dropLast))
  hexdigest := digest
  shortDigest := digest

theorem ofList_ne {data : Bytes} {known : String} (isKnown : known.toList.head? ≠ some '#') :
    String.ofList ('#' :: data.map fun byte => Char.ofNat byte.toNat) ≠ known := by
  intro same
  rw [← same] at isKnown
  simp at isKnown

theorem ofList_injective : Function.Injective fun data : Bytes =>
    String.ofList ('#' :: data.map fun byte => Char.ofNat byte.toNat) := by
  intro left right same
  refine List.map_injective_iff.mpr (fun left right same => ?_)
    (List.cons.inj (String.ofList_injective same)).2
  have sameNat : left.toNat = right.toNat := by
    rw [← toNat_ofByte left, ← toNat_ofByte right, same]
  exact UInt8.toNat_inj.mp sameNat

theorem digest_injective : Function.Injective digest := by
  intro left right same
  rw [digest, digest] at same
  split_ifs at same <;> first
    | exact absurd same (by decide)
    | exact absurd same (ofList_ne (by decide))
    | exact absurd same.symm (ofList_ne (by decide))
    | exact ofList_injective same
    | simp_all

theorem faithful : Faithful small where
  loads_dumps object serialized dumped := by
    cases object with
    | str _ => cases dumped
    | bytes data =>
        rw [← Option.some.inj dumped]
        simp [small, pickle]
    | other value => cases value
  digest_injective := digest_injective

def ab : SetCall Empty := ⟨1, "k", .bytes [97, 98]⟩

def cd : SetCall Empty := ⟨1, "k", .bytes [99, 100]⟩

def writesOf (call : SetCall Empty) : List (StoreKey × PyObject Empty) :=
  (resultOr ([], false) (call.writes small)).1

theorem planned_ab : ab.writes small = .ok (writesOf ab, true) := by decide

theorem planned_cd : cd.writes small = .ok (writesOf cd, true) := by decide

def storeAfter (store : Store Empty) (writes : List (StoreKey × PyObject Empty)) :
    Store Empty :=
  writes.foldl (fun store write => Function.update store write.1 (some write.2)) store

theorem reaches_writes {store : Store Empty} {calls : List (SetCall Empty)}
    {call : SetCall Empty} {others : List (Writer Empty)}
    (writes rest : List (StoreKey × PyObject Empty)) :
    Reaches small ⟨store, calls, ⟨call, 7, writes ++ rest⟩ :: others⟩
      ⟨storeAfter store writes, calls, ⟨call, 7, rest⟩ :: others⟩ := by
  induction writes generalizing store with
  | nil => exact .refl
  | cons write writes ih =>
      have first : Step small
          ⟨store, calls, ⟨call, 7, write :: (writes ++ rest)⟩ :: others⟩
          ⟨Function.update store write.1 (some write.2), calls,
            ⟨call, 7, writes ++ rest⟩ :: others⟩ :=
        @Step.write _ _ _ _ [] _ _ _ _ _ _
      exact .head first ih

theorem observed_final {final : System Empty} (reached : Reaches small .initial final) :
    Observed small final (some final.store) := by
  intro store same storeKey
  cases same
  exact ⟨final, reached, .refl, rfl⟩

def stored : System Empty :=
  ⟨storeAfter (fun _ => none) (writesOf ab), [ab], [⟨ab, 7, []⟩]⟩

theorem reaches_stored : Reaches small .initial stored := by
  have writes := @reaches_writes (fun _ => none) [ab] ab [] (writesOf ab) []
  rw [List.append_nil] at writes
  exact .head (.call planned_ab) writes

/-- One call has stored its chunks, and another one has overwritten the first of them. -/
def mixed : System Empty :=
  ⟨storeAfter (storeAfter (fun _ => none) ((writesOf cd).take 2)) ((writesOf ab).take 1),
    [ab, cd], [⟨ab, 7, (writesOf ab).drop 1⟩, ⟨cd, 7, (writesOf cd).drop 2⟩]⟩

theorem reaches_mixed : Reaches small .initial mixed := by
  have first := @reaches_writes (fun _ => none) [cd] cd [] ((writesOf cd).take 2)
    ((writesOf cd).drop 2)
  have second := @reaches_writes (storeAfter (fun _ => none) ((writesOf cd).take 2)) [ab, cd]
    ab [⟨cd, 7, (writesOf cd).drop 2⟩] ((writesOf ab).take 1) ((writesOf ab).drop 1)
  rw [List.take_append_drop] at first second
  exact Relation.ReflTransGen.head (.call planned_cd)
    (first.trans (.head (.call planned_ab) second))

/-- The theorem at a run in which one call stores its value. -/
theorem reads_storedBySet_small :
    small.get (some stored.store) (some stored.store) "k" (.str "default") 1 =
        .bytes [97, 98] ∧
      ((small.get (some stored.store) (some stored.store) "k" (.str "default") 1 =
          .str "default" ∨
        StoredBySet stored 1 "k"
          (small.get (some stored.store) (some stored.store) "k" (.str "default") 1)) ∧
      ∀ entry ∈ small.getMany (some stored.store) (some stored.store) ["k"] 1,
        entry.1 ∈ ["k"] ∧ StoredBySet stored 1 entry.1 entry.2) := by
  have noSentinel : ∀ call ∈ stored.calls, CacheClass.isMetadata call.value = false := by
    intro call listed
    rw [List.mem_singleton.mp listed]
    rfl
  have apart : KeysApart small stored 1 "k" := by
    intro call listed _ _
    rw [List.mem_singleton.mp listed]
    rfl
  have reads := @reads_storedBySet _ _ _ _ (some stored.store) faithful noSentinel
    (observed_final reaches_stored)
  refine ⟨by decide, reads.1 "k" (.str "default") 1 apart (by decide),
    reads.2 ["k"] 1 ?_⟩
  intro key listed
  rw [List.mem_singleton.mp listed]
  exact apart

/-- With a default that looks like metadata `get` returns bytes that nobody stored: the
first chunk of one value is followed by the second chunk of the other one. -/
theorem get_mixes_chunks :
    Reaches small .initial mixed ∧ Faithful small ∧
      Observed small mixed (some mixed.store) ∧
      (∀ call ∈ mixed.calls, call.version = 1 ∧ call.key = "k" ∧
        CacheClass.isMetadata call.value = false) ∧
      ∃ default : PyObject Empty,
        ¬ (small.get (some mixed.store) (some mixed.store) "k" default 1 = default ∨
          StoredBySet mixed 1 "k"
            (small.get (some mixed.store) (some mixed.store) "k" default 1)) := by
  refine ⟨reaches_mixed, faithful, observed_final reaches_mixed, ?_,
    .str "__ESP_MULTIKEY_V1__:2:45e5e894a2decf896eeb709645579031", ?_⟩
  · intro call listed
    simp only [mixed, List.mem_cons, List.not_mem_nil, or_false] at listed
    rcases listed with same | same
    · subst same
      exact ⟨rfl, rfl, rfl⟩
    · subst same
      exact ⟨rfl, rfl, rfl⟩
  · have returned : small.get (some mixed.store) (some mixed.store) "k"
        (.str "__ESP_MULTIKEY_V1__:2:45e5e894a2decf896eeb709645579031") 1 =
          .bytes [97, 100] := by decide
    rw [returned]
    rintro (isDefault | ⟨call, listed, -, -, same⟩)
    · cases isDefault
    · simp only [mixed, List.mem_cons, List.not_mem_nil, or_false] at listed
      rcases listed with isAb | isCd
      · subst isAb
        exact absurd same (by decide)
      · subst isCd
        exact absurd same (by decide)

end TwoWriters

end EspWebsite.Cache
