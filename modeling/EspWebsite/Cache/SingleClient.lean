import EspWebsite.Cache.Interleavings

/-!
# A single client

One client calls `set`, `add`, `delete`, `incr` and `decr` one after the other, while any
entry may be evicted and any write may fail.  Here is exactly when no stale value can be
read after a call of `set` has returned.
-/

namespace EspWebsite.Cache

open Python

variable {Other : Type}

def Evicted (store after : Store Other) : Prop :=
  ∀ storeKey, after storeKey = store storeKey ∨ after storeKey = none

/-- What a read of the wrapped cache may find, which may also raise. -/
def Reads (store : Store Other) (reading : CacheClass.Reading Other) : Prop :=
  ∀ found, reading = some found → Evicted store found

/-! ## Calls of the wrapped cache -/

inductive WrappedCall (Other : Type) where
  | set (storeKey : StoreKey) (object : PyObject Other)
  | add (storeKey : StoreKey) (object : PyObject Other)
  | delete (storeKey : StoreKey)
  | incr (storeKey : StoreKey)

namespace WrappedCall

def storeKey : WrappedCall Other → StoreKey
  | set storeKey _ | add storeKey _ | delete storeKey | incr storeKey => storeKey

/-- What a call that returns does.  A failed `set` deletes the entry. -/
inductive Does : WrappedCall Other → Store Other → Store Other → Prop where
  | stored {storeKey : StoreKey} {object : PyObject Other} {store : Store Other} :
      Does (.set storeKey object) store (Function.update store storeKey (some object))
  | failed {storeKey : StoreKey} {object : PyObject Other} {store : Store Other} :
      Does (.set storeKey object) store (Function.update store storeKey none)
  | added {storeKey : StoreKey} {object : PyObject Other} {store : Store Other}
      (absent : store storeKey = none) :
      Does (.add storeKey object) store (Function.update store storeKey (some object))
  | unchanged {storeKey : StoreKey} {object : PyObject Other} {store : Store Other} :
      Does (.add storeKey object) store store
  | deleted {storeKey : StoreKey} {store : Store Other} :
      Does (.delete storeKey) store (Function.update store storeKey none)
  | counted {storeKey : StoreKey} {object number : PyObject Other} {store : Store Other}
      (present : store storeKey = some object) :
      Does (.incr storeKey) store (Function.update store storeKey (some number))

end WrappedCall

/-- Calls of the wrapped cache one after the other.  The attempt is over when one of them
raises, whether it has done anything or not. -/
inductive Attempt : List (WrappedCall Other) → Store Other → Store Other → Bool → Prop where
  | done {store after : Store Other} (evicted : Evicted store after) :
      Attempt [] store after true
  | next {call : WrappedCall Other} {rest : List (WrappedCall Other)}
      {store before middle after : Store Other} {returned : Bool}
      (evicted : Evicted store before) (does : call.Does before middle)
      (later : Attempt rest middle after returned) :
      Attempt (call :: rest) store after returned
  | raise {call : WrappedCall Other} {rest : List (WrappedCall Other)}
      {store before after : Store Other} (evicted : Evicted store before)
      (left : after = before ∨ call.Does before after) :
      Attempt (call :: rest) store after false

/-! ## Commands of the backend -/

/-- A command of the client that may write. -/
inductive Command (Other : Type) where
  | set (key : String) (value : PyObject Other) (version : Nat)
  | add (key : String) (value : PyObject Other) (version : Nat)
  | delete (key : String) (version : Nat)
  | incr (key : String) (version : Nat)
  | decr (key : String) (version : Nat)

namespace Command

variable (backend : CacheClass Other)

def storeKey : Command Other → StoreKey
  | set key _ version | add key _ version | delete key version | incr key version
  | decr key version => (version, backend.makeKey key version)

/-- What the command calls, given what `add` reads at first. -/
def wrappedCalls (reading : CacheClass.Reading Other) :
    Command Other → Raises (List (WrappedCall Other))
  | set key value version => do
      let (writes, _) ← backend.setWrites version (backend.makeKey key version) value
      return writes.map fun write => .set write.1 write.2
  | add key value version => do
      let cacheKey := backend.makeKey key version
      let (_, chunks) ← backend.splitValue value
      match chunks with
      | none => return [.add (version, cacheKey) value]
      | some _ =>
          match reading.bind fun store => store (version, cacheKey) with
          | some _ => return []
          | none =>
              let (writes, _) ← backend.setWrites version cacheKey value
              return writes.map fun write => .set write.1 write.2
  | delete key version => .ok [.delete (version, backend.makeKey key version)]
  | incr key version | decr key version =>
      .ok [.incr (version, backend.makeKey key version)]

/-- How often `try_multi` repeats the command after it has raised. -/
def retries : Command Other → Nat
  | set _ _ _ | add _ _ _ | delete _ _ => 7
  | incr _ _ | decr _ _ => 0

/-- A command that may be repeated so often leads from one store to another, and either
returns or raises. -/
inductive Tries (command : Command Other) : Nat → Store Other → Store Other → Bool → Prop where
  | returns {count : Nat} {reading : CacheClass.Reading Other}
      {calls : List (WrappedCall Other)} {store after : Store Other}
      (reads : Reads store reading)
      (planned : command.wrappedCalls backend reading = .ok calls)
      (attempt : Attempt calls store after true) : Tries command count store after true
  | again {count : Nat} {reading : CacheClass.Reading Other}
      {calls : List (WrappedCall Other)} {store middle after : Store Other} {returned : Bool}
      (reads : Reads store reading)
      (planned : command.wrappedCalls backend reading = .ok calls)
      (attempt : Attempt calls store middle false)
      (later : Tries command count middle after returned) :
      Tries command (count + 1) store after returned
  | raises {reading : CacheClass.Reading Other} {calls : List (WrappedCall Other)}
      {store after : Store Other} (reads : Reads store reading)
      (planned : command.wrappedCalls backend reading = .ok calls)
      (attempt : Attempt calls store after false) : Tries command 0 store after false
  | refuses {count : Nat} {reading : CacheClass.Reading Other} {raised : PyError}
      {store after : Store Other} (reads : Reads store reading)
      (planned : command.wrappedCalls backend reading = .error raised)
      (evicted : Evicted store after) : Tries command count store after false

/-- The command is called and returns, or raises. -/
def Runs (command : Command Other) : Store Other → Store Other → Bool → Prop :=
  command.Tries backend command.retries

/-- Any commands for other keys of the wrapped cache, and evictions. -/
inductive Meanwhile (storeKey : StoreKey) : Store Other → Store Other → Prop where
  | none {store : Store Other} : Meanwhile storeKey store store
  | evict {store middle after : Store Other} (earlier : Meanwhile storeKey store middle)
      (evicted : Evicted middle after) : Meanwhile storeKey store after
  | command {store middle after : Store Other} {other : Command Other} {returned : Bool}
      (earlier : Meanwhile storeKey store middle)
      (elsewhere : other.storeKey backend ≠ storeKey)
      (runs : other.Runs backend middle after returned) : Meanwhile storeKey store after

end Command

/-! ## Keys of the wrapped cache -/

section Keys

/-- The keys under which the value at a key, or its chunks, may be stored. -/
def Owned (backend : CacheClass Other) (storeKey owned : StoreKey) : Prop :=
  owned = storeKey ∨
    ∃ index, owned = (storeKey.1, CacheClass.chunkKey (backend.chunkPrefix storeKey.2) index)

theorem encode_injective : Function.Injective encode := by
  intro left right same
  have bytes := congrArg List.toByteArray same
  change left.toList.utf8Encode = right.toList.utf8Encode at bytes
  rw [String.utf8Encode_toList, String.utf8Encode_toList] at bytes
  exact String.toByteArray_inj.mp bytes

/-- What precedes the last separator does not depend on the digits after it. -/
theorem chunkKey_injective {leftPrefix rightPrefix : String} {leftIndex rightIndex : Nat}
    (same : CacheClass.chunkKey leftPrefix leftIndex =
      CacheClass.chunkKey rightPrefix rightIndex) : leftPrefix = rightPrefix := by
  have noSeparator : ∀ index : Nat, ∀ char ∈ (toString index).toList.reverse,
      (char != '_') = true := by
    intro index char member
    rw [List.mem_reverse] at member
    have isDigit := Nat.isDigit_of_mem_toDigits (by decide) (by decide)
      (Nat.toList_repr (n := index) ▸ member)
    simp only [bne_iff_ne, ne_eq]
    intro isSeparator
    subst isSeparator
    exact absurd isDigit (by decide)
  have dropped : ∀ (text : String) (index : Nat),
      (CacheClass.chunkKey text index).toList.reverse.dropWhile (· != '_') =
        '_' :: text.toList.reverse := by
    intro text index
    rw [CacheClass.chunkKey, String.toList_append, String.toList_append, List.reverse_append,
      List.dropWhile_append_of_pos (noSeparator index)]
    simp
  have sameDropped := congrArg (fun text => text.toList.reverse.dropWhile (· != '_')) same
  simp only [dropped, List.cons.injEq, true_and, List.reverse_inj] at sameDropped
  exact String.toList_inj.mp sameDropped

variable {backend : CacheClass Other}

theorem Owned.unique (digest_injective : Function.Injective backend.shortDigest)
    {version otherVersion : Nat} {key otherKey : String} {owned : StoreKey}
    (first : Owned backend (version, backend.makeKey key version) owned)
    (second : Owned backend (otherVersion, backend.makeKey otherKey otherVersion) owned) :
    (version, backend.makeKey key version) =
      (otherVersion, backend.makeKey otherKey otherVersion) := by
  rcases first with same | ⟨index, chunk⟩
  · rcases second with otherSame | ⟨otherIndex, otherChunk⟩
    · rw [← same, otherSame]
    · rw [same] at otherChunk
      have sameKey := congrArg Prod.snd otherChunk
      exact absurd sameKey (makeKey_ne_chunkKey _ _ _ _)
  · rcases second with otherSame | ⟨otherIndex, otherChunk⟩
    · rw [otherSame] at chunk
      have sameKey := congrArg Prod.snd chunk
      exact absurd sameKey (makeKey_ne_chunkKey _ _ _ _)
    · rw [chunk] at otherChunk
      obtain ⟨sameVersion, sameChunk⟩ := Prod.mk.inj otherChunk
      have samePrefix := chunkKey_injective sameChunk
      rw [CacheClass.chunkPrefix, CacheClass.chunkPrefix] at samePrefix
      have sameDigest := (String.append_right_inj _).mp samePrefix
      exact Prod.ext sameVersion (encode_injective (digest_injective sameDigest))

theorem setWrites_owned {version : Nat} {cacheKey : String} {value : PyObject Other}
    {writes : List (StoreKey × PyObject Other)} {answer : Bool}
    (planned : backend.setWrites version cacheKey value = .ok (writes, answer)) :
    ∀ write ∈ writes, Owned backend (version, cacheKey) write.1 := by
  intro write listed
  rw [CacheClass.setWrites, bind_eq_ok] at planned
  rcases planned with ⟨⟨serialized, chunks⟩, -, planned⟩
  cases chunks with
  | none =>
      cases planned
      rw [List.mem_singleton.mp listed]
      exact Or.inl rfl
  | some chunks =>
      dsimp only at planned
      split at planned
      next =>
        cases planned
        cases listed
      next =>
        cases planned
        rcases List.mem_append.mp listed with chunk | last
        · rcases List.mem_map.mp chunk with ⟨entry, -, same⟩
          exact Or.inr ⟨entry.2, (congrArg Prod.fst same).symm⟩
        · rw [List.mem_singleton.mp last]
          exact Or.inl rfl

theorem Command.wrappedCalls_owned {command : Command Other}
    {reading : CacheClass.Reading Other} {calls : List (WrappedCall Other)}
    (planned : command.wrappedCalls backend reading = .ok calls) :
    ∀ call ∈ calls, Owned backend (command.storeKey backend) call.storeKey := by
  have sets : ∀ {version : Nat} {cacheKey : String} {value : PyObject Other},
      (do
        let (writes, _) ← backend.setWrites version cacheKey value
        return writes.map fun write => WrappedCall.set write.1 write.2) = Except.ok calls →
      ∀ call ∈ calls, Owned backend (version, cacheKey) call.storeKey := by
    intro version cacheKey value plannedSet call listed
    rcases bind_eq_ok.mp plannedSet with ⟨⟨writes, answer⟩, written, same⟩
    cases same
    rcases List.mem_map.mp listed with ⟨write, isWrite, same⟩
    subst same
    exact setWrites_owned written write isWrite
  cases command with
  | set key value version => exact sets planned
  | add key value version =>
      rcases bind_eq_ok.mp planned with ⟨⟨serialized, chunks⟩, -, planned⟩
      cases chunks with
      | none =>
          cases planned
          intro call listed
          rw [List.mem_singleton.mp listed]
          exact Or.inl rfl
      | some chunks =>
          dsimp only at planned
          split at planned
          next =>
            cases planned
            intro call listed
            cases listed
          next => exact sets planned
  | delete key version | incr key version | decr key version =>
      cases planned
      intro call listed
      rw [List.mem_singleton.mp listed]
      exact Or.inl rfl

theorem Command.storeKey_eq (command : Command Other) : ∃ key version,
    command.storeKey backend = (version, backend.makeKey key version) := by
  cases command <;> exact ⟨_, _, rfl⟩

end Keys

/-! ## What stays -/

section Keeping

variable {backend : CacheClass Other} {store middle after : Store Other} {storeKey : StoreKey}
  {calls : List (WrappedCall Other)} {returned : Bool}

/-- The entry is what it was, or was deleted. -/
def Kept (store after : Store Other) (storeKey : StoreKey) : Prop :=
  after storeKey = store storeKey ∨ after storeKey = none

theorem Kept.trans (first : Kept store middle storeKey) (second : Kept middle after storeKey) :
    Kept store after storeKey := by
  rcases second with same | deleted
  · rw [Kept, same]
    exact first
  · exact Or.inr deleted

theorem WrappedCall.Does.kept {call : WrappedCall Other} (does : call.Does store after)
    (other : storeKey ≠ call.storeKey) : Kept store after storeKey := by
  cases does with
  | stored | failed | added _ | deleted | counted _ =>
      exact Or.inl (Function.update_of_ne other _ _)
  | unchanged => exact Or.inl rfl

theorem Attempt.kept (attempt : Attempt calls store after returned)
    (others : ∀ call ∈ calls, storeKey ≠ call.storeKey) : Kept store after storeKey := by
  induction attempt with
  | done evicted => exact evicted storeKey
  | next evicted does later ih =>
      have first : Kept _ _ storeKey := evicted storeKey
      have kept := first.trans (does.kept (others _ List.mem_cons_self))
      exact kept.trans (ih fun call listed => others call (List.mem_cons_of_mem _ listed))
  | raise evicted left =>
      have first : Kept _ _ storeKey := evicted storeKey
      rcases left with same | does
      · subst same
        exact first
      · exact first.trans (does.kept (others _ List.mem_cons_self))

theorem Command.Tries.kept {command : Command Other} {count : Nat}
    (tries : command.Tries backend count store after returned)
    (others : ∀ {reading calls}, command.wrappedCalls backend reading = .ok calls →
      ∀ call ∈ calls, storeKey ≠ call.storeKey) :
    Kept store after storeKey := by
  induction tries with
  | returns reads planned attempt => exact attempt.kept (others planned)
  | again reads planned attempt later ih => exact (attempt.kept (others planned)).trans ih
  | raises reads planned attempt => exact attempt.kept (others planned)
  | refuses reads planned evicted => exact evicted storeKey

theorem Command.Meanwhile.kept (digest_injective : Function.Injective backend.shortDigest)
    {version : Nat} {key : String}
    (meanwhile : Meanwhile backend (version, backend.makeKey key version) store after)
    (owned : Owned backend (version, backend.makeKey key version) storeKey) :
    Kept store after storeKey := by
  induction meanwhile with
  | none => exact Or.inl rfl
  | evict earlier evicted ih =>
      have last : Kept _ _ storeKey := evicted storeKey
      exact ih.trans last
  | @command _ _ other _ earlier elsewhere runs ih =>
      refine ih.trans (runs.kept ?_)
      intro reading calls planned call listed sameEntry
      have otherOwned := sameEntry ▸ other.wrappedCalls_owned planned call listed
      rcases other.storeKey_eq with ⟨otherKey, otherVersion, same⟩
      rw [same] at otherOwned elsewhere
      exact elsewhere (otherOwned.unique digest_injective owned)

theorem Attempt.last {object : PyObject Other}
    (attempt : Attempt (calls ++ [.set storeKey object]) store after true) :
    after storeKey = some object ∨ after storeKey = none := by
  induction calls generalizing store with
  | nil =>
      rw [List.nil_append] at attempt
      cases attempt with
      | next evicted does later =>
          cases later with
          | done evictedAfter =>
              rcases evictedAfter storeKey with same | deleted
              · rw [same]
                cases does with
                | stored => exact Or.inl (Function.update_self _ _ _)
                | failed => exact Or.inr (Function.update_self _ _ _)
              · exact Or.inr deleted
  | cons call rest ih =>
      cases attempt with
      | next evicted does later => exact ih later

theorem Command.Tries.attempted {command : Command Other} {count : Nat}
    (tries : command.Tries backend count store after true) :
    ∃ reading before calls, command.wrappedCalls backend reading = .ok calls ∧
      Attempt calls before after true := by
  generalize isTrue : true = returned at tries
  induction tries with
  | returns reads planned attempt => exact ⟨_, _, _, planned, attempt⟩
  | again reads planned attempt later ih => exact ih isTrue
  | raises reads planned attempt => cases isTrue
  | refuses reads planned evicted => cases isTrue

end Keeping

/-! ## What is read -/

section Reading

variable {backend : CacheClass Other} {store : Store Other}
  {first second : CacheClass.Reading Other} {key : String} {version : Nat}
    {default : PyObject Other}

/-- A reading finds of the entries that a key owns what is stored, or nothing. -/
def Finds (backend : CacheClass Other) (storeKey : StoreKey) (store : Store Other)
    (reading : CacheClass.Reading Other) : Prop :=
  ∀ found, reading = some found → ∀ owned, Owned backend storeKey owned →
    Kept store found owned

theorem joinChunks_of_kept {found : Store Other} {storeKeys : List StoreKey}
    (kept : ∀ storeKey ∈ storeKeys, Kept store found storeKey) :
    CacheClass.joinChunks found storeKeys = CacheClass.joinChunks store storeKeys ∨
      CacheClass.joinChunks found storeKeys = none := by
  induction storeKeys with
  | nil => exact Or.inl rfl
  | cons storeKey rest ih =>
      rw [CacheClass.joinChunks, CacheClass.joinChunks]
      rcases kept storeKey List.mem_cons_self with same | deleted
      · rcases ih fun other listed => kept other (List.mem_cons_of_mem _ listed) with
          sameRest | noRest
        · rw [same, sameRest]
          exact Or.inl rfl
        · right
          rw [noRest]
          cases found storeKey with
          | none => rfl
          | some object => cases object <;> rfl
      · right
        rw [deleted]

theorem resolveMetadata_of_kept {cacheKey : String}
    (kept : ∀ found, second = some found → ∀ index,
      Kept store found (version, CacheClass.chunkKey (backend.chunkPrefix cacheKey) index))
    (object : PyObject Other) :
    backend.resolveMetadata second version cacheKey object =
        backend.resolveMetadata (some store) version cacheKey object ∨
      backend.resolveMetadata second version cacheKey object = none := by
  rw [CacheClass.resolveMetadata, CacheClass.resolveMetadata]
  cases CacheClass.decodeMetadata object with
  | none => exact Or.inl rfl
  | some parsed =>
      obtain ⟨count, digest⟩ := parsed
      have isChunk : ∀ storeKey ∈ backend.chunkStoreKeys version cacheKey count, ∃ index,
          storeKey = (version, CacheClass.chunkKey (backend.chunkPrefix cacheKey) index) := by
        intro storeKey listed
        rcases List.mem_map.mp listed with ⟨chunkKey, isChunk, same⟩
        rcases List.mem_map.mp isChunk with ⟨index, -, sameChunk⟩
        exact ⟨index, by rw [← same, ← sameChunk]⟩
      have joined := @joinChunks_of_kept _
        (CacheClass.wrappedGetMany (some store)
          (backend.chunkStoreKeys version cacheKey count))
        (CacheClass.wrappedGetMany second (backend.chunkStoreKeys version cacheKey count))
        (backend.chunkStoreKeys version cacheKey count) (by
          intro storeKey listed
          cases second with
          | none => exact Or.inr rfl
          | some found =>
              rcases isChunk storeKey listed with ⟨index, isKey⟩
              rcases isKey ▸ kept found rfl index with same | deleted
              · left
                simp [CacheClass.wrappedGetMany, listed, same]
              · right
                simp [CacheClass.wrappedGetMany, deleted])
      dsimp only
      rw [CacheClass.deserializeChunkMap, CacheClass.deserializeChunkMap]
      rcases joined with same | nothing
      · rw [same]
        exact Or.inl rfl
      · rw [nothing]
        exact Or.inr rfl

theorem get_of_finds (plainDefault : CacheClass.isMetadata default = false)
    (findsFirst : Finds backend (version, backend.makeKey key version) store first)
    (findsSecond : Finds backend (version, backend.makeKey key version) store second) :
    backend.get first second key default version =
        backend.get (some store) (some store) key default version ∨
      backend.get first second key default version = default := by
  have missed : CacheClass.wrappedGet first (version, backend.makeKey key version) default =
      default → backend.get first second key default version = default := by
    intro isDefault
    simp only [CacheClass.get, isDefault, plainDefault, Bool.not_false, if_true]
  cases first with
  | none => exact Or.inr (missed rfl)
  | some found =>
      rcases findsFirst found rfl _ (Or.inl rfl) with same | deleted
      · have sameObject :
            CacheClass.wrappedGet (some found) (version, backend.makeKey key version) default =
              CacheClass.wrappedGet (some store) (version, backend.makeKey key version)
                default := by
          rw [CacheClass.wrappedGet, CacheClass.wrappedGet, same]
        simp only [CacheClass.get, sameObject]
        cases CacheClass.isMetadata (CacheClass.wrappedGet (some store)
            (version, backend.makeKey key version) default) with
        | false => exact Or.inl rfl
        | true =>
            have chunks : ∀ found, second = some found → ∀ index, Kept store found
                (version, CacheClass.chunkKey (backend.chunkPrefix
                  (backend.makeKey key version)) index) :=
              fun found isFound index =>
                findsSecond found isFound _ (Or.inr ⟨index, rfl⟩)
            rcases resolveMetadata_of_kept chunks (CacheClass.wrappedGet (some store)
              (version, backend.makeKey key version) default) with sameValue | nothing
            · rw [sameValue]
              exact Or.inl rfl
            · rw [nothing]
              exact Or.inr rfl
      · exact Or.inr (missed (by rw [CacheClass.wrappedGet, deleted]; rfl))

end Reading

/-! ## After `set` has returned -/

section Fresh

variable {backend : CacheClass Other} {store after : Store Other} {key : String}
  {value default : PyObject Other} {version : Nat}

/-- Once `set` has returned, and until the next command for the key, `get` returns the new
value or misses. -/
def FreshAfterSet (backend : CacheClass Other) (store : Store Other) (key : String)
    (value default : PyObject Other) (version : Nat) : Prop :=
  ∀ after, (Command.set key value version).Runs backend store after true →
    ∀ later, Command.Meanwhile backend (version, backend.makeKey key version) after later →
      ∀ first second, Reads later first → Reads later second →
        backend.get first second key default version = value ∨
          backend.get first second key default version = default

/-- The value is too large to be stored at all. -/
def Refused (backend : CacheClass Other) (value : PyObject Other) : Prop :=
  ∃ serialized chunks, backend.splitValue value = .ok (serialized, some chunks) ∧
    chunks.length > backend.maxChunks

/-- The value is stored as it is. -/
def Unsplit (backend : CacheClass Other) (value : PyObject Other) : Prop :=
  ∃ serialized, backend.splitValue value = .ok (serialized, none)

/-- Nothing but the value can be read at the key already, where `set` refuses the value or
the value itself looks like metadata. -/
structure NothingStale (backend : CacheClass Other) (store : Store Other) (key : String)
    (value default : PyObject Other) (version : Nat) : Prop where
  refused : Refused backend value →
    backend.get (some store) (some store) key default version = value ∨
      backend.get (some store) (some store) key default version = default
  unsplit : Unsplit backend value → CacheClass.isMetadata value = true →
    (backend.resolveMetadata (some store) version (backend.makeKey key version) value).getD
        default = value ∨
      (backend.resolveMetadata (some store) version (backend.makeKey key version) value).getD
        default = default

theorem evicted_refl (store : Store Other) : Evicted store store := fun _ => Or.inl rfl

theorem reads_self (store : Store Other) : Reads store (some store) := by
  intro found same
  cases same
  exact evicted_refl store

theorem finds_of_meanwhile (digest_injective : Function.Injective backend.shortDigest)
    {later : Store Other} {reading : CacheClass.Reading Other}
    (meanwhile : Command.Meanwhile backend (version, backend.makeKey key version) after later)
    (reads : Reads later reading) :
    Finds backend (version, backend.makeKey key version) after reading := by
  intro found isFound owned isOwned
  have last : Kept later found owned := reads found isFound owned
  exact (meanwhile.kept digest_injective isOwned).trans last

theorem setCalls_cases {reading : CacheClass.Reading Other} {calls : List (WrappedCall Other)}
    (planned : (Command.set key value version).wrappedCalls backend reading = .ok calls) :
    (Refused backend value ∧ calls = []) ∨
      (Unsplit backend value ∧
        calls = [.set (version, backend.makeKey key version) value]) ∨
      ∃ chunkCalls chunkCount serialized, backend.dumps value = some serialized ∧
        calls = chunkCalls ++ [.set (version, backend.makeKey key version)
          (.str (CacheClass.encodeMetadata chunkCount (backend.shortDigest serialized)))] := by
  rcases bind_eq_ok.mp planned with ⟨⟨writes, answer⟩, written, same⟩
  cases same
  rcases bind_eq_ok.mp written with ⟨⟨serialized, chunks⟩, split, stored⟩
  cases chunks with
  | none =>
      cases stored
      exact Or.inr (Or.inl ⟨⟨serialized, split⟩, rfl⟩)
  | some chunks =>
      dsimp only at stored
      split at stored
      next tooMany =>
        cases stored
        exact Or.inl ⟨⟨serialized, chunks, split, tooMany⟩, rfl⟩
      next =>
        cases stored
        right
        right
        have dumped : backend.dumps value = some serialized := by
          rw [CacheClass.splitValue] at split
          cases dumped : backend.dumps value with
          | none => simp [dumped] at split
          | some data =>
              simp only [dumped] at split
              split_ifs at split <;> cases split
              rfl
        exact ⟨_, chunks.length, serialized, dumped, List.map_append⟩

theorem fresh_of_get (digest_injective : Function.Injective backend.shortDigest)
    (plainDefault : CacheClass.isMetadata default = false)
    (fresh : backend.get (some after) (some after) key default version = value ∨
      backend.get (some after) (some after) key default version = default)
    {later : Store Other}
    (meanwhile : Command.Meanwhile backend (version, backend.makeKey key version) after later)
    {first second : CacheClass.Reading Other} (readsFirst : Reads later first)
    (readsSecond : Reads later second) :
    backend.get first second key default version = value ∨
      backend.get first second key default version = default := by
  rcases get_of_finds plainDefault (finds_of_meanwhile digest_injective meanwhile readsFirst)
    (finds_of_meanwhile digest_injective meanwhile readsSecond) with same | missed
  · rw [same]
    exact fresh
  · exact Or.inr missed

theorem chunks_kept_of_unsplit (unsplit : Unsplit backend value)
    (runs : (Command.set key value version).Runs backend store after true) (index : Nat) :
    Kept store after (version,
      CacheClass.chunkKey (backend.chunkPrefix (backend.makeKey key version)) index) := by
  apply runs.kept
  intro reading calls planned call listed same
  rcases unsplit with ⟨serialized, split⟩
  rw [Command.wrappedCalls, CacheClass.setWrites, split] at planned
  cases planned
  rw [List.mem_singleton.mp listed] at same
  exact makeKey_ne_chunkKey key version _ _ (congrArg Prod.snd same).symm

theorem get_after_set (faithful : Faithful backend)
    (plainDefault : CacheClass.isMetadata default = false)
    (nothingStale : NothingStale backend store key value default version)
    (runs : (Command.set key value version).Runs backend store after true) :
    backend.get (some after) (some after) key default version = value ∨
      backend.get (some after) (some after) key default version = default := by
  have missed : after (version, backend.makeKey key version) = none →
      backend.get (some after) (some after) key default version = default := by
    intro absent
    simp [CacheClass.get, CacheClass.wrappedGet, absent, plainDefault]
  rcases runs.attempted with ⟨reading, before, calls, planned, attempt⟩
  rcases setCalls_cases planned with
    ⟨refused, -⟩ | ⟨unsplit, same⟩ | ⟨chunkCalls, chunkCount, serialized, dumped, same⟩
  · -- Nothing is written, so that what is read was there before.
    have nothing : ∀ {reading calls},
        (Command.set key value version).wrappedCalls backend reading = .ok calls →
          calls = [] := by
      intro reading calls planned
      rcases refused with ⟨serialized, chunks, split, tooMany⟩
      rw [Command.wrappedCalls, CacheClass.setWrites, split] at planned
      simp only [ok_bind, if_pos tooMany] at planned
      cases planned
      rfl
    have finds : Finds backend (version, backend.makeKey key version) store (some after) := by
      intro found isFound owned _
      cases isFound
      apply runs.kept
      intro reading calls plannedCalls call listed
      rw [nothing plannedCalls] at listed
      cases listed
    rcases get_of_finds plainDefault finds finds with same | isDefault
    · rw [same]
      exact nothingStale.refused refused
    · exact Or.inr isDefault
  · rw [same] at attempt
    rcases @Attempt.last _ _ _ _ [] _ attempt with stored | absent
    · cases looksLike : CacheClass.isMetadata value with
      | false =>
          left
          simp [CacheClass.get, CacheClass.wrappedGet, stored, looksLike]
      | true =>
          have read : backend.get (some after) (some after) key default version =
              (backend.resolveMetadata (some after) version (backend.makeKey key version)
                value).getD default := by
            simp [CacheClass.get, CacheClass.wrappedGet, stored, looksLike]
          have kept : ∀ found, some after = some found → ∀ index, Kept store found (version,
              CacheClass.chunkKey (backend.chunkPrefix (backend.makeKey key version)) index) := by
            intro found isFound index
            cases isFound
            exact chunks_kept_of_unsplit unsplit runs index
          rw [read]
          rcases resolveMetadata_of_kept kept value with sameValue | nothing
          · rw [sameValue]
            exact nothingStale.unsplit unsplit looksLike
          · rw [nothing]
            exact Or.inr rfl
    · exact Or.inr (missed absent)
  · rw [same] at attempt
    rcases attempt.last with stored | absent
    · have read : backend.get (some after) (some after) key default version =
          (backend.resolveMetadata (some after) version (backend.makeKey key version)
            (.str (CacheClass.encodeMetadata chunkCount
              (backend.shortDigest serialized)))).getD default := by
        have large : CacheClass.isMetadata (.str (CacheClass.encodeMetadata chunkCount
            (backend.shortDigest serialized)) : PyObject Other) = true :=
          isMetadata_encodeMetadata
        simp [CacheClass.get, CacheClass.wrappedGet, stored, large]
      rw [read]
      cases resolved : backend.resolveMetadata (some after) version
          (backend.makeKey key version) (.str (CacheClass.encodeMetadata chunkCount
            (backend.shortDigest serialized))) with
      | none => exact Or.inr rfl
      | some object =>
          left
          exact resolveMetadata_eq faithful dumped resolved
    · exact Or.inr (missed absent)

theorem runs_of_unsplit (unsplit : Unsplit backend value) :
    (Command.set key value version).Runs backend store
      (Function.update store (version, backend.makeKey key version) (some value)) true := by
  rcases unsplit with ⟨serialized, split⟩
  have planned : (Command.set key value version).wrappedCalls backend (some store) =
      .ok [.set (version, backend.makeKey key version) value] := by
    rw [Command.wrappedCalls, CacheClass.setWrites, split]
    rfl
  exact .returns (reads_self store) planned
    (.next (evicted_refl store) .stored (.done (evicted_refl _)))

theorem runs_of_refused (refused : Refused backend value) :
    (Command.set key value version).Runs backend store store true := by
  rcases refused with ⟨serialized, chunks, split, tooMany⟩
  have planned : (Command.set key value version).wrappedCalls backend (some store) =
      .ok [] := by
    rw [Command.wrappedCalls, CacheClass.setWrites, split]
    simp only [ok_bind, if_pos tooMany]
    rfl
  exact .returns (reads_self store) planned (.done (evicted_refl store))

/-- After `set` has returned, what `get` reads is fresh exactly where nothing stale could be
read before, when `set` refuses the value or the value looks like metadata. -/
theorem freshAfterSet_iff (faithful : Faithful backend)
    (plainDefault : CacheClass.isMetadata default = false) :
    FreshAfterSet backend store key value default version ↔
      NothingStale backend store key value default version := by
  constructor
  · intro fresh
    constructor
    · intro refused
      exact fresh store (runs_of_refused refused) store .none _ _ (reads_self store)
        (reads_self store)
    · intro unsplit looksLike
      let stored := Function.update store (version, backend.makeKey key version) (some value)
      have read : backend.get (some stored) (some stored) key default version =
          (backend.resolveMetadata (some stored) version (backend.makeKey key version)
            value).getD default := by
        simp [CacheClass.get, CacheClass.wrappedGet, stored, looksLike]
      have kept : ∀ index, stored (version, CacheClass.chunkKey
          (backend.chunkPrefix (backend.makeKey key version)) index) =
            store (version, CacheClass.chunkKey
              (backend.chunkPrefix (backend.makeKey key version)) index) := by
        intro index
        apply Function.update_of_ne
        intro same
        exact makeKey_ne_chunkKey key version _ _ (congrArg Prod.snd same).symm
      have sameResolved : backend.resolveMetadata (some stored) version
            (backend.makeKey key version) value =
          backend.resolveMetadata (some store) version (backend.makeKey key version)
            value := by
        have forward := @resolveMetadata_of_kept _ backend store (some stored) version
          (backend.makeKey key version)
          (fun found isFound index => by
            cases isFound
            exact Or.inl (kept index)) value
        have backward := @resolveMetadata_of_kept _ backend stored (some store) version
          (backend.makeKey key version)
          (fun found isFound index => by
            cases isFound
            exact Or.inl (kept index).symm) value
        rcases forward with same | nothing
        · exact same
        · rcases backward with same | nothingBefore
          · exact same.symm
          · rw [nothing, nothingBefore]
      rw [← sameResolved, ← read]
      exact fresh stored (runs_of_unsplit unsplit) stored .none _ _ (reads_self stored)
        (reads_self stored)
  · intro nothingStale after runs later meanwhile first second readsFirst readsSecond
    exact fresh_of_get faithful.digest_injective plainDefault
      (get_after_set faithful plainDefault nothingStale runs) meanwhile readsFirst readsSecond

end Fresh

/-! ## After `delete` has returned -/

section Deleted

variable {backend : CacheClass Other} {store after later : Store Other} {key : String}
  {version : Nat}

theorem absent_of_delete (runs : (Command.delete key version).Runs backend store after true) :
    after (version, backend.makeKey key version) = none := by
  rcases runs.attempted with ⟨reading, before, calls, planned, attempt⟩
  cases planned
  cases attempt with
  | next evicted does rest =>
      cases does
      cases rest with
      | done evictedAfter =>
          rcases evictedAfter (version, backend.makeKey key version) with same | gone
          · exact same.trans (Function.update_self _ _ _)
          · exact gone

/-- Commands for other keys never write the entry of a key, not even if digests collide. -/
theorem absent_of_meanwhile
    (meanwhile : Command.Meanwhile backend (version, backend.makeKey key version) after later)
    (absent : after (version, backend.makeKey key version) = none) :
    later (version, backend.makeKey key version) = none := by
  have kept : Kept after later (version, backend.makeKey key version) := by
    induction meanwhile with
    | none => exact .inl rfl
    | evict earlier evicted ih => exact ih.trans (evicted _)
    | command earlier elsewhere runs ih =>
        refine ih.trans (runs.kept fun planned call listed same => ?_)
        rcases Command.wrappedCalls_owned planned call listed with isOwn | ⟨index, isChunk⟩
        · exact elsewhere (isOwn.symm.trans same.symm)
        · exact makeKey_ne_chunkKey key version _ index (congrArg Prod.snd (same.trans isChunk))
  rcases kept with same | gone
  · exact same.trans absent
  · exact gone

end Deleted

namespace TwoWriters

theorem attempt_sets (writes : List (StoreKey × PyObject Empty)) (store : Store Empty) :
    Attempt (writes.map fun write => .set write.1 write.2) store (storeAfter store writes)
      true := by
  induction writes generalizing store with
  | nil => exact .done (evicted_refl store)
  | cons write rest ih => exact .next (evicted_refl store) .stored (ih _)

/-- A value of seventeen chunks. -/
def huge : PyObject Empty := .bytes (List.replicate 220 97)

theorem splitValue_small (data : Bytes) : small.splitValue (.bytes data) =
    .ok (pickle data, some (small.chunks (pickle data))) := by
  have dumped : small.dumps (.bytes data) = some (pickle data) := rfl
  have large : ¬ (pickle data).length ≤ small.valueChunkSize := by
    simp [pickle, small]
  have positive : small.valueChunkSize ≠ 0 := by decide
  simp only [CacheClass.splitValue, dumped, if_neg large, if_neg positive]

theorem refused_huge : Refused small huge :=
  ⟨_, _, splitValue_small _, by decide +kernel⟩

/-- The theorem at a value of two chunks, which replaces another one. -/
theorem freshAfterSet_cd :
    FreshAfterSet small stored.store "k" cd.value (.str "default") 1 := by
  apply (freshAfterSet_iff faithful (by decide)).mpr
  constructor
  · intro refused
    rcases refused with ⟨serialized, chunks, split, tooMany⟩
    rw [cd, splitValue_small] at split
    cases split
    exact absurd tooMany (by decide)
  · intro unsplit
    rcases unsplit with ⟨serialized, split⟩
    rw [cd, splitValue_small] at split
    cases split

/-- A value that is refused leaves the one that was stored before. -/
theorem stale_after_refusal :
    (Command.set "k" ab.value 1).Runs small (fun _ => none) stored.store true ∧
      (Command.set "k" huge 1).Runs small stored.store stored.store true ∧
        small.get (some stored.store) (some stored.store) "k" (.str "default") 1 = ab.value ∧
          ¬ FreshAfterSet small stored.store "k" huge (.str "default") 1 := by
  have stale : small.get (some stored.store) (some stored.store) "k" (.str "default") 1 =
      ab.value := by decide
  have planned : (Command.set "k" ab.value 1).wrappedCalls small (some fun _ => none) =
      .ok ((writesOf ab).map fun write => .set write.1 write.2) := by
    have written : small.setWrites 1 (small.makeKey "k" 1) ab.value =
        .ok (writesOf ab, true) := planned_ab
    rw [Command.wrappedCalls, written]
    rfl
  refine ⟨.returns (reads_self _) planned (attempt_sets _ _), runs_of_refused refused_huge,
    stale, ?_⟩
  intro fresh
  have read := fresh _ (runs_of_refused refused_huge) _ .none _ _ (reads_self _) (reads_self _)
  rw [stale] at read
  rcases read with isHuge | isDefault
  · exact absurd isHuge (by decide)
  · cases isDefault

end TwoWriters

end EspWebsite.Cache
