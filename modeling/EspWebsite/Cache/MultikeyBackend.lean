import EspWebsite.Library.Python

/-!
# The memcached multikey backend

`memcached_multikey.py`: large values are pickled, cut into chunks that are stored under
keys of their own, and found again through metadata stored under the key of the value.

Logging is left out, and so are timeouts: an entry that expires is one that is evicted.
-/

namespace EspWebsite.Cache

open Python

abbrev Bytes := List UInt8

/-- A Python object, as far as the backend tells objects apart. -/
inductive PyObject (Other : Type) where
  | str (text : String)
  | bytes (data : Bytes)
  | other (value : Other)
  deriving DecidableEq, Repr

/-- The settings of the backend, and the library functions that it calls.  Pickling gives
nothing for an object that cannot be pickled. -/
structure CacheClass (Other : Type) where
  cachePrefix : String
  keyPrefix : String
  valueChunkSize : Nat
  maxChunks : Nat
  dumps : PyObject Other → Option Bytes
  loads : Bytes → Option (PyObject Other)
  /-- `hashlib.sha256(data).hexdigest()` -/
  hexdigest : Bytes → String
  /-- `hashlib.sha256(data).hexdigest()[:32]` -/
  shortDigest : Bytes → String

/-- A key of the wrapped cache: the version and the key. -/
abbrev StoreKey := Nat × String

/-- What is in the wrapped cache. -/
abbrev Store (Other : Type) := StoreKey → Option (PyObject Other)

def maxKeyLength : Nat := 250

def noHashPrefix : String := "NH_"

def hashPrefix : String := "H_"

def chunkPrefixText : String := "MK_"

def multikeySentinel : String := "__ESP_MULTIKEY_V1__"

def multikeyMetaSeparator : Char := ':'

/-! ## Keys -/

/-- `text[:stop]`. -/
def sliceTo (text : String) (stop : Int) : String :=
  if 0 ≤ stop then .ofList (text.toList.take stop.toNat)
  else .ofList (text.toList.take (text.toList.length - stop.natAbs))

def hexDigit (value : Nat) : Char :=
  if value < 10 then Char.ofNat (48 + value) else Char.ofNat (55 + value)

/-- How `quote_plus` writes a byte. -/
def quoteByte (byte : UInt8) : List Char :=
  let char := Char.ofNat byte.toNat
  if char.isAlphanum ∨ char ∈ ['_', '.', '-', '~'] then [char]
  else if char = ' ' then ['+']
  else ['%', hexDigit (byte.toNat / 16), hexDigit (byte.toNat % 16)]

theorem toNat_ofByte (byte : UInt8) : (Char.ofNat byte.toNat).toNat = byte.toNat := by
  have below : byte.toNat < 256 := byte.toNat_lt
  rw [Char.toNat_ofNat, if_pos (Or.inl (by omega))]

/-- The bytes of a text in UTF-8. -/
def encode (text : String) : Bytes := text.toList.flatMap String.utf8EncodeChar

/-- `ascii`, which is `quote_plus`. -/
def ascii (text : String) : String :=
  .ofList ((encode text).flatMap quoteByte)

namespace CacheClass

variable {Other : Type} (backend : CacheClass Other)

def djangoPrefix (version : Nat) : String :=
  backend.keyPrefix ++ ":" ++ toString version ++ ":"

def makeKey (key : String) (version : Nat) : String :=
  let rawkey := ascii (noHashPrefix ++ backend.cachePrefix ++ key)
  let realMaxLength : Int := maxKeyLength - (backend.djangoPrefix version).length
  if (rawkey.length : Int) ≤ realMaxLength then rawkey
  else
    let hashkey := hashPrefix ++ backend.hexdigest (encode key)
    hashkey ++ "_" ++ sliceTo rawkey (realMaxLength - hashkey.length - 1)

def chunkPrefix (cacheKey : String) : String :=
  chunkPrefixText ++ backend.shortDigest (encode cacheKey)

def chunkKey (chunkPrefix : String) (index : Nat) : String :=
  chunkPrefix ++ "_" ++ toString index

def chunkKeys (chunkPrefix : String) (chunkCount : Nat) : List String :=
  (List.range chunkCount).map (chunkKey chunkPrefix)

/-! ## Metadata -/

/-- The slices of the serialized value. -/
def chunks (serialized : Bytes) : List Bytes :=
  (List.range ((serialized.length + backend.valueChunkSize - 1) / backend.valueChunkSize)).map
    fun index =>
      (serialized.drop (index * backend.valueChunkSize)).take backend.valueChunkSize

/-- `_split_value`: the serialized value, and its chunks if it is large. -/
def splitValue (value : PyObject Other) : Raises (Bytes × Option (List Bytes)) :=
  match backend.dumps value with
  | none => .error (.raised "PicklingError" "")
  | some serialized =>
      if serialized.length ≤ backend.valueChunkSize then .ok (serialized, none)
      else if backend.valueChunkSize = 0 then .error .valueError
      else .ok (serialized, some (backend.chunks serialized))

/-- `_encode_multikey_metadata`. -/
def encodeMetadata (chunkCount : Nat) (digest : String) : String :=
  .ofList (multikeySentinel.toList ++ multikeyMetaSeparator ::
    ((toString chunkCount).toList ++ multikeyMetaSeparator :: digest.toList))

/-- `_is_multikey_metadata`. -/
def isMetadata : PyObject Other → Bool
  | .str text =>
      (multikeySentinel.toList ++ [multikeyMetaSeparator]).isPrefixOf text.toList
  | .bytes _ | .other _ => false

/-- `int(text)`, for texts in ASCII. -/
def parseInt (text : List Char) : Option Int :=
  let stripped :=
    ((text.dropWhile Char.isWhitespace).reverse.dropWhile Char.isWhitespace).reverse
  let digits (rest : List Char) : Option Nat :=
    let groups := rest.splitOn '_'
    if groups.all fun group => !group.isEmpty && group.all Char.isDigit then
      some (Nat.ofDigitChars 10 groups.flatten 0)
    else none
  match stripped with
  | '-' :: rest => (digits rest).map fun value => -(value : Int)
  | '+' :: rest => (digits rest).map fun value => (value : Int)
  | rest => (digits rest).map fun value => (value : Int)

/-- `_decode_multikey_metadata`: the number of chunks, and the digest. -/
def decodeMetadata : PyObject Other → Option (Nat × String)
  | .str text =>
      if isMetadata (.str text : PyObject Other) then
        match text.toList.splitOn multikeyMetaSeparator with
        | [_, count, digest] =>
            match parseInt count with
            | none => none
            | some chunkCount =>
                if chunkCount ≤ 0 ∨ digest = [] then none
                else some (chunkCount.toNat, .ofList digest)
        | _ => none
      else none
  | .bytes _ | .other _ => none

/-! ## Reading -/

/-- What a read of the wrapped cache finds, or nothing if it raises. -/
abbrev Reading (Other : Type) := Option (Store Other)

def wrappedGet (reading : Reading Other) (storeKey : StoreKey) (default : PyObject Other) :
    PyObject Other :=
  match reading with
  | none => default
  | some store => (store storeKey).getD default

def wrappedGetMany (reading : Reading Other) (storeKeys : List StoreKey) : Store Other :=
  match reading with
  | none => fun _ => none
  | some store => fun storeKey => if storeKey ∈ storeKeys then store storeKey else none

/-- The bytes of the chunks one after the other, if all of them are there and are bytes. -/
def joinChunks (chunkMap : Store Other) : List StoreKey → Option Bytes
  | [] => some []
  | storeKey :: rest =>
      match chunkMap storeKey, joinChunks chunkMap rest with
      | some (.bytes data), some serialized => some (data ++ serialized)
      | _, _ => none

/-- `_deserialize_chunk_map`, without a default. -/
def deserializeChunkMap (storeKeys : List StoreKey) (digest : String)
    (chunkMap : Store Other) : Option (PyObject Other) :=
  match joinChunks chunkMap storeKeys with
  | none => none
  | some serialized =>
      if backend.shortDigest serialized ≠ digest then none
      else backend.loads serialized

def chunkStoreKeys (version : Nat) (cacheKey : String) (chunkCount : Nat) : List StoreKey :=
  (chunkKeys (backend.chunkPrefix cacheKey) chunkCount).map fun chunkKey => (version, chunkKey)

/-- `_resolve_metadata`, without a default. -/
def resolveMetadata (reading : Reading Other) (version : Nat) (cacheKey : String)
    (value : PyObject Other) : Option (PyObject Other) :=
  match decodeMetadata value with
  | none => none
  | some (chunkCount, digest) =>
      let storeKeys := backend.chunkStoreKeys version cacheKey chunkCount
      backend.deserializeChunkMap storeKeys digest (wrappedGetMany reading storeKeys)

/-- `get`, which reads the key first and then the chunks. -/
def get (first second : Reading Other) (key : String) (default : PyObject Other)
    (version : Nat) : PyObject Other :=
  let cacheKey := backend.makeKey key version
  let value := wrappedGet first (version, cacheKey) default
  if !isMetadata value then value
  else (backend.resolveMetadata second version cacheKey value).getD default

/-- What `get_many` makes of an entry: a value, a request for chunks, or neither. -/
inductive Entry (Other : Type) where
  | missing
  | value (value : PyObject Other)
  | request (storeKeys : List StoreKey) (digest : String)

/-- The body of the first loop of `get_many`. -/
def classify (wrapped : Store Other) (version : Nat) (cacheKey : String) : Entry Other :=
  match wrapped (version, cacheKey) with
  | none => .missing
  | some value =>
      if !isMetadata value then .value value
      else
        match decodeMetadata value with
        | none => .missing
        | some (chunkCount, digest) =>
            .request (backend.chunkStoreKeys version cacheKey chunkCount) digest

def Entry.storeKeys : Entry Other → List StoreKey
  | .request storeKeys _ => storeKeys
  | .missing | .value _ => []

def answer (chunkMap : Store Other) : Entry Other → Option (PyObject Other)
  | .missing => none
  | .value value => some value
  | .request storeKeys digest => backend.deserializeChunkMap storeKeys digest chunkMap

/-- `get_many`: the keys that are found, with their values.  All keys are read at first,
then the chunks of all large values. -/
def getMany (first second : Reading Other) (keys : List String) (version : Nat) :
    List (String × PyObject Other) :=
  let cacheKeys := keys.dedup.map fun key => (version, backend.makeKey key version)
  let wrapped := wrappedGetMany first cacheKeys
  let entries := keys.dedup.map fun key =>
    (key, backend.classify wrapped version (backend.makeKey key version))
  let allStoreKeys := entries.flatMap fun entry => entry.2.storeKeys
  let chunkMap := wrappedGetMany second allStoreKeys
  entries.filterMap fun entry =>
    (backend.answer chunkMap entry.2).map fun value => (entry.1, value)

/-! ## Writing -/

/-- The writes to the wrapped cache that `_set_large_value` makes one after the other, and
what it returns. -/
def setWrites (version : Nat) (cacheKey : String) (value : PyObject Other) :
    Raises (List (StoreKey × PyObject Other) × Bool) := do
  let (serialized, chunks) ← backend.splitValue value
  match chunks with
  | none => return ([((version, cacheKey), value)], true)
  | some chunks =>
      if chunks.length > backend.maxChunks then return ([], false)
      else
        let chunkWrites := chunks.zipIdx.map fun entry =>
          ((version, chunkKey (backend.chunkPrefix cacheKey) entry.2),
            (.bytes entry.1 : PyObject Other))
        let metadata := encodeMetadata chunks.length (backend.shortDigest serialized)
        return (chunkWrites ++ [((version, cacheKey), .str metadata)], true)

end CacheClass

end EspWebsite.Cache
