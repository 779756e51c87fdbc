import EspWebsite.Cache.SingleClient

/-!
# Families of keys

The wrapped cache holds three kinds of keys: quoted ones, hashed ones for keys that are too long,
and those of chunks.
-/

namespace EspWebsite.Cache

variable {Other : Type} {backend : CacheClass Other}

/-! ## Quoted texts -/

/-- The value of a digit of a percent escape. -/
def unhex (char : Char) : Nat := if char.toNat < 65 then char.toNat - 48 else char.toNat - 55

/-- The bytes that were quoted. -/
def unquote : List Char → Bytes
  | [] => []
  | '%' :: high :: low :: rest => UInt8.ofNat (16 * unhex high + unhex low) :: unquote rest
  | char :: rest => (if char = '+' then 32 else UInt8.ofNat char.toNat) :: unquote rest

theorem unhex_hexDigit : ∀ value < 16, unhex (hexDigit value) = value := by
  decide

theorem unquote_cons {char : Char} {rest : List Char} (plain : char ≠ '%') :
    unquote (char :: rest) =
      (if char = '+' then 32 else UInt8.ofNat char.toNat) :: unquote rest := by
  rw [unquote]
  intro high low tail isEscape
  exact absurd isEscape plain

theorem unquote_quoteByte (byte : UInt8) (rest : List Char) :
    unquote (quoteByte byte ++ rest) = byte :: unquote rest := by
  rw [quoteByte]
  split
  next isSafe =>
    have differs : Char.ofNat byte.toNat ≠ '%' ∧ Char.ofNat byte.toNat ≠ '+' := by
      constructor <;> intro same <;> rw [same] at isSafe <;> revert isSafe <;> decide
    rw [List.cons_append, List.nil_append, unquote_cons differs.1, if_neg differs.2, toNat_ofByte,
      UInt8.ofNat_toNat]
  next =>
    split
    next isSpace =>
      have same : byte = 32 := by
        have values := congrArg Char.toNat isSpace
        rw [toNat_ofByte] at values
        exact UInt8.toNat_inj.mp values
      rw [same]
      rfl
    next =>
      have below : byte.toNat < 256 := byte.toNat_lt
      rw [List.cons_append, List.cons_append, List.cons_append, List.nil_append, unquote,
        unhex_hexDigit _ (by omega), unhex_hexDigit _ (by omega), Nat.div_add_mod,
        UInt8.ofNat_toNat]

theorem unquote_quoted (bytes : Bytes) : unquote (bytes.flatMap quoteByte) = bytes := by
  induction bytes with
  | nil => rfl
  | cons byte rest ih => rw [List.flatMap_cons, unquote_quoteByte, ih]

theorem ascii_injective : Function.Injective ascii := by
  intro left right same
  have quoted := congrArg unquote (String.ofList_injective same)
  rw [unquote_quoted, unquote_quoted] at quoted
  exact encode_injective quoted

/-! ## Keys that do not collide -/

section Keys

variable {version : Nat} {left right key : String}

/-- What is before a key in the wrapped cache leaves room for the prefix of a hashed key, its digest
and the separator. -/
def CacheClass.HashFits (backend : CacheClass Other) (version : Nat) : Prop :=
  (backend.djangoPrefix version).length + hashPrefix.length + 64 + 1 ≤ maxKeyLength

theorem makeKey_cases (fits : backend.HashFits version)
    (digest : (backend.hexdigest (encode key)).length = 64) :
    (backend.makeKey key version = ascii (noHashPrefix ++ backend.cachePrefix ++ key) ∧
        (backend.makeKey key version).length + (backend.djangoPrefix version).length ≤
          maxKeyLength) ∨
      ∃ tail, (backend.makeKey key version).toList =
          hashPrefix.toList ++ ((backend.hexdigest (encode key)).toList ++ tail) ∧
        (backend.makeKey key version).length + (backend.djangoPrefix version).length ≤
          maxKeyLength := by
  rw [CacheClass.HashFits] at fits
  have hashed : (hashPrefix ++ backend.hexdigest (encode key)).length =
      hashPrefix.length + 64 := by
    rw [String.length_append, digest]
  rw [CacheClass.makeKey]
  dsimp only
  split
  next short => exact Or.inl ⟨rfl, by omega⟩
  next =>
    refine Or.inr ⟨'_' :: (sliceTo (ascii (noHashPrefix ++ backend.cachePrefix ++ key))
      (maxKeyLength - (backend.djangoPrefix version).length -
        (hashPrefix ++ backend.hexdigest (encode key)).length - 1)).toList, ?_, ?_⟩
    · simp
    · have room : (0 : Int) ≤ maxKeyLength - (backend.djangoPrefix version).length -
          (hashPrefix ++ backend.hexdigest (encode key)).length - 1 := by omega
      have taken := List.length_take_le
        ((maxKeyLength : Int) - (backend.djangoPrefix version).length -
          (hashPrefix ++ backend.hexdigest (encode key)).length - 1).toNat
        (ascii (noHashPrefix ++ backend.cachePrefix ++ key)).toList
      rw [sliceTo, if_pos room, String.length_append, String.length_append, String.length_ofList,
        String.length_ofList, List.length_singleton]
      omega

theorem makeKey_injOn (hexdigest_injective : Function.Injective backend.hexdigest)
    (fits : backend.HashFits version)
    (leftDigest : (backend.hexdigest (encode left)).length = 64)
    (rightDigest : (backend.hexdigest (encode right)).length = 64)
    (same : backend.makeKey left version = backend.makeKey right version) : left = right := by
  have heads {quoted hashed : String} {tail : List Char}
      (isQuoted : quoted = ascii (noHashPrefix ++ backend.cachePrefix ++ left) ∨
        quoted = ascii (noHashPrefix ++ backend.cachePrefix ++ right))
      (isHashed : hashed.toList = hashPrefix.toList ++ tail) : quoted ≠ hashed := by
    intro equal
    have head : quoted.toList.head? = some 'N' := by
      rcases isQuoted with isQuoted | isQuoted <;> rw [isQuoted] <;> exact head_ascii
    rw [equal, isHashed] at head
    revert head
    simp [hashPrefix]
  rcases makeKey_cases fits leftDigest with ⟨leftQuoted, -⟩ | ⟨leftTail, leftHashed, -⟩
  · rcases makeKey_cases fits rightDigest with ⟨rightQuoted, -⟩ | ⟨rightTail, rightHashed, -⟩
    · rw [leftQuoted, rightQuoted] at same
      exact (String.append_right_inj _).mp (ascii_injective same)
    · exact absurd same (heads (Or.inl leftQuoted) rightHashed)
  · rcases makeKey_cases fits rightDigest with ⟨rightQuoted, -⟩ | ⟨rightTail, rightHashed, -⟩
    · exact absurd same.symm (heads (Or.inr rightQuoted) leftHashed)
    · have texts := congrArg String.toList same
      rw [leftHashed, rightHashed] at texts
      have digests := (List.append_inj (List.append_cancel_left texts)
        (by rw [String.length_toList, String.length_toList, leftDigest, rightDigest])).1
      exact encode_injective (hexdigest_injective (String.toList_inj.mp digests))

theorem chunkKey_inj (shortDigest_injective : Function.Injective backend.shortDigest)
    {index otherIndex : Nat}
    (same : CacheClass.chunkKey (backend.chunkPrefix left) index =
      CacheClass.chunkKey (backend.chunkPrefix right) otherIndex) :
    left = right ∧ index = otherIndex := by
  have samePrefix := chunkKey_injective same
  rw [samePrefix, CacheClass.chunkKey, CacheClass.chunkKey] at same
  have sameIndex : toString index = toString otherIndex := (String.append_right_inj _).mp same
  rw [CacheClass.chunkPrefix, CacheClass.chunkPrefix] at samePrefix
  have sameDigest := (String.append_right_inj _).mp samePrefix
  exact ⟨encode_injective (shortDigest_injective sameDigest), Nat.repr_injective sameIndex⟩

/-- Two keys get different keys of the wrapped cache, which fit and are not those of chunks, and the
keys of two chunks are different. -/
theorem makeKey_apart (hexdigest_injective : Function.Injective backend.hexdigest)
    (shortDigest_injective : Function.Injective backend.shortDigest)
    (fits : backend.HashFits version) (different : left ≠ right)
    (digests : ∀ key ∈ [left, right], (backend.hexdigest (encode key)).length = 64) :
    backend.makeKey left version ≠ backend.makeKey right version ∧
      (∀ key ∈ [left, right],
        (backend.makeKey key version).length ≤
            maxKeyLength - (backend.djangoPrefix version).length ∧
          ∀ cacheKey index, backend.makeKey key version ≠
            CacheClass.chunkKey (backend.chunkPrefix cacheKey) index) ∧
        ∀ cacheKey index otherKey otherIndex,
          CacheClass.chunkKey (backend.chunkPrefix cacheKey) index =
              CacheClass.chunkKey (backend.chunkPrefix otherKey) otherIndex →
            cacheKey = otherKey ∧ index = otherIndex := by
  refine ⟨fun same => different (makeKey_injOn hexdigest_injective fits
    (digests left (by simp)) (digests right (by simp)) same), fun key isKey => ⟨?_, ?_⟩, ?_⟩
  · rcases makeKey_cases fits (digests key isKey) with ⟨_, fit⟩ | ⟨_, _, fit⟩ <;> omega
  · exact makeKey_ne_chunkKey key version
  · exact fun cacheKey index otherKey otherIndex => chunkKey_inj shortDigest_injective

end Keys

namespace FullDigests

open TwoWriters

/-- The digests of two keys, and different texts for all other bytes. -/
def hexdigest (data : Bytes) : String :=
  if data = encode "k" then "8254c329a92850f6d539dd376f4816ee2764517da5e0235514af433164480d7a"
  else if data = encode "j" then "189f40034be7a199f1fa9891668ee3ab6049f82d38c68be70f596eab2e1857b7"
  else .ofList ('#' :: data.map fun byte => Char.ofNat byte.toNat)

theorem hexdigest_injective : Function.Injective hexdigest := by
  have apart : "8254c329a92850f6d539dd376f4816ee2764517da5e0235514af433164480d7a" ≠
      "189f40034be7a199f1fa9891668ee3ab6049f82d38c68be70f596eab2e1857b7" := by decide
  have first (data : Bytes) := @ofList_ne data
    "8254c329a92850f6d539dd376f4816ee2764517da5e0235514af433164480d7a" (by simp)
  have second (data : Bytes) := @ofList_ne data
    "189f40034be7a199f1fa9891668ee3ab6049f82d38c68be70f596eab2e1857b7" (by simp)
  intro left right same
  rw [hexdigest, hexdigest] at same
  split_ifs at same with isFirst isFirst' isSecond' isSecond isFirst' isSecond' isFirst' isSecond'
  · exact isFirst.trans isFirst'.symm
  · exact absurd same apart
  · exact absurd same.symm (first right)
  · exact absurd same.symm apart
  · exact isSecond.trans isSecond'.symm
  · exact absurd same.symm (second right)
  · exact absurd same (first left)
  · exact absurd same (second left)
  · exact ofList_injective same

def full : CacheClass Empty := { small with hexdigest }

theorem makeKey_apart_full :
    full.makeKey "k" 1 ≠ full.makeKey "j" 1 ∧
      (∀ key ∈ ["k", "j"],
        (full.makeKey key 1).length ≤ maxKeyLength - (full.djangoPrefix 1).length ∧
          ∀ cacheKey index,
            full.makeKey key 1 ≠ CacheClass.chunkKey (full.chunkPrefix cacheKey) index) ∧
        ∀ cacheKey index otherKey otherIndex,
          CacheClass.chunkKey (full.chunkPrefix cacheKey) index =
              CacheClass.chunkKey (full.chunkPrefix otherKey) otherIndex →
            cacheKey = otherKey ∧ index = otherIndex :=
  makeKey_apart hexdigest_injective digest_injective (by unfold CacheClass.HashFits; decide)
    (by decide) (by decide)

end FullDigests

end EspWebsite.Cache
