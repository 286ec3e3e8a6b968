/-
LoadBalancing.Worker.HashCollapse — what is left of a key in its bucket.

`HashFunction` multiplies by 33 and adds the next character, so that the
order of the characters would matter, and then takes the hash modulo 32.
But 33 is 1 modulo 32, and 32 divides the range of every `unsigned long`:
what is left is the sum of the characters (`hashLoopOf_modEq`). So keys
with the same characters share a bucket in whatever order they have them,
and the bucket of a key is the same on every platform
(`hashFunction_collapses`).

`hashFunctionOf` is `HashFunction` with the width of `unsigned long` as a
parameter; at 32 bits it is the `hashFunction` of the table
(`hashFunction_eq`).

No `sorry`, no `axiom`, no `native_decide`.
-/
import LoadBalancing.Base.WordResidue
import LoadBalancing.Worker.HashTable

namespace LoadBalancing.Worker

open LoadBalancing.Base LoadBalancing.Lib

/-! ## The hash by the width of its words -/

/-- `c` of `HashFunction` where it is added to an `unsigned long` of `w`
bits: a signed `char` in an `int`, extended with its sign. -/
def charOf (w : Nat) (c : UInt8) : BitVec w := c.toInt8.toInt32.toBitVec.signExtend w

/-- One round of the loop of `HashFunction`. -/
def hashRound {w : Nat} (hash : BitVec w) (c : UInt8) : BitVec w :=
  ((hash <<< 5) + hash) + charOf w c

/-- The loop of `HashFunction`, with an `unsigned long` of `w` bits. -/
def hashLoopOf {w : Nat} (hash : BitVec w) (value : List UInt8) : BitVec w :=
  value.foldl hashRound hash

/-- `HashFunction`, with an `unsigned long` of `w` bits. -/
def hashFunctionOf (w : Nat) (value : CString) : Nat :=
  (hashLoopOf (BitVec.ofNat w 5381) value.bytes).toNat % workerHashTableBucketCount

/-- The sum of the characters of a key, as signed `char`s. -/
def characterSum (key : CString) : Int := (key.bytes.map fun c => c.toInt8.toInt).sum

/-! ## One width -/

section Width

variable {w : Nat}

/-- The buckets divide the range of a word. -/
theorem bucketCount_dvd (hw : 32 ≤ w) : workerHashTableBucketCount ∣ 2 ^ w :=
  pow_dvd_pow 2 (show 5 ≤ w by omega)

theorem charOf_modEq (hw : 32 ≤ w) (c : UInt8) :
    ((charOf w c).toNat : ℤ) ≡ c.toInt8.toInt [ZMOD workerHashTableBucketCount] := by
  have h := WordResidue.toNat_signExtend_modEq (bucketCount_dvd hw) hw c.toInt8.toInt32.toBitVec
  rw [Int32.toInt_toBitVec, Int8.toInt_toInt32] at h
  exact h

/-- A round adds its character: 33 times the hash is the hash. -/
theorem hashRound_modEq (hw : 32 ≤ w) (hash : BitVec w) (c : UInt8) :
    ((hashRound hash c).toNat : ℤ) ≡ hash.toNat + c.toInt8.toInt
      [ZMOD workerHashTableBucketCount] := by
  have hdvd := bucketCount_dvd hw
  have hshift : ((hash <<< 5).toNat : ℤ) ≡ 0 [ZMOD workerHashTableBucketCount] :=
    (WordResidue.toNat_shiftLeft_modEq hdvd hash 5).trans
      (Int.modEq_zero_iff_dvd.mpr (Dvd.intro_left _ rfl))
  calc ((hashRound hash c).toNat : ℤ)
      ≡ ((hash <<< 5) + hash).toNat + (charOf w c).toNat [ZMOD workerHashTableBucketCount] :=
        WordResidue.toNat_add_modEq hdvd _ _
    _ ≡ (hash <<< 5).toNat + hash.toNat + c.toInt8.toInt [ZMOD workerHashTableBucketCount] :=
        (WordResidue.toNat_add_modEq hdvd _ _).add (charOf_modEq hw c)
    _ ≡ 0 + hash.toNat + c.toInt8.toInt [ZMOD workerHashTableBucketCount] :=
        (hshift.add_right _).add_right _
    _ = hash.toNat + c.toInt8.toInt := by rw [zero_add]

/-- **The loop adds the characters.** -/
theorem hashLoopOf_modEq (hw : 32 ≤ w) (hash : BitVec w) (value : List UInt8) :
    ((hashLoopOf hash value).toNat : ℤ) ≡
      hash.toNat + (value.map fun c => c.toInt8.toInt).sum [ZMOD workerHashTableBucketCount] :=
  WordResidue.foldl_modEq (fun hash : BitVec w => (hash.toNat : ℤ)) (hashRound_modEq hw) hash value

/-- The bucket is the residue of 5381 and the characters. -/
theorem hashFunctionOf_eq (hw : 32 ≤ w) (key : CString) :
    (hashFunctionOf w key : ℤ) = (5381 + characterSum key) % 32 := by
  have hstart : (BitVec.ofNat w 5381).toNat = 5381 := by
    rw [BitVec.toNat_ofNat]
    exact Nat.mod_eq_of_lt (Nat.lt_of_lt_of_le (by decide) (Nat.pow_le_pow_right (by decide) hw))
  have hloop := hashLoopOf_modEq hw (BitVec.ofNat w 5381) key.bytes
  rw [hstart] at hloop
  rw [hashFunctionOf, Int.natCast_mod]
  exact hloop

end Width

/-! ## The table's hash -/

/-- With 32 bits a character keeps the bits of its `int`. -/
theorem charOf_eq (c : UInt8) : charOf 32 c = c.toInt8.toInt32.toUInt32.toBitVec := by
  rw [charOf, BitVec.signExtend_eq]
  rfl

theorem hashLoop_eq (hash : UInt32) (value : List UInt8) :
    (hashLoop hash value).toBitVec = hashLoopOf hash.toBitVec value := by
  induction value generalizing hash with
  | nil => rfl
  | cons c rest ih =>
    rw [hashLoop, ih, hashLoopOf, hashLoopOf, List.foldl_cons, hashRound, charOf_eq]
    rfl

/-- The table's hash is the one with 32 bits. -/
theorem hashFunction_eq (key : CString) : (hashFunction key).val = hashFunctionOf 32 key := by
  have hloop : (hashLoop 5381 key.bytes).toNat =
      (hashLoopOf (BitVec.ofNat 32 5381) key.bytes).toNat :=
    congrArg BitVec.toNat (hashLoop_eq 5381 key.bytes)
  exact congrArg (· % workerHashTableBucketCount) hloop

/-- Keys with the same characters have the same sum. -/
theorem characterSum_of_perm {key key' : CString} (h : key.bytes.Perm key'.bytes) :
    characterSum key = characterSum key' :=
  (h.map _).sum_eq

/-- **The collapse of the hash.** For every key, the bucket is the
non-negative residue of 5381 and the sum of the key's characters, with an
`unsigned long` of 32 or of 64 bits; keys that are permutations of each
other fall in the same bucket, and it is the same on both platforms. -/
theorem hashFunction_collapses :
    (∀ key : CString, ((hashFunction key).val : ℤ) = (5381 + characterSum key) % 32 ∧
      (hashFunctionOf 32 key : ℤ) = (5381 + characterSum key) % 32 ∧
      (hashFunctionOf 64 key : ℤ) = (5381 + characterSum key) % 32) ∧
    (∀ key key' : CString, key.bytes.Perm key'.bytes →
      hashFunction key = hashFunction key' ∧ hashFunctionOf 32 key = hashFunctionOf 32 key' ∧
        hashFunctionOf 64 key = hashFunctionOf 64 key') ∧
    ∀ key : CString, (hashFunction key).val = hashFunctionOf 32 key ∧
      hashFunctionOf 32 key = hashFunctionOf 64 key := by
  have h32 := fun key => hashFunctionOf_eq (show 32 ≤ 32 by decide) key
  have h64 := fun key => hashFunctionOf_eq (show 32 ≤ 64 by decide) key
  refine ⟨fun key => ⟨?_, h32 key, h64 key⟩, fun key key' hperm => ?_, fun key => ?_⟩
  · rw [hashFunction_eq]
    exact h32 key
  · have hsum := characterSum_of_perm hperm
    have hsame32 : hashFunctionOf 32 key = hashFunctionOf 32 key' :=
      Int.ofNat_inj.mp (by rw [h32, h32, hsum])
    have hsame64 : hashFunctionOf 64 key = hashFunctionOf 64 key' :=
      Int.ofNat_inj.mp (by rw [h64, h64, hsum])
    refine ⟨Fin.ext ?_, hsame32, hsame64⟩
    rw [hashFunction_eq, hashFunction_eq, hsame32]
  · exact ⟨hashFunction_eq key, Int.ofNat_inj.mp (by rw [h32, h64])⟩

/-- "ab" and "ba". -/
theorem hashFunction_collapses_ab :
    (CString.ofString "ab").bytes.Perm (CString.ofString "ba").bytes ∧
      hashFunction (CString.ofString "ab") = hashFunction (CString.ofString "ba") ∧
      hashFunctionOf 64 (CString.ofString "ab") = hashFunctionOf 64 (CString.ofString "ba") :=
  have hperm : (CString.ofString "ab").bytes.Perm (CString.ofString "ba").bytes := by decide
  ⟨hperm, (hashFunction_collapses.2.1 _ _ hperm).1, (hashFunction_collapses.2.1 _ _ hperm).2.2⟩

end LoadBalancing.Worker
