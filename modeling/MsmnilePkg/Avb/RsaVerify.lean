/-
  MsmnilePkg.Avb.RsaVerify

  Which signatures avb_rsa.c accepts, for a key of the documented format.

  A signature is a number below `2 ^ key_num_bits`, and so is the padding followed by the
  hash.  The power is compared byte by byte, so it has to be equal as a number.  Where
  `modpowF4` has no memory, the signature itself is compared.
-/

import MsmnilePkg.Avb.MontMul

namespace Avb

open ByteMem LittleEndian BigEndian Loop Limbs

/-! ## Bytes and words -/

theorem num_wordsOf (len : Nat) (inout : Buffer) :
    num (wordsOf len inout) len = bigEndian (slice inout 0 (4 * len)) := by
  have hnum := num_orBytes inout 0 len (Nat.le_refl len)
  rw [Nat.sub_self] at hnum
  refine Eq.trans (num_congr fun i _ => ?_) hnum
  exact congrArg (fun offset => orBytes 32 (slice inout offset 4)) (by omega)

/-- The bytes that one word is stored as. -/
theorem bigEndian_word (w : BitVec 32) (b : Buffer) (offset : Nat) :
    bigEndian (slice (put b offset 4 fun j => (w >>> (24 - 8 * j)).setWidth 8) offset 4)
      = w.toNat := by
  rw [slice_put]
  have hbyte : ∀ n, ((w >>> n).setWidth 8).toNat = w.toNat / 2 ^ n % 2 ^ 8 := fun n => by
    rw [BitVec.toNat_setWidth, BitVec.toNat_ushiftRight, Nat.shiftRight_eq_div_pow]
  show bigEndian [_, _, _, _] = _
  simp only [bigEndian_cons, List.length_cons, List.length_nil, hbyte]
  have hw := w.isLt
  simp only [bigEndian, List.reverse_nil, List.map_nil, Nat.ofDigits_nil]
  omega

/-- The words that are stored, the highest ones first. -/
theorem num_bytesOfWords (len : Nat) (a : Words 32) (inout : Buffer) :
    bigEndian (slice (bytesOfWords len a inout) 0 (4 * len)) = num a len := by
  have hstored : num a len = num a (len - len) + 2 ^ (32 * (len - len))
      * bigEndian (slice (bytesOfWords len a inout) 0 (4 * len)) := by
    refine forTurns_invariant (n := len)
      (I := fun k b => num a len
        = num a (len - k) + 2 ^ (32 * (len - k)) * bigEndian (slice b 0 (4 * k))) ?_
      fun k hk b ih => ?_
    · rw [slice_zero, Nat.sub_zero]
      rfl
    · obtain ⟨l, hl⟩ : ∃ l, len - k = l + 1 := ⟨len - k - 1, by omega⟩
      rw [show len - 1 - k = l by omega]
      have hbefore : slice (put b (4 * k) 4 fun j => (a l >>> (24 - 8 * j)).setWidth 8) 0 (4 * k)
          = slice b 0 (4 * k) := slice_congr fun i hi => put_outside (by omega)
      rw [ih, hl, show len - (k + 1) = l by omega, num_succ, Nat.mul_succ 4 k, slice_add,
        hbefore, Nat.zero_add (4 * k), bigEndian_append, bigEndian_word, slice_length,
        pow_succ_limb]
      ring
  rw [Nat.sub_self, num_zero, Nat.mul_zero, Nat.pow_zero, Nat.one_mul, Nat.zero_add] at hstored
  exact hstored.symm

/-- `modpowF4` raises the number to the power 65537 modulo the key. -/
theorem modpowF4_spec {key : Key} (hkey : key.Reduced) (inout : Buffer) :
    bigEndian (slice (modpowF4 true key inout) 0 (4 * key.len))
      = bigEndian (slice inout 0 (4 * key.len)) ^ 65537 % key.modulus := by
  rw [modpowF4, if_pos rfl, num_bytesOfWords, modpow_spec hkey, num_wordsOf]

/-! ## The key -/

def keyNumBits (data : Buffer) : Nat := (avbBe32toh data 0).toNat

/-- The modulus that follows the header. -/
def keyModulus (data : Buffer) : Nat := bigEndian (slice data 8 (keyNumBits data / 8))

/-- What AvbRSAPublicKeyHeader says of a key, with a modulus of `key_num_bits` bits. -/
structure WellFormedKey (data : Buffer) (length : Nat) : Prop where
  bits : keyNumBits data = 2048 ∨ keyNumBits data = 4096 ∨ keyNumBits data = 8192
  length : length = 8 + 2 * keyNumBits data / 8
  n0inv : 2 ^ 32 ∣ keyModulus data % 2 ^ 32 * (avbBe32toh data 4).toNat + 1
  rr : bigEndian (slice data (8 + keyNumBits data / 8) (keyNumBits data / 8))
    ≡ (2 ^ keyNumBits data) ^ 2 [MOD keyModulus data]
  top : 2 ^ keyNumBits data ≤ 2 * keyModulus data

theorem WellFormedKey.reduced {data : Buffer} {length : Nat} (h : WellFormedKey data length)
    {key : Key} (hlen : 32 * key.len = keyNumBits data) (hn0inv : key.n0inv = avbBe32toh data 4)
    (hn : key.modulus = keyModulus data)
    (hrr : num key.rr key.len
      = bigEndian (slice data (8 + keyNumBits data / 8) (keyNumBits data / 8))) :
    key.Reduced := by
  have hR : key.R = 2 ^ keyNumBits data := by rw [Key.R, hlen]
  have hpos : 0 < key.len := by
    have := h.bits
    omega
  have hlow : (key.n 0).toNat = keyModulus data % 2 ^ 32 := by
    rw [← hn]
    exact (num_mod key.n hpos).symm
  refine ⟨⟨hpos, ?_⟩, ?_, ?_⟩
  · rw [hlow, hn0inv]
    exact h.n0inv
  · rw [hrr, hR, hn]
    exact h.rr
  · rw [hR, hn]
    exact h.top

theorem parseKeyData_of_false (data : Buffer) (length : Nat) :
    parseKeyData false data length = none := by
  rw [parseKeyData]
  split
  · rfl
  · split
    · rfl
    · rw [if_pos rfl]

/-- The key that is parsed. -/
theorem parseKeyData_spec {data : Buffer} {length : Nat} (h : WellFormedKey data length) :
    ∃ key : Key, parseKeyData true data length = some key ∧ key.Reduced ∧
      4 * key.len = keyNumBits data / 8 ∧ key.modulus = keyModulus data := by
  have hbits := h.bits
  have hlen : 4 * (keyNumBits data / 32) = keyNumBits data / 8 := by omega
  have hnum := fun offset => num_orBytes data offset _ (Nat.le_refl (keyNumBits data / 32))
  simp only [Nat.sub_self, Nat.mul_zero, Nat.add_zero, hlen] at hnum
  rw [parseKeyData, ← keyNumBits, if_neg (not_not_intro hbits), if_neg (not_not_intro h.length),
    if_neg (Bool.true_eq_false_eq_False)]
  refine ⟨_, rfl, h.reduced ?_ rfl (hnum 8) (hnum _), hlen, hnum 8⟩
  show 32 * (keyNumBits data / 32) = keyNumBits data
  omega

/-! ## The verification -/

/-- `avb_safe_memcmp` finds a difference exactly where there is one. -/
theorem avbSafeMemcmp_eq_false {s1 s2 : Buffer} {n : Nat} :
    avbSafeMemcmp s1 s2 n = false ↔ slice s1 0 n = slice s2 0 n := by
  have hresult : forTurns (fun i result => result ||| (s1 i ^^^ s2 i)) n 0#8 = 0#8
      ↔ slice s1 0 n = slice s2 0 n := by
    refine forTurns_invariant (I := fun k result => result = 0#8 ↔ slice s1 0 k = slice s2 0 k)
      (iff_of_true rfl rfl) fun k _ result ih => ?_
    have hlast : ∀ s : Buffer, slice s (0 + k) 1 = [s k] := fun s => by
      rw [slice, List.range_one, List.map_singleton, Nat.add_zero, Nat.zero_add]
    rw [BitVec.or_eq_zero_iff, BitVec.xor_eq_zero_iff, ih, slice_add, slice_add, hlast, hlast]
    constructor
    · rintro ⟨hrest, hbyte⟩
      rw [hrest, hbyte]
    · intro h
      obtain ⟨hrest, hbyte⟩ := List.append_inj h (by rw [slice_length, slice_length])
      exact ⟨hrest, List.singleton_inj.mp hbyte⟩
  rw [avbSafeMemcmp, decide_eq_false_iff_not, not_not]
  exact hresult

theorem slice_skip (b : Buffer) (k n : Nat) : slice (fun i => b (k + i)) 0 n = slice b k n :=
  List.map_congr_left fun i _ => congrArg (fun j => b (k + j)) (Nat.zero_add i)

/-- Both comparisons succeed where the buffer is the padding followed by the hash. -/
theorem compare_iff {buf padding hash : Buffer} {paddingNumBytes hashNumBytes : Nat} :
    (if avbSafeMemcmp buf padding paddingNumBytes then false
      else !avbSafeMemcmp (fun i => buf (paddingNumBytes + i)) hash hashNumBytes) = true ↔
      slice padding 0 paddingNumBytes ++ slice hash 0 hashNumBytes
        = slice buf 0 (paddingNumBytes + hashNumBytes) := by
  have hpadding : avbSafeMemcmp buf padding paddingNumBytes = false ↔ _ := avbSafeMemcmp_eq_false
  have hhash : avbSafeMemcmp (fun i => buf (paddingNumBytes + i)) hash hashNumBytes = false ↔ _ :=
    avbSafeMemcmp_eq_false
  rw [slice_skip] at hhash
  rw [slice_add, Nat.zero_add]
  constructor
  · intro h
    split at h
    · exact absurd h Bool.false_ne_true
    · rename_i hequal
      rw [hpadding.mp (eq_false_of_ne_true hequal), hhash.mp (by simpa using h)]
  · intro h
    obtain ⟨hfirst, hrest⟩ := List.append_inj h (by rw [slice_length, slice_length])
    rw [hpadding.mpr hfirst.symm, if_neg Bool.false_ne_true, hhash.mpr hrest.symm]
    rfl

section Verify

variable {allocated : Allocated} {key sig hash padding : Buffer}
  {keyNumBytes sigNumBytes hashNumBytes paddingNumBytes : Nat} {parsedKey : Key}

/-- What is compared, for a key that is parsed. -/
theorem compare_power_iff (hreduced : parsedKey.Reduced) {modpow : Bool}
    (hsum : paddingNumBytes + hashNumBytes = 4 * parsedKey.len) :
    (if avbSafeMemcmp (modpowF4 modpow parsedKey sig) padding paddingNumBytes then false
      else !avbSafeMemcmp (fun i => modpowF4 modpow parsedKey sig (paddingNumBytes + i)) hash
        hashNumBytes) = true ↔
      let signed := slice padding 0 paddingNumBytes ++ slice hash 0 hashNumBytes
      if modpow then
        bigEndian signed
          = bigEndian (slice sig 0 (4 * parsedKey.len)) ^ 65537 % parsedKey.modulus
      else signed = slice sig 0 (4 * parsedKey.len) := by
  rw [compare_iff, hsum]
  cases modpow with
  | false => exact Iff.rfl
  | true =>
      show _ ↔ bigEndian _ = _
      rw [← modpowF4_spec hreduced sig]
      exact ⟨congrArg bigEndian, bigEndian_inj (by simp; omega)⟩

/-- What has been checked where a signature is accepted. -/
theorem avbRsaVerify_accepted
    (h : avbRsaVerify allocated key keyNumBytes sig sigNumBytes hash hashNumBytes padding
      paddingNumBytes = true) :
    ∃ parsedKey, parseKeyData allocated.key key keyNumBytes = some parsedKey ∧
      sigNumBytes = parsedKey.len * 4 ∧
      paddingNumBytes = (sigNumBytes + (2 ^ 64 - hashNumBytes)) % 2 ^ 64 ∧
      allocated.buf = true ∧
      (if avbSafeMemcmp (modpowF4 allocated.modpow parsedKey sig) padding paddingNumBytes then false
        else !avbSafeMemcmp (fun i => modpowF4 allocated.modpow parsedKey sig (paddingNumBytes + i))
          hash hashNumBytes) = true := by
  rw [avbRsaVerify] at h
  cases hparse : parseKeyData allocated.key key keyNumBytes with
  | none =>
      rw [hparse] at h
      exact absurd h Bool.false_ne_true
  | some parsedKey =>
      rw [hparse] at h
      simp only at h
      split at h
      · exact absurd h Bool.false_ne_true
      · rename_i hsig
        split at h
        · exact absurd h Bool.false_ne_true
        · rename_i hpadding
          split at h
          · exact absurd h Bool.false_ne_true
          · rename_i hbuf
            exact ⟨parsedKey, rfl, not_not.mp hsig, not_not.mp hpadding,
              eq_true_of_ne_false hbuf, h⟩

/-- The parsed key of a well-formed one. -/
theorem WellFormedKey.parsed (hkey : WellFormedKey key keyNumBytes) {alloc : Bool}
    (h : parseKeyData alloc key keyNumBytes = some parsedKey) :
    alloc = true ∧ parsedKey.Reduced ∧ 4 * parsedKey.len = keyNumBits key / 8 ∧
      parsedKey.modulus = keyModulus key := by
  cases alloc with
  | false =>
      rw [parseKeyData_of_false] at h
      cases h
  | true =>
      obtain ⟨parsedKey', hparse, hreduced, hlen, hmodulus⟩ := parseKeyData_spec hkey
      cases hparse.symm.trans h
      exact ⟨rfl, hreduced, hlen, hmodulus⟩

/-- An accepted signature is one of the padding and the hash. -/
theorem signed_of_accepted (hkey : WellFormedKey key keyNumBytes)
    (hsizes : paddingNumBytes + hashNumBytes < 2 ^ 64)
    (h : avbRsaVerify allocated key keyNumBytes sig sigNumBytes hash hashNumBytes padding
      paddingNumBytes = true) :
    (allocated.key = true ∧ allocated.buf = true) ∧ sigNumBytes = keyNumBits key / 8 ∧
      paddingNumBytes + hashNumBytes = sigNumBytes ∧
      let signed := slice padding 0 paddingNumBytes ++ slice hash 0 hashNumBytes
      if allocated.modpow then
        bigEndian signed = bigEndian (slice sig 0 sigNumBytes) ^ 65537 % keyModulus key
      else signed = slice sig 0 sigNumBytes := by
  obtain ⟨parsedKey, hparse, hsig, hpadding, hbuf, hcompare⟩ := avbRsaVerify_accepted h
  obtain ⟨halloc, hreduced, hlen, hmodulus⟩ := hkey.parsed hparse
  have hbits := hkey.bits
  have hsum : paddingNumBytes + hashNumBytes = 4 * parsedKey.len := by omega
  refine ⟨⟨halloc, hbuf⟩, by omega, by omega, ?_⟩
  rw [show sigNumBytes = 4 * parsedKey.len by omega, ← hmodulus]
  exact (compare_power_iff hreduced hsum).mp hcompare

/-- A signature of the padding and the hash is accepted. -/
theorem accepted_of_signed (hkey : WellFormedKey key keyNumBytes)
    (hkeyAlloc : allocated.key = true) (hbufAlloc : allocated.buf = true)
    (hsig : sigNumBytes = keyNumBits key / 8)
    (hsum : paddingNumBytes + hashNumBytes = sigNumBytes)
    (hsigned : let signed := slice padding 0 paddingNumBytes ++ slice hash 0 hashNumBytes
      if allocated.modpow then
        bigEndian signed = bigEndian (slice sig 0 sigNumBytes) ^ 65537 % keyModulus key
      else signed = slice sig 0 sigNumBytes) :
    avbRsaVerify allocated key keyNumBytes sig sigNumBytes hash hashNumBytes padding
      paddingNumBytes = true := by
  obtain ⟨parsedKey, hparse, hreduced, hlen, hmodulus⟩ := parseKeyData_spec hkey
  have hbits := hkey.bits
  rw [avbRsaVerify, hkeyAlloc, hparse]
  simp only
  rw [if_neg (by omega), if_neg (by omega), hbufAlloc, if_neg (Bool.true_eq_false_eq_False)]
  refine (compare_power_iff hreduced (by omega)).mpr ?_
  rw [hlen, ← hsig, hmodulus]
  exact hsigned

/-- A signature is accepted exactly where its power is the padding followed by the hash.
Without memory for the power the signature itself has to be the padding and the hash. -/
theorem avbRsaVerify_iff {allocated : Allocated} {key sig hash padding : Buffer}
    {keyNumBytes sigNumBytes hashNumBytes paddingNumBytes : Nat}
    (hkey : WellFormedKey key keyNumBytes) (hsizes : paddingNumBytes + hashNumBytes < 2 ^ 64) :
    avbRsaVerify allocated key keyNumBytes sig sigNumBytes hash hashNumBytes padding
        paddingNumBytes = true ↔
      (allocated.key = true ∧ allocated.buf = true) ∧ sigNumBytes = keyNumBits key / 8 ∧
        paddingNumBytes + hashNumBytes = sigNumBytes ∧
        let signed := slice padding 0 paddingNumBytes ++ slice hash 0 hashNumBytes
        if allocated.modpow then
          bigEndian signed = bigEndian (slice sig 0 sigNumBytes) ^ 65537 % keyModulus key
        else signed = slice sig 0 sigNumBytes := by
  refine ⟨signed_of_accepted hkey hsizes, fun h => ?_⟩
  obtain ⟨⟨hkeyAlloc, hbufAlloc⟩, hsig, hsum, hsigned⟩ := h
  exact accepted_of_signed hkey hkeyAlloc hbufAlloc hsig hsum hsigned

end Verify

/-- A key of 2048 bits whose modulus is `2 ^ 2048 - 1`. -/
def onesKey : Buffer := fun i =>
  if i = 2 then 8#8 else if i = 7 ∨ i = 519 then 1#8 else if 8 ≤ i ∧ i < 264 then 0xff#8 else 0#8

/-- The number 2 in `n` bytes. -/
def two (n : Nat) : Buffer := fun i => if i = n - 1 then 2#8 else 0#8

theorem onesKey_wellFormed : WellFormedKey onesKey 520 := by
  have hmodulus : keyModulus onesKey = 2 ^ 2048 - 1 := by decide +kernel
  have hbits : keyNumBits onesKey = 2048 := by decide +kernel
  have hinverse : avbBe32toh onesKey 4 = 1#32 := by decide +kernel
  have hrr : bigEndian (slice onesKey (8 + 256) 256) = 1 := by decide +kernel
  constructor
  · exact .inl hbits
  · rw [hbits]
  · rw [hmodulus, hinverse]
    decide +kernel
  · rw [hmodulus, hbits, hrr]
    decide +kernel
  · rw [hmodulus, hbits]
    decide +kernel

/-- Powers of 2 are their own signatures, for this key. -/
theorem avbRsaVerify_iff_onesKey :
    avbRsaVerify ⟨true, true, true⟩ onesKey 520 (two 256) 256 (two 32) 32 (fun _ => 0#8) 224
      = true := by
  have hmodulus : keyModulus onesKey = 2 ^ 2048 - 1 := by decide +kernel
  have hsig : bigEndian (slice (two 256) 0 256) = 2 := by decide +kernel
  refine (avbRsaVerify_iff onesKey_wellFormed (by decide)).mpr
    ⟨⟨rfl, rfl⟩, by decide +kernel, rfl, ?_⟩
  rw [if_pos rfl, hsig, hmodulus]
  decide +kernel

end Avb
