/-
  MsmnilePkg.Avb.VBMetaImage

  avb_vbmeta_image.c: the verification of a vbmeta image.

  An image is a header of 256 bytes, the authentication data block, with the hash and the
  signature, and the auxiliary data block, with the public key.  Hash2Client.c takes SHA-256
  from a protocol, which is a parameter.
-/

import MsmnilePkg.Avb.RsaVerify
import MsmnilePkg.Avb.Sha512

namespace Avb

open ByteMem LittleEndian BigEndian RecordArea BlockHash

/-! ## avb_util.c, avb_crypto.c -/

/-- `avb_be64toh` of the field at `offset`. -/
def avbBe64toh (b : Buffer) (offset : Nat) : BitVec 64 := orBytes 64 (slice b offset 8)

/-- `avb_safe_add`: the sum, where it does not wrap. -/
def avbSafeAdd (a b : Nat) : Option Nat :=
  let value := (a + b) % 2 ^ 64
  if value < a then none else some value

variable {σ : Type}

/-! ## Hash2Client.c -/

/-- `EFI_HASH2_PROTOCOL`, with the state that it keeps. -/
structure Hash2Protocol (σ : Type) where
  /-- The protocol is located, and `HashInit` succeeds. -/
  hashInit : Option σ
  hashUpdate : σ → List Byte → σ
  hashFinal : σ → Option Buffer

/-- `avb_sha256_init`; `none` where `user_data` is NULL. -/
def avbSha256Init (hash2 : Hash2Protocol σ) : Option σ := hash2.hashInit

/-- `avb_sha256_update` -/
def avbSha256Update (hash2 : Hash2Protocol σ) (ctx : Option σ) (data : Buffer) (len : Nat) :
    Option σ :=
  ctx.map fun state => hash2.hashUpdate state (slice data 0 len)

/-- `avb_sha256_final`: zeros where anything has failed. -/
def avbSha256Final (hash2 : Hash2Protocol σ) (ctx : Option σ) : Buffer :=
  (ctx.bind hash2.hashFinal).getD fun _ => 0#8

/-! ## The algorithms -/

structure AlgorithmData where
  padding : List Byte
  hashLen : Nat

/-- The DER header of a digest in front of it. -/
def digestInfo : Nat → List Byte
  | 32 => [0x30, 0x31, 0x30, 0x0d, 0x06, 0x09, 0x60, 0x86, 0x48, 0x01, 0x65, 0x03, 0x04, 0x02, 0x01,
      0x05, 0x00, 0x04, 0x20]
  | _ => [0x30, 0x51, 0x30, 0x0d, 0x06, 0x09, 0x60, 0x86, 0x48, 0x01, 0x65, 0x03, 0x04, 0x02, 0x03,
      0x05, 0x00, 0x04, 0x40]

/-- The table for a key of `numBytes` bytes, such as `padding_RSA2048_SHA256`. -/
def algorithmData (numBytes hashLen : Nat) : AlgorithmData where
  padding := [0x00, 0x01] ++ List.replicate (numBytes - hashLen - 22) 0xff ++ [0x00]
    ++ digestInfo hashLen
  hashLen := hashLen

/-- `avb_get_algorithm_data` -/
def avbGetAlgorithmData : Nat → Option AlgorithmData
  | 0 => some ⟨[], 0⟩
  | 1 => some (algorithmData 256 32)
  | 2 => some (algorithmData 512 32)
  | 3 => some (algorithmData 1024 32)
  | 4 => some (algorithmData 256 64)
  | 5 => some (algorithmData 512 64)
  | 6 => some (algorithmData 1024 64)
  | _ => none

/-! ## The image -/

/-- The fields of `AvbVBMetaImageHeader` that the verification reads. -/
structure VBMetaImageHeader where
  requiredLibavbVersionMajor : Nat
  requiredLibavbVersionMinor : Nat
  authenticationDataBlockSize : Nat
  auxiliaryDataBlockSize : Nat
  algorithmType : Nat
  hashOffset : Nat
  hashSize : Nat
  signatureOffset : Nat
  signatureSize : Nat
  publicKeyOffset : Nat
  publicKeySize : Nat
  publicKeyMetadataOffset : Nat
  publicKeyMetadataSize : Nat
  /-- The last byte of `release_string`. -/
  releaseStringEnd : Byte
  deriving DecidableEq

/-- `avb_vbmeta_image_header_to_host_byte_order` -/
def avbVbmetaImageHeaderToHostByteOrder (src : Buffer) : VBMetaImageHeader where
  requiredLibavbVersionMajor := (avbBe32toh src 4).toNat
  requiredLibavbVersionMinor := (avbBe32toh src 8).toNat
  authenticationDataBlockSize := (avbBe64toh src 12).toNat
  auxiliaryDataBlockSize := (avbBe64toh src 20).toNat
  algorithmType := (avbBe32toh src 28).toNat
  hashOffset := (avbBe64toh src 32).toNat
  hashSize := (avbBe64toh src 40).toNat
  signatureOffset := (avbBe64toh src 48).toNat
  signatureSize := (avbBe64toh src 56).toNat
  publicKeyOffset := (avbBe64toh src 64).toNat
  publicKeySize := (avbBe64toh src 72).toNat
  publicKeyMetadataOffset := (avbBe64toh src 80).toNat
  publicKeyMetadataSize := (avbBe64toh src 88).toNat
  releaseStringEnd := src 175

inductive VBMetaVerifyResult
  | ok
  | okNotSigned
  | invalidVbmetaHeader
  | unsupportedVersion
  | hashMismatch
  | signatureMismatch
  deriving DecidableEq

/-- A field lies within a block of `size` bytes. -/
def insideBlock (offset fieldSize size : Nat) : Bool :=
  match avbSafeAdd offset fieldSize with
  | none => false
  | some fieldEnd => fieldEnd ≤ size

/-- The hash of the header block and the auxiliary block.  The block of the SHA-512 context,
    which is not set, has zeros here. -/
def computedHash (hash2 : Hash2Protocol σ) (h : VBMetaImageHeader) (data : Buffer) : Buffer :=
  let auxiliaryBlock := shift data (256 + h.authenticationDataBlockSize)
  let auxiliarySize := h.auxiliaryDataBlockSize % 2 ^ 32
  if h.algorithmType ≤ 3 then
    avbSha256Final hash2 (avbSha256Update hash2
      (avbSha256Update hash2 (avbSha256Init hash2) data 256) auxiliaryBlock auxiliarySize)
  else
    avbSha512Final (avbSha512Chunks (fun _ => 0#8)
      [(data, 256), (auxiliaryBlock, auxiliarySize)])

/-- The checks from the release string to the public key metadata, which all fail alike. -/
def headerFits (h : VBMetaImageHeader) (dataPtr length : Nat) : Bool :=
  h.releaseStringEnd = 0#8 && h.authenticationDataBlockSize % 64 = 0
    && h.auxiliaryDataBlockSize % 64 = 0
    && (match avbSafeAdd 256 h.authenticationDataBlockSize with
      | none => false
      | some blockTotal => insideBlock blockTotal h.auxiliaryDataBlockSize length)
    && (avbSafeAdd dataPtr length).isSome
    && insideBlock h.hashOffset h.hashSize h.authenticationDataBlockSize
    && insideBlock h.signatureOffset h.signatureSize h.authenticationDataBlockSize
    && insideBlock h.publicKeyOffset h.publicKeySize h.auxiliaryDataBlockSize
    && (h.publicKeyMetadataSize = 0
      || insideBlock h.publicKeyMetadataOffset h.publicKeyMetadataSize h.auxiliaryDataBlockSize)

/-- The checks of the hash and of the signature. -/
def verifyBlocks (allocated : Allocated) (hash2 : Hash2Protocol σ) (h : VBMetaImageHeader)
    (data : Buffer) (algorithm : AlgorithmData) : VBMetaVerifyResult × Option (Nat × Nat) :=
  let authenticationBlock := shift data 256
  let auxiliaryBlock := shift data (256 + h.authenticationDataBlockSize)
  let hash := shift authenticationBlock h.hashOffset
  if avbSafeMemcmp hash (computedHash hash2 h data) h.hashSize then (.hashMismatch, none)
  else if avbRsaVerify allocated (shift auxiliaryBlock h.publicKeyOffset) h.publicKeySize
      (shift authenticationBlock h.signatureOffset) h.signatureSize hash h.hashSize
      (ofList algorithm.padding) algorithm.padding.length then
    (.ok, if h.publicKeySize > 0 then
      some (256 + h.authenticationDataBlockSize + h.publicKeyOffset, h.publicKeySize) else none)
  else (.signatureMismatch, none)

/-- `avb_vbmeta_image_verify`, with the place and the size of the public key. -/
def avbVbmetaImageVerify (allocated : Allocated) (hash2 : Hash2Protocol σ) (dataPtr : Nat)
    (data : Buffer) (length : Nat) : VBMetaVerifyResult × Option (Nat × Nat) :=
  let h := avbVbmetaImageHeaderToHostByteOrder data
  if avbSafeMemcmp data (ofList [0x41, 0x56, 0x42, 0x30]) 4 then (.invalidVbmetaHeader, none)
  else if length < 256 then (.invalidVbmetaHeader, none)
  else if h.requiredLibavbVersionMajor ≠ 1 ∨ h.requiredLibavbVersionMinor > 0 then
    (.unsupportedVersion, none)
  else if headerFits h dataPtr length = false then (.invalidVbmetaHeader, none)
  else if h.algorithmType = 0 then (.okNotSigned, none)
  else
    match avbGetAlgorithmData h.algorithmType with
    | none => (.invalidVbmetaHeader, none)
    | some algorithm =>
        if h.hashSize ≠ algorithm.hashLen then (.invalidVbmetaHeader, none)
        else verifyBlocks allocated hash2 h data algorithm

/-! ## What is checked -/

/-- The blocks lie in the image, and the fields in their blocks. -/
structure HeaderOk (h : VBMetaImageHeader) (length : Nat) : Prop where
  blocks : 256 + h.authenticationDataBlockSize + h.auxiliaryDataBlockSize ≤ length
  hash : h.hashOffset + h.hashSize ≤ h.authenticationDataBlockSize
  signature : h.signatureOffset + h.signatureSize ≤ h.authenticationDataBlockSize
  publicKey : h.publicKeyOffset + h.publicKeySize ≤ h.auxiliaryDataBlockSize

theorem avbSafeAdd_some {a b value : Nat} (ha : a < 2 ^ 64) (hb : b < 2 ^ 64)
    (h : avbSafeAdd a b = some value) : value = a + b := by
  rw [avbSafeAdd] at h
  split at h
  · cases h
  · rename_i hge
    have := Option.some.inj h
    omega

theorem avbSafeAdd_lt {a b value : Nat} (h : avbSafeAdd a b = some value) : value < 2 ^ 64 := by
  rw [avbSafeAdd] at h
  split at h
  · cases h
  · have := Option.some.inj h
    omega

theorem insideBlock_le {offset fieldSize size : Nat} (ho : offset < 2 ^ 64)
    (hs : fieldSize < 2 ^ 64) (h : insideBlock offset fieldSize size = true) :
    offset + fieldSize ≤ size := by
  rw [insideBlock] at h
  split at h
  · cases h
  · rename_i fieldEnd hadd
    rw [← avbSafeAdd_some ho hs hadd]
    exact of_decide_eq_true h

/-- No sum of a header that fits has wrapped. -/
theorem headerFits_ok {data : Buffer} {h : VBMetaImageHeader} {dataPtr length : Nat}
    (hheader : avbVbmetaImageHeaderToHostByteOrder data = h)
    (hfits : headerFits h dataPtr length = true) : HeaderOk h length := by
  have hauth : h.authenticationDataBlockSize < 2 ^ 64 := hheader ▸ (avbBe64toh data 12).isLt
  have haux : h.auxiliaryDataBlockSize < 2 ^ 64 := hheader ▸ (avbBe64toh data 20).isLt
  have hhashOffset : h.hashOffset < 2 ^ 64 := hheader ▸ (avbBe64toh data 32).isLt
  have hhashSize : h.hashSize < 2 ^ 64 := hheader ▸ (avbBe64toh data 40).isLt
  have hsigOffset : h.signatureOffset < 2 ^ 64 := hheader ▸ (avbBe64toh data 48).isLt
  have hsigSize : h.signatureSize < 2 ^ 64 := hheader ▸ (avbBe64toh data 56).isLt
  have hkeyOffset : h.publicKeyOffset < 2 ^ 64 := hheader ▸ (avbBe64toh data 64).isLt
  have hkeySize : h.publicKeySize < 2 ^ 64 := hheader ▸ (avbBe64toh data 72).isLt
  simp only [headerFits, Bool.and_eq_true] at hfits
  obtain ⟨⟨⟨⟨⟨⟨-, hblocks⟩, -⟩, hhash⟩, hsig⟩, hkey⟩, -⟩ := hfits
  refine ⟨?_, insideBlock_le hhashOffset hhashSize hhash,
    insideBlock_le hsigOffset hsigSize hsig, insideBlock_le hkeyOffset hkeySize hkey⟩
  split at hblocks
  · cases hblocks
  · rename_i blockTotal hadd
    have htotal := avbSafeAdd_some (by decide) hauth hadd
    rw [← htotal]
    exact insideBlock_le (avbSafeAdd_lt hadd) haux hblocks

/-- A test that would have ended otherwise. -/
theorem of_ite_eq {α : Type} {c : Prop} [Decidable c] {a b r : α} (hne : a ≠ r)
    (h : (if c then a else b) = r) : ¬c ∧ b = r := by
  split at h
  · exact absurd h hne
  · rename_i hc
    exact ⟨hc, h⟩

theorem shift_shift (b : Buffer) (i j : Nat) : shift (shift b i) j = shift b (i + j) :=
  funext fun k => congrArg b (Nat.add_assoc i j k).symm

section Image

variable {allocated : Allocated} {hash2 : Hash2Protocol σ} {dataPtr length : Nat}
  {data : Buffer} {out : Option (Nat × Nat)} {h : VBMetaImageHeader}

/-- What has been checked where an image is accepted. -/
theorem avbVbmetaImageVerify_ok (hheader : avbVbmetaImageHeaderToHostByteOrder data = h)
    (hok : avbVbmetaImageVerify allocated hash2 dataPtr data length = (.ok, out)) :
    HeaderOk h length ∧ ∃ algorithm, avbGetAlgorithmData h.algorithmType = some algorithm ∧
      h.hashSize = algorithm.hashLen ∧
      verifyBlocks allocated hash2 h data algorithm = (.ok, out) := by
  simp only [avbVbmetaImageVerify, hheader] at hok
  obtain ⟨-, hok⟩ := of_ite_eq (by simp) hok
  obtain ⟨-, hok⟩ := of_ite_eq (by simp) hok
  obtain ⟨-, hok⟩ := of_ite_eq (by simp) hok
  obtain ⟨hfits, hok⟩ := of_ite_eq (by simp) hok
  obtain ⟨-, hok⟩ := of_ite_eq (by simp) hok
  refine ⟨headerFits_ok hheader (eq_true_of_ne_false hfits), ?_⟩
  cases halgorithm : avbGetAlgorithmData h.algorithmType with
  | none =>
      rw [halgorithm] at hok
      cases hok
  | some algorithm =>
      rw [halgorithm] at hok
      obtain ⟨hlen, hok⟩ := of_ite_eq (by simp) hok
      exact ⟨algorithm, rfl, not_not.mp hlen, hok⟩

/-- The hash of the image is the computed one, and its signature is accepted. -/
theorem verifyBlocks_ok {algorithm : AlgorithmData}
    (hok : verifyBlocks allocated hash2 h data algorithm = (.ok, out)) :
    slice data (256 + h.hashOffset) h.hashSize
        = slice (computedHash hash2 h data) 0 h.hashSize ∧
      avbRsaVerify allocated
        (shift data (256 + h.authenticationDataBlockSize + h.publicKeyOffset)) h.publicKeySize
        (shift data (256 + h.signatureOffset)) h.signatureSize (shift data (256 + h.hashOffset))
        h.hashSize (ofList algorithm.padding) algorithm.padding.length = true ∧
      (if h.publicKeySize > 0 then
        some (256 + h.authenticationDataBlockSize + h.publicKeyOffset, h.publicKeySize)
        else none) = out := by
  simp only [verifyBlocks, shift_shift] at hok
  obtain ⟨hmatch, hok⟩ := of_ite_eq (by simp) hok
  have hequal := avbSafeMemcmp_eq_false.mp (eq_false_of_ne_true hmatch)
  rw [slice_shift, Nat.add_zero] at hequal
  split at hok
  · rename_i hverified
    exact ⟨hequal, hverified, (Prod.mk.inj hok).2⟩
  · cases hok

/-! ## What is signed -/

/-- SHA-512 of a message that is not too long for the length field. -/
def sha512Digest (message : List Byte) : Buffer :=
  sha512Bytes (absorb sha512Block 128 sha512H0
    (message ++ sha512Padding message.length (8 * message.length)))

/-- SHA-256 of a message in two parts, as the protocol takes it. -/
def sha256Digest (hash2 : Hash2Protocol σ) (first second : List Byte) : Buffer :=
  (hash2.hashInit.bind fun state =>
    hash2.hashFinal (hash2.hashUpdate (hash2.hashUpdate state first) second)).getD fun _ => 0#8

/-- The digest that an algorithm takes of the header block and the auxiliary block. -/
def imageDigest (hash2 : Hash2Protocol σ) (algorithmType : Nat) (header auxiliary : List Byte) :
    Buffer :=
  if algorithmType ≤ 3 then sha256Digest hash2 header auxiliary
  else sha512Digest (header ++ auxiliary)

theorem avbSha256_two (first second : Buffer) (n m : Nat) :
    avbSha256Final hash2 (avbSha256Update hash2
        (avbSha256Update hash2 (avbSha256Init hash2) first n) second m)
      = sha256Digest hash2 (slice first 0 n) (slice second 0 m) := by
  rw [avbSha256Final, avbSha256Init, sha256Digest]
  cases hash2.hashInit with
  | none => rfl
  | some state => rfl

theorem avbSha512_two (block first second : Buffer) {n m : Nat} (hsmall : n + m < 2 ^ 29) :
    avbSha512Final (avbSha512Chunks block [(first, n), (second, m)])
      = sha512Digest (slice first 0 n ++ slice second 0 m) := by
  have hfirst := avbSha512Update_holds (avbSha512Init_holds block) first
    (show n < 2 ^ 31 by omega)
  have hboth := avbSha512Update_holds hfirst second (show m < 2 ^ 31 by omega)
  have hlength : (slice first 0 n ++ slice second 0 m).length = n + m := by
    rw [List.length_append, slice_length, slice_length]
  have hfinal := avbSha512Final_eq hboth
  rw [List.nil_append, hlength, Nat.mod_eq_of_lt (by omega), ← hlength] at hfinal
  exact hfinal

theorem computedHash_eq (hsmall : 256 + h.auxiliaryDataBlockSize < 2 ^ 29) :
    computedHash hash2 h data = imageDigest hash2 h.algorithmType (slice data 0 256)
      (slice data (256 + h.authenticationDataBlockSize) h.auxiliaryDataBlockSize) := by
  have haux : h.auxiliaryDataBlockSize % 2 ^ 32 = h.auxiliaryDataBlockSize :=
    Nat.mod_eq_of_lt (by omega)
  have hslice := slice_shift data (256 + h.authenticationDataBlockSize) 0 h.auxiliaryDataBlockSize
  rw [Nat.add_zero] at hslice
  rw [computedHash, imageDigest, haux, ← hslice, avbSha256_two, avbSha512_two _ _ _ hsmall]

theorem avbGetAlgorithmData_small {t : Nat} {algorithm : AlgorithmData}
    (h : avbGetAlgorithmData t = some algorithm) :
    algorithm.padding.length + algorithm.hashLen < 2 ^ 64 := by
  rw [avbGetAlgorithmData.eq_def] at h
  split at h <;> first | (cases h; decide +kernel) | cases h

/-- An accepted image is signed: its public key lies in it, and the power of the signature is
    the padding followed by the digest of the header and the auxiliary block.  Without memory
    for the power the signature itself is.  The images of avb_slot_verify.c have 64 KiB at most. -/
theorem avbVbmetaImageVerify_signed {keyOffset keySize : Nat}
    (hheader : avbVbmetaImageHeaderToHostByteOrder data = h) (hlength : length < 2 ^ 29)
    (hok : avbVbmetaImageVerify allocated hash2 dataPtr data length
      = (.ok, some (keyOffset, keySize)))
    (hkey : WellFormedKey (shift data keyOffset) keySize) :
    256 + h.authenticationDataBlockSize + h.auxiliaryDataBlockSize ≤ length ∧
      256 + h.authenticationDataBlockSize ≤ keyOffset ∧
      keyOffset + keySize ≤ 256 + h.authenticationDataBlockSize + h.auxiliaryDataBlockSize ∧
      ∃ algorithm, avbGetAlgorithmData h.algorithmType = some algorithm ∧
        let signature := slice data (256 + h.signatureOffset) h.signatureSize
        let signed := algorithm.padding
          ++ slice (imageDigest hash2 h.algorithmType (slice data 0 256)
            (slice data (256 + h.authenticationDataBlockSize) h.auxiliaryDataBlockSize)) 0
            algorithm.hashLen
        if allocated.modpow then
          bigEndian signed = bigEndian signature ^ 65537 % keyModulus (shift data keyOffset)
        else signed = signature := by
  obtain ⟨hblocks, algorithm, halgorithm, hlen, hverify⟩ := avbVbmetaImageVerify_ok hheader hok
  obtain ⟨hhash, hverified, hout⟩ := verifyBlocks_ok hverify
  split at hout
  · cases hout
    have hpublicKey := hblocks.publicKey
    have hends := hblocks.blocks
    have hsmall := avbGetAlgorithmData_small halgorithm
    rw [← hlen] at hsmall
    obtain ⟨-, -, -, hsigned⟩ := signed_of_accepted hkey hsmall hverified
    refine ⟨hends, by omega, by omega, algorithm, halgorithm, ?_⟩
    rw [holds_ofList, slice_shift, slice_shift, Nat.add_zero, Nat.add_zero, hhash,
      computedHash_eq (by omega)] at hsigned
    rw [← hlen]
    exact hsigned
  · cases hout

/-- An image that passes the checks of its header is accepted with a signature of the padding
    and the digest. -/
theorem avbVbmetaImageVerify_of_signed {algorithm : AlgorithmData}
    (hheader : avbVbmetaImageHeaderToHostByteOrder data = h) (hlength : length < 2 ^ 29)
    (hmagic : avbSafeMemcmp data (ofList [0x41, 0x56, 0x42, 0x30]) 4 = false)
    (hlong : 256 ≤ length)
    (hversion : h.requiredLibavbVersionMajor = 1 ∧ h.requiredLibavbVersionMinor = 0)
    (hfits : headerFits h dataPtr length = true) (htype : h.algorithmType ≠ 0)
    (halgorithm : avbGetAlgorithmData h.algorithmType = some algorithm)
    (hhashSize : h.hashSize = algorithm.hashLen)
    (hhash : slice data (256 + h.hashOffset) h.hashSize
      = slice (imageDigest hash2 h.algorithmType (slice data 0 256)
        (slice data (256 + h.authenticationDataBlockSize) h.auxiliaryDataBlockSize)) 0 h.hashSize)
    (hverified : avbRsaVerify allocated
      (shift data (256 + h.authenticationDataBlockSize + h.publicKeyOffset)) h.publicKeySize
      (shift data (256 + h.signatureOffset)) h.signatureSize (shift data (256 + h.hashOffset))
      h.hashSize (ofList algorithm.padding) algorithm.padding.length = true)
    (hkeySize : 0 < h.publicKeySize) :
    avbVbmetaImageVerify allocated hash2 dataPtr data length
      = (.ok, some (256 + h.authenticationDataBlockSize + h.publicKeyOffset, h.publicKeySize)) := by
  have hblocks := (headerFits_ok hheader hfits).blocks
  simp only [avbVbmetaImageVerify, hheader]
  rw [hmagic, if_neg Bool.false_ne_true, if_neg (by omega), if_neg (by omega), hfits,
    if_neg (Bool.true_eq_false_eq_False), if_neg htype, halgorithm]
  simp only
  rw [if_neg (not_not_intro hhashSize), verifyBlocks]
  simp only [shift_shift]
  rw [if_neg, if_pos hverified, if_pos hkeySize]
  refine ne_true_of_eq_false (avbSafeMemcmp_eq_false.mpr ?_)
  rw [slice_shift, Nat.add_zero, hhash, computedHash_eq (by omega)]

end Image

/-! ## A signed image -/

def signedImageHeader : List Byte :=
  [0x41, 0x56, 0x42, 0x30, 0x00, 0x00, 0x00, 0x01,
   0x00, 0x00, 0x00, 0x00, 0x00, 0x00, 0x00, 0x00,
   0x00, 0x00, 0x01, 0x40, 0x00, 0x00, 0x00, 0x00,
   0x00, 0x00, 0x02, 0x40, 0x00, 0x00, 0x00, 0x01,
   0x00, 0x00, 0x00, 0x00, 0x00, 0x00, 0x00, 0x00,
   0x00, 0x00, 0x00, 0x00, 0x00, 0x00, 0x00, 0x20,
   0x00, 0x00, 0x00, 0x00, 0x00, 0x00, 0x00, 0x20,
   0x00, 0x00, 0x00, 0x00, 0x00, 0x00, 0x01, 0x00,
   0x00, 0x00, 0x00, 0x00, 0x00, 0x00, 0x00, 0x00,
   0x00, 0x00, 0x00, 0x00, 0x00, 0x00, 0x02, 0x08]

/-- The hash and the signature, in words of 32 bytes. -/
def signedImageAuthentication : List Nat :=
  [0x067fca541582fd2a979be929da51a4e00129fda0662f8c6a3dbe025b17747739,
   0x49dabbb9c12ae45f2add3cccaeaa19ff05362c4f0856df7f4276725a68d3e5b0,
   0x2531af3438978d84cdf116e40411dd6900c8638ef440ef751f9cb5997992ec50,
   0x21d20344df7f6d0a6415445318134ca62c3fba83c3b75f8a138440724a514a3b,
   0xe5393b1abc552e0189051fbe258dcc6af16169ad395b2bd3914714c266640562,
   0xc673cd1adf1384cb80038096231b4499c08406a2cf2db590efc2095f3322b682,
   0x146b0b7a6c706b42b70736ebf16e055fbdbeb6f342a01afde620adbcedf2cf52,
   0xeebd1ceda591c41ecc9c478d7e8e8872eee2fbece645b1012d76eebc42136720,
   0x1c6815a76500c64d22b2743d278e4038dac2c008f3f3e10749da8a364b606ade]

/-- An image of 1152 bytes that is signed with `onesKey`. -/
def signedImage : Buffer := fun i =>
  if i < 256 then signedImageHeader.getD i 0#8
  else if i < 576 then
    BitVec.ofNat 8 (signedImageAuthentication.getD ((i - 256) / 32) 0 / 256 ^ (31 - i % 32))
  else onesKey (i - 576)

/-- What a protocol answers for this image. -/
def imageHash2 : Hash2Protocol Unit :=
  ⟨some (), fun _ _ => (), fun _ => some (bytesOf
    0x397774175b02be3d6a8c2f66a0fd2901e0a451da29e99b972afd821554ca7f06)⟩

theorem signedImage_header : avbVbmetaImageHeaderToHostByteOrder signedImage
    = ⟨1, 0, 320, 576, 1, 0, 32, 32, 256, 0, 520, 0, 0, 0#8⟩ := by decide +kernel

theorem signedImage_key : shift signedImage 576 = onesKey := by
  funext i
  rw [shift, signedImage, if_neg (by omega), if_neg (by omega), Nat.add_sub_cancel_left]

/-- The power of the signature is the padding followed by the digest. -/
theorem signedImage_signature :
    bigEndian ((algorithmData 256 32).padding ++ slice signedImage 256 32)
      = bigEndian (slice signedImage 288 256) ^ 65537 % (2 ^ 2048 - 1) := by
  decide +kernel

theorem signedImage_verified :
    avbRsaVerify ⟨true, true, true⟩ (shift signedImage 576) 520 (shift signedImage 288) 256
      (shift signedImage 256) 32 (ofList (algorithmData 256 32).padding) 224 = true := by
  have hmodulus : keyModulus onesKey = 2 ^ 2048 - 1 := by decide +kernel
  have hbits : keyNumBits onesKey = 2048 := by decide +kernel
  have hpadding : slice (ofList (algorithmData 256 32).padding) 0 224
      = (algorithmData 256 32).padding := holds_ofList (algorithmData 256 32).padding
  rw [signedImage_key]
  refine accepted_of_signed onesKey_wellFormed rfl rfl ?_ rfl ?_
  · rw [hbits]
  · rw [if_pos rfl, hpadding, slice_shift, slice_shift, Nat.add_zero, Nat.add_zero, hmodulus]
    exact signedImage_signature

theorem signedImage_accepted :
    avbVbmetaImageVerify ⟨true, true, true⟩ imageHash2 0 signedImage 1152
      = (.ok, some (576, 520)) := by
  refine avbVbmetaImageVerify_of_signed signedImage_header (by decide) (by decide +kernel)
    (by decide) ⟨rfl, rfl⟩ (by decide +kernel) (by decide) rfl rfl ?_ signedImage_verified
    (by decide)
  decide +kernel

/-- The image in question, with the digest and the signature that it has. -/
theorem avbVbmetaImageVerify_signed_image :
    ∃ algorithm, avbGetAlgorithmData 1 = some algorithm ∧
      bigEndian (algorithm.padding ++ slice (imageDigest imageHash2 1 (slice signedImage 0 256)
          (slice signedImage 576 576)) 0 algorithm.hashLen)
        = bigEndian (slice signedImage 288 256) ^ 65537 % keyModulus (shift signedImage 576) := by
  have hkey : WellFormedKey (shift signedImage 576) 520 := signedImage_key ▸ onesKey_wellFormed
  obtain ⟨-, -, -, algorithm, halgorithm, hsigned⟩ :=
    avbVbmetaImageVerify_signed signedImage_header (by decide) signedImage_accepted hkey
  dsimp only [Nat.reduceAdd] at hsigned
  rw [if_pos rfl] at hsigned
  exact ⟨algorithm, halgorithm, hsigned⟩

end Avb
