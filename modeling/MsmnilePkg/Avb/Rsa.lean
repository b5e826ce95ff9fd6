/-
  MsmnilePkg.Avb.Rsa

  avb_rsa.c: the verification of an RSA signature with the exponent 65537.

  Sums of 64 bits are taken modulo `2 ^ 64`, though none of them wraps.  An allocation may
  fail, which the caller of `modpowF4` is not told.
-/

import MsmnilePkg.Lib.BigEndian
import MsmnilePkg.Lib.Loop

namespace Avb

open ByteMem LittleEndian BigEndian Loop Limbs

/-! ## avb_util.c -/

/-- `avb_be32toh` of the field at `offset`. -/
def avbBe32toh (b : Buffer) (offset : Nat) : BitVec 32 := orBytes 32 (slice b offset 4)

/-- `avb_safe_memcmp`: whether the bytes differ. -/
def avbSafeMemcmp (s1 s2 : Buffer) (n : Nat) : Bool :=
  forTurns (fun i result => result ||| (s1 i ^^^ s2 i)) n 0#8 ≠ 0#8

/-! ## Numbers modulo the key -/

structure Key where
  /-- Length of `n` in number of words. -/
  len : Nat
  /-- -1 / n[0] mod 2^32 -/
  n0inv : BitVec 32
  n : Words 32
  /-- R^2 -/
  rr : Words 32

/-- One word of `subM`, with the borrow. -/
def subMTurn (key : Key) (i : Nat) (s : Int × Words 32) : Int × Words 32 :=
  let A := s.1 + (s.2 i).toNat - (key.n i).toNat
  (A / 2 ^ 32, Function.update s.2 i (BitVec.ofInt 32 A))

/-- `subM`: a[] -= mod -/
def subM (key : Key) (a : Words 32) : Words 32 := (forTurns (subMTurn key) key.len (0, a)).2

/-- The loop of `geM`, from the most significant word on. -/
def geMLoop (key : Key) (a : Words 32) : Nat → Bool
  | 0 => true
  | i + 1 => if a i < key.n i then false else if key.n i < a i then true else geMLoop key a i

/-- `geM`: return a[] >= mod -/
def geM (key : Key) (a : Words 32) : Bool := geMLoop key a key.len

/-- The two running sums of `montMulAdd`. -/
structure Sums where
  A : Nat
  B : Nat
  c : Words 32

/-- The turn of `montMulAdd` for the word `i = k + 1`. -/
def montMulAddTurn (key : Key) (a d0 : BitVec 32) (b : Words 32) (k : Nat) (s : Sums) : Sums :=
  let A := (s.A / 2 ^ 32 + a.toNat * (b (k + 1)).toNat + (s.c (k + 1)).toNat) % 2 ^ 64
  let B := (s.B / 2 ^ 32 + d0.toNat * (key.n (k + 1)).toNat + A % 2 ^ 32) % 2 ^ 64
  ⟨A, B, Function.update s.c k (BitVec.ofNat 32 B)⟩

/-- `montMulAdd`: montgomery c[] += a * b[] / R % mod -/
def montMulAdd (key : Key) (c : Words 32) (a : BitVec 32) (b : Words 32) : Words 32 :=
  let A := (a.toNat * (b 0).toNat + (c 0).toNat) % 2 ^ 64
  let d0 := BitVec.ofNat 32 A * key.n0inv
  let B := (d0.toNat * (key.n 0).toNat + A % 2 ^ 32) % 2 ^ 64
  let s := forTurns (montMulAddTurn key a d0 b) (key.len - 1) ⟨A, B, c⟩
  let A := s.A / 2 ^ 32 + s.B / 2 ^ 32
  let c := Function.update s.c (key.len - 1) (BitVec.ofNat 32 A)
  if A / 2 ^ 32 ≠ 0 then subM key c else c

/-- `montMul`: montgomery c[] = a[] * b[] / R % mod -/
def montMul (key : Key) (a b : Words 32) : Words 32 :=
  forTurns (fun i c => montMulAdd key c (a i) b) key.len fun _ => 0#32

/-- Big endian byte array to little endian word array. -/
def wordsOf (len : Nat) (inout : Buffer) : Words 32 := fun i =>
  avbBe32toh inout ((len - 1 - i) * 4)

/-- And back, the most significant word first. -/
def bytesOfWords (len : Nat) (a : Words 32) (inout : Buffer) : Buffer :=
  forTurns (fun k b => put b (4 * k) 4 fun j =>
    (a (len - 1 - k) >>> (24 - 8 * j)).setWidth 8) len inout

/-- The computation of `modpowF4`. -/
def modpow (key : Key) (a : Words 32) : Words 32 :=
  let aR := montMul key a key.rr
  let aR := forTurns (fun _ aR =>
    let aaR := montMul key aR aR
    montMul key aaR aaR) 8 aR
  let aaa := montMul key aR a
  if geM key aaa then subM key aaa else aaa

/-- `modpowF4`: in-place public exponentiation, given whether its arrays are allocated. -/
def modpowF4 (allocated : Bool) (key : Key) (inout : Buffer) : Buffer :=
  if allocated then bytesOfWords key.len (modpow key (wordsOf key.len inout)) inout else inout

/-! ## The verification -/

/-- What is allocated. -/
structure Allocated where
  key : Bool
  buf : Bool
  modpow : Bool

/-- `parse_key_data`; `AvbRSAPublicKeyHeader` has 8 bytes. -/
def parseKeyData (allocated : Bool) (data : Buffer) (length : Nat) : Option Key :=
  let keyNumBits := (avbBe32toh data 0).toNat
  if ¬(keyNumBits = 2048 ∨ keyNumBits = 4096 ∨ keyNumBits = 8192) then none
  else if length ≠ 8 + 2 * keyNumBits / 8 then none
  else if allocated = false then none
  else
    let len := keyNumBits / 32
    some {
      len := len
      n0inv := avbBe32toh data 4
      n := fun i => avbBe32toh data (8 + 4 * (len - i - 1))
      rr := fun i => avbBe32toh data (8 + keyNumBits / 8 + 4 * (len - i - 1)) }

/-- `avb_rsa_verify` -/
def avbRsaVerify (allocated : Allocated) (key : Buffer) (keyNumBytes : Nat) (sig : Buffer)
    (sigNumBytes : Nat) (hash : Buffer) (hashNumBytes : Nat) (padding : Buffer)
    (paddingNumBytes : Nat) : Bool :=
  match parseKeyData allocated.key key keyNumBytes with
  | none => false
  | some parsedKey =>
      if sigNumBytes ≠ parsedKey.len * 4 then false
      else if paddingNumBytes ≠ (sigNumBytes + (2 ^ 64 - hashNumBytes)) % 2 ^ 64 then false
      else if allocated.buf = false then false
      else
        let buf := modpowF4 allocated.modpow parsedKey sig
        if avbSafeMemcmp buf padding paddingNumBytes then false
        else !avbSafeMemcmp (fun i => buf (paddingNumBytes + i)) hash hashNumBytes

end Avb
