/-
  MsmnilePkg.Avb.Sha512

  avb_sha512.c, as it is built without UNROLL_LOOPS_SHA512.

  The lengths of a context are words of 32 bits.  Chunks of `2 ^ 31` bytes and more, for
  which the offset `i << 7` of a block is no `int` any more, are left out.
-/

import MsmnilePkg.Lib.BlockHash
import MsmnilePkg.Lib.BigEndian
import MsmnilePkg.Lib.RecordArea

namespace Avb

open ByteMem LittleEndian BigEndian BlockHash RecordArea Loop

def sha512H0 : Vector (BitVec 64) 8 :=
  #v[0x6a09e667f3bcc908, 0xbb67ae8584caa73b, 0x3c6ef372fe94f82b, 0xa54ff53a5f1d36f1,
   0x510e527fade682d1, 0x9b05688c2b3e6c1f, 0x1f83d9abfb41bd6b, 0x5be0cd19137e2179]

def sha512K : List (BitVec 64) :=
  [0x428a2f98d728ae22, 0x7137449123ef65cd, 0xb5c0fbcfec4d3b2f, 0xe9b5dba58189dbbc,
   0x3956c25bf348b538, 0x59f111f1b605d019, 0x923f82a4af194f9b, 0xab1c5ed5da6d8118,
   0xd807aa98a3030242, 0x12835b0145706fbe, 0x243185be4ee4b28c, 0x550c7dc3d5ffb4e2,
   0x72be5d74f27b896f, 0x80deb1fe3b1696b1, 0x9bdc06a725c71235, 0xc19bf174cf692694,
   0xe49b69c19ef14ad2, 0xefbe4786384f25e3, 0x0fc19dc68b8cd5b5, 0x240ca1cc77ac9c65,
   0x2de92c6f592b0275, 0x4a7484aa6ea6e483, 0x5cb0a9dcbd41fbd4, 0x76f988da831153b5,
   0x983e5152ee66dfab, 0xa831c66d2db43210, 0xb00327c898fb213f, 0xbf597fc7beef0ee4,
   0xc6e00bf33da88fc2, 0xd5a79147930aa725, 0x06ca6351e003826f, 0x142929670a0e6e70,
   0x27b70a8546d22ffc, 0x2e1b21385c26c926, 0x4d2c6dfc5ac42aed, 0x53380d139d95b3df,
   0x650a73548baf63de, 0x766a0abb3c77b2a8, 0x81c2c92e47edaee6, 0x92722c851482353b,
   0xa2bfe8a14cf10364, 0xa81a664bbc423001, 0xc24b8b70d0f89791, 0xc76c51a30654be30,
   0xd192e819d6ef5218, 0xd69906245565a910, 0xf40e35855771202a, 0x106aa07032bbd1b8,
   0x19a4c116b8d2d0c8, 0x1e376c085141ab53, 0x2748774cdf8eeb99, 0x34b0bcb5e19b48a8,
   0x391c0cb3c5c95a63, 0x4ed8aa4ae3418acb, 0x5b9cca4f7763e373, 0x682e6ff3d6b2b8a3,
   0x748f82ee5defb2fc, 0x78a5636f43172f60, 0x84c87814a1f0ab72, 0x8cc702081a6439ec,
   0x90befffa23631e28, 0xa4506cebde82bde9, 0xbef9a3f7b2c67915, 0xc67178f2e372532b,
   0xca273eceea26619c, 0xd186b8c721c0c207, 0xeada7dd6cde0eb1e, 0xf57d4f7fee6ed178,
   0x06f067aa72176fba, 0x0a637dc5a2c898a6, 0x113f9804bef90dae, 0x1b710b35131c471b,
   0x28db77f523047d84, 0x32caab7b40c72493, 0x3c9ebe0a15c9bebc, 0x431d67c49c100d4c,
   0x4cc5d4becb3e42b6, 0x597f299cfc657e2a, 0x5fcb6fab3ad6faec, 0x6c44198c4a475817]

/-! ## A block -/

def ch (x y z : BitVec 64) : BitVec 64 := (x &&& y) ^^^ (~~~x &&& z)

def maj (x y z : BitVec 64) : BitVec 64 := (x &&& y) ^^^ (x &&& z) ^^^ (y &&& z)

def sha512F1 (x : BitVec 64) : BitVec 64 :=
  x.rotateRight 28 ^^^ x.rotateRight 34 ^^^ x.rotateRight 39

def sha512F2 (x : BitVec 64) : BitVec 64 :=
  x.rotateRight 14 ^^^ x.rotateRight 18 ^^^ x.rotateRight 41

def sha512F3 (x : BitVec 64) : BitVec 64 := x.rotateRight 1 ^^^ x.rotateRight 8 ^^^ x >>> 7

def sha512F4 (x : BitVec 64) : BitVec 64 := x.rotateRight 19 ^^^ x.rotateRight 61 ^^^ x >>> 6

/-- `w[0]` to `w[79]`: the words of the block, and those made of them. -/
def sha512Words (block : List Byte) : Array (BitVec 64) :=
  let w := (Array.range 16).map fun j => orBytes 64 ((block.drop (8 * j)).take 8)
  forTurns (fun k w => w.push (sha512F4 (w.getD (14 + k) 0#64) + w.getD (9 + k) 0#64 +
    sha512F3 (w.getD (1 + k) 0#64) + w.getD k 0#64)) 64 w

def sha512Round (w : Array (BitVec 64)) (j : Nat) (wv : Vector (BitVec 64) 8) :
    Vector (BitVec 64) 8 :=
  let t1 := wv[7] + sha512F2 wv[4] + ch wv[4] wv[5] wv[6] + sha512K.getD j 0#64 + w.getD j 0#64
  let t2 := sha512F1 wv[0] + maj wv[0] wv[1] wv[2]
  #v[t1 + t2, wv[0], wv[1], wv[2], wv[3] + t1, wv[4], wv[5], wv[6]]

/-- The turn of `SHA512_transform` for one block. -/
def sha512Block (h : Vector (BitVec 64) 8) (block : List Byte) : Vector (BitVec 64) 8 :=
  let w := sha512Words block
  h.zipWith (· + ·) (forTurns (sha512Round w) 80 h)

/-- `SHA512_transform` -/
def sha512Transform (h : Vector (BitVec 64) 8) (message : Buffer) (blockNb : Nat) :
    Vector (BitVec 64) 8 :=
  forTurns (fun i h => sha512Block h (slice message (128 * i) 128)) blockNb h

/-! ## The context -/

structure Sha512Ctx where
  h : Vector (BitVec 64) 8
  totLen : BitVec 32
  len : Nat
  block : Buffer

/-- `avb_sha512_init`; the block is not set. -/
def avbSha512Init (block : Buffer) : Sha512Ctx := ⟨sha512H0, 0#32, 0, block⟩

/-- `avb_sha512_update` -/
def avbSha512Update (ctx : Sha512Ctx) (data : Buffer) (len : Nat) : Sha512Ctx :=
  let tmpLen := 128 - ctx.len
  let remLen := if len < tmpLen then len else tmpLen
  let block := put ctx.block ctx.len remLen data
  if (ctx.len + len) % 2 ^ 32 < 128 then
    { ctx with len := (ctx.len + len) % 2 ^ 32, block := block }
  else
    let newLen := len - remLen
    let blockNb := newLen / 128
    let shiftedData : Buffer := fun i => data (remLen + i)
    let h := sha512Transform ctx.h block 1
    { h := sha512Transform h shiftedData blockNb
      totLen := ctx.totLen + BitVec.ofNat 32 (128 * (blockNb + 1))
      len := newLen % 128
      block := put block 0 (newLen % 128) fun i => shiftedData (128 * blockNb + i) }

/-- The blocks that `avb_sha512_final` makes of the rest. -/
def sha512LastBlocks (ctx : Sha512Ctx) (blockNb : Nat) : Buffer :=
  let lenB := (ctx.totLen + BitVec.ofNat 32 ctx.len) <<< 3
  let pmLen := 128 * blockNb
  let block := put ctx.block ctx.len (pmLen - ctx.len) fun _ => 0#8
  let block := put block ctx.len 1 fun _ => 0x80#8
  put block (pmLen - 4) 4 fun j => (lenB >>> (24 - 8 * j)).setWidth 8

/-- The words of the digest, one after the other. -/
def sha512Bytes (h : Vector (BitVec 64) 8) : Buffer := fun i =>
  (h.toArray.getD (i / 8) 0#64 >>> (56 - 8 * (i % 8))).setWidth 8

/-- `avb_sha512_final` -/
def avbSha512Final (ctx : Sha512Ctx) : Buffer :=
  let blockNb := 1 + if 128 - 17 < ctx.len % 128 then 1 else 0
  sha512Bytes (sha512Transform ctx.h (sha512LastBlocks ctx blockNb) blockNb)

/-! ## The message so far -/

theorem slice_put_behind (b : Buffer) (k n : Nat) (src : Buffer) :
    slice (put b k n src) 0 (k + n) = slice b 0 k ++ slice src 0 n := by
  have hbefore : slice (put b k n src) 0 k = slice b 0 k :=
    slice_congr fun i hi => put_outside (Or.inl (by omega))
  have hstored : slice (put b k n src) (0 + k) n = slice src 0 n := by
    rw [Nat.zero_add, slice_put]
    exact List.map_congr_left fun i _ => congrArg src (Nat.zero_add i).symm
  rw [slice_add, hbefore, hstored]

/-- The blocks of the message are absorbed, the rest is in the block of the context. -/
structure Sha512Ctx.Holds (ctx : Sha512Ctx) (message : List Byte) : Prop where
  streamed : Streamed sha512Block 128 sha512H0 message ctx.h (slice ctx.block 0 ctx.len)
  total : ctx.totLen + BitVec.ofNat 32 ctx.len = BitVec.ofNat 32 message.length

theorem sha512Transform_eq (h : Vector (BitVec 64) 8) (data : Buffer) (offset blockNb : Nat) :
    sha512Transform h (fun i => data (offset + i)) blockNb
      = absorb sha512Block 128 h (slice data offset (128 * blockNb)) := by
  rw [absorb_slice (by decide), sha512Transform]
  exact forTurns_congr h fun i _ => funext fun h => congrArg _ (slice_shift ..)

theorem avbSha512Init_holds (block : Buffer) : (avbSha512Init block).Holds [] where
  streamed := streamed_nil (by decide)
  total := rfl

theorem Sha512Ctx.Holds.len_lt {ctx : Sha512Ctx} {message : List Byte} (hctx : ctx.Holds message) :
    ctx.len < 128 := by
  have := hctx.streamed.short
  rwa [slice_length] at this

/-- A chunk that does not fill the block. -/
theorem Sha512Ctx.Holds.keep {ctx : Sha512Ctx} {message : List Byte} (hctx : ctx.Holds message)
    (data : Buffer) {len : Nat} (hfits : ctx.len + len < 128) :
    Holds { ctx with len := ctx.len + len, block := put ctx.block ctx.len len data }
      (message ++ slice data 0 len) := by
  refine ⟨?_, ?_⟩
  · rw [slice_put_behind]
    exact hctx.streamed.keep (by rw [List.length_append, slice_length, slice_length]; exact hfits)
  · rw [List.length_append, slice_length, BitVec.ofNat_add, BitVec.ofNat_add, ← hctx.total]
    exact (BitVec.add_assoc ..).symm

/-- A chunk of `rem` bytes that fill the block, of `blockNb` blocks, and of a rest of `r`
    bytes. -/
theorem Sha512Ctx.Holds.fill {ctx : Sha512Ctx} {message : List Byte} (hctx : ctx.Holds message)
    (data : Buffer) {rem blockNb r : Nat} (hfilled : ctx.len + rem = 128) (hr : r < 128) :
    Holds
      { h := sha512Transform (sha512Transform ctx.h (put ctx.block ctx.len rem data) 1)
          (fun i => data (rem + i)) blockNb
        totLen := ctx.totLen + BitVec.ofNat 32 (128 * (blockNb + 1))
        len := r
        block := put (put ctx.block ctx.len rem data) 0 r
          fun i => data (rem + (128 * blockNb + i)) }
      (message ++ slice data 0 (rem + (128 * blockNb + r))) := by
  have hchunk : slice data 0 (rem + (128 * blockNb + r)) = slice data 0 rem
      ++ (slice data rem (128 * blockNb) ++ slice data (rem + 128 * blockNb) r) := by
    rw [slice_add, slice_add, Nat.zero_add]
  have hfirst : sha512Transform ctx.h (put ctx.block ctx.len rem data) 1
      = sha512Block ctx.h (slice ctx.block 0 ctx.len ++ slice data 0 rem) := by
    rw [← slice_put_behind, hfilled]
    rfl
  have hrest : slice (put (put ctx.block ctx.len rem data) 0 r
      fun i => data (rem + (128 * blockNb + i))) 0 r = slice data (rem + 128 * blockNb) r := by
    rw [slice_put]
    exact List.map_congr_left fun i _ => congrArg data (Nat.add_assoc ..).symm
  refine ⟨?_, ?_⟩
  · rw [hchunk, hrest, sha512Transform_eq, hfirst]
    refine hctx.streamed.fill (by decide) ?_ ?_ ?_
    · rw [List.length_append, slice_length, slice_length, hfilled]
    · rw [slice_length]
      exact ⟨blockNb, rfl⟩
    · rwa [slice_length]
  · show ctx.totLen + BitVec.ofNat 32 (128 * (blockNb + 1)) + BitVec.ofNat 32 r = _
    rw [List.length_append, slice_length, BitVec.ofNat_add, ← hctx.total, BitVec.add_assoc,
      BitVec.add_assoc, ← BitVec.ofNat_add, ← BitVec.ofNat_add]
    exact congrArg (fun n => ctx.totLen + BitVec.ofNat 32 n) (by omega)

/-- A chunk goes behind the message. -/
theorem avbSha512Update_holds {ctx : Sha512Ctx} {message : List Byte} (hctx : ctx.Holds message)
    (data : Buffer) {len : Nat} (hlen : len < 2 ^ 31) :
    (avbSha512Update ctx data len).Holds (message ++ slice data 0 len) := by
  have hshort := hctx.len_lt
  rw [avbSha512Update, Nat.mod_eq_of_lt (show ctx.len + len < 2 ^ 32 by omega)]
  dsimp only
  split
  · rename_i hfits
    rw [if_pos (by omega)]
    exact hctx.keep data hfits
  · rename_i hfull
    rw [if_neg (by omega)]
    generalize hrem : 128 - ctx.len = rem
    generalize hnb : (len - rem) / 128 = blockNb
    generalize hr : (len - rem) % 128 = r
    have hfilled : ctx.len + rem = 128 := by omega
    have hrest : r < 128 := by omega
    rw [show len = rem + (128 * blockNb + r) by omega]
    exact hctx.fill data hfilled hrest

/-- The chunks go behind the message, one after the other. -/
theorem foldl_avbSha512Update_holds {chunks : List (Buffer × Nat)}
    (hchunks : ∀ chunk ∈ chunks, chunk.2 < 2 ^ 31) :
    ∀ {ctx : Sha512Ctx} {message : List Byte}, ctx.Holds message →
      (chunks.foldl (fun ctx chunk => avbSha512Update ctx chunk.1 chunk.2) ctx).Holds
        (message ++ chunks.flatMap fun chunk => slice chunk.1 0 chunk.2) := by
  induction chunks with
  | nil =>
      intro ctx message hctx
      rw [List.flatMap_nil, List.append_nil]
      exact hctx
  | cons chunk chunks ih =>
      intro ctx message hctx
      rw [List.flatMap_cons, ← List.append_assoc]
      exact ih (fun c hc => hchunks c (List.mem_cons_of_mem _ hc))
        (avbSha512Update_holds hctx chunk.1 (hchunks chunk List.mem_cons_self))

/-! ## The digest -/

/-- The length of a message in bits, in 16 bytes. -/
def lengthField (bits : Nat) : List Byte := (slice (bytesOf bits) 0 16).reverse

/-- The padding of SHA-512: a bit, zeros, and the length. -/
def sha512Padding (length bits : Nat) : List Byte :=
  0x80#8 :: (List.replicate ((239 - length % 128) % 128) 0#8 ++ lengthField bits)

/-- A length that is a word of 32 bits. -/
theorem lengthField_word (bits : BitVec 32) :
    lengthField bits.toNat = List.replicate 12 0#8
      ++ (List.range 4).map fun j => (bits >>> (24 - 8 * j)).setWidth 8 := by
  have hhigh : slice (bytesOf bits.toNat) 4 12 = List.replicate 12 0#8 := by
    refine List.eq_replicate_iff.mpr ⟨slice_length .., fun x hx => ?_⟩
    obtain ⟨i, -, rfl⟩ := List.mem_map.mp hx
    have hpow : (256 : Nat) ^ 4 ≤ 256 ^ (4 + i) :=
      Nat.pow_le_pow_right (by decide) (Nat.le_add_right 4 i)
    have hlt : bits.toNat < 256 ^ (4 + i) := Nat.lt_of_lt_of_le bits.isLt hpow
    rw [bytesOf, Nat.div_eq_of_lt hlt]
  have hbyte : ∀ k, bytesOf bits.toNat k = (bits >>> (8 * k)).setWidth 8 := by
    intro k
    apply BitVec.eq_of_toNat_eq
    rw [bytesOf, BitVec.toNat_ofNat, BitVec.toNat_setWidth, BitVec.toNat_ushiftRight,
      Nat.shiftRight_eq_div_pow, Nat.pow_mul]
  have hlow : (slice (bytesOf bits.toNat) 0 4).reverse
      = (List.range 4).map fun j => (bits >>> (24 - 8 * j)).setWidth 8 := by
    show [bytesOf bits.toNat 3, bytesOf bits.toNat 2, bytesOf bits.toNat 1, bytesOf bits.toNat 0]
      = _
    rw [hbyte, hbyte, hbyte, hbyte]
    rfl
  rw [lengthField, slice_add (bytesOf bits.toNat) 0 4 12, List.reverse_append, hlow, Nat.zero_add,
    hhigh, List.reverse_replicate]

theorem slice_zeros {b : Buffer} {offset n : Nat} (h : ∀ i < n, b (offset + i) = 0#8) :
    slice b offset n = List.replicate n 0#8 := by
  refine List.eq_replicate_iff.mpr ⟨slice_length .., fun x hx => ?_⟩
  obtain ⟨i, hi, rfl⟩ := List.mem_map.mp hx
  exact h i (List.mem_range.mp hi)

/-- What is hashed at the end: the rest with the padding behind it. -/
theorem sha512LastBlocks_eq (ctx : Sha512Ctx) {blockNb zeros : Nat}
    (hsize : 128 * blockNb = ctx.len + (1 + (zeros + (12 + 4)))) :
    slice (sha512LastBlocks ctx blockNb) 0 (128 * blockNb) = slice ctx.block 0 ctx.len
      ++ 0x80#8 :: (List.replicate zeros 0#8
        ++ lengthField ((ctx.totLen + BitVec.ofNat 32 ctx.len) <<< 3).toNat) := by
  have hend : 128 * blockNb - 4 = ctx.len + 1 + zeros + 12 := by omega
  have hfirst : slice (sha512LastBlocks ctx blockNb) 0 ctx.len = slice ctx.block 0 ctx.len :=
    slice_congr fun i hi => by
      rw [sha512LastBlocks, put_outside (by omega), put_outside (by omega), put_outside (by omega)]
  have hbit : slice (sha512LastBlocks ctx blockNb) ctx.len 1 = [0x80#8] := by
    show [sha512LastBlocks ctx blockNb (ctx.len + 0)] = _
    rw [sha512LastBlocks, put_outside (by omega), put_inside (by omega)]
  have hzeros : ∀ i < zeros + 12, sha512LastBlocks ctx blockNb (ctx.len + 1 + i) = 0#8 := by
    intro i hi
    rw [sha512LastBlocks, put_outside (by omega), put_outside (by omega), put,
      if_pos ⟨by omega, by omega⟩]
  have hlength : slice (sha512LastBlocks ctx blockNb) (ctx.len + 1 + zeros + 12) 4
      = (List.range 4).map fun j =>
        (((ctx.totLen + BitVec.ofNat 32 ctx.len) <<< 3) >>> (24 - 8 * j)).setWidth 8 := by
    rw [← hend, sha512LastBlocks]
    exact slice_put ..
  have hbefore : slice (sha512LastBlocks ctx blockNb) (ctx.len + 1) zeros
      = List.replicate zeros 0#8 := slice_zeros fun i hi => hzeros i (by omega)
  have hbehind : slice (sha512LastBlocks ctx blockNb) (ctx.len + 1 + zeros) 12
      = List.replicate 12 0#8 := by
    refine slice_zeros fun i hi => ?_
    rw [Nat.add_assoc (ctx.len + 1)]
    exact hzeros _ (by omega)
  rw [hsize, slice_add, slice_add, slice_add, slice_add, Nat.zero_add, hfirst, hbit, hlength,
    hbefore, hbehind, lengthField_word]
  rfl

theorem avbSha512Final_eq {ctx : Sha512Ctx} {message : List Byte} (hctx : ctx.Holds message) :
    avbSha512Final ctx = sha512Bytes (absorb sha512Block 128 sha512H0
      (message ++ sha512Padding message.length (8 * message.length % 2 ^ 32))) := by
  have hshort := hctx.len_lt
  obtain ⟨hs, htotal⟩ := hctx
  have hmod : message.length % 128 = ctx.len := by
    obtain ⟨whole, hwhole, ⟨k, hk⟩, -⟩ := hs.absorbed
    rw [hwhole, List.length_append, slice_length, hk]
    omega
  have hbits : ((ctx.totLen + BitVec.ofNat 32 ctx.len) <<< 3).toNat
      = 8 * message.length % 2 ^ 32 := by
    rw [htotal, BitVec.toNat_shiftLeft, BitVec.toNat_ofNat, Nat.shiftLeft_eq]
    omega
  rw [avbSha512Final, Nat.mod_eq_of_lt hshort]
  generalize hnb : (1 + if 128 - 17 < ctx.len then 1 else 0) = blockNb
  have hsize : 128 * blockNb = ctx.len + (1 + ((239 - ctx.len) % 128 + (12 + 4))) := by
    split at hnb <;> omega
  have hblocks := absorb_slice (f := sha512Block) (n := 128) (h := ctx.h) (by decide)
    (sha512LastBlocks ctx blockNb) 0 blockNb
  simp only [Nat.zero_add] at hblocks
  rw [sha512Transform, ← hblocks, sha512LastBlocks_eq ctx hsize, hs.finish (by decide), hbits,
    sha512Padding, hmod]

/-- The chunks of a message, each with its length. -/
def avbSha512Chunks (block : Buffer) (chunks : List (Buffer × Nat)) : Sha512Ctx :=
  chunks.foldl (fun ctx chunk => avbSha512Update ctx chunk.1 chunk.2) (avbSha512Init block)

/-- However a message is cut, the digest is that of its padded blocks, with its length in bits
    modulo `2 ^ 32`. -/
theorem avbSha512_chunks (block : Buffer) (chunks : List (Buffer × Nat))
    (hchunks : ∀ chunk ∈ chunks, chunk.2 < 2 ^ 31) {message : List Byte}
    (hmessage : message = chunks.flatMap fun chunk => slice chunk.1 0 chunk.2) :
    avbSha512Final (avbSha512Chunks block chunks)
      = sha512Bytes (absorb sha512Block 128 sha512H0
        (message ++ sha512Padding message.length (8 * message.length % 2 ^ 32))) := by
  have hall := foldl_avbSha512Update_holds hchunks (avbSha512Init_holds block)
  rw [List.nil_append, ← hmessage] at hall
  exact avbSha512Final_eq hall

/-- 300 times `a`, in two chunks: the second one fills the block of the first, and another. -/
theorem avbSha512_chunks_300 :
    avbSha512Final (avbSha512Chunks (fun _ => 0#8) [(fun _ => 0x61#8, 100), (fun _ => 0x61#8, 200)])
      = sha512Bytes (absorb sha512Block 128 sha512H0
        (List.replicate 300 0x61#8 ++ sha512Padding 300 2400)) := by
  have hdigest : ∀ message : List Byte, message.length = 300 →
      message = [((fun _ => 0x61#8 : Buffer), 100), (fun _ => 0x61#8, 200)].flatMap
        (fun chunk => slice chunk.1 0 chunk.2) →
      avbSha512Final (avbSha512Chunks (fun _ => 0#8)
          [(fun _ => 0x61#8, 100), (fun _ => 0x61#8, 200)])
        = sha512Bytes (absorb sha512Block 128 sha512H0 (message ++ sha512Padding 300 2400)) := by
    intro message hlength hmessage
    have h := avbSha512_chunks (fun _ => 0#8) [(fun _ => 0x61#8, 100), (fun _ => 0x61#8, 200)]
      (by decide) hmessage
    rwa [hlength] at h
  exact hdigest _ List.length_replicate (by decide +kernel)

/-- The first bytes of the digest of `abc`. -/
example : slice (avbSha512Final (avbSha512Update (avbSha512Init fun _ => 0#8)
    (fun i => BitVec.ofNat 8 (0x61 + i)) 3)) 0 8
    = [0xdd#8, 0xaf#8, 0x35#8, 0xa1#8, 0x93#8, 0x61#8, 0x7a#8, 0xba#8] := by decide +kernel

end Avb
