/-
  MsmnilePkg.Lib.ByteMem

  A flat byte-addressed memory over 64-bit addresses, with little-endian
  16-bit, 32-bit and 64-bit accesses.

  Addresses wrap modulo `2 ^ 64`, as the hardware's do.  Whether an access
  touches a byte is stated through the distance `b - a` between the two
  addresses, so that the frame lemmas need no side condition on wrapping.
-/

import Mathlib.Data.BitVec
import Mathlib.Logic.Function.Basic

namespace ByteMem

abbrev Addr := BitVec 64
abbrev Byte := BitVec 8
abbrev Mem := Addr → Byte

/-! ## Little-endian words -/

/-- The 32-bit word whose bytes are `b0` (lowest address) to `b3`. -/
def word32 (b0 b1 b2 b3 : Byte) : BitVec 32 :=
  b0.setWidth 32 ||| b1.setWidth 32 <<< 8 ||| b2.setWidth 32 <<< 16 ||| b3.setWidth 32 <<< 24

/-- Byte `i` of a 32-bit word, counted from the least significant one. -/
def byteOf32 (w : BitVec 32) (i : Nat) : Byte := (w >>> (8 * i)).setWidth 8

theorem byteOf32_word32 (b0 b1 b2 b3 : Byte) :
    byteOf32 (word32 b0 b1 b2 b3) 0 = b0 ∧ byteOf32 (word32 b0 b1 b2 b3) 1 = b1 ∧
      byteOf32 (word32 b0 b1 b2 b3) 2 = b2 ∧ byteOf32 (word32 b0 b1 b2 b3) 3 = b3 := by
  refine ⟨?_, ?_, ?_, ?_⟩ <;>
  · ext i hi
    simp [byteOf32, word32] <;> grind

theorem word32_byteOf32 (w : BitVec 32) :
    word32 (byteOf32 w 0) (byteOf32 w 1) (byteOf32 w 2) (byteOf32 w 3) = w := by
  ext i hi
  simp [byteOf32, word32]
  grind

/-! ## Accesses -/

def read16 (m : Mem) (a : Addr) : BitVec 16 :=
  (m a).setWidth 16 ||| (m (a + 1#64)).setWidth 16 <<< 8

def read32 (m : Mem) (a : Addr) : BitVec 32 :=
  word32 (m a) (m (a + 1#64)) (m (a + 2#64)) (m (a + 3#64))

def read64 (m : Mem) (a : Addr) : BitVec 64 :=
  (read32 m a).setWidth 64 ||| (read32 m (a + 4#64)).setWidth 64 <<< 32

def write8 (m : Mem) (a : Addr) (v : Byte) : Mem := fun b => if b = a then v else m b

def write32 (m : Mem) (a : Addr) (v : BitVec 32) : Mem := fun b =>
  if (b - a).toNat < 4 then byteOf32 v (b - a).toNat else m b

def write64 (m : Mem) (a : Addr) (v : BitVec 64) : Mem :=
  write32 (write32 m a (v.setWidth 32)) (a + 4#64) ((v >>> 32).setWidth 32)

/-- The `n` bytes at `a` and the `k` bytes at `b` have no byte in common. -/
def Apart (a : Addr) (n : Nat) (b : Addr) (k : Nat) : Prop :=
  n ≤ (b - a).toNat ∧ k ≤ (a - b).toNat

instance (a : Addr) (n : Nat) (b : Addr) (k : Nat) : Decidable (Apart a n b k) :=
  inferInstanceAs (Decidable (_ ∧ _))

theorem Apart.symm {a b : Addr} {n k : Nat} (h : Apart a n b k) : Apart b k a n :=
  ⟨h.2, h.1⟩

/-- A byte of the second span lies outside the first one. -/
theorem Apart.outside {a b : Addr} {n k i : Nat} (h : Apart a n b k) (hi : i < k) :
    n ≤ (b + BitVec.ofNat 64 i - a).toNat := by
  obtain ⟨h1, h2⟩ := h
  bv_omega

/-- A span apart from a longer one is apart from each part of it. -/
theorem Apart.part {a b : Addr} {n k i l : Nat} (h : Apart a n b k) (hi : i + l ≤ k)
    (hl : 0 < l) : Apart a n (b + BitVec.ofNat 64 i) l := by
  obtain ⟨h1, h2⟩ := h
  constructor <;> bv_omega

/-! ## Frame and read-back -/

theorem write8_same (m : Mem) (a : Addr) (v : Byte) : write8 m a v a = v := by
  simp [write8]

theorem write8_of_ne {m : Mem} {a b : Addr} {v : Byte} (h : b ≠ a) : write8 m a v b = m b := by
  simp [write8, h]

theorem write32_of_outside {m : Mem} {a b : Addr} {v : BitVec 32} (h : 4 ≤ (b - a).toNat) :
    write32 m a v b = m b := by
  have hn : ¬ (b - a).toNat < 4 := by omega
  rw [write32, if_neg hn]

theorem write32_byte {m : Mem} {a : Addr} {v : BitVec 32} {i : Nat} (hi : i < 4) :
    write32 m a v (a + BitVec.ofNat 64 i) = byteOf32 v i := by
  have hd : (a + BitVec.ofNat 64 i - a).toNat = i := by bv_omega
  rw [write32, hd, if_pos hi]

theorem read32_write32_self (m : Mem) (a : Addr) (v : BitVec 32) :
    read32 (write32 m a v) a = v := by
  have h0 := write32_byte (m := m) (a := a) (v := v) (i := 0) (by omega)
  have h1 := write32_byte (m := m) (a := a) (v := v) (i := 1) (by omega)
  have h2 := write32_byte (m := m) (a := a) (v := v) (i := 2) (by omega)
  have h3 := write32_byte (m := m) (a := a) (v := v) (i := 3) (by omega)
  rw [BitVec.add_zero] at h0
  rw [read32, h0, h1, h2, h3, word32_byteOf32]

/-- A word read depends on its four bytes only. -/
theorem read32_congr {m m' : Mem} {a : Addr}
    (h : ∀ i < 4, m (a + BitVec.ofNat 64 i) = m' (a + BitVec.ofNat 64 i)) :
    read32 m a = read32 m' a := by
  have h0 := h 0 (by omega)
  rw [BitVec.add_zero] at h0
  rw [read32, read32, h0, h 1 (by omega), h 2 (by omega), h 3 (by omega)]

theorem read32_write32_of_apart {m : Mem} {a b : Addr} {v : BitVec 32}
    (h : Apart a 4 b 4) : read32 (write32 m a v) b = read32 m b :=
  read32_congr fun _ hi => write32_of_outside (h.outside hi)

/-- Every byte is a byte of the word that starts at most three below it. -/
theorem byteOf32_read32 (m : Mem) (a : Addr) {i : Nat} (hi : i < 4) :
    byteOf32 (read32 m a) i = m (a + BitVec.ofNat 64 i) := by
  obtain ⟨h0, h1, h2, h3⟩ :=
    byteOf32_word32 (m a) (m (a + 1#64)) (m (a + 2#64)) (m (a + 3#64))
  obtain rfl | rfl | rfl | rfl : i = 0 ∨ i = 1 ∨ i = 2 ∨ i = 3 := by omega
  · rw [BitVec.add_zero]; exact h0
  · exact h1
  · exact h2
  · exact h3

/-- Writing back the word that is there changes nothing. -/
theorem write32_read32 (m : Mem) (a : Addr) : write32 m a (read32 m a) = m := by
  funext b
  by_cases h : (b - a).toNat < 4
  · have hb : a + BitVec.ofNat 64 (b - a).toNat = b := by bv_omega
    rw [write32, if_pos h, byteOf32_read32 m a h, hb]
  · rw [write32, if_neg h]

theorem read64_eq_of_read32 {m m' : Mem} {a : Addr} (hlo : read32 m a = read32 m' a)
    (hhi : read32 m (a + 4#64) = read32 m' (a + 4#64)) : read64 m a = read64 m' a := by
  rw [read64, read64, hlo, hhi]

/-- A doubleword read depends on its eight bytes only. -/
theorem read64_congr {m m' : Mem} {a : Addr}
    (h : ∀ i < 8, m (a + BitVec.ofNat 64 i) = m' (a + BitVec.ofNat 64 i)) :
    read64 m a = read64 m' a := by
  refine read64_eq_of_read32 (read32_congr fun i hi => h i (by omega)) ?_
  refine read32_congr fun i hi => ?_
  have haddr : a + 4#64 + BitVec.ofNat 64 i = a + BitVec.ofNat 64 (4 + i) := by
    rw [BitVec.add_assoc, BitVec.ofNat_add]
  rw [haddr]
  exact h (4 + i) (by omega)

/-- The low and the high word of a doubleword. -/
theorem read64_lo (m : Mem) (a : Addr) : (read64 m a).setWidth 32 = read32 m a := by
  ext i hi
  simp [read64]

theorem read64_hi (m : Mem) (a : Addr) :
    (read64 m a >>> 32).setWidth 32 = read32 m (a + 4#64) := by
  ext i hi
  simp [read64]
  grind

/-- A byte outside a doubleword that is written keeps its value. -/
theorem write64_of_outside {m : Mem} {a b : Addr} {v : BitVec 64} (h : 8 ≤ (b - a).toNat) :
    write64 m a v b = m b := by
  have hhi : 4 ≤ (b - (a + 4#64)).toNat := by
    have := (b - a).isLt
    bv_omega
  rw [write64, write32_of_outside hhi, write32_of_outside (by omega)]

theorem read64_write64_of_apart {m : Mem} {a b : Addr} {v : BitVec 64} (h : Apart a 8 b 8) :
    read64 (write64 m a v) b = read64 m b :=
  read64_congr fun _ hi => write64_of_outside (h.outside hi)

theorem read64_write64_self (m : Mem) (a : Addr) (v : BitVec 64) :
    read64 (write64 m a v) a = v := by
  have hlo : read32 (write64 m a v) a = v.setWidth 32 := by
    rw [write64, read32_write32_of_apart (by constructor <;> bv_omega), read32_write32_self]
  have hhi : read32 (write64 m a v) (a + 4#64) = (v >>> 32).setWidth 32 := by
    rw [write64, read32_write32_self]
  rw [read64, hlo, hhi]
  ext i hi
  simp
  grind

/-- A doubleword is matched exactly when both of its words are. -/
theorem read64_eq_iff (m : Mem) (a : Addr) (v : BitVec 64) :
    read64 m a = v ↔ read32 m a = v.setWidth 32 ∧
      read32 m (a + 4#64) = (v >>> 32).setWidth 32 := by
  constructor
  · rintro rfl
    exact ⟨(read64_lo m a).symm, (read64_hi m a).symm⟩
  · rintro ⟨hlo, hhi⟩
    rw [read64, hlo, hhi]
    ext i hi
    simp
    grind

end ByteMem
