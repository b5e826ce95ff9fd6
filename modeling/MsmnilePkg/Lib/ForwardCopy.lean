/-
  MsmnilePkg.Lib.ForwardCopy

  Copying a range of memory block by block, from the lowest address up.

  Every block is read as a whole before any of it is written, but the blocks
  written earlier are not saved: where the destination lies above the source,
  inside it, the copy reads bytes that it has already overwritten.
  `ReadLate w d i` says that byte `i` of a copy to distance `d` is such a byte.
-/

import MsmnilePkg.Lib.ByteMem

namespace ByteMem

/-- A block of `w` bytes moved at once. -/
def moveBlock (w : Nat) (m : Mem) (dst src : Addr) : Mem := fun a =>
  if (a - dst).toNat < w then m (src + (a - dst)) else m a

/-- `k` blocks moved one after the other, from the lowest up. -/
def copyUp (w : Nat) (m : Mem) (dst src : Addr) : Nat → Mem
  | 0 => m
  | k + 1 => moveBlock w (copyUp w m dst src k) (dst + BitVec.ofNat 64 (w * k))
      (src + BitVec.ofNat 64 (w * k))

/-- The source of byte `i` has been overwritten when its block is read. -/
def ReadLate (w d i : Nat) : Prop := d ≤ i ∧ i - d < w * (i / w)

instance (w d i : Nat) : Decidable (ReadLate w d i) := inferInstanceAs (Decidable (_ ∧ _))

variable {w k : Nat} {m : Mem} {dst src : Addr}

/-! ## One block -/

theorem add_ofNat_sub_toNat (p : Addr) {i : Nat} (hi : i < 2 ^ 64) :
    (p + BitVec.ofNat 64 i - p).toNat = i := by
  bv_omega

/-- The distance from the start of block `k` to an address behind it. -/
theorem sub_add_toNat {p a : Addr} {n : Nat} (h : n ≤ (a - p).toNat) :
    (a - (p + BitVec.ofNat 64 n)).toNat = (a - p).toNat - n := by
  have := (a - p).isLt
  bv_omega

theorem moveBlock_of_outside {a : Addr} (h : w ≤ (a - dst).toNat) :
    moveBlock w m dst src a = m a := by
  rw [moveBlock, if_neg (by omega)]

theorem moveBlock_inside {i : Nat} (hi : i < w) (hi64 : i < 2 ^ 64) :
    moveBlock w m dst src (dst + BitVec.ofNat 64 i) = m (src + BitVec.ofNat 64 i) := by
  have hsub : dst + BitVec.ofNat 64 i - dst = BitVec.ofNat 64 i := by bv_omega
  rw [moveBlock, add_ofNat_sub_toNat dst hi64, if_pos hi, hsub]

/-- A doubleword read at `b` and written at `a` is a block of eight bytes. -/
theorem write64_read64 (m m' : Mem) (a b x : Addr) :
    write64 m a (read64 m' b) x = if (x - a).toNat < 8 then m' (b + (x - a)) else m x := by
  by_cases hx : (x - a).toNat < 8
  · rw [if_pos hx, write64, read64_lo, read64_hi]
    by_cases hlow : (x - a).toNat < 4
    · have hout : 4 ≤ (x - (a + 4#64)).toNat := by bv_omega
      rw [write32_of_outside hout, write32, if_pos hlow, byteOf32_read32 _ _ hlow,
        BitVec.ofNat_toNat, BitVec.setWidth_eq]
    · have hhigh : (x - (a + 4#64)).toNat < 4 := by bv_omega
      rw [write32, if_pos hhigh, byteOf32_read32 _ _ hhigh, BitVec.ofNat_toNat, BitVec.setWidth_eq]
      congr 1
      bv_omega
  · rw [if_neg hx, write64_of_outside (by omega)]

/-- Two doublewords that are both read before they are written. -/
theorem moveBlock_pair (m : Mem) (a b : Addr) :
    write64 (write64 m a (read64 m b)) (a + 8#64) (read64 m (b + 8#64)) = moveBlock 16 m a b := by
  funext x
  rw [write64_read64, write64_read64, moveBlock]
  by_cases hx : (x - a).toNat < 16
  · by_cases hlow : (x - a).toNat < 8
    · rw [if_neg (by bv_omega), if_pos hlow, if_pos hx]
    · rw [if_pos (by bv_omega), if_pos hx]
      congr 1
      bv_omega
  · rw [if_neg (by bv_omega), if_neg (by omega), if_neg hx]

/-- Two memories hold the same doubleword when they hold the same eight bytes. -/
theorem read64_eq_read64_iff {m m' : Mem} {a : Addr} :
    read64 m a = read64 m' a ↔ ∀ i < 8, m (a + BitVec.ofNat 64 i) = m' (a + BitVec.ofNat 64 i) := by
  constructor
  · intro h i hi
    have hlt : (a + BitVec.ofNat 64 i - a).toNat < 8 := by bv_omega
    have hback : a + (a + BitVec.ofNat 64 i - a) = a + BitVec.ofNat 64 i := by bv_omega
    -- store either doubleword at its own address and look at the byte
    have hm := write64_read64 m m a a (a + BitVec.ofNat 64 i)
    have hm' := write64_read64 m m' a a (a + BitVec.ofNat 64 i)
    rw [if_pos hlt, hback] at hm hm'
    rw [← hm, ← hm', h]
  · exact read64_congr

/-- Two memories hold the same doubleword when they hold the same two words. -/
theorem read64_eq_iff_read32 {m m' : Mem} {a : Addr} :
    read64 m a = read64 m' a ↔ read32 m a = read32 m' a ∧
      read32 m (a + 4#64) = read32 m' (a + 4#64) := by
  constructor
  · intro h
    rw [← read64_lo, ← read64_lo, ← read64_hi, ← read64_hi, h]
    exact ⟨rfl, rfl⟩
  · rintro ⟨hlo, hhi⟩
    exact read64_eq_of_read32 hlo hhi

/-! ## The whole copy -/

/-- A byte that lies behind the blocks moved so far is as it was. -/
theorem copyUp_of_outside (src : Addr) {a : Addr} (h : w * k ≤ (a - dst).toNat) :
    copyUp w m dst src k a = m a := by
  induction k with
  | zero => rfl
  | succ k ih =>
      rw [Nat.mul_succ] at h
      have hblock : w ≤ (a - (dst + BitVec.ofNat 64 (w * k))).toNat := by
        rw [sub_add_toNat (by omega)]
        omega
      rw [copyUp, moveBlock_of_outside hblock]
      exact ih (by omega)

/-- Block `k` leaves what the blocks before it have written. -/
theorem copyUp_succ_of_lt (hk : w * (k + 1) ≤ 2 ^ 64) {i : Nat} (hi : i < w * k) :
    copyUp w m dst src (k + 1) (dst + BitVec.ofNat 64 i)
      = copyUp w m dst src k (dst + BitVec.ofNat 64 i) := by
  rw [Nat.mul_succ] at hk
  have hblock : w ≤ (dst + BitVec.ofNat 64 i - (dst + BitVec.ofNat 64 (w * k))).toNat := by
    bv_omega
  rw [copyUp, moveBlock_of_outside hblock]

/-- A byte of block `k` is read from the memory that the blocks before it left. -/
theorem copyUp_succ_of_le (hk : w * (k + 1) ≤ 2 ^ 64) {i : Nat} (hlo : w * k ≤ i)
    (hhi : i < w * (k + 1)) :
    copyUp w m dst src (k + 1) (dst + BitVec.ofNat 64 i)
      = copyUp w m dst src k (src + BitVec.ofNat 64 i) := by
  have hsplit : ∀ p : Addr, p + BitVec.ofNat 64 i
      = p + BitVec.ofNat 64 (w * k) + BitVec.ofNat 64 (i - w * k) := by
    intro p
    rw [BitVec.add_assoc, ← BitVec.ofNat_add, Nat.add_sub_cancel' hlo]
  rw [Nat.mul_succ] at hk hhi
  rw [copyUp, hsplit dst, moveBlock_inside (by omega) (by omega), ← hsplit src]

/-- What the copy leaves in byte `i`: the byte of the source as it was, or, where
    that was overwritten before it was read, the byte the copy had put there. -/
theorem copyUp_byte (m : Mem) (dst src : Addr) (hk : w * k ≤ 2 ^ 64) {i : Nat} (hi : i < w * k) :
    copyUp w m dst src k (dst + BitVec.ofNat 64 i)
      = if ReadLate w (dst - src).toNat i
        then copyUp w m dst src k (dst + BitVec.ofNat 64 (i - (dst - src).toNat))
        else m (src + BitVec.ofNat 64 i) := by
  induction k with
  | zero => omega
  | succ k ih =>
      have hle : w * k ≤ 2 ^ 64 := Nat.le_trans (Nat.mul_le_mul_left w (Nat.le_succ k)) hk
      by_cases hlt : i < w * k
      · -- an earlier block: block `k` changes neither side
        rw [copyUp_succ_of_lt hk hlt, copyUp_succ_of_lt hk (by omega)]
        exact ih hle hlt
      · -- the block that is moved now
        have hdiv : i / w = k := by
          rw [Nat.mul_comm] at hlt hi
          exact Nat.div_eq_of_lt_le (by omega) hi
        rw [copyUp_succ_of_le hk (by omega) hi]
        by_cases hlate : ReadLate w (dst - src).toNat i
        · obtain ⟨hd, hback⟩ := hlate
          rw [if_pos ⟨hd, hback⟩, copyUp_succ_of_lt hk (by rwa [hdiv] at hback)]
          congr 1
          bv_omega
        · rw [if_neg hlate, copyUp_of_outside src]
          rw [ReadLate, hdiv] at hlate
          bv_omega

/-- The copy is faithful exactly when every byte that is read late is read as the
    byte it was before. -/
theorem copyUp_faithful_iff (m : Mem) (dst src : Addr) (hk : w * k ≤ 2 ^ 64) :
    (∀ i < w * k, copyUp w m dst src k (dst + BitVec.ofNat 64 i) = m (src + BitVec.ofNat 64 i)) ↔
      ∀ i < w * k, ReadLate w (dst - src).toNat i →
        m (src + BitVec.ofNat 64 (i - (dst - src).toNat)) = m (src + BitVec.ofNat 64 i) := by
  constructor
  · intro hcopy i hi hlate
    have hbyte := copyUp_byte m dst src hk hi
    rw [if_pos hlate, hcopy i hi, hcopy _ (by omega)] at hbyte
    exact hbyte.symm
  · intro hsame i
    -- the byte a late read finds was put there for a smaller index
    induction i using Nat.strongRecOn with
    | ind i ih =>
        intro hi
        rw [copyUp_byte m dst src hk hi]
        by_cases hlate : ReadLate w (dst - src).toNat i
        · have hback : i - (dst - src).toNat < i := by
            have := Nat.mul_div_le i w
            have := hlate.2
            omega
          rw [if_pos hlate, ih _ hback (by omega)]
          exact hsame i hi hlate
        · rw [if_neg hlate]

end ByteMem
