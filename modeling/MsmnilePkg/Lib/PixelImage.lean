/-
  MsmnilePkg.Lib.PixelImage

  Images kept in memory, row by row, each pixel in a fixed number of bytes.

  `Shows m base W H b im` says that the memory has the image `im` of `H` rows
  and `W` columns from `base` on, with `b` bytes a pixel.  Images are compared
  pixel by pixel; an operation on one paints a set of pixels in a colour.
-/

import Mathlib.Tactic.Ring
import MsmnilePkg.Lib.ByteMem

namespace PixelImage

open ByteMem

/-- The bytes of an image by row, column and place in the pixel. -/
abbrev Image := Nat → Nat → Nat → Byte

/-- The pixels of `p` in a colour. -/
def Image.paint (im : Image) (p : Nat → Nat → Prop) [∀ r q, Decidable (p r q)]
    (color : Nat → Byte) : Image := fun r q k => if p r q then color k else im r q k

section Paint

variable {im : Image} {p u : Nat → Nat → Prop} [∀ r q, Decidable (p r q)]
  [∀ r q, Decidable (u r q)] {color : Nat → Byte}

theorem Image.paint_congr (h : ∀ r q, p r q ↔ u r q) :
    im.paint p color = im.paint u color := by
  funext r q k
  simp only [paint, h]

theorem Image.paint_none (h : ∀ r q, ¬ p r q) : im.paint p color = im := by
  funext r q k
  exact if_neg (h r q)

theorem Image.paint_paint : (im.paint p color).paint u color
    = im.paint (fun r q => p r q ∨ u r q) color := by
  funext r q k
  by_cases hp : p r q
  · by_cases hu : u r q <;> simp [paint, hp, hu]
  · by_cases hu : u r q <;> simp [paint, hp, hu]

end Paint

/-! ## Places in memory -/

section Memory

variable {W H b : Nat}

/-- The place of byte `k` of the pixel in row `r` and column `q`. -/
def offset (W b r q k : Nat) : Nat := (r * W + q) * b + k

theorem pair_inj {n a a' k k' : Nat} (h : a * n + k = a' * n + k') (hk : k < n) (hk' : k' < n) :
    a = a' ∧ k = k' := by
  have hstep : ∀ c d : Nat, c < d → c * n + n ≤ d * n := by
    intro c d hlt
    rw [← Nat.succ_mul]
    exact Nat.mul_le_mul_right n hlt
  rcases Nat.lt_trichotomy a a' with hlt | rfl | hlt
  · have := hstep a a' hlt
    omega
  · omega
  · have := hstep a' a hlt
    omega

theorem offset_inj {r q k r' q' k' : Nat} (h : offset W b r q k = offset W b r' q' k')
    (hq : q < W) (hq' : q' < W) (hk : k < b) (hk' : k' < b) : r = r' ∧ q = q' ∧ k = k' := by
  obtain ⟨hpixel, rfl⟩ := pair_inj h hk hk'
  obtain ⟨rfl, rfl⟩ := pair_inj hpixel hq hq'
  exact ⟨rfl, rfl, rfl⟩

theorem offset_lt {r q k : Nat} (hr : r < H) (hq : q < W) (hk : k < b) :
    offset W b r q k < W * (H * b) := by
  have hpixel : r * W + q + 1 ≤ H * W := by
    have hrow : (r + 1) * W ≤ H * W := Nat.mul_le_mul_right W hr
    rw [Nat.succ_mul] at hrow
    omega
  calc offset W b r q k < (r * W + q) * b + b := Nat.add_lt_add_left hk _
    _ = (r * W + q + 1) * b := by ring
    _ ≤ H * W * b := Nat.mul_le_mul_right b hpixel
    _ = W * (H * b) := by ring

/-- The image in a memory. -/
def Shows (m : Mem) (base : Addr) (W H b : Nat) (im : Image) : Prop :=
  ∀ r < H, ∀ q < W, ∀ k < b, m (base + BitVec.ofNat 64 (offset W b r q k)) = im r q k

variable {m m' : Mem} {base : Addr} {im im' : Image}

/-- Only the bytes of the image count. -/
theorem Shows.frame (h : Shows m base W H b im)
    (hm : ∀ i < W * (H * b), m' (base + BitVec.ofNat 64 i) = m (base + BitVec.ofNat 64 i)) :
    Shows m' base W H b im := by
  intro r hr q hq k hk
  rw [hm _ (offset_lt hr hq hk)]
  exact h r hr q hq k hk

/-- Two images of one memory agree. -/
theorem Shows.unique (h : Shows m base W H b im) (h' : Shows m base W H b im') {r q k : Nat}
    (hr : r < H) (hq : q < W) (hk : k < b) : im r q k = im' r q k :=
  (h r hr q hq k hk).symm.trans (h' r hr q hq k hk)

/-- A store to one byte of a pixel changes that byte of the image. -/
theorem Shows.write8 (hsize : W * (H * b) ≤ 2 ^ 64) (h : Shows m base W H b im) {r q k : Nat}
    (hr : r < H) (hq : q < W) (hk : k < b) (v : Byte) :
    Shows (ByteMem.write8 m (base + BitVec.ofNat 64 (offset W b r q k)) v) base W H b
      fun r' q' k' => if r' = r ∧ q' = q ∧ k' = k then v else im r' q' k' := by
  intro r' hr' q' hq' k' hk'
  have hlt := offset_lt hr hq hk
  have hlt' := offset_lt hr' hq' hk'
  show _ = if r' = r ∧ q' = q ∧ k' = k then v else im r' q' k'
  by_cases hsame : r' = r ∧ q' = q ∧ k' = k
  · obtain ⟨rfl, rfl, rfl⟩ := hsame
    rw [write8_same, if_pos ⟨rfl, rfl, rfl⟩]
  · have hne : offset W b r' q' k' ≠ offset W b r q k :=
      fun heq => hsame (offset_inj heq hq' hq hk' hk)
    rw [if_neg hsame, write8_of_ne (by bv_omega)]
    exact h r' hr' q' hq' k' hk'

end Memory

end PixelImage
