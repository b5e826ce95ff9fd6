/-
  MsmnilePkg.FrameBuffer.Cursor

  The cursor of the console and the record behind the frame buffer that
  keeps it.

  While the size of the frame buffer in bits fits 32 bits, no pixel touches
  the record, and the cursor stays on the screen.  For a larger one the
  record comes to lie inside the frame buffer, and clearing the screen
  overwrites it.
-/

import Mathlib.Tactic.Ring
import MsmnilePkg.FrameBuffer.Pixels

namespace FrameBuffer

open ByteMem Loop

/-! ## Geometry -/

/-- The bytes of the frame buffer. -/
def frameBytes (g : Geometry) : Nat := g.width.toNat * g.height.toNat * g.bpp.toNat / 8

/-- The columns and rows of the text. -/
def columns (g : Geometry) : Nat := g.width.toNat / 6

def rows (g : Geometry) : Nat := (g.height.toNat - 1) / 12

structure GeometryOk (g : Geometry) : Prop where
  width : 6 ≤ g.width.toNat
  height : 3 ≤ rows g
  bpp : g.bpp.toNat % 8 = 0

/-- The number of bits of the frame buffer has 32 bits. -/
def FitsWord (g : Geometry) : Prop := g.width.toNat * g.height.toNat * g.bpp.toNat < 2 ^ 32

section Geometry

variable {g : Geometry}

theorem GeometryOk.height_pos (hg : GeometryOk g) : 37 ≤ g.height.toNat := by
  have hrows := hg.height
  unfold rows at hrows
  omega

theorem GeometryOk.frameBytes_eq (hg : GeometryOk g) :
    frameBytes g = g.width.toNat * (g.height.toNat * (g.bpp.toNat / 8)) := by
  obtain ⟨b, hb⟩ : ∃ b, g.bpp.toNat = 8 * b := ⟨g.bpp.toNat / 8, by have := hg.bpp; omega⟩
  have hprod : g.width.toNat * g.height.toNat * (8 * b)
      = 8 * (g.width.toNat * (g.height.toNat * b)) := by ring
  rw [frameBytes, hb, hprod, Nat.mul_div_cancel_left _ (by decide),
    Nat.mul_div_cancel_left _ (by decide)]

theorem FitsWord.frameBytes_lt (h : FitsWord g) : frameBytes g < 2 ^ 29 := by
  unfold FitsWord at h
  unfold frameBytes
  omega

theorem bytesPerPixel_toNat (g : Geometry) : (gBpp g / 8#64).toNat = g.bpp.toNat / 8 := by
  rw [BitVec.toNat_udiv, gBpp, BitVec.toNat_setWidth, Nat.mod_eq_of_lt (by omega)]
  rfl

theorem gWidth_toNat (g : Geometry) : (gWidth g).toNat = g.width.toNat := by
  rw [gWidth, BitVec.toNat_setWidth, Nat.mod_eq_of_lt (by omega)]

theorem gHeight_toNat (g : Geometry) : (gHeight g).toNat = g.height.toNat := by
  rw [gHeight, BitVec.toNat_setWidth, Nat.mod_eq_of_lt (by omega)]

/-- The record lies right behind the frame buffer. -/
theorem FitsWord.position (h : FitsWord g) :
    (g.width * g.height * g.bpp / 8#32).setWidth 64 = BitVec.ofNat 64 (frameBytes g) := by
  unfold FitsWord at h
  apply BitVec.eq_of_toNat_eq
  rw [BitVec.toNat_setWidth, BitVec.toNat_udiv, BitVec.toNat_mul, BitVec.toNat_mul, Nat.mod_mul_mod,
    Nat.mod_eq_of_lt h, BitVec.toNat_ofNat]
  rfl

/-- A row of pixels is a number of 32 bits, and the rest of it behind a glyph too. -/
theorem FitsWord.rowOk (h : FitsWord g) (hg : GeometryOk g) :
    RowOk ((gWidth g).setWidth 32 - BitVec.ofNat 32 fontWidth * 1#32)
      ((gBpp g / 8#64).setWidth 32) (g.width.toNat * (g.bpp.toNat / 8)) := by
  have hwidth := hg.width
  have hlt := g.width.isLt
  have hbytes : ((gBpp g / 8#64).setWidth 32).toNat = g.bpp.toNat / 8 := by
    rw [BitVec.toNat_setWidth, bytesPerPixel_toNat, Nat.mod_eq_of_lt (by omega)]
  -- what is added behind the five columns of a glyph
  have hstride : ((gWidth g).setWidth 32 - BitVec.ofNat 32 fontWidth * 1#32).toNat
      = g.width.toNat - 5 := by
    have hfull : ((gWidth g).setWidth 32).toNat = g.width.toNat := by
      rw [BitVec.toNat_setWidth, gWidth_toNat, Nat.mod_eq_of_lt hlt]
    have hfive : BitVec.ofNat 32 fontWidth * 1#32 = 5#32 := by decide
    rw [hfive]
    bv_omega
  constructor
  · have hle : g.width.toNat * (g.bpp.toNat / 8) ≤ frameBytes g := by
      rw [hg.frameBytes_eq]
      exact Nat.mul_le_mul_left _ (Nat.le_mul_of_pos_left _ (by have := hg.height_pos; omega))
    exact Nat.lt_of_le_of_lt hle (by have := h.frameBytes_lt; omega)
  · rw [hstride, hbytes]
    unfold fontWidth
    rw [show 5 + (g.width.toNat - 5) = g.width.toNat by omega]

end Geometry

/-! ## The cursor -/

section Record

variable (s : Console) (v : BitVec 64)

theorem record_apart (a : Addr) : Apart a 8 (a + 8#64) 8 := by
  constructor <;> bv_omega

@[simp] theorem setX_x : (s.setX v).x = v := read64_write64_self ..

@[simp] theorem setY_y : (s.setY v).y = v := read64_write64_self ..

@[simp] theorem setX_y : (s.setX v).y = s.y :=
  read64_write64_of_apart (record_apart s.position)

@[simp] theorem setY_x : (s.setY v).x = s.x :=
  read64_write64_of_apart (record_apart s.position).symm

/-! Only the two words of the record change. -/

@[simp] theorem setX_region : (s.setX v).region = s.region := rfl
@[simp] theorem setX_position : (s.setX v).position = s.position := rfl
@[simp] theorem setX_maxY : (s.setX v).maxY = s.maxY := rfl
@[simp] theorem setX_stored : (s.setX v).stored = s.stored := rfl
@[simp] theorem setY_region : (s.setY v).region = s.region := rfl
@[simp] theorem setY_position : (s.setY v).position = s.position := rfl
@[simp] theorem setY_maxY : (s.setY v).maxY = s.maxY := rfl
@[simp] theorem setY_stored : (s.setY v).stored = s.stored := rfl

@[simp] theorem resetFb_region (g : Geometry) : (resetFb g s).region = s.region := rfl
@[simp] theorem resetFb_position (g : Geometry) : (resetFb g s).position = s.position := rfl
@[simp] theorem resetFb_maxY (g : Geometry) : (resetFb g s).maxY = s.maxY := rfl

end Record

/-- For small numbers the signed comparison is that of the naturals. -/
theorem sle_iff {a b : BitVec 64} (ha : a.toNat < 2 ^ 63) (hb : b.toNat < 2 ^ 63) :
    a.sle b = true ↔ a.toNat ≤ b.toNat := by
  rw [BitVec.sle_iff_toInt_le, BitVec.toInt_eq_toNat_of_lt (by omega),
    BitVec.toInt_eq_toNat_of_lt (by omega)]
  exact Int.ofNat_le

/-- `(int)(m_MaxPosition.x / 1)` -/
theorem maxX_int {m : BitVec 64} (h : m.toNat < 2 ^ 31) :
    (((m.sdiv ((1#32).setWidth 64)).setWidth 32).signExtend 64) = m := by
  have hone : (1#32).setWidth 64 = 1#64 := by decide
  have hlow : (m.setWidth 32).toNat = m.toNat := by
    rw [BitVec.toNat_setWidth, Nat.mod_eq_of_lt (by omega)]
  rw [hone, BitVec.sdiv_one, BitVec.signExtend_eq_setWidth_of_msb_false
    (BitVec.msb_eq_false_iff_two_mul_lt.mpr (by omega))]
  apply BitVec.eq_of_toNat_eq
  rw [BitVec.toNat_setWidth, hlow, Nat.mod_eq_of_lt m.isLt]

/-- The console, whatever the cursor is: no pixel was stored outside the frame buffer. -/
structure Screen (g : Geometry) (s : Console) : Prop where
  position : s.position = s.region + BitVec.ofNat 64 (frameBytes g)
  maxX : s.maxX.toNat = columns g
  maxY : s.maxY.toNat = rows g
  inside : ∀ a ∈ s.stored, (a - s.region).toNat < frameBytes g

/-- The cursor is on the screen, and not in its last row. -/
structure CursorOk (g : Geometry) (s : Console) : Prop where
  screen : Screen g s
  x_lt : s.x.toNat < columns g
  y_lt : s.y.toNat + 1 < rows g

/-- A store to the record leaves the screen as it is. -/
theorem Screen.setX {g : Geometry} {s : Console} (h : Screen g s) (v : BitVec 64) :
    Screen g (s.setX v) :=
  ⟨h.position, h.maxX, h.maxY, h.inside⟩

theorem Screen.setY {g : Geometry} {s : Console} (h : Screen g s) (v : BitVec 64) :
    Screen g (s.setY v) :=
  ⟨h.position, h.maxX, h.maxY, h.inside⟩

section Steps

variable {g : Geometry} {s : Console}

theorem columns_lt (g : Geometry) : columns g < 2 ^ 31 := by
  have := g.width.isLt
  unfold columns
  omega

theorem rows_lt (g : Geometry) : rows g < 2 ^ 31 := by
  have := g.height.isLt
  unfold rows
  omega

/-- Pixels stored in the frame buffer do not reach the record. -/
theorem Screen.cursor_kept (hfit : FitsWord g) (h : Screen g s) {m : Mem}
    (hkept : ∀ b : Addr, frameBytes g ≤ (b - s.region).toNat → m b = s.mem b)
    (stored : List Addr) :
    ({ s with mem := m, stored := stored } : Console).x = s.x ∧
      ({ s with mem := m, stored := stored } : Console).y = s.y := by
  have hbytes := hfit.frameBytes_lt
  have hpos := h.position
  constructor
  · -- the record begins where the frame buffer ends
    refine read64_congr fun i hi => hkept _ ?_
    show frameBytes g ≤ (s.position + BitVec.ofNat 64 i - s.region).toNat
    rw [hpos]
    bv_omega
  · refine read64_congr fun i hi => hkept _ ?_
    show frameBytes g ≤ (s.position + 8#64 + BitVec.ofNat 64 i - s.region).toNat
    rw [hpos]
    bv_omega

theorem resetFb_screen (hg : GeometryOk g) (hfit : FitsWord g) (h : Screen g s) :
    Screen g (resetFb g s) ∧ (resetFb g s).x = s.x := by
  have hbytes := hfit.frameBytes_lt
  have hpen : (⟨s.region, s.mem, s.stored⟩ : Pen).ptr = s.region := rfl
  have hat := At.screen (w := (gWidth g).toNat) (h := (gHeight g).toNat)
    (b := (gBpp g / 8#64).toNat) (by
      rw [gWidth_toNat, gHeight_toNat, bytesPerPixel_toNat, ← hg.frameBytes_eq]
      omega) fbBgra8888Black ⟨s.region, s.mem, s.stored⟩ hpen
  have htotal : (gWidth g).toNat * ((gHeight g).toNat * (gBpp g / 8#64).toNat) = frameBytes g := by
    rw [gWidth_toNat, gHeight_toNat, bytesPerPixel_toNat, hg.frameBytes_eq]
  rw [htotal] at hat
  refine ⟨⟨h.position, h.maxX, h.maxY, fun a ha => ?_⟩, (h.cursor_kept hfit hat.kept _).1⟩
  -- stored before, or by the loops over the pixels
  rcases hat.stored a ha with hold | hnew
  · exact h.inside a hold
  · exact hnew

/-- The glyph of a cursor on the screen fits the frame buffer. -/
theorem glyph_fits (hg : GeometryOk g) {x y k : Nat} (hx : x < columns g) (hy : y + 1 < rows g)
    (hk : k < 12) :
    y * (g.bpp.toNat / 8 * 12 * g.width.toNat) + x * (g.bpp.toNat / 8 * 6)
      + k * (g.width.toNat * (g.bpp.toNat / 8)) + 5 * (g.bpp.toNat / 8) ≤ frameBytes g := by
  obtain ⟨b, hb⟩ : ∃ b, b = g.bpp.toNat / 8 := ⟨_, rfl⟩
  rw [hg.frameBytes_eq, ← hb]
  -- the cell ends inside its row, and the row inside the screen
  have hcolumn : (x * 6 + 5) * b ≤ g.width.toNat * b := by
    refine Nat.mul_le_mul_right b ?_
    unfold columns at hx
    omega
  have hrow : (y * 12 + k + 1) * (g.width.toNat * b) ≤ g.height.toNat * (g.width.toNat * b) := by
    refine Nat.mul_le_mul_right _ ?_
    unfold rows at hy
    omega
  calc y * (b * 12 * g.width.toNat) + x * (b * 6) + k * (g.width.toNat * b) + 5 * b
      = (y * 12 + k) * (g.width.toNat * b) + (x * 6 + 5) * b := by ring
    _ ≤ (y * 12 + k) * (g.width.toNat * b) + g.width.toNat * b := by omega
    _ = (y * 12 + k + 1) * (g.width.toNat * b) := by ring
    _ ≤ g.height.toNat * (g.width.toNat * b) := hrow
    _ = g.width.toNat * (g.height.toNat * b) := by ring

/-- The first pixel of the glyph at the cursor. -/
theorem cell_ptr (g : Geometry) (base : Addr) (x y : BitVec 64) :
    base + y * ((gBpp g / 8#64) * BitVec.ofNat 64 fontHeight * gWidth g)
      + x * (1#32).setWidth 64 * ((gBpp g / 8#64) * BitVec.ofNat 64 (fontWidth + 1))
      = base + BitVec.ofNat 64
        (y.toNat * (g.bpp.toNat / 8 * 12 * g.width.toNat) + x.toNat * (g.bpp.toNat / 8 * 6)) := by
  have hb : gBpp g / 8#64 = BitVec.ofNat 64 (g.bpp.toNat / 8) := by
    rw [← bytesPerPixel_toNat, BitVec.ofNat_toNat, BitVec.setWidth_eq]
  have hw : gWidth g = BitVec.ofNat 64 g.width.toNat := by
    rw [← gWidth_toNat, BitVec.ofNat_toNat, BitVec.setWidth_eq]
  have hx : BitVec.ofNat 64 x.toNat = x := by rw [BitVec.ofNat_toNat, BitVec.setWidth_eq]
  have hy : BitVec.ofNat 64 y.toNat = y := by rw [BitVec.ofNat_toNat, BitVec.setWidth_eq]
  have hone : (1#32).setWidth 64 = 1#64 := by decide
  have hoff : BitVec.ofNat 64 (y.toNat * (g.bpp.toNat / 8 * 12 * g.width.toNat)
        + x.toNat * (g.bpp.toNat / 8 * 6))
      = y * ((gBpp g / 8#64) * BitVec.ofNat 64 fontHeight * gWidth g)
        + x * ((gBpp g / 8#64) * BitVec.ofNat 64 (fontWidth + 1)) := by
    rw [BitVec.ofNat_add, BitVec.ofNat_mul, BitVec.ofNat_mul, BitVec.ofNat_mul, BitVec.ofNat_mul,
      BitVec.ofNat_mul, hx, hy, ← hb, ← hw]
    rfl
  rw [hoff, hone, BitVec.mul_one]
  exact BitVec.add_assoc ..

theorem drawChar_screen (hg : GeometryOk g) (hfit : FitsWord g) (h : CursorOk g s) (c : Byte) :
    Screen g (drawChar g c 1#32 s) ∧ (drawChar g c 1#32 s).x = s.x ∧
      (drawChar g c 1#32 s).y = s.y := by
  have hbytes := hfit.frameBytes_lt
  -- The pen that the glyph is drawn with starts at its cell.
  obtain ⟨pen, hpen⟩ : ∃ pen : Pen, pen = ⟨s.region + s.y * ((gBpp g / 8#64)
      * BitVec.ofNat 64 fontHeight * gWidth g) + s.x * (1#32).setWidth 64 * ((gBpp g / 8#64)
      * BitVec.ofNat 64 (fontWidth + 1)), s.mem, s.stored⟩ := ⟨_, rfl⟩
  have hptr : pen.ptr = s.region + BitVec.ofNat 64
      (s.y.toNat * (g.bpp.toNat / 8 * 12 * g.width.toNat) + s.x.toNat * (g.bpp.toNat / 8 * 6)) := by
    rw [hpen]
    exact cell_ptr g s.region s.x s.y
  have hbytesPixel : ((gBpp g / 8#64).setWidth 32).toNat = g.bpp.toNat / 8 := by
    rw [BitVec.toNat_setWidth, bytesPerPixel_toNat, Nat.mod_eq_of_lt (by omega)]
  have htotal : frameBytes g ≤ 2 ^ 64 := by omega
  have hat := fbConDrawglyph_at htotal (hfit.rowOk hg)
    (fun k hk => by
      rw [hbytesPixel]
      exact glyph_fits hg h.x_lt h.y_lt hk) hptr (s.foreground.setWidth 32)
    (s.background.setWidth 32) (fun i => g.font5x12 ((c.toNat - 32) * 2 + i))
  have hmem : pen.mem = s.mem := by rw [hpen]
  have hstored : pen.stored = s.stored := by rw [hpen]
  have hdraw : drawChar g c 1#32 s = { s with
      mem := (fbConDrawglyph ((gWidth g).setWidth 32) ((gBpp g / 8#64).setWidth 32) 1#32
        (s.foreground.setWidth 32) (s.background.setWidth 32)
        (fun i => g.font5x12 ((c.toNat - 32) * 2 + i)) pen).mem
      stored := (fbConDrawglyph ((gWidth g).setWidth 32) ((gBpp g / 8#64).setWidth 32) 1#32
        (s.foreground.setWidth 32) (s.background.setWidth 32)
        (fun i => g.font5x12 ((c.toNat - 32) * 2 + i)) pen).stored } := by
    rw [hpen]
    rfl
  rw [hdraw]
  refine ⟨⟨h.screen.position, h.screen.maxX, h.screen.maxY, fun a ha => ?_⟩,
    h.screen.cursor_kept hfit (fun b hb => (hat.kept b hb).trans (congrFun hmem b)) _⟩
  -- What is stored was stored before, or is a byte of the cell.
  rcases hat.stored a ha with hold | hnew
  · exact h.screen.inside a (hstored ▸ hold)
  · exact hnew

end Steps

end FrameBuffer
