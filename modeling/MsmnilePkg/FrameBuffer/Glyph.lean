/-
  MsmnilePkg.FrameBuffer.Glyph

  What the pixel loops draw.

  Every loop is followed by the pixel its pointer is at, and by the image that
  the memory shows: a glyph is its cell in the background colour with the
  pixels of its bits in the foreground colour.
-/

import MsmnilePkg.FrameBuffer.Cursor
import MsmnilePkg.Lib.PixelImage

namespace FrameBuffer

open ByteMem Loop PixelImage

/-- Byte `k` of a colour. -/
def colorByte {n : Nat} (color : BitVec n) (k : Nat) : Byte := (color >>> (8 * k)).setWidth 8

/-- The pen is at the pixel in row `r` and column `q`, and the memory shows `im`. -/
structure Draws (base : Addr) (W H b r q : Nat) (im : Image) (p : Pen) : Prop where
  ptr : p.ptr = base + BitVec.ofNat 64 ((r * W + q) * b)
  shows : Shows p.mem base W H b im

section Loops

variable {base : Addr} {W H b r q : Nat} {im : Image} {p : Pen}

/-- A pixel is stored in its colour. -/
theorem Draws.storePixel (hsize : W * (H * b) ≤ 2 ^ 64) (h : Draws base W H b r q im p)
    (hr : r < H) (hq : q < W) {n : Nat} (color : BitVec n) :
    Draws base W H b r (q + 1) (im.paint (fun r' q' => r' = r ∧ q' = q) (colorByte color))
      (storePixel color b p) := by
  -- after `k` bytes the pixel has `k` bytes of the colour
  have hloop : (FrameBuffer.storePixel color b p).ptr
        = base + BitVec.ofNat 64 ((r * W + q) * b + b) ∧
      Shows (FrameBuffer.storePixel color b p).mem base W H b
        fun r' q' k' => if (r' = r ∧ q' = q) ∧ k' < b then colorByte color k' else im r' q' k' := by
    refine forTurns_invariant (I := fun k (p : Pen) =>
      p.ptr = base + BitVec.ofNat 64 ((r * W + q) * b + k) ∧
      Shows p.mem base W H b fun r' q' k' =>
        if (r' = r ∧ q' = q) ∧ k' < k then colorByte color k' else im r' q' k') ⟨h.ptr, ?_⟩ ?_
    · simpa using h.shows
    · rintro k hk t ⟨hptr, hshows⟩
      have hbyte := hshows.write8 hsize hr hq hk (colorByte color k)
      constructor
      · rw [Pen.storeByte, hptr]
        exact ptr_add base _ 1
      · intro r' hr' q' hq' k' hk'
        rw [Pen.storeByte, hptr]
        refine (hbyte r' hr' q' hq' k' hk').trans ?_
        grind
  constructor
  · rw [hloop.1, ← Nat.succ_mul]
    rfl
  · intro r' hr' q' hq' k' hk'
    rw [hloop.2 r' hr' q' hq' k' hk']
    simp [Image.paint, hk']

/-- A pixel is left as it is. -/
theorem Draws.skip (h : Draws base W H b r q im p) {v : BitVec 64} (hv : v = BitVec.ofNat 64 b) :
    Draws base W H b r (q + 1) im (p.skip v) where
  ptr := by
    rw [Pen.skip, h.ptr, hv, ptr_add, ← Nat.succ_mul]
    rfl
  shows := h.shows

variable {stride bpp : BitVec 32}

/-- From behind the fifth pixel of a row to the next row. -/
theorem Draws.nextRow (hrow : RowOk stride bpp (W * bpp.toNat))
    (h : Draws base W H bpp.toNat r (q + 5) im p) :
    Draws base W H bpp.toNat (r + 1) q im (nextRow stride bpp p) where
  ptr := by
    have hskip := hrow.skipped
    have hrest : (stride * bpp).setWidth 64 = BitVec.ofNat 64 (stride * bpp).toNat := by
      rw [BitVec.ofNat_toNat]
    have hplace : (r * W + (q + 5)) * bpp.toNat + (stride * bpp).toNat
        = ((r + 1) * W + q) * bpp.toNat := by
      calc (r * W + (q + 5)) * bpp.toNat + (stride * bpp).toNat
          = (r * W + q) * bpp.toNat + (5 * bpp.toNat + (stride * bpp).toNat) := by ring
        _ = (r * W + q) * bpp.toNat + W * bpp.toNat := by rw [hskip]
        _ = ((r + 1) * W + q) * bpp.toNat := by ring
    rw [FrameBuffer.nextRow, Pen.skip, h.ptr, hrest, ptr_add, hplace]
  shows := h.shows

/-! ## The background -/

/-- Five pixels in the background colour. -/
theorem Draws.backgroundRow (hsize : W * (H * bpp.toNat) ≤ 2 ^ 64)
    (h : Draws base W H bpp.toNat r q im p) (hr : r < H) (hq : q + 5 ≤ W) (color : BitVec 32) :
    Draws base W H bpp.toNat r (q + 5)
      (im.paint (fun r' q' => r' = r ∧ q ≤ q' ∧ q' < q + 5) (colorByte color))
      (forTurns (fun _ => FrameBuffer.storePixel color bpp.toNat) fontWidth p) := by
  refine forTurns_invariant (I := fun j p => Draws base W H bpp.toNat r (q + j)
    (im.paint (fun r' q' => r' = r ∧ q ≤ q' ∧ q' < q + j) (colorByte color)) p) ?_ ?_
  · rw [Image.paint_none (by omega)]
    exact h
  · intro j hj t ht
    have hnext := ht.storePixel hsize hr (show q + j < W by omega) color
    rw [Image.paint_paint] at hnext
    rwa [Image.paint_congr (u := fun r' q' => r' = r ∧ q ≤ q' ∧ q' < q + (j + 1)) (by omega)]
      at hnext

theorem Draws.backgroundHalf (hsize : W * (H * bpp.toNat) ≤ 2 ^ 64)
    (hrow : RowOk stride bpp (W * bpp.toNat)) (h : Draws base W H bpp.toNat r q im p)
    (hr : r + 6 ≤ H) (hq : q + 5 ≤ W) (color : BitVec 32) :
    Draws base W H bpp.toNat (r + 6) q
      (im.paint (fun r' q' => (r ≤ r' ∧ r' < r + 6) ∧ q ≤ q' ∧ q' < q + 5) (colorByte color))
      (backgroundHalf stride bpp 1#32 color p) := by
  refine forTurns_invariant (I := fun i p => Draws base W H bpp.toNat (r + i) q
    (im.paint (fun r' q' => (r ≤ r' ∧ r' < r + i) ∧ q ≤ q' ∧ q' < q + 5) (colorByte color)) p)
    (n := 6) ?_ ?_
  · rw [Image.paint_none (by omega)]
    exact h
  · intro i hi t ht
    have hnext := (ht.backgroundRow hsize (by omega) hq color).nextRow hrow
    rw [Image.paint_paint] at hnext
    rwa [Image.paint_congr
      (u := fun r' q' => (r ≤ r' ∧ r' < r + (i + 1)) ∧ q ≤ q' ∧ q' < q + 5) (by omega)] at hnext

/-! ## The bits -/

theorem and_one_ne_zero (d : BitVec 32) : d &&& 1#32 ≠ 0#32 ↔ d.getLsbD 0 = true := by
  rw [← BitVec.toNat_inj.ne, BitVec.toNat_and, BitVec.getLsbD, Nat.testBit_zero]
  show d.toNat &&& 1 ≠ 0 ↔ _
  rw [Nat.and_one_is_mod]
  simp

/-- The pixel of the lowest bit. -/
theorem Draws.glyphColumn (hsize : W * (H * bpp.toNat) ≤ 2 ^ 64) {s : BitVec 32 × Pen}
    (h : Draws base W H bpp.toNat r q im s.2) (hr : r < H) (hq : q < W) (color : BitVec 32) :
    Draws base W H bpp.toNat r (q + 1)
      (im.paint (fun r' q' => r' = r ∧ q' = q ∧ s.1.getLsbD 0) (colorByte color))
      (glyphColumn bpp 1#32 color s).2 := by
  rw [FrameBuffer.glyphColumn]
  by_cases hbit : s.1 &&& 1#32 ≠ 0#32
  · rw [if_pos hbit]
    rw [and_one_ne_zero] at hbit
    have hstore := h.storePixel hsize hr hq color
    rwa [Image.paint_congr (u := fun r' q' => r' = r ∧ q' = q ∧ s.1.getLsbD 0) (by simp [hbit])]
      at hstore
  · rw [if_neg hbit]
    rw [and_one_ne_zero] at hbit
    rw [Image.paint_none (fun _ _ hp => hbit hp.2.2)]
    exact h.skip (by rw [BitVec.ofNat_toNat])

theorem Draws.glyphRow (hsize : W * (H * bpp.toNat) ≤ 2 ^ 64)
    (hrow : RowOk stride bpp (W * bpp.toNat)) {s : BitVec 32 × Pen}
    (h : Draws base W H bpp.toNat r q im s.2) (hr : r < H) (hq : q + 5 ≤ W) (color : BitVec 32) :
    (glyphRow stride bpp 1#32 color s).1 = s.1 >>> 5 ∧
      Draws base W H bpp.toNat (r + 1) q
        (im.paint (fun r' q' => r' = r ∧ (q ≤ q' ∧ q' < q + 5) ∧ s.1.getLsbD (q' - q))
          (colorByte color)) (glyphRow stride bpp 1#32 color s).2 := by
  -- After j columns the first j pixels are painted, and j bits of the row are used up.
  have hcolumns : (forTurns (fun _ => FrameBuffer.glyphColumn bpp 1#32 color) fontWidth s).1
        = s.1 >>> 5 ∧
      Draws base W H bpp.toNat r (q + 5)
        (im.paint (fun r' q' => r' = r ∧ (q ≤ q' ∧ q' < q + 5) ∧ s.1.getLsbD (q' - q))
          (colorByte color))
        (forTurns (fun _ => FrameBuffer.glyphColumn bpp 1#32 color) fontWidth s).2 := by
    refine forTurns_invariant (I := fun j (t : BitVec 32 × Pen) => t.1 = s.1 >>> j ∧
      Draws base W H bpp.toNat r (q + j)
        (im.paint (fun r' q' => r' = r ∧ (q ≤ q' ∧ q' < q + j) ∧ s.1.getLsbD (q' - q))
          (colorByte color)) t.2) ?_ ?_
    · refine ⟨(BitVec.ushiftRight_zero _).symm, ?_⟩
      rw [Image.paint_none (by omega)]
      exact h
    · rintro j hj t ⟨hdata, ht⟩
      have hj5 : j < 5 := hj
      have hbit : t.1.getLsbD 0 = s.1.getLsbD j := by rw [hdata, BitVec.getLsbD_ushiftRight]; rfl
      refine ⟨?_, ?_⟩
      · show t.1 >>> 1 = _
        rw [hdata, BitVec.shiftRight_add]
      · have hnext := ht.glyphColumn hsize hr (show q + j < W by omega) color
        rw [Image.paint_paint, hbit] at hnext
        rwa [Image.paint_congr (u := fun r' q' =>
          r' = r ∧ (q ≤ q' ∧ q' < q + (j + 1)) ∧ s.1.getLsbD (q' - q)) (by grind)] at hnext
  exact ⟨hcolumns.1, hcolumns.2.nextRow hrow⟩

theorem Draws.glyphHalf (hsize : W * (H * bpp.toNat) ≤ 2 ^ 64)
    (hrow : RowOk stride bpp (W * bpp.toNat)) (h : Draws base W H bpp.toNat r q im p)
    (hr : r + 6 ≤ H) (hq : q + 5 ≤ W) (color data : BitVec 32) :
    Draws base W H bpp.toNat (r + 6) q
      (im.paint (fun r' q' => (r ≤ r' ∧ r' < r + 6) ∧ (q ≤ q' ∧ q' < q + 5) ∧
        data.getLsbD (5 * (r' - r) + (q' - q))) (colorByte color))
      (glyphHalf stride bpp 1#32 color data p) := by
  -- after `i` rows the data has lost the bits of these rows
  suffices hrows : (forTurns (fun _ (s : BitVec 32 × Pen) =>
      forTurns (fun _ s' => FrameBuffer.glyphRow stride bpp 1#32 color (s.1, s'.2)) 1 s) 6
        (data, p)).1 = data >>> (5 * 6) ∧ Draws base W H bpp.toNat (r + 6) q _ _ from hrows.2
  refine forTurns_invariant (n := 6) (I := fun i (t : BitVec 32 × Pen) =>
    t.1 = data >>> (5 * i) ∧ Draws base W H bpp.toNat (r + i) q
      (im.paint (fun r' q' => (r ≤ r' ∧ r' < r + i) ∧ (q ≤ q' ∧ q' < q + 5) ∧
        data.getLsbD (5 * (r' - r) + (q' - q))) (colorByte color)) t.2) ?_ ?_
  · refine ⟨(BitVec.ushiftRight_zero _).symm, ?_⟩
    rw [Image.paint_none (by omega)]
    exact h
  · rintro i hi t ⟨hdata, ht⟩
    obtain ⟨hrest, hnext⟩ := Draws.glyphRow hsize hrow (s := (t.1, t.2)) ht (by omega) hq color
    refine ⟨?_, ?_⟩
    · show (FrameBuffer.glyphRow stride bpp 1#32 color (t.1, t.2)).1 = _
      rw [hrest, hdata, ← BitVec.shiftRight_add]
      rfl
    · rw [Image.paint_paint] at hnext
      simp only at hnext
      rwa [Image.paint_congr (u := fun r' q' => (r ≤ r' ∧ r' < r + (i + 1)) ∧
        (q ≤ q' ∧ q' < q + 5) ∧ data.getLsbD (5 * (r' - r) + (q' - q))) (by grind)] at hnext

/-! ## A whole glyph -/

/-- The pixels of a glyph whose top left one is in row `r` and column `q`. -/
def InGlyph (r q r' q' : Nat) : Prop := (r ≤ r' ∧ r' < r + 12) ∧ q ≤ q' ∧ q' < q + 5

instance (r q r' q' : Nat) : Decidable (InGlyph r q r' q') := inferInstanceAs (Decidable (_ ∧ _))

/-- The bit of a glyph for one of its pixels. -/
def glyphBit (glyph : Nat → BitVec 32) (r q : Nat) : Bool :=
  if r < 6 then (glyph 0).getLsbD (5 * r + q) else (glyph 1).getLsbD (5 * (r - 6) + q)

/-- An image with a glyph drawn. -/
def drawnGlyph (im : Image) (r q : Nat) (fgColor bgColor : BitVec 32) (glyph : Nat → BitVec 32) :
    Image :=
  (im.paint (InGlyph r q) (colorByte bgColor)).paint
    (fun r' q' => InGlyph r q r' q' ∧ glyphBit glyph (r' - r) (q' - q)) (colorByte fgColor)

theorem fbConDrawglyph_shows (hsize : W * (H * bpp.toNat) ≤ 2 ^ 64)
    (hrow : RowOk (stride - BitVec.ofNat 32 fontWidth * 1#32) bpp (W * bpp.toNat))
    (h : Draws base W H bpp.toNat r q im p) (hr : r + 12 ≤ H) (hq : q + 5 ≤ W)
    (fg bg : BitVec 32) (glyph : Nat → BitVec 32) :
    Shows (fbConDrawglyph stride bpp 1#32 fg bg glyph p).mem base W H bpp.toNat
      (drawnGlyph im r q fg bg glyph) := by
  -- the cell in the background colour
  have hbackground := (h.backgroundHalf hsize hrow (by omega) hq bg).backgroundHalf hsize hrow
    (by omega) hq bg
  rw [Image.paint_paint, Image.paint_congr (u := InGlyph r q) (by unfold InGlyph; omega)]
    at hbackground
  -- back to the top left pixel, and the bits
  have hback := Draws.mk (p := { backgroundHalf (stride - BitVec.ofNat 32 fontWidth * 1#32) bpp
    1#32 bg (backgroundHalf (stride - BitVec.ofNat 32 fontWidth * 1#32) bpp 1#32 bg p) with
      ptr := p.ptr }) h.ptr hbackground.shows
  have hbits := (hback.glyphHalf hsize hrow (by omega) hq fg (glyph 0)).glyphHalf hsize hrow
    (by omega) hq fg (glyph 1)
  rw [Image.paint_paint, Image.paint_congr (u := fun r' q' =>
    InGlyph r q r' q' ∧ glyphBit glyph (r' - r) (q' - q))] at hbits
  · exact hbits.shows
  · intro r' q'
    unfold InGlyph glyphBit
    have hsub : r' - (r + 6) = r' - r - 6 := by omega
    rw [hsub]
    split <;> grind

/-! ## The whole screen -/

/-- The loops of `ResetFb` leave every pixel in the colour. -/
theorem screen_shows (hsize : W * (H * b) ≤ 2 ^ 64) {n : Nat} (color : BitVec n) (p : Pen) :
    Shows (forTurns (fun _ => forTurns (fun _ => storePixel color b) H) W p).mem p.ptr W H b
      fun _ _ k => colorByte color k := by
  by_cases hb : b = 0
  · intro r _ q _ k hk
    omega
  obtain ⟨im, him⟩ : ∃ im, Shows p.mem p.ptr W H b im := ⟨_, fun _ _ _ _ _ _ => rfl⟩
  -- the first `j` pixels are in the colour
  have hfill : ∃ j, W * (H * b) = j * b ∧
      (forTurns (fun _ => forTurns (fun _ => storePixel color b) H) W p).ptr
        = p.ptr + BitVec.ofNat 64 (j * b) ∧
      Shows (forTurns (fun _ => forTurns (fun _ => storePixel color b) H) W p).mem p.ptr W H b
        (im.paint (fun r q => r * W + q < j) (colorByte color)) := by
    refine screen_invariant (I := fun off (t : Pen) => ∃ j, off = j * b ∧
      t.ptr = p.ptr + BitVec.ofNat 64 (j * b) ∧
      Shows t.mem p.ptr W H b (im.paint (fun r q => r * W + q < j) (colorByte color))) ?_ ?_
    · rintro off t hin ⟨j, rfl, hjptr, hshows⟩
      have hlt : j < W * H := by
        have hbytes : (j + 1) * b ≤ W * H * b := by
          rw [Nat.succ_mul, Nat.mul_assoc]
          exact hin
        exact Nat.le_of_mul_le_mul_right hbytes (by omega)
      have hW : 0 < W := Nat.pos_of_mul_pos_right (by omega : 0 < W * H)
      have hplace : j / W * W + j % W = j := Nat.div_add_mod' j W
      have hdraws : Draws p.ptr W H b (j / W) (j % W) _ t := ⟨by rw [hjptr, hplace], hshows⟩
      have hnext := hdraws.storePixel hsize (Nat.div_lt_of_lt_mul hlt) (Nat.mod_lt j hW) color
      refine ⟨j + 1, (Nat.succ_mul j b).symm, ?_, ?_⟩
      · rw [hnext.ptr, ← Nat.add_assoc, hplace]
      · intro r hr q hq k hk
        have hpixel : r * W + q = j ↔ r = j / W ∧ q = j % W := by
          constructor
          · intro heq
            exact pair_inj (heq.trans hplace.symm) hq (Nat.mod_lt j hW)
          · rintro ⟨rfl, rfl⟩
            exact hplace
        rw [hnext.shows r hr q hq k hk]
        simp only [Image.paint, ← hpixel]
        grind
    · refine ⟨0, by simp, by simp, ?_⟩
      rw [Image.paint_none (by omega)]
      exact him
  obtain ⟨j, hj, -, hshows⟩ := hfill
  intro r hr q hq k hk
  have hin : r * W + q < j := by
    have hlt := offset_lt hr hq hk
    rw [hj] at hlt
    by_contra hge
    have := Nat.mul_le_mul_right b (Nat.le_of_not_lt hge)
    unfold offset at hlt
    omega
  exact (hshows r hr q hq k hk).trans (if_pos hin)

end Loops

end FrameBuffer
