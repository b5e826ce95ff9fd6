/-
  MsmnilePkg.FrameBuffer.Pixels

  Where the pixel loops store.

  Every loop is followed by the place of its pointer, counted from the start
  of the buffer: a pixel moves it by the bytes of a pixel, a row of a glyph by
  the bytes of a row of the screen.
-/

import MsmnilePkg.FrameBuffer.Console

namespace FrameBuffer

open ByteMem Loop

/-! ## One pen after another -/

/-- From the pen `p0` on, all that was stored lies in the first `total` bytes of the buffer,
    and the pointer is `off` bytes behind its start. -/
structure At (base : Addr) (total : Nat) (p0 : Pen) (off : Nat) (p : Pen) : Prop where
  ptr : p.ptr = base + BitVec.ofNat 64 off
  stored : ∀ a ∈ p.stored, a ∈ p0.stored ∨ (a - base).toNat < total
  kept : ∀ b : Addr, total ≤ (b - base).toNat → p.mem b = p0.mem b

section Loops

variable {base : Addr} {total : Nat} {p0 p : Pen} {off : Nat}

theorem At.start (p0 : Pen) (hptr : p0.ptr = base + BitVec.ofNat 64 off) :
    At base total p0 off p0 := ⟨hptr, fun _ => Or.inl, fun _ _ => rfl⟩

theorem ptr_add (base : Addr) (off n : Nat) :
    base + BitVec.ofNat 64 off + BitVec.ofNat 64 n = base + BitVec.ofNat 64 (off + n) := by
  rw [BitVec.add_assoc, ← BitVec.ofNat_add]

theorem ptr_sub {base : Addr} (hoff : off < 2 ^ 64) :
    (base + BitVec.ofNat 64 off - base).toNat = off := by
  bv_omega

theorem At.storeByte (htotal : total ≤ 2 ^ 64) (h : At base total p0 off p) (hin : off < total)
    (v : Byte) : At base total p0 (off + 1) (p.storeByte v) where
  ptr := by
    rw [Pen.storeByte, h.ptr]
    exact ptr_add base off 1
  stored := by
    intro a ha
    rcases List.mem_cons.mp ha with rfl | hmem
    · right
      rw [h.ptr, ptr_sub (by omega)]
      exact hin
    · exact h.stored a hmem
  kept := by
    intro b hb
    have hne : b ≠ p.ptr := by
      rintro rfl
      rw [h.ptr, ptr_sub (by omega)] at hb
      omega
    rw [Pen.storeByte]
    exact (write8_of_ne hne).trans (h.kept b hb)

theorem At.skip (h : At base total p0 off p) (n : Nat) {v : BitVec 64}
    (hv : v = BitVec.ofNat 64 n) : At base total p0 (off + n) (p.skip v) where
  ptr := by
    rw [Pen.skip, h.ptr, hv]
    exact ptr_add base off n
  stored := h.stored
  kept := h.kept

theorem At.storePixel (htotal : total ≤ 2 ^ 64) (h : At base total p0 off p) {n bytes : Nat}
    (hin : off + bytes ≤ total) (color : BitVec n) :
    At base total p0 (off + bytes) (storePixel color bytes p) :=
  forTurns_invariant (I := fun k p => At base total p0 (off + k) p) h fun k hk _ ht =>
    ht.storeByte htotal (by omega) _

/-! ## The whole screen -/

theorem screen_bound {i j w h b : Nat} (hi : i < w) (hj : j < h) :
    i * (h * b) + j * b + b ≤ w * (h * b) := by
  have hrow : j * b + b ≤ h * b := by
    rw [← Nat.succ_mul]
    exact Nat.mul_le_mul_right b hj
  calc i * (h * b) + j * b + b ≤ i * (h * b) + h * b := by omega
    _ = (i + 1) * (h * b) := (Nat.succ_mul i (h * b)).symm
    _ ≤ w * (h * b) := Nat.mul_le_mul_right _ hi

/-- The loops of `ResetFb`: what a pixel preserves holds of the whole screen. -/
theorem screen_invariant {I : Nat → Pen → Prop} {w h b n : Nat} {color : BitVec n} {p : Pen}
    (hpixel : ∀ off t, off + b ≤ w * (h * b) → I off t →
      I (off + b) (FrameBuffer.storePixel color b t)) (h0 : I 0 p) :
    I (w * (h * b))
      (forTurns (fun _ => forTurns (fun _ => FrameBuffer.storePixel color b) h) w p) := by
  refine forTurns_invariant (I := fun i p => I (i * (h * b)) p) (by rwa [Nat.zero_mul]) ?_
  intro i hi t ht
  have hcolumn : I (i * (h * b) + h * b)
      (forTurns (fun _ => FrameBuffer.storePixel color b) h t) := by
    refine forTurns_invariant (I := fun j p => I (i * (h * b) + j * b) p)
      (by rw [Nat.zero_mul]; exact ht) ?_
    intro j hj u hu
    have hnext := hpixel _ u (screen_bound hi hj) hu
    rwa [Nat.succ_mul, ← Nat.add_assoc]
  rwa [Nat.succ_mul]

/-- The loops stay on the screen. -/
theorem At.screen {w h b n : Nat} (htotal : w * (h * b) ≤ 2 ^ 64) (color : BitVec n) (p0 : Pen)
    (hptr : p0.ptr = base) :
    At base (w * (h * b)) p0 (w * (h * b))
      (forTurns (fun _ => forTurns (fun _ => FrameBuffer.storePixel color b) h) w p0) := by
  refine screen_invariant (fun off t hin ht => ht.storePixel htotal hin color) (At.start p0 ?_)
  rw [hptr]
  exact (BitVec.add_zero base).symm

/-- From the pen `p0` on, each of the first `off` bytes was stored. -/
structure Swept (base : Addr) (p0 : Pen) (off : Nat) (p : Pen) : Prop where
  ptr : p.ptr = base + BitVec.ofNat 64 off
  all : ∀ k < off, base + BitVec.ofNat 64 k ∈ p.stored
  kept : ∀ a ∈ p0.stored, a ∈ p.stored

theorem Swept.storeByte (h : Swept base p0 off p) (v : Byte) :
    Swept base p0 (off + 1) (p.storeByte v) where
  ptr := by
    rw [Pen.storeByte, h.ptr]
    exact ptr_add base off 1
  all := by
    intro k hk
    rcases Nat.lt_succ_iff_lt_or_eq.mp hk with hlt | rfl
    · exact List.mem_cons_of_mem _ (h.all k hlt)
    · rw [← h.ptr]
      exact List.mem_cons_self ..
  kept := fun a ha => List.mem_cons_of_mem _ (h.kept a ha)

/-- The loops leave out no byte of the screen. -/
theorem Swept.screen (w h b : Nat) {n : Nat} (color : BitVec n) (p0 : Pen) (hptr : p0.ptr = base) :
    Swept base p0 (w * (h * b))
      (forTurns (fun _ => forTurns (fun _ => FrameBuffer.storePixel color b) h) w p0) := by
  refine screen_invariant (fun off t _ ht => ?_) ⟨?_, fun k hk => absurd hk (Nat.not_lt_zero k),
    fun _ => id⟩
  · exact forTurns_invariant (I := fun k p => Swept base p0 (off + k) p) ht
      fun k _ u hu => hu.storeByte _
  · rw [hptr]
    exact (BitVec.add_zero base).symm

/-! ## A glyph -/

variable {stride bpp : BitVec 32}

/-- A row of the screen, for a glyph of one fifth of the rest: `5 * bpp` bytes are stored and
    the others skipped. -/
structure RowOk (stride bpp : BitVec 32) (row : Nat) : Prop where
  small : row < 2 ^ 32
  split : (fontWidth + stride.toNat) * bpp.toNat = row

theorem RowOk.skipped {row : Nat} (h : RowOk stride bpp row) :
    5 * bpp.toNat + (stride * bpp).toNat = row := by
  have hsplit := h.split
  have hsmall := h.small
  rw [Nat.add_mul] at hsplit
  unfold fontWidth at hsplit
  rw [BitVec.toNat_mul, Nat.mod_eq_of_lt (by omega)]
  exact hsplit

theorem At.nextRow {row : Nat} (hrow : RowOk stride bpp row)
    (h : At base total p0 (off + 5 * bpp.toNat) p) :
    At base total p0 (off + row) (nextRow stride bpp p) := by
  have hnext := h.skip (stride * bpp).toNat (v := (stride * bpp).setWidth 64)
    (by rw [BitVec.ofNat_toNat])
  rwa [Nat.add_assoc, hrow.skipped] at hnext

/-- Rows that fit, one behind the other. -/
theorem At.rows {row n : Nat} {σ : Type*} (pen : σ → Pen) {body : Nat → σ → σ} {s : σ}
    (hbody : ∀ (k : Nat) (t : σ), k < n → At base total p0 (off + k * row) (pen t) →
      At base total p0 (off + k * row + row) (pen (body k t)))
    (h : At base total p0 off (pen s)) :
    At base total p0 (off + n * row) (pen (forTurns body n s)) := by
  refine forTurns_invariant (I := fun k t => At base total p0 (off + k * row) (pen t))
    (by rw [Nat.zero_mul]; exact h) ?_
  intro k hk t ht
  have hnext := hbody k t hk ht
  rwa [Nat.succ_mul, ← Nat.add_assoc]

theorem At.backgroundHalf (htotal : total ≤ 2 ^ 64) {row : Nat} (hrow : RowOk stride bpp row)
    (hfits : ∀ k < 6, off + k * row + 5 * bpp.toNat ≤ total) (h : At base total p0 off p)
    (color : BitVec 32) :
    At base total p0 (off + 6 * row) (backgroundHalf stride bpp 1#32 color p) := by
  refine At.rows id (n := 6) ?_ h
  intro k t hk ht
  refine At.nextRow hrow ?_
  refine At.rows id (n := 5) ?_ ht
  intro j u hj hu
  have hin := hfits k hk
  have hle : j * bpp.toNat + bpp.toNat ≤ 5 * bpp.toNat := by
    rw [← Nat.succ_mul]
    exact Nat.mul_le_mul_right _ hj
  exact hu.storePixel htotal (by omega) color

theorem At.glyphColumn (htotal : total ≤ 2 ^ 64) {s : BitVec 32 × Pen}
    (h : At base total p0 off s.2) (hin : off + bpp.toNat ≤ total) (color : BitVec 32) :
    At base total p0 (off + bpp.toNat) (glyphColumn bpp 1#32 color s).2 := by
  rw [FrameBuffer.glyphColumn]
  by_cases hbit : s.1 &&& 1#32 ≠ 0#32
  · rw [if_pos hbit]
    exact h.storePixel htotal hin color
  · rw [if_neg hbit]
    exact h.skip bpp.toNat (by rw [BitVec.ofNat_toNat])

theorem At.glyphRow (htotal : total ≤ 2 ^ 64) {row : Nat} (hrow : RowOk stride bpp row)
    (hfits : off + 5 * bpp.toNat ≤ total) {s : BitVec 32 × Pen} (h : At base total p0 off s.2)
    (color : BitVec 32) :
    At base total p0 (off + row) (glyphRow stride bpp 1#32 color s).2 := by
  have hcolumns : At base total p0 (off + 5 * bpp.toNat)
      (forTurns (fun _ => FrameBuffer.glyphColumn bpp 1#32 color) fontWidth s).2 := by
    refine At.rows Prod.snd ?_ h
    intro j u hj hu
    have hle : j * bpp.toNat + bpp.toNat ≤ 5 * bpp.toNat := by
      rw [← Nat.succ_mul]
      exact Nat.mul_le_mul_right _ hj
    exact hu.glyphColumn htotal (by omega) color
  exact At.nextRow hrow hcolumns

theorem At.glyphHalf (htotal : total ≤ 2 ^ 64) {row : Nat} (hrow : RowOk stride bpp row)
    (hfits : ∀ k < 6, off + k * row + 5 * bpp.toNat ≤ total) (h : At base total p0 off p)
    (color data : BitVec 32) :
    At base total p0 (off + 6 * row) (glyphHalf stride bpp 1#32 color data p) := by
  refine At.rows Prod.snd (n := 6) (s := (data, p)) ?_ h
  intro k t hk ht
  exact At.glyphRow htotal hrow (hfits k hk) (s := (t.1, t.2)) ht color

/-- A glyph whose twelve rows fit stays in the buffer. -/
theorem fbConDrawglyph_at (htotal : total ≤ 2 ^ 64) {row : Nat}
    (hrow : RowOk (stride - BitVec.ofNat 32 fontWidth * 1#32) bpp row)
    (hfits : ∀ k < 12, off + k * row + 5 * bpp.toNat ≤ total)
    (hptr : p.ptr = base + BitVec.ofNat 64 off) (fg bg : BitVec 32) (glyph : Nat → BitVec 32) :
    At base total p (off + 6 * row + 6 * row)
      (fbConDrawglyph stride bpp 1#32 fg bg glyph p) := by
  have hfirst : ∀ k < 6, off + k * row + 5 * bpp.toNat ≤ total :=
    fun k hk => hfits k (by omega)
  have hsecond : ∀ k < 6, off + 6 * row + k * row + 5 * bpp.toNat ≤ total := by
    intro k hk
    have hin := hfits (6 + k) (by omega)
    rwa [Nat.add_mul, ← Nat.add_assoc] at hin
  have hstart : At base total p off p := At.start p hptr
  have hbackground :=
    (hstart.backgroundHalf htotal hrow hfirst bg).backgroundHalf htotal hrow hsecond bg
  have hback : At base total p off { backgroundHalf
      (stride - BitVec.ofNat 32 fontWidth * 1#32) bpp 1#32 bg (backgroundHalf
        (stride - BitVec.ofNat 32 fontWidth * 1#32) bpp 1#32 bg p) with ptr := p.ptr } :=
    ⟨hptr, hbackground.stored, hbackground.kept⟩
  exact (hback.glyphHalf htotal hrow hfirst fg (glyph 0)).glyphHalf htotal hrow hsecond fg (glyph 1)

end Loops

end FrameBuffer
