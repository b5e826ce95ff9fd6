/-
  MsmnilePkg.FrameBuffer.Writes

  Sequences of writes to the serial port.

  A character that would move the cursor into the last row clears the screen
  and is painted once more, from the first row; there it cannot do so again.
-/

import MsmnilePkg.FrameBuffer.Cursor

namespace FrameBuffer

open ByteMem Loop

/-! ## One character -/

section Character

variable {g : Geometry} {s : Console}

/-- The cursor at the start of the next row. -/
def lineFeed (scale : BitVec 32) (s : Console) : Console :=
  (s.setY (s.y + scale.setWidth 64)).setX 0#64

@[simp] theorem lineFeed_x (scale : BitVec 32) (s : Console) : (lineFeed scale s).x = 0#64 :=
  setX_x ..

@[simp] theorem lineFeed_y (scale : BitVec 32) (s : Console) :
    (lineFeed scale s).y = s.y + scale.setWidth 64 := by
  rw [lineFeed, setX_y, setY_y]

theorem newline_eq (g : Geometry) (scale : BitVec 32) (s : Console) :
    newline g scale s =
      if (s.maxY - scale.setWidth 64).sle (lineFeed scale s).y then
        (true, (resetFb g (lineFeed scale s)).setY 0#64)
      else (false, lineFeed scale s) := by
  rw [newline, lineFeed, Console.setX, Console.setY]

theorem lineFeed_row (hy : s.y.toNat + 2 ≤ rows g) :
    (lineFeed 1#32 s).y.toNat = s.y.toNat + 1 := by
  have hrows := rows_lt g
  rw [lineFeed_y, show (1#32).setWidth 64 = 1#64 by decide]
  bv_omega

/-- The screen is cleared in the row before the last one. -/
theorem lineFeed_last (hmaxY : s.maxY.toNat = rows g) (hy : s.y.toNat + 2 ≤ rows g) :
    (s.maxY - (1#32).setWidth 64).sle (lineFeed 1#32 s).y = true ↔ s.y.toNat + 2 = rows g := by
  have hrows := rows_lt g
  have hlast : (s.maxY - (1#32).setWidth 64).toNat = rows g - 1 := by
    rw [show (1#32).setWidth 64 = 1#64 by decide]
    bv_omega
  have hrow := lineFeed_row hy
  rw [sle_iff (by omega) (by omega), hlast, hrow]
  omega

/-- The cursor moves to the next row; from the row before the last one the screen is cleared
    and the cursor begins again. -/
theorem newline_ok (hg : GeometryOk g) (hfit : FitsWord g) (h : Screen g s)
    (hy : s.y.toNat + 1 < rows g) :
    CursorOk g (newline g 1#32 s).2 ∧
      (s.y.toNat + 2 < rows g → (newline g 1#32 s).1 = false) ∧
      ((newline g 1#32 s).1 = true → (newline g 1#32 s).2.y.toNat = 0) := by
  have hcolumns : 0 < columns g := by
    have := hg.width
    unfold columns
    omega
  have hscreen : Screen g (lineFeed 1#32 s) := (h.setY _).setX _
  have hlast := lineFeed_last h.maxY hy
  rw [newline_eq]
  by_cases hreset : (s.maxY - (1#32).setWidth 64).sle (lineFeed 1#32 s).y = true
  · -- the screen is cleared, and the cursor is at its top
    obtain ⟨hclear, hclearx⟩ := resetFb_screen hg hfit hscreen
    rw [if_pos hreset]
    refine ⟨⟨hclear.setY _, ?_, ?_⟩, ?_, ?_⟩
    · rw [setY_x, hclearx, lineFeed_x]
      exact hcolumns
    · rw [setY_y]
      show 0 + 1 < rows g
      omega
    · intro hlt
      have heq := hlast.mp hreset
      omega
    · intro _
      rw [setY_y]
      rfl
  · -- a row that is not the last one
    rw [if_neg hreset]
    refine ⟨⟨hscreen, ?_, ?_⟩, fun _ => rfl, fun hback => absurd hback Bool.false_ne_true⟩
    · rw [lineFeed_x]
      exact hcolumns
    · rw [hlast] at hreset
      rw [lineFeed_row hy]
      omega

theorem setX_next (hx : s.x.toNat < columns g) :
    (s.setX (s.x + 1#64)).x.toNat = s.x.toNat + 1 := by
  have hcolumns := columns_lt g
  rw [setX_x]
  bv_omega

/-- The row ends where its columns do. -/
theorem advance_eq (hmaxX : s.maxX.toNat = columns g) (hx : s.x.toNat < columns g) :
    advance g 1#32 s = if columns g ≤ s.x.toNat + 1 then newline g 1#32 (s.setX (s.x + 1#64))
      else (false, s.setX (s.x + 1#64)) := by
  have hcolumns := columns_lt g
  have hx1 := setX_next hx
  have hend : (((s.maxX.sdiv ((1#32).setWidth 64)).setWidth 32).signExtend 64).sle
      (s.setX (s.x + 1#64)).x = true ↔ columns g ≤ s.x.toNat + 1 := by
    rw [maxX_int (by omega), sle_iff (by omega) (by omega), hmaxX, hx1]
  have hadvance : advance g 1#32 s
      = if (((s.maxX.sdiv ((1#32).setWidth 64)).setWidth 32).signExtend 64).sle
          (s.setX (s.x + 1#64)).x then newline g 1#32 (s.setX (s.x + 1#64))
        else (false, s.setX (s.x + 1#64)) := by
    rw [advance, Console.setX]
  rw [hadvance]
  by_cases hcolumn : columns g ≤ s.x.toNat + 1
  · rw [if_pos (hend.mpr hcolumn), if_pos hcolumn]
  · rw [if_neg (fun h => hcolumn (hend.mp h)), if_neg hcolumn]

/-- Behind a glyph the cursor moves on in its row or to the next one. -/
theorem advance_ok (hg : GeometryOk g) (hfit : FitsWord g) (h : CursorOk g s) :
    CursorOk g (advance g 1#32 s).2 ∧
      (s.y.toNat + 2 < rows g → (advance g 1#32 s).1 = false) ∧
      ((advance g 1#32 s).1 = true → (advance g 1#32 s).2.y.toNat = 0) := by
  have hx := h.x_lt
  have hscreen : Screen g (s.setX (s.x + 1#64)) := h.screen.setX _
  have hx1 := setX_next hx
  rw [advance_eq h.screen.maxX hx]
  by_cases hend : columns g ≤ s.x.toNat + 1
  · rw [if_pos hend, ← setX_y s (s.x + 1#64)]
    exact newline_ok hg hfit hscreen (by rw [setX_y]; exact h.y_lt)
  · rw [if_neg hend]
    refine ⟨⟨hscreen, ?_, ?_⟩, fun _ => rfl, fun hf => absurd hf Bool.false_ne_true⟩
    · rw [hx1]
      omega
    · rw [setX_y]
      exact h.y_lt

/-- Painting keeps the cursor on the screen, and goes back only after it has cleared the
    screen. -/
theorem paint_ok (hg : GeometryOk g) (hfit : FitsWord g) (h : CursorOk g s) (c : Byte)
    (type : FbConMsgType) :
    CursorOk g (paint g c type 1#32 s).2 ∧
      (s.y.toNat + 2 < rows g → (paint g c type 1#32 s).1 = false) ∧
      ((paint g c type 1#32 s).1 = true → (paint g c type 1#32 s).2.y.toNat = 0) := by
  have hstay : CursorOk g s ∧ (s.y.toNat + 2 < rows g → false = false) ∧
      (false = true → s.y.toNat = 0) := ⟨h, fun _ => rfl, fun hf => absurd hf Bool.false_ne_true⟩
  rw [paint]
  by_cases hascii : 127#8 < c
  · rw [if_pos hascii]
    exact hstay
  rw [if_neg hascii]
  by_cases hcontrol : c < 32#8
  · rw [if_pos hcontrol]
    by_cases hnl : c = 0x0A#8
    · -- new line
      rw [if_pos hnl]
      exact newline_ok hg hfit h.screen h.y_lt
    rw [if_neg hnl]
    by_cases hcr : c = 0x0D#8
    · -- carriage return
      rw [if_pos hcr]
      refine ⟨⟨h.screen.setX _, ?_, ?_⟩, fun _ => rfl,
        fun hf => absurd hf Bool.false_ne_true⟩
      · rw [setX_x]
        exact Nat.lt_of_le_of_lt (Nat.zero_le _) h.x_lt
      · rw [setX_y]
        exact h.y_lt
    · rw [if_neg hcr]
      exact hstay
  rw [if_neg hcontrol]
  by_cases hspace : s.x = 0#64 ∧ c = 0x20#8 ∧ type ≠ .subtitleMsg ∧ type ≠ .titleMsg
  · rw [if_pos hspace]
    exact hstay
  -- a glyph, drawn and then left behind
  rw [if_neg hspace]
  obtain ⟨hdraw, hdrawx, hdrawy⟩ := drawChar_screen hg hfit h c
  have hafter := advance_ok hg hfit (s := drawChar g c 1#32 s)
    ⟨hdraw, by rw [hdrawx]; exact h.x_lt, by rw [hdrawy]; exact h.y_lt⟩
  rwa [hdrawy] at hafter

/-- A character takes the way back to `paint` at most once. -/
theorem fbConPutCharWithFactor_ok (hg : GeometryOk g) (hfit : FitsWord g) (h : CursorOk g s)
    (c : Byte) (type : FbConMsgType) :
    ∃ s', fbConPutCharWithFactor g c type 1#32 1 s = some s' ∧ CursorOk g s' := by
  obtain ⟨hnext, -, hback⟩ := paint_ok hg hfit h c type
  by_cases hgoto : (paint g c type 1#32 s).1 = true
  · -- the screen has three rows, so from its top the second time ends
    obtain ⟨hagain, hends, -⟩ := paint_ok hg hfit hnext c type
    have hheight := hg.height
    have hfalse := hends (by rw [hback hgoto]; omega)
    refine ⟨_, ?_, hagain⟩
    rw [fbConPutCharWithFactor, if_pos hgoto, fbConPutCharWithFactor,
      if_neg (by rw [hfalse]; decide)]
  · exact ⟨_, by rw [fbConPutCharWithFactor, if_neg hgoto], hnext⟩

theorem putChars_ok (hg : GeometryOk g) (hfit : FitsWord g) (buffer : List Byte) :
    ∀ {s : Console}, CursorOk g s → ∃ s', putChars g 1 buffer s = some s' ∧ CursorOk g s' := by
  induction buffer with
  | nil => intro s h; exact ⟨s, rfl, h⟩
  | cons c buffer ih =>
      intro s h
      obtain ⟨s1, hput, h1⟩ := fbConPutCharWithFactor_ok hg hfit h c .commonMsg
      obtain ⟨s2, hrest, h2⟩ := ih h1
      refine ⟨s2, ?_, h2⟩
      rw [putChars, scaleFactor, hput]
      exact hrest

end Character

/-! ## Calls -/

inductive Call where
  | write (buffer : List Byte)
  | writeCritical (buffer : List Byte)

def Call.exec (g : Geometry) (gotos : Nat) : Call → Console → Option Console
  | .write buffer, s => serialPortWrite g gotos buffer s
  | .writeCritical buffer, s => serialPortWriteCritical g gotos buffer s

/-- The console after the first `k` characters of a call. -/
def Call.during (g : Geometry) (gotos k : Nat) : Call → Console → Option Console
  | .write buffer, s => putChars g gotos (buffer.take k) s
  | .writeCritical buffer, s =>
      putChars g gotos (buffer.take k) { s with foreground := fbBgra8888Yellow }

def runCalls (g : Geometry) (gotos : Nat) : List Call → Console → Option Console
  | [], s => some s
  | c :: calls, s => (c.exec g gotos s).bind (runCalls g gotos calls)

/-- `SerialPortInitialize` has set the console up, and the cursor is at (0, 0). -/
structure Initialized (g : Geometry) (s : Console) : Prop where
  setUp : ∃ region s0, s0.initialized = false ∧
    s = (serialPortInitialize g (.ok region) s0).2
  x : s.x = 0#64
  y : s.y = 0#64
  stored : s.stored = []

/-- The cursor is on the screen, and the pixel bytes stored so far lie in the frame buffer and
    not in the 16 bytes of the record. -/
structure ConsoleOk (g : Geometry) (s : Console) : Prop where
  x_nonneg : 0 ≤ s.x.toInt
  x_lt : s.x.toInt < columns g
  y_nonneg : 0 ≤ s.y.toInt
  y_lt : s.y.toInt < (rows g : Int) - 1
  inside : ∀ a ∈ s.stored, (a - s.region).toNat < frameBytes g
  record : ∀ a ∈ s.stored, 16 ≤ (a - s.position).toNat

section Calls

variable {g : Geometry} {s : Console}

theorem CursorOk.consoleOk (hfit : FitsWord g) (h : CursorOk g s) : ConsoleOk g s := by
  have hcolumns := columns_lt g
  have hrows := rows_lt g
  have hx := h.x_lt
  have hy := h.y_lt
  have hbytes := hfit.frameBytes_lt
  have hxi : s.x.toInt = s.x.toNat := BitVec.toInt_eq_toNat_of_lt (by omega)
  have hyi : s.y.toInt = s.y.toNat := BitVec.toInt_eq_toNat_of_lt (by omega)
  refine ⟨by omega, by omega, by omega, by omega, h.screen.inside, fun a ha => ?_⟩
  have hin := h.screen.inside a ha
  rw [h.screen.position]
  bv_omega

/-- The colour has nothing to do with the cursor. -/
theorem CursorOk.foreground (h : CursorOk g s) (color : BitVec 64) :
    CursorOk g { s with foreground := color } :=
  ⟨⟨h.screen.position, h.screen.maxX, h.screen.maxY, h.screen.inside⟩, h.x_lt, h.y_lt⟩

theorem Call.during_ok (hg : GeometryOk g) (hfit : FitsWord g) (h : CursorOk g s) (c : Call)
    (k : Nat) : ∃ s', c.during g 1 k s = some s' ∧ CursorOk g s' := by
  cases c with
  | write buffer => exact putChars_ok hg hfit (buffer.take k) h
  | writeCritical buffer => exact putChars_ok hg hfit (buffer.take k) (h.foreground _)

theorem Call.exec_ok (hg : GeometryOk g) (hfit : FitsWord g) (h : CursorOk g s) (c : Call) :
    ∃ s', c.exec g 1 s = some s' ∧ CursorOk g s' := by
  cases c with
  | write buffer => exact putChars_ok hg hfit buffer h
  | writeCritical buffer =>
      obtain ⟨s', hput, h'⟩ := putChars_ok hg hfit buffer (h.foreground fbBgra8888Yellow)
      refine ⟨_, ?_, h'.foreground s.foreground⟩
      show (putChars g 1 buffer _).map _ = _
      rw [hput]
      rfl

theorem runCalls_ok (hg : GeometryOk g) (hfit : FitsWord g) (calls : List Call) :
    ∀ {s : Console}, CursorOk g s → ∃ s', runCalls g 1 calls s = some s' ∧ CursorOk g s' := by
  induction calls with
  | nil => intro s h; exact ⟨s, rfl, h⟩
  | cons c calls ih =>
      intro s h
      obtain ⟨s1, hexec, h1⟩ := c.exec_ok hg hfit h
      obtain ⟨s2, hrest, h2⟩ := ih h1
      refine ⟨s2, ?_, h2⟩
      rw [runCalls, hexec]
      exact hrest

/-- What `SerialPortInitialize` sets up. -/
theorem Initialized.fields (h : Initialized g s) :
    s.position = s.region + (g.width * g.height * g.bpp / 8#32).setWidth 64 ∧
      s.maxX.toNat = columns g ∧ s.maxY = (gHeight g - 1#64) / 12#64 := by
  obtain ⟨region, s0, hnot, hinit⟩ := h.setUp
  rw [serialPortInitialize, hnot] at hinit
  subst hinit
  refine ⟨rfl, ?_, rfl⟩
  show (gWidth g / 6#64).toNat = columns g
  rw [BitVec.toNat_udiv, gWidth_toNat]
  rfl

theorem Initialized.maxY_toNat (h : Initialized g s) (hg : GeometryOk g) :
    s.maxY.toNat = rows g := by
  have hpos := hg.height_pos
  have hheight := gHeight_toNat g
  have hsub : (gHeight g - 1#64).toNat = g.height.toNat - 1 := by bv_omega
  rw [h.fields.2.2, BitVec.toNat_udiv, hsub]
  rfl

theorem Initialized.cursorOk (h : Initialized g s) (hg : GeometryOk g) (hfit : FitsWord g) :
    CursorOk g s := by
  obtain ⟨hpos, hmaxX, -⟩ := h.fields
  have hheight := hg.height
  have hwidth := hg.width
  refine ⟨⟨?_, hmaxX, h.maxY_toNat hg, ?_⟩, ?_, ?_⟩
  · rw [hpos, hfit.position]
  · rw [h.stored]
    intro a ha
    cases ha
  · rw [h.x]
    show 0 < columns g
    unfold columns
    omega
  · rw [h.y]
    show 0 + 1 < rows g
    omega

end Calls

/-! ## A frame buffer of 2 ^ 32 bits or more -/

section Large

variable {g : Geometry} {s : Console}

theorem paint_newline (type : FbConMsgType) (scale : BitVec 32) :
    paint g 0x0A#8 type scale s = newline g scale s := by
  rw [paint, if_neg (by decide), if_pos (by decide), if_pos rfl]

theorem resetFb_sweeps (g : Geometry) (s : Console) :
    (∀ k < g.width.toNat * (g.height.toNat * (g.bpp.toNat / 8)),
      s.region + BitVec.ofNat 64 k ∈ (resetFb g s).stored) ∧
    ∀ a ∈ s.stored, a ∈ (resetFb g s).stored := by
  have hpen : (⟨s.region, s.mem, s.stored⟩ : Pen).ptr = s.region := rfl
  have hswept := Swept.screen (gWidth g).toNat (gHeight g).toNat (gBpp g / 8#64).toNat
    fbBgra8888Black ⟨s.region, s.mem, s.stored⟩ hpen
  have hkept := hswept.kept
  have hall := hswept.all
  rw [gWidth_toNat, gHeight_toNat, bytesPerPixel_toNat] at hkept hall
  rw [resetFb, gWidth_toNat, gHeight_toNat, bytesPerPixel_toNat]
  exact ⟨hall, hkept⟩

/-- A new line keeps what was stored. -/
theorem newline_keeps (g : Geometry) (scale : BitVec 32) (s : Console) :
    (newline g scale s).2.region = s.region ∧ (newline g scale s).2.position = s.position ∧
      (newline g scale s).2.maxY = s.maxY ∧
      ∀ a ∈ s.stored, a ∈ (newline g scale s).2.stored := by
  have hsweeps := (resetFb_sweeps g (lineFeed scale s)).2
  rw [newline_eq]
  by_cases hreset : (s.maxY - scale.setWidth 64).sle (lineFeed scale s).y = true
  · rw [if_pos hreset]
    simpa [lineFeed] using hsweeps
  · rw [if_neg hreset]
    simp [lineFeed]

/-- Before the row before the last one a new line moves the cursor, from there it clears the
    screen. -/
theorem newline_moves (hmaxY : s.maxY.toNat = rows g) (hy : s.y.toNat + 2 ≤ rows g) :
    (s.y.toNat + 2 < rows g → (newline g 1#32 s).1 = false ∧
      (newline g 1#32 s).2.y.toNat = s.y.toNat + 1) ∧
    (s.y.toNat + 2 = rows g → (newline g 1#32 s).1 = true ∧
      ∀ k < g.width.toNat * (g.height.toNat * (g.bpp.toNat / 8)),
        s.region + BitVec.ofNat 64 k ∈ (newline g 1#32 s).2.stored) := by
  have hlast := lineFeed_last hmaxY hy
  rw [newline_eq]
  constructor
  · intro hlt
    rw [if_neg (by rw [hlast]; omega)]
    exact ⟨rfl, lineFeed_row hy⟩
  · intro heq
    rw [if_pos (hlast.mpr heq)]
    exact ⟨rfl, (resetFb_sweeps g (lineFeed 1#32 s)).1⟩

/-- As many new lines as it takes clear the whole screen. -/
theorem newlines_sweep : ∀ (n : Nat) {s s' : Console}, s.maxY.toNat = rows g →
    s.y.toNat + n + 2 = rows g →
    putChars g 1 (List.replicate (n + 1) 0x0A#8) s = some s' →
      s'.position = s.position ∧
        ∀ k < g.width.toNat * (g.height.toNat * (g.bpp.toNat / 8)),
          s.region + BitVec.ofNat 64 k ∈ s'.stored := by
  intro n
  induction n with
  | zero =>
      intro s s' hmaxY hy hput
      -- The last newline clears the screen, and the character is taken once more.
      obtain ⟨hback, hall⟩ := (newline_moves hmaxY (by omega)).2 (by omega)
      obtain ⟨-, hposition, -, -⟩ := newline_keeps g 1#32 s
      obtain ⟨-, hposition', -, hkeeps⟩ := newline_keeps g 1#32 (newline g 1#32 s).2
      rw [List.replicate_one, putChars, scaleFactor, fbConPutCharWithFactor, paint_newline,
        if_pos hback, fbConPutCharWithFactor, paint_newline] at hput
      by_cases hagain : (newline g 1#32 (newline g 1#32 s).2).1 = true
      · rw [if_pos hagain] at hput
        cases hput
      · rw [if_neg hagain] at hput
        obtain rfl : (newline g 1#32 (newline g 1#32 s).2).2 = s' := Option.some.inj hput
        exact ⟨hposition'.trans hposition, fun k hk => hkeeps _ (hall k hk)⟩
  | succ n ih =>
      intro s s' hmaxY hy hput
      -- The first newline only goes down one row.
      obtain ⟨hreturns, hy1⟩ := (newline_moves hmaxY (by omega)).1 (by omega)
      obtain ⟨hregion, hposition, hmaxY1, -⟩ := newline_keeps g 1#32 s
      rw [List.replicate_succ, putChars, scaleFactor, fbConPutCharWithFactor, paint_newline,
        if_neg (by rw [hreturns]; decide)] at hput
      obtain ⟨hpos, hall⟩ := ih (by rw [hmaxY1]; exact hmaxY) (by omega) hput
      rw [hregion] at hall
      exact ⟨hpos.trans hposition, hall⟩

/-- The record of a large frame buffer lies inside of it. -/
theorem record_inside (hg : GeometryOk g) (hlarge : ¬ FitsWord g) (hs : Initialized g s) :
    ∃ k < g.width.toNat * (g.height.toNat * (g.bpp.toNat / 8)),
      s.position = s.region + BitVec.ofNat 64 k := by
  refine ⟨g.width.toNat * g.height.toNat * g.bpp.toNat % 2 ^ 32 / 8, ?_, ?_⟩
  · rw [← hg.frameBytes_eq]
    unfold FitsWord at hlarge
    unfold frameBytes
    omega
  · rw [hs.fields.1]
    congr 1
    apply BitVec.eq_of_toNat_eq
    rw [BitVec.toNat_setWidth, BitVec.toNat_udiv, BitVec.toNat_mul, BitVec.toNat_mul,
      Nat.mod_mul_mod, BitVec.toNat_ofNat]
    rfl

/-- A write of new lines that clears the screen of a large frame buffer stores a pixel byte in
    the record. -/
theorem newlines_overwrite_record (hg : GeometryOk g) (hlarge : ¬ FitsWord g)
    (hs : Initialized g s) {s' : Console}
    (hrun : (Call.write (List.replicate (rows g - 1) 0x0A#8)).during g 1 (rows g - 1) s
      = some s') : s'.position ∈ s'.stored := by
  have hheight := hg.height
  have hput : putChars g 1 (List.replicate (rows g - 2 + 1) 0x0A#8) s = some s' := by
    rw [show rows g - 2 + 1 = rows g - 1 by omega]
    rw [Call.during, List.take_replicate, Nat.min_self] at hrun
    exact hrun
  have hy : s.y.toNat + (rows g - 2) + 2 = rows g := by
    rw [hs.y]
    show 0 + (rows g - 2) + 2 = rows g
    omega
  obtain ⟨hposition, hall⟩ := newlines_sweep (rows g - 2) (hs.maxY_toNat hg) hy hput
  obtain ⟨k, hk, hrecord⟩ := record_inside hg hlarge hs
  have hmem := hall k hk
  rwa [← hrecord, ← hposition] at hmem

end Large

theorem ConsoleOk.record_kept {g : Geometry} {s : Console} (h : ConsoleOk g s) :
    s.position ∉ s.stored := by
  intro hmem
  have hoff := h.record _ hmem
  rw [BitVec.sub_self] at hoff
  exact absurd hoff (by decide)

theorem writes_not_ok {g : Geometry} {s : Console} (hg : GeometryOk g) (hlarge : ¬ FitsWord g)
    (hs : Initialized g s) :
    ¬ ∀ (calls : List Call) (c : Call) (k : Nat), ∃ s',
      (runCalls g 1 calls s).bind (c.during g 1 k) = some s' ∧ ConsoleOk g s' := by
  intro h
  obtain ⟨s', hrun, hok⟩ := h [] (.write (List.replicate (rows g - 1) 0x0A#8)) (rows g - 1)
  exact hok.record_kept (newlines_overwrite_record hg hlarge hs hrun)

/-- Every sequence of writes keeps the cursor on the screen and the pixels in the frame buffer
    and off the record, with each character going back to `paint` at most once, exactly when
    the number of bits of the frame buffer fits 32 bits. -/
theorem serial_console_ok_iff {g : Geometry} {s : Console} (hg : GeometryOk g)
    (hs : Initialized g s) :
    (∀ (calls : List Call) (c : Call) (k : Nat), ∃ s',
      (runCalls g 1 calls s).bind (c.during g 1 k) = some s' ∧ ConsoleOk g s') ↔ FitsWord g := by
  constructor
  · intro h
    by_contra hlarge
    exact writes_not_ok hg hlarge hs h
  · intro hfit calls c k
    obtain ⟨s1, hrun, h1⟩ := runCalls_ok hg hfit calls (hs.cursorOk hg hfit)
    obtain ⟨s2, hduring, h2⟩ := c.during_ok hg hfit h1 k
    refine ⟨s2, ?_, h2.consoleOk hfit⟩
    rw [hrun]
    exact hduring

/-! ## Two frame buffers -/

/-- The console in a memory of zeros, before and after `SerialPortInitialize`. -/
def blank : Console :=
  ⟨0#64, 0#64, 0#64, 0#64, 0#64, 0#64, false, fun _ => 0#8, []⟩

def opened (g : Geometry) : Console := (serialPortInitialize g (.ok 0x9C000000#64) blank).2

theorem opened_initialized (g : Geometry) : Initialized g (opened g) where
  setUp := ⟨0x9C000000#64, blank, rfl, rfl⟩
  x := by
    show read64 (fun _ => 0#8) _ = 0#64
    simp only [read64, read32]
    decide
  y := by
    show read64 (fun _ => 0#8) _ = 0#64
    simp only [read64, read32]
    decide
  stored := rfl

def phoneScreen : Geometry := ⟨1350#32, 1800#32, 32#32, fun _ => 0#32⟩

theorem phoneScreen_fits : GeometryOk phoneScreen ∧ FitsWord phoneScreen :=
  ⟨⟨by decide, by decide, by decide⟩, by unfold FitsWord; decide⟩

theorem serial_console_ok_phone :
    (∀ (calls : List Call) (c : Call) (k : Nat), ∃ s',
      (runCalls phoneScreen 1 calls (opened phoneScreen)).bind (c.during phoneScreen 1 k)
        = some s' ∧ ConsoleOk phoneScreen s') ↔ FitsWord phoneScreen :=
  serial_console_ok_iff phoneScreen_fits.1 (opened_initialized phoneScreen)

def hugeScreen : Geometry := ⟨65536#32, 65536#32, 32#32, fun _ => 0#32⟩

/-- The product of the three constants is 0 here, so that the record is the first 16 bytes of
    the frame buffer. -/
theorem huge_screen_overwrites_record :
    ¬ ∀ (calls : List Call) (c : Call) (k : Nat), ∃ s',
      (runCalls hugeScreen 1 calls (opened hugeScreen)).bind (c.during hugeScreen 1 k)
        = some s' ∧ ConsoleOk hugeScreen s' := by
  have hlarge : ¬ FitsWord hugeScreen := by
    unfold FitsWord
    decide
  exact writes_not_ok ⟨by decide, by decide, by decide⟩ hlarge (opened_initialized hugeScreen)

end FrameBuffer
