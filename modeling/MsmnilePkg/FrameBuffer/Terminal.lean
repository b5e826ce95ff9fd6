/-
  MsmnilePkg.FrameBuffer.Terminal

  The terminal that the frame buffer console is meant to be, and where the
  console leaves it.

  The terminal has a cursor and an image.  The console does what it does except
  for the character that clears the screen: this one is handled once more, at
  the top of the cleared screen.  A space is suppressed there, every other
  character moves the cursor a second time.
-/

import MsmnilePkg.FrameBuffer.Glyph
import MsmnilePkg.FrameBuffer.Writes

namespace FrameBuffer

open ByteMem Loop PixelImage

/-! ## The terminal -/

structure Terminal where
  /-- The column of the cursor. -/
  x : Nat
  /-- The row of the cursor. -/
  y : Nat
  image : Image

/-- The screen in black. -/
def blankImage : Image := fun _ _ k => colorByte fbBgra8888Black k

/-- The colours of the characters. -/
structure Colors where
  fg : BitVec 32
  bg : BitVec 32

namespace Terminal

variable (g : Geometry) (col : Colors) (t : Terminal)

/-- To the next row; past the last usable one the screen is cleared. -/
def nextRow : Terminal :=
  if t.y + 2 < rows g then { t with x := 0, y := t.y + 1 } else ⟨0, 0, blankImage⟩

/-- A character in the cell of the cursor. -/
def draw (c : Byte) : Terminal :=
  { t with
    image := drawnGlyph t.image (12 * t.y) (6 * t.x) col.fg col.bg
      (fun i => g.font5x12 ((c.toNat - 32) * 2 + i)) }

/-- A printable character is drawn and moves the cursor. -/
def print (c : Byte) : Terminal :=
  if t.x = 0 ∧ c = 0x20#8 then t
  else if t.x + 1 < columns g then { t.draw g col c with x := t.x + 1 }
  else (t.draw g col c).nextRow g

def put (c : Byte) : Terminal :=
  if 127#8 < c then t
  else if c < 32#8 then
    if c = 0x0A#8 then t.nextRow g else if c = 0x0D#8 then { t with x := 0 } else t
  else t.print g col c

def write (buffer : List Byte) : Terminal := buffer.foldl (put g col) t

/-- The character leaves the row of the cursor. -/
def LeavesRow (c : Byte) : Prop :=
  c = 0x0A#8 ∨ (32#8 ≤ c ∧ c ≤ 127#8 ∧ ¬ (t.x = 0 ∧ c = 0x20#8) ∧ columns g ≤ t.x + 1)

instance (c : Byte) : Decidable (t.LeavesRow g c) := inferInstanceAs (Decidable (_ ∨ _))

/-- The character moves past the last usable row. -/
def Clears (c : Byte) : Prop := t.LeavesRow g c ∧ rows g ≤ t.y + 2

instance (c : Byte) : Decidable (t.Clears g c) := inferInstanceAs (Decidable (_ ∧ _))

end Terminal

/-- What the console shows: its cursor and its frame buffer. -/
structure Matches (g : Geometry) (s : Console) (t : Terminal) : Prop where
  x : s.x.toNat = t.x
  y : s.y.toNat = t.y
  image : Shows s.mem s.region g.width.toNat g.height.toNat (g.bpp.toNat / 8) t.image

/-- The terminal with the cursor and the image of a console. -/
def Console.terminal (g : Geometry) (s : Console) : Terminal where
  x := s.x.toNat
  y := s.y.toNat
  image r q k :=
    s.mem (s.region + BitVec.ofNat 64 (offset g.width.toNat (g.bpp.toNat / 8) r q k))

def Console.colors (s : Console) : Colors :=
  ⟨s.foreground.setWidth 32, s.background.setWidth 32⟩

@[simp] theorem setX_colors (s : Console) (v : BitVec 64) : (s.setX v).colors = s.colors := rfl

@[simp] theorem setY_colors (s : Console) (v : BitVec 64) : (s.setY v).colors = s.colors := rfl

@[simp] theorem resetFb_colors (g : Geometry) (s : Console) : (resetFb g s).colors = s.colors := rfl

/-! ## The image in the memory of the console -/

section Images

variable {g : Geometry} {s : Console} {im : Image}

/-- The frame buffer of a console. -/
abbrev ShowsFrame (g : Geometry) (s : Console) (im : Image) : Prop :=
  Shows s.mem s.region g.width.toNat g.height.toNat (g.bpp.toNat / 8) im

theorem FitsWord.frame_lt (hg : GeometryOk g) (hfit : FitsWord g) :
    g.width.toNat * (g.height.toNat * (g.bpp.toNat / 8)) < 2 ^ 29 := by
  rw [← hg.frameBytes_eq]
  exact hfit.frameBytes_lt

/-- A store to the record behind the frame buffer does not change the image. -/
theorem ShowsFrame.record (hg : GeometryOk g) (hfit : FitsWord g) (h : ShowsFrame g s im)
    {a : Addr} (ha : a = s.region + BitVec.ofNat 64 (frameBytes g) ∨
      a = s.region + BitVec.ofNat 64 (frameBytes g) + 8#64) (v : BitVec 64) :
    Shows (write64 s.mem a v) s.region g.width.toNat g.height.toNat (g.bpp.toNat / 8) im := by
  have hlt := hfit.frameBytes_lt
  apply h.frame
  intro i hi
  rw [← hg.frameBytes_eq] at hi
  apply write64_of_outside
  rcases ha with rfl | rfl <;> bv_omega

theorem ShowsFrame.setX (hg : GeometryOk g) (hfit : FitsWord g) (hs : Screen g s)
    (h : ShowsFrame g s im) (v : BitVec 64) : ShowsFrame g (s.setX v) im :=
  h.record hg hfit (.inl hs.position) v

theorem ShowsFrame.setY (hg : GeometryOk g) (hfit : FitsWord g) (hs : Screen g s)
    (h : ShowsFrame g s im) (v : BitVec 64) : ShowsFrame g (s.setY v) im :=
  h.record hg hfit (.inr (congrArg (· + 8#64) hs.position)) v

theorem resetFb_shows (hg : GeometryOk g) (hfit : FitsWord g) :
    ShowsFrame g (resetFb g s) blankImage := by
  have hlt := hfit.frame_lt hg
  have hscreen := screen_shows (W := g.width.toNat) (H := g.height.toNat) (b := g.bpp.toNat / 8)
    (by omega) fbBgra8888Black ⟨s.region, s.mem, s.stored⟩
  rw [← gWidth_toNat, ← gHeight_toNat, ← bytesPerPixel_toNat] at hscreen
  rw [ShowsFrame, ← gWidth_toNat, ← gHeight_toNat, ← bytesPerPixel_toNat]
  exact hscreen

/-- A character is drawn in the cell of the cursor. -/
theorem drawChar_shows (hg : GeometryOk g) (hfit : FitsWord g) (h : CursorOk g s)
    (him : ShowsFrame g s im) (c : Byte) :
    ShowsFrame g (drawChar g c 1#32 s)
      (drawnGlyph im (12 * s.y.toNat) (6 * s.x.toNat) (s.foreground.setWidth 32)
        (s.background.setWidth 32) fun i => g.font5x12 ((c.toNat - 32) * 2 + i)) := by
  have hlt := hfit.frame_lt hg
  have hrow := hfit.rowOk hg
  have hrows : 12 * s.y.toNat + 12 ≤ g.height.toNat := by
    have hy := h.y_lt
    unfold rows at hy
    omega
  have hcolumns : 6 * s.x.toNat + 5 ≤ g.width.toNat := by
    have hx := h.x_lt
    unfold columns at hx
    omega
  have hbytes : g.bpp.toNat / 8 = ((gBpp g / 8#64).setWidth 32).toNat := by
    rw [BitVec.toNat_setWidth, bytesPerPixel_toNat, Nat.mod_eq_of_lt (by omega)]
  -- the pen of `drawChar`, with a name so that its pixel loops stay folded
  obtain ⟨pen, hpen⟩ : ∃ pen : Pen, pen = ⟨s.region + s.y * ((gBpp g / 8#64)
      * BitVec.ofNat 64 fontHeight * gWidth g) + s.x * (1#32).setWidth 64 * ((gBpp g / 8#64)
      * BitVec.ofNat 64 (fontWidth + 1)), s.mem, s.stored⟩ := ⟨_, rfl⟩
  have hdraw : (drawChar g c 1#32 s).mem = (fbConDrawglyph ((gWidth g).setWidth 32)
      ((gBpp g / 8#64).setWidth 32) 1#32 (s.foreground.setWidth 32) (s.background.setWidth 32)
      (fun i => g.font5x12 ((c.toNat - 32) * 2 + i)) pen).mem := by
    rw [hpen]
    rfl
  -- the byte offset of a cell is that of the pixel in its upper left corner
  have hplace : s.y.toNat * (g.bpp.toNat / 8 * 12 * g.width.toNat)
        + s.x.toNat * (g.bpp.toNat / 8 * 6)
      = (12 * s.y.toNat * g.width.toNat + 6 * s.x.toNat) * (g.bpp.toNat / 8) := by ring
  have hstart : Draws s.region g.width.toNat g.height.toNat ((gBpp g / 8#64).setWidth 32).toNat
      (12 * s.y.toNat) (6 * s.x.toNat) im pen := by
    rw [← hbytes]
    refine ⟨?_, ?_⟩
    · rw [hpen, ← hplace]
      exact cell_ptr g s.region s.x s.y
    · rw [hpen]
      exact him
  rw [hbytes] at hrow hlt
  have hglyph := fbConDrawglyph_shows (by omega) hrow hstart hrows hcolumns
    (s.foreground.setWidth 32) (s.background.setWidth 32)
    (fun i => g.font5x12 ((c.toNat - 32) * 2 + i))
  rw [← hdraw, ← hbytes] at hglyph
  exact hglyph

end Images

/-! ## One character -/

section Character

variable {g : Geometry} {col : Colors} {s : Console} {t : Terminal}

/-- The console and the terminal side by side. -/
structure Follows (g : Geometry) (col : Colors) (s : Console) (t : Terminal) : Prop where
  ok : CursorOk g s
  colors : s.colors = col
  shown : Matches g s t

theorem Follows.x_lt (h : Follows g col s t) : t.x < columns g := h.shown.x ▸ h.ok.x_lt

theorem Follows.y_lt (h : Follows g col s t) : t.y + 1 < rows g := h.shown.y ▸ h.ok.y_lt

/-- The console at `newline:`; the column is that behind the row. -/
theorem newline_follows (hg : GeometryOk g) (hfit : FitsWord g) (hs : Screen g s)
    (hcolors : s.colors = col) (hy : s.y.toNat = t.y) (hylt : t.y + 1 < rows g)
    (him : ShowsFrame g s t.image) :
    (newline g 1#32 s).1 = decide (rows g ≤ t.y + 2) ∧
      Follows g col (newline g 1#32 s).2 (t.nextRow g) := by
  have hrow := lineFeed_row (g := g) (s := s) (by omega)
  have hlast := lineFeed_last hs.maxY (by omega)
  have hok := (newline_ok hg hfit hs (by omega)).1
  have hfeed : Screen g (lineFeed 1#32 s) := (hs.setY _).setX _
  have himage : ShowsFrame g (lineFeed 1#32 s) t.image :=
    (him.setY hg hfit hs _).setX hg hfit (hs.setY _) _
  rw [newline_eq] at hok ⊢
  rw [Terminal.nextRow]
  by_cases hreset : t.y + 2 < rows g
  · -- above the last usable row
    rw [if_neg (by rw [hlast]; omega)] at hok ⊢
    rw [if_pos hreset]
    refine ⟨(decide_eq_false (by omega)).symm, hok, hcolors, ?_, ?_, himage⟩
    · show (lineFeed 1#32 s).x.toNat = 0
      rw [lineFeed_x]
      rfl
    · show (lineFeed 1#32 s).y.toNat = t.y + 1
      rw [hrow, hy]
  · -- the row behind it is the last one: both clear the screen
    rw [if_pos (by rw [hlast]; omega)] at hok ⊢
    rw [if_neg hreset]
    obtain ⟨hclear, hclearx⟩ := resetFb_screen hg hfit hfeed
    have hkept : ((resetFb g (lineFeed 1#32 s)).setY 0#64).colors = col := by
      rw [setY_colors, resetFb_colors, lineFeed, setX_colors, setY_colors, hcolors]
    refine ⟨(decide_eq_true (by omega)).symm, hok, hkept, ?_, ?_, ?_⟩
    · show ((resetFb g (lineFeed 1#32 s)).setY 0#64).x.toNat = 0
      rw [setY_x, hclearx, lineFeed_x]
      rfl
    · show ((resetFb g (lineFeed 1#32 s)).setY 0#64).y.toNat = 0
      rw [setY_y]
      rfl
    · exact (resetFb_shows hg hfit).setY hg hfit hclear _

/-- Behind a glyph. -/
theorem advance_follows (hg : GeometryOk g) (hfit : FitsWord g) (h : Follows g col s t) :
    (advance g 1#32 s).1 = decide (columns g ≤ t.x + 1 ∧ rows g ≤ t.y + 2) ∧
      Follows g col (advance g 1#32 s).2
        (if t.x + 1 < columns g then { t with x := t.x + 1 } else t.nextRow g) := by
  have hx := h.shown.x
  have hy := h.shown.y
  have hylt := h.y_lt
  have hok := (advance_ok hg hfit h.ok).1
  have hscreen : Screen g (s.setX (s.x + 1#64)) := h.ok.screen.setX _
  have himage := ShowsFrame.setX hg hfit h.ok.screen h.shown.image (s.x + 1#64)
  rw [advance_eq h.ok.screen.maxX h.ok.x_lt] at hok ⊢
  by_cases hend : columns g ≤ t.x + 1
  · -- the last column: on to `newline:`
    rw [if_pos (by omega), if_neg (by omega)]
    obtain ⟨hback, hfollows⟩ := newline_follows hg hfit hscreen h.colors
      (by rw [setX_y, hy]) hylt himage
    refine ⟨?_, hfollows⟩
    rw [hback, decide_eq_decide]
    exact (and_iff_right hend).symm
  · -- the next column of the same row
    rw [if_neg (by omega)] at hok ⊢
    rw [if_pos (by omega)]
    refine ⟨(decide_eq_false fun hclears => hend hclears.1).symm, hok, h.colors, ?_, ?_, himage⟩
    · show (s.setX (s.x + 1#64)).x.toNat = t.x + 1
      rw [setX_next h.ok.x_lt, hx]
    · show (s.setX (s.x + 1#64)).y.toNat = t.y
      rw [setX_y, hy]

/-- A glyph at the cursor of both. -/
theorem drawChar_follows (hg : GeometryOk g) (hfit : FitsWord g) (h : Follows g col s t)
    (c : Byte) : Follows g col (drawChar g c 1#32 s) (t.draw g col c) := by
  obtain ⟨hscreen, hdrawx, hdrawy⟩ := drawChar_screen hg hfit h.ok c
  have himage := drawChar_shows hg hfit h.ok h.shown.image c
  have hcolors := h.colors
  refine ⟨⟨hscreen, ?_, ?_⟩, hcolors, ?_, ?_, ?_⟩
  · rw [hdrawx]
    exact h.ok.x_lt
  · rw [hdrawy]
    exact h.ok.y_lt
  · rw [hdrawx]
    exact h.shown.x
  · rw [hdrawy]
    exact h.shown.y
  · rw [h.shown.x, h.shown.y] at himage
    rw [← hcolors]
    exact himage

/-- The console at `paint:` does what the terminal does, and goes back when the terminal
    clears the screen. -/
theorem paint_follows (hg : GeometryOk g) (hfit : FitsWord g) (h : Follows g col s t) (c : Byte) :
    (paint g c .commonMsg 1#32 s).1 = decide (t.Clears g c) ∧
      Follows g col (paint g c .commonMsg 1#32 s).2 (t.put g col c) := by
  have hx0 : s.x = 0#64 ↔ t.x = 0 := by
    rw [← h.shown.x, ← BitVec.toNat_inj]
    rfl
  have hylt := h.y_lt
  rw [paint, Terminal.put]
  by_cases hascii : 127#8 < c
  · -- not a character of the font
    rw [if_pos hascii, if_pos hascii]
    refine ⟨(decide_eq_false ?_).symm, h⟩
    rintro ⟨rfl | ⟨-, hle, -⟩, -⟩
    · exact absurd hascii (by decide)
    · exact absurd hascii (BitVec.not_lt.mpr hle)
  rw [if_neg hascii, if_neg hascii]
  by_cases hcontrol : c < 32#8
  · -- a control character clears the screen only if it is a new line
    rw [if_pos hcontrol, if_pos hcontrol]
    have hclears : t.Clears g c ↔ c = 0x0A#8 ∧ rows g ≤ t.y + 2 := by
      rw [Terminal.Clears, Terminal.LeavesRow]
      refine and_congr_left fun _ => or_iff_left ?_
      rintro ⟨hle, -⟩
      exact absurd hcontrol (BitVec.not_lt.mpr hle)
    by_cases hnl : c = 0x0A#8
    · -- new line
      rw [if_pos hnl, if_pos hnl]
      obtain ⟨hback, hfollows⟩ := newline_follows hg hfit h.ok.screen h.colors h.shown.y hylt
        h.shown.image
      refine ⟨?_, hfollows⟩
      rw [hback, decide_eq_decide, hclears]
      exact (and_iff_right hnl).symm
    rw [if_neg hnl, if_neg hnl]
    have hstays : decide (t.Clears g c) = false := decide_eq_false fun hc => hnl (hclears.mp hc).1
    by_cases hcr : c = 0x0D#8
    · -- carriage return: only the column changes
      rw [if_pos hcr, if_pos hcr]
      refine ⟨hstays.symm, ⟨h.ok.screen.setX _, ?_, ?_⟩, h.colors, ?_, ?_,
        ShowsFrame.setX hg hfit h.ok.screen h.shown.image _⟩
      · rw [setX_x]
        exact Nat.lt_of_le_of_lt (Nat.zero_le _) h.ok.x_lt
      · rw [setX_y]
        exact h.ok.y_lt
      · rw [setX_x]
        rfl
      · rw [setX_y]
        exact h.shown.y
    · rw [if_neg hcr, if_neg hcr]
      exact ⟨hstays.symm, h⟩
  -- a printable character clears it only if it is drawn in the last column
  rw [if_neg hcontrol, if_neg hcontrol, Terminal.print]
  have hclears : t.Clears g c ↔ ¬ (t.x = 0 ∧ c = 0x20#8) ∧ columns g ≤ t.x + 1 ∧
      rows g ≤ t.y + 2 := by
    have hnl : c ≠ 0x0A#8 := by
      rintro rfl
      exact hcontrol (by decide)
    rw [Terminal.Clears, Terminal.LeavesRow, or_iff_right hnl,
      and_iff_right (BitVec.not_lt.mp hcontrol), and_iff_right (BitVec.not_lt.mp hascii), and_assoc]
  by_cases hspace : t.x = 0 ∧ c = 0x20#8
  · -- a space in the first column is suppressed by both
    rw [if_pos hspace, if_pos ⟨hx0.mpr hspace.1, hspace.2, by decide, by decide⟩]
    exact ⟨(decide_eq_false fun hc => (hclears.mp hc).1 hspace).symm, h⟩
  · -- a glyph, and the cursor behind it
    rw [if_neg hspace, if_neg (fun hs => hspace ⟨hx0.mp hs.1, hs.2.1⟩)]
    obtain ⟨hback, hfollows⟩ := advance_follows hg hfit (drawChar_follows hg hfit h c)
    refine ⟨?_, hfollows⟩
    rw [hback, decide_eq_decide, hclears, and_iff_right hspace]
    rfl

/-- A character that clears the screen leaves the cursor at its top. -/
theorem Terminal.put_of_clears {c : Byte} (h : t.Clears g c) :
    t.put g col c = ⟨0, 0, blankImage⟩ := by
  obtain ⟨hleaves, hlast⟩ := h
  have hnext : ∀ u : Terminal, u.y = t.y → u.nextRow g = ⟨0, 0, blankImage⟩ := by
    intro u hu
    rw [Terminal.nextRow, if_neg (by omega)]
  rcases hleaves with rfl | ⟨hlo, hhi, hspace, hend⟩
  · rw [Terminal.put, if_neg (by decide), if_pos (by decide), if_pos rfl]
    exact hnext t rfl
  · rw [Terminal.put, if_neg (BitVec.not_lt.mpr hhi), if_neg (BitVec.not_lt.mpr hlo),
      Terminal.print, if_neg hspace, if_neg (by omega)]
    exact hnext _ rfl

/-- From the top of a screen of three rows or more no character clears it. -/
theorem Terminal.not_clears_top (hg : GeometryOk g) {im : Image} (c : Byte) :
    ¬ (⟨0, 0, im⟩ : Terminal).Clears g c := by
  rintro ⟨-, hlast⟩
  have hheight := hg.height
  change rows g ≤ 0 + 2 at hlast
  omega

/-- A character that clears the screen and is no space moves the cursor away from the top. -/
theorem Terminal.put_top_moves (hg : GeometryOk g) {c : Byte} (h : t.Clears g c)
    (hc : c ≠ 0x20#8) {im : Image} :
    ¬ (((⟨0, 0, im⟩ : Terminal).put g col c).x = 0 ∧
      ((⟨0, 0, im⟩ : Terminal).put g col c).y = 0) := by
  have hheight := hg.height
  have hnext : ∀ u : Terminal, u.y = 0 → (u.nextRow g).y = 1 := by
    intro u hu
    rw [Terminal.nextRow, if_pos (by omega), hu]
  rintro ⟨hx, hy⟩
  rcases h.1 with rfl | ⟨hlo, hhi, -, -⟩
  · rw [Terminal.put, if_neg (by decide), if_pos (by decide), if_pos rfl, hnext _ rfl] at hy
    exact absurd hy (by decide)
  · rw [Terminal.put, if_neg (BitVec.not_lt.mpr hhi), if_neg (BitVec.not_lt.mpr hlo),
      Terminal.print, if_neg (fun hs => hc hs.2)] at hx hy
    split at hx
    · cases hx
    · rw [if_neg ‹_›, hnext _ rfl] at hy
      exact absurd hy (by decide)

/-- A space at the top of the screen is suppressed. -/
theorem Terminal.put_top_space {im : Image} :
    (⟨0, 0, im⟩ : Terminal).put g col 0x20#8 = ⟨0, 0, im⟩ := by
  rw [Terminal.put, if_neg (by decide), if_neg (by decide), Terminal.print, if_pos ⟨rfl, rfl⟩]

/-- One character: the console puts it, and puts it again when it clears the screen. -/
theorem fbConPutCharWithFactor_follows (hg : GeometryOk g) (hfit : FitsWord g)
    (h : Follows g col s t) (c : Byte) :
    ∃ s', fbConPutCharWithFactor g c .commonMsg scaleFactor 1 s = some s' ∧
      Follows g col s' (if t.Clears g c then (t.put g col c).put g col c else t.put g col c) := by
  obtain ⟨hback, hnext⟩ := paint_follows hg hfit h c
  rw [fbConPutCharWithFactor, scaleFactor]
  by_cases hclears : t.Clears g c
  · -- `goto paint`, which is not taken a second time from the top of the screen
    rw [if_pos (by rw [hback]; exact decide_eq_true hclears), if_pos hclears]
    obtain ⟨hback', hagain⟩ := paint_follows hg hfit hnext c
    have hstays : ¬ (t.put g col c).Clears g c := by
      rw [Terminal.put_of_clears hclears]
      exact Terminal.not_clears_top hg c
    refine ⟨_, ?_, hagain⟩
    rw [fbConPutCharWithFactor, hback', decide_eq_false hstays, if_neg Bool.false_ne_true]
  · rw [if_neg (by rw [hback]; simp [hclears]), if_neg hclears]
    exact ⟨_, rfl, hnext⟩

/-- The console stays with the terminal unless the character clears the screen and is no
    space. -/
theorem fbConPutCharWithFactor_follows_put (hg : GeometryOk g) (hfit : FitsWord g)
    (h : Follows g col s t) {c : Byte} (hc : t.Clears g c → c = 0x20#8) :
    ∃ s', fbConPutCharWithFactor g c .commonMsg scaleFactor 1 s = some s' ∧
      Follows g col s' (t.put g col c) := by
  obtain ⟨s', hput, hfollows⟩ := fbConPutCharWithFactor_follows hg hfit h c
  refine ⟨s', hput, ?_⟩
  by_cases hclears : t.Clears g c
  · -- the second time the space is in the first column
    obtain rfl := hc hclears
    rw [if_pos hclears, Terminal.put_of_clears hclears, Terminal.put_top_space] at hfollows
    rw [Terminal.put_of_clears hclears]
    exact hfollows
  · rwa [if_neg hclears] at hfollows

end Character

/-! ## A whole write -/

section Writes

variable {g : Geometry} {col : Colors} {s : Console} {t : Terminal}

/-- Only spaces clear the screen of the terminal. -/
def OnlySpacesClear (g : Geometry) (col : Colors) (t : Terminal) (buffer : List Byte) : Prop :=
  ∀ k c, buffer[k]? = some c → (t.write g col (buffer.take k)).Clears g c → c = 0x20#8

theorem OnlySpacesClear.tail {c : Byte} {buffer : List Byte}
    (h : OnlySpacesClear g col t (c :: buffer)) : OnlySpacesClear g col (t.put g col c) buffer :=
  fun k => h (k + 1)

/-- A prefix is about the characters in it. -/
theorem onlySpacesClear_take {buffer : List Byte} {n : Nat} :
    OnlySpacesClear g col t (buffer.take n) ↔ ∀ k < n, ∀ c, buffer[k]? = some c →
      (t.write g col (buffer.take k)).Clears g c → c = 0x20#8 := by
  have hfirst : ∀ k < n, (buffer.take n)[k]? = buffer[k]? ∧
      (buffer.take n).take k = buffer.take k := by
    intro k hk
    exact ⟨List.getElem?_take_of_lt hk, by rw [List.take_take, Nat.min_eq_left (Nat.le_of_lt hk)]⟩
  constructor
  · intro h k hk c hc
    obtain ⟨hget, htake⟩ := hfirst k hk
    rw [← htake]
    exact h k c (hget.trans hc)
  · intro h k c hc
    have hk : k < n := by
      have := (List.getElem?_eq_some_iff.mp hc).1
      rw [List.length_take] at this
      omega
    obtain ⟨hget, htake⟩ := hfirst k hk
    rw [htake]
    exact h k hk c (hget.symm.trans hc)

/-- While only spaces clear the screen, the console follows the terminal. -/
theorem putChars_follows (hg : GeometryOk g) (hfit : FitsWord g) (buffer : List Byte) :
    ∀ {s : Console} {t : Terminal}, Follows g col s t → OnlySpacesClear g col t buffer →
      ∃ s', putChars g 1 buffer s = some s' ∧ Follows g col s' (t.write g col buffer) := by
  induction buffer with
  | nil =>
      intro s t h _
      exact ⟨s, rfl, h⟩
  | cons c buffer ih =>
      intro s t h hspaces
      obtain ⟨s1, hput, h1⟩ := fbConPutCharWithFactor_follows_put hg hfit h (hspaces 0 c rfl)
      obtain ⟨s2, hrest, h2⟩ := ih h1 hspaces.tail
      refine ⟨s2, ?_, h2⟩
      rw [putChars, hput]
      exact hrest

theorem putChars_append (gotos : Nat) (buffer rest : List Byte) : ∀ s : Console,
    putChars g gotos (buffer ++ rest) s
      = (putChars g gotos buffer s).bind (putChars g gotos rest) := by
  induction buffer with
  | nil => intro s; rfl
  | cons c buffer ih =>
      intro s
      rw [List.cons_append, putChars, putChars]
      cases fbConPutCharWithFactor g c .commonMsg scaleFactor gotos s with
      | none => rfl
      | some s1 => exact ih s1

theorem Terminal.write_append (buffer : List Byte) (c : Byte) :
    t.write g col (buffer ++ [c]) = (t.write g col buffer).put g col c :=
  List.foldl_append

/-- The character that clears the screen, unless it is a space, leaves the two apart. -/
theorem differs_behind_clear (hg : GeometryOk g) (hfit : FitsWord g) (h : Follows g col s t)
    {buffer : List Byte} (hspaces : OnlySpacesClear g col t buffer) {c : Byte}
    (hclears : (t.write g col buffer).Clears g c) (hc : c ≠ 0x20#8) :
    ¬ ∃ s', serialPortWrite g 1 (buffer ++ [c]) s = some s' ∧
      Matches g s' (t.write g col (buffer ++ [c])) := by
  rintro ⟨s', hrun, hmatch⟩
  obtain ⟨s1, hput, h1⟩ := putChars_follows hg hfit buffer h hspaces
  obtain ⟨s2, hchar, h2⟩ := fbConPutCharWithFactor_follows hg hfit h1 c
  rw [if_pos hclears, Terminal.put_of_clears hclears] at h2
  -- the write ends in `s2`
  rw [serialPortWrite, putChars_append, hput, Option.bind_some, putChars, hchar] at hrun
  obtain rfl : s2 = s' := Option.some.inj hrun
  rw [Terminal.write_append, Terminal.put_of_clears hclears] at hmatch
  exact Terminal.put_top_moves hg hclears hc
    ⟨h2.shown.x.symm.trans hmatch.x, h2.shown.y.symm.trans hmatch.y⟩

theorem follows_start (h : CursorOk g s) : Follows g s.colors s (s.terminal g) :=
  ⟨h, rfl, rfl, rfl, fun _ _ _ _ _ _ => rfl⟩

/-- New lines move the cursor down to the last usable row. -/
theorem Terminal.write_newlines (col : Colors) (n : Nat) : ∀ {t : Terminal}, t.y + n + 1 < rows g →
    (t.write g col (List.replicate n 0x0A#8)).y = t.y + n ∧
      OnlySpacesClear g col t (List.replicate n 0x0A#8) := by
  induction n with
  | zero =>
      intro t _
      refine ⟨rfl, ?_⟩
      intro k c hk
      simp at hk
  | succ n ih =>
      intro t hlt
      -- The first newline goes down one row, which is not the last.
      have hput : t.put g col 0x0A#8 = { t with x := 0, y := t.y + 1 } := by
        rw [put, if_neg (by decide), if_pos (by decide), if_pos rfl, nextRow, if_pos (by omega)]
      obtain ⟨hy, hspaces⟩ := ih (t := t.put g col 0x0A#8)
        (by rw [hput]; show t.y + 1 + n + 1 < rows g; omega)
      constructor
      · show ((t.put g col 0x0A#8).write g col (List.replicate n 0x0A#8)).y = t.y + (n + 1)
        rw [hy, hput]
        show t.y + 1 + n = t.y + (n + 1)
        omega
      · intro k c hk hclears
        cases k with
        | zero =>
            have hlast : rows g ≤ t.y + 2 := hclears.2
            omega
        | succ k => exact hspaces k c hk hclears

end Writes

/-- Every prefix of a buffer leaves the console with the cursor and the image of the terminal
    exactly when no character clears the screen of the terminal, but for spaces. -/
theorem serialPortWrite_matches_iff {g : Geometry} {s : Console} (hg : GeometryOk g)
    (hfit : FitsWord g) (h : CursorOk g s) (buffer : List Byte) :
    (∀ k, ∃ s', serialPortWrite g 1 (buffer.take k) s = some s' ∧
      Matches g s' ((s.terminal g).write g s.colors (buffer.take k))) ↔
      OnlySpacesClear g s.colors (s.terminal g) buffer := by
  have hstart := follows_start h
  constructor
  · -- By induction on the position: up to the first character that clears the screen the
    -- two agree, and that character, unless it is a space, leaves them apart.
    intro hall k
    induction k using Nat.strongRecOn with
    | ind k ih =>
        intro c hk hclears
        have hbefore : OnlySpacesClear g s.colors (s.terminal g) (buffer.take k) :=
          onlySpacesClear_take.mpr ih
        have hlonger : buffer.take (k + 1) = buffer.take k ++ [c] := by
          rw [List.take_add_one, hk]
          rfl
        by_contra hc
        have hnext := hall (k + 1)
        rw [hlonger] at hnext
        exact differs_behind_clear hg hfit hstart hbefore hclears hc hnext
  · intro hspaces k
    have hbefore : OnlySpacesClear g s.colors (s.terminal g) (buffer.take k) :=
      onlySpacesClear_take.mpr fun j _ => hspaces j
    obtain ⟨s', hrun, hfollows⟩ := putChars_follows hg hfit (buffer.take k) hstart hbefore
    exact ⟨s', hrun, hfollows.shown⟩

theorem serialPortWrite_matches_phone :
    (∀ k, ∃ s',
      serialPortWrite phoneScreen 1 ([0x4F#8, 0x4B#8].take k) (opened phoneScreen) = some s' ∧
      Matches phoneScreen s' (((opened phoneScreen).terminal phoneScreen).write phoneScreen
        (opened phoneScreen).colors ([0x4F#8, 0x4B#8].take k))) ↔
      OnlySpacesClear phoneScreen (opened phoneScreen).colors
        ((opened phoneScreen).terminal phoneScreen) [0x4F#8, 0x4B#8] :=
  serialPortWrite_matches_iff phoneScreen_fits.1 phoneScreen_fits.2
    ((opened_initialized phoneScreen).cursorOk phoneScreen_fits.1 phoneScreen_fits.2) _

/-- The new line that clears the screen of 148 usable rows moves the cursor to row 1. -/
theorem serialPortWrite_not_always_matches : ¬ ∀ buffer : List Byte, ∃ s',
    serialPortWrite phoneScreen 1 buffer (opened phoneScreen) = some s' ∧
      Matches phoneScreen s' (((opened phoneScreen).terminal phoneScreen).write phoneScreen
        (opened phoneScreen).colors buffer) := by
  intro hall
  obtain ⟨hg, hfit⟩ := phoneScreen_fits
  have hok := (opened_initialized phoneScreen).cursorOk hg hfit
  have hrow : ((opened phoneScreen).terminal phoneScreen).y = 0 := by
    show (opened phoneScreen).y.toNat = 0
    rw [(opened_initialized phoneScreen).y]
    rfl
  have hrows : rows phoneScreen = 149 := by decide
  obtain ⟨hy, hspaces⟩ := Terminal.write_newlines (g := phoneScreen) (opened phoneScreen).colors
    147 (t := (opened phoneScreen).terminal phoneScreen)
    (by rw [hrow, hrows]; decide)
  rw [hrow] at hy
  apply differs_behind_clear hg hfit (follows_start hok) hspaces ⟨.inl rfl, ?_⟩ (by decide)
    (hall (List.replicate 147 0x0A#8 ++ [0x0A#8]))
  rw [hy, hrows]

end FrameBuffer
