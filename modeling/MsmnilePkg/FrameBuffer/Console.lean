/-
  MsmnilePkg.FrameBuffer.Console

  The text console of FrameBufferSerialPortLib: characters become pixels of
  the frame buffer, and the cursor is kept in memory behind it.

  Left out are the interrupt state and the cache flush, which change neither
  the memory nor the cursor.
-/

import MsmnilePkg.Efi
import MsmnilePkg.Lib.ByteMem
import MsmnilePkg.Lib.Loop

namespace FrameBuffer

open ByteMem Efi Loop

/-! ## The screen -/

/-- The build's display and the font. -/
structure Geometry where
  /-- `PcdMipiFrameBufferWidth` -/
  width : BitVec 32
  /-- `PcdMipiFrameBufferHeight` -/
  height : BitVec 32
  /-- `PcdMipiFrameBufferPixelBpp` -/
  bpp : BitVec 32
  font5x12 : Nat → BitVec 32

section Globals

variable (g : Geometry)

def gWidth : BitVec 64 := g.width.setWidth 64

def gHeight : BitVec 64 := g.height.setWidth 64

def gBpp : BitVec 64 := g.bpp.setWidth 64

end Globals

/-- `FONT_WIDTH` -/
def fontWidth : Nat := 5

/-- `FONT_HEIGHT` -/
def fontHeight : Nat := 12

/-- `SCALE_FACTOR` -/
def scaleFactor : BitVec 32 := 1#32

def fbBgra8888Black : BitVec 64 := 0xff000000#64

def fbBgra8888White : BitVec 64 := 0xffffffff#64

def fbBgra8888Yellow : BitVec 64 := 0xffffff00#64

/-- `enum FbConMsgType` -/
inductive FbConMsgType where
  | commonMsg
  | unlockTitleMsg
  | titleMsg
  | subtitleMsg
  | yellowMsg
  | orangeMsg
  | redMsg
  | greenMsg
  | selectMsgBgColor
  deriving DecidableEq, Repr

/-- The globals of the library and the memory.  `stored` is not in the source: it lists the
    addresses to which pixel bytes have been stored. -/
structure Console where
  /-- `DisplayMemoryRegion.Address` -/
  region : Addr
  /-- `p_Position` -/
  position : Addr
  /-- `m_MaxPosition` -/
  maxX : BitVec 64
  maxY : BitVec 64
  /-- `m_Color` -/
  foreground : BitVec 64
  background : BitVec 64
  /-- `m_Initialized` -/
  initialized : Bool
  mem : Mem
  stored : List Addr

/-- `p_Position->x` -/
def Console.x (s : Console) : BitVec 64 := read64 s.mem s.position

/-- `p_Position->y` -/
def Console.y (s : Console) : BitVec 64 := read64 s.mem (s.position + 8#64)

/-- `p_Position->x = v` -/
def Console.setX (s : Console) (v : BitVec 64) : Console :=
  { s with mem := write64 s.mem s.position v }

/-- `p_Position->y = v` -/
def Console.setY (s : Console) (v : BitVec 64) : Console :=
  { s with mem := write64 s.mem (s.position + 8#64) v }

/-! ## Pixels -/

/-- A pixel pointer, and what it has stored. -/
structure Pen where
  ptr : Addr
  mem : Mem
  stored : List Addr

/-- `*ptr = v; ptr++` -/
def Pen.storeByte (p : Pen) (v : Byte) : Pen :=
  ⟨p.ptr + 1#64, write8 p.mem p.ptr v, p.ptr :: p.stored⟩

/-- `ptr += n` -/
def Pen.skip (p : Pen) (n : BitVec 64) : Pen := { p with ptr := p.ptr + n }

/-- The bytes of a colour, which is shifted by 8 bits a turn. -/
def storePixel {n : Nat} (color : BitVec n) (bytes : Nat) (p : Pen) : Pen :=
  forTurns (fun k p => p.storeByte ((color >>> (8 * k)).setWidth 8)) bytes p

/-- `ResetFb` -/
def resetFb (g : Geometry) (s : Console) : Console :=
  let pen := forTurns (fun _ => forTurns (fun _ => storePixel fbBgra8888Black
    (gBpp g / 8#64).toNat) (gHeight g).toNat) (gWidth g).toNat ⟨s.region, s.mem, s.stored⟩
  { s with mem := pen.mem, stored := pen.stored }

section Glyph

variable (stride bpp scale : BitVec 32)

/-- The end of a row: the pointer goes on to the same column of the next one. -/
def nextRow (p : Pen) : Pen := p.skip ((stride * bpp).setWidth 64)

/-- Half of the background: six rows of a glyph. -/
def backgroundHalf (color : BitVec 32) (p : Pen) : Pen :=
  forTurns (fun _ => forTurns (fun _ p => nextRow stride bpp
    (forTurns (fun _ => forTurns (fun _ => storePixel color bpp.toNat) scale.toNat) fontWidth p))
      scale.toNat) (fontHeight / 2) p

/-- One pixel of a glyph: the lowest bit of `data` says whether it is stored. -/
def glyphColumn (color : BitVec 32) (s : BitVec 32 × Pen) : BitVec 32 × Pen :=
  (s.1 >>> 1,
    if s.1 &&& 1#32 ≠ 0#32 then forTurns (fun _ => storePixel color bpp.toNat) scale.toNat s.2
    else forTurns (fun _ p => p.skip (bpp.setWidth 64)) scale.toNat s.2)

/-- One row of a glyph. -/
def glyphRow (color : BitVec 32) (s : BitVec 32 × Pen) : BitVec 32 × Pen :=
  let s := forTurns (fun _ => glyphColumn bpp scale color) fontWidth s
  (s.1, nextRow stride bpp s.2)

/-- Half of a glyph; the rows of one `y` begin with the same bits. -/
def glyphHalf (color : BitVec 32) (data : BitVec 32) (p : Pen) : Pen :=
  (forTurns (fun _ (s : BitVec 32 × Pen) =>
    forTurns (fun _ s' => glyphRow stride bpp scale color (s.1, s'.2)) scale.toNat s)
      (fontHeight / 2) (data, p)).2

/-- `FbConDrawglyph`, with `pixels` the pointer of the pen. -/
def fbConDrawglyph (fgColor bgColor : BitVec 32) (glyph : Nat → BitVec 32) (p : Pen) : Pen :=
  let pixels := p.ptr
  let stride := stride - BitVec.ofNat 32 fontWidth * scale
  let p := backgroundHalf stride bpp scale bgColor p
  let p := backgroundHalf stride bpp scale bgColor p
  let p := { p with ptr := pixels }
  let p := glyphHalf stride bpp scale fgColor (glyph 0) p
  glyphHalf stride bpp scale fgColor (glyph 1) p

end Glyph

/-! ## Characters -/

/-- The code at `newline:`; `true` is `goto paint`. -/
def newline (g : Geometry) (scale : BitVec 32) (s : Console) : Bool × Console :=
  let s := s.setY (s.y + scale.setWidth 64)
  let s := s.setX 0#64
  if (s.maxY - scale.setWidth 64).sle s.y then
    let s := resetFb g s
    (true, s.setY 0#64)
  else (false, s)

/-- `FbConDrawglyph` for the character at the cursor. -/
def drawChar (g : Geometry) (c : Byte) (scale : BitVec 32) (s : Console) : Console :=
  let pixels := s.region
  let pixels := pixels + s.y * ((gBpp g / 8#64) * BitVec.ofNat 64 fontHeight * gWidth g)
  let pixels := pixels
    + s.x * scale.setWidth 64 * ((gBpp g / 8#64) * BitVec.ofNat 64 (fontWidth + 1))
  let pen := fbConDrawglyph ((gWidth g).setWidth 32) ((gBpp g / 8#64).setWidth 32) scale
    (s.foreground.setWidth 32) (s.background.setWidth 32)
    (fun i => g.font5x12 ((c.toNat - 32) * 2 + i)) ⟨pixels, s.mem, s.stored⟩
  { s with mem := pen.mem, stored := pen.stored }

/-- The code behind the call of `FbConDrawglyph`: `p_Position->x++`, and `goto newline` at the
    end of the row. -/
def advance (g : Geometry) (scale : BitVec 32) (s : Console) : Bool × Console :=
  let s := s.setX (s.x + 1#64)
  if (((s.maxX.sdiv (scale.setWidth 64)).setWidth 32).signExtend 64).sle s.x then
    newline g scale s
  else (false, s)

/-- The code at `paint:`, up to a `return` or to `goto paint` (`true`). -/
def paint (g : Geometry) (c : Byte) (type : FbConMsgType) (scale : BitVec 32) (s : Console) :
    Bool × Console :=
  if 127#8 < c then (false, s)
  else if c < 32#8 then
    if c = 0x0A#8 then newline g scale s
    else if c = 0x0D#8 then (false, s.setX 0#64)
    else (false, s)
  else if s.x = 0#64 ∧ c = 0x20#8 ∧ type ≠ .subtitleMsg ∧ type ≠ .titleMsg then (false, s)
  else advance g scale (drawChar g c scale s)

/-- `FbConPutCharWithFactor`; `none` when it has not returned after `gotos` jumps back to
    `paint`. -/
def fbConPutCharWithFactor (g : Geometry) (c : Byte) (type : FbConMsgType) (scale : BitVec 32) :
    Nat → Console → Option Console
  | 0, s => if (paint g c type scale s).1 then none else some (paint g c type scale s).2
  | gotos + 1, s =>
      if (paint g c type scale s).1 then
        fbConPutCharWithFactor g c type scale gotos (paint g c type scale s).2
      else some (paint g c type scale s).2

/-- `while (Buffer < Final) FbConPutCharWithFactor(*Buffer++, FBCON_COMMON_MSG, SCALE_FACTOR)` -/
def putChars (g : Geometry) (gotos : Nat) : List Byte → Console → Option Console
  | [], s => some s
  | c :: buffer, s =>
      (fbConPutCharWithFactor g c .commonMsg scaleFactor gotos s).bind (putChars g gotos buffer)

def serialPortWrite (g : Geometry) (gotos : Nat) (buffer : List Byte) (s : Console) :
    Option Console := putChars g gotos buffer s

def serialPortWriteCritical (g : Geometry) (gotos : Nat) (buffer : List Byte) (s : Console) :
    Option Console :=
  let currentForeground := s.foreground
  (putChars g gotos buffer { s with foreground := fbBgra8888Yellow }).map fun s =>
    { s with foreground := currentForeground }

/-- `FbConReset` -/
def fbConReset (g : Geometry) (s : Console) : Console :=
  { s with
    maxX := gWidth g / BitVec.ofNat 64 (fontWidth + 1)
    maxY := (gHeight g - 1#64) / BitVec.ofNat 64 fontHeight
    foreground := fbBgra8888White
    background := fbBgra8888Black }

/-- `SerialPortInitialize`, with the outcome of
    `LocateMemoryMapAreaByName("Display Reserved", ..)`.  The product of the three constants
    has 32 bits. -/
def serialPortInitialize (g : Geometry) (display : Except Status Addr) (s : Console) :
    Status × Console :=
  if s.initialized then (.success, s)
  else
    match display with
    | .error status => (status, s)
    | .ok region =>
        let s := { s with
          region := region
          position := region + (g.width * g.height * g.bpp / 8#32).setWidth 64 }
        (.success, { fbConReset g s with initialized := true })

end FrameBuffer
