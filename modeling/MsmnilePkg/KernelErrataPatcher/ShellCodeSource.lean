/-
  MsmnilePkg.KernelErrataPatcher.ShellCodeSource

  The assembly text from which the ACTLR_EL1 and the AMCNTENSET0_EL0 blocks
  are to be built: the ShellCode.WithoutLoop.S of each, and the programs it
  assembles to.
-/

import MsmnilePkg.KernelErrataPatcher.ShellCode

namespace KernelErrataPatcher

open A64

/-- The labels of the two files. -/
inductive SourceLabel where
  | payload | dead | l5 | l6 | l7 | l8 | l9 | l13
  deriving DecidableEq

/-- ACTLR_EL1/ShellCode.WithoutLoop.S -/
def actlrEl1Source : List (Line SourceLabel) :=
  [.instr (movX 12 0), .instr (ldrXPre 8 12 16), .instr (cmpX 8 12), .bcond .eq .payload,
   .instr (movW 6 4128), .instr (movkW 6 0xD538 16),
   .instr (movW 7 4128), .instr (movkW 7 0xD518 16),
   .instr (movW 11 8223), .instr (movkW 11 0xD503 16),
   .instr (movW 10 61407), .instr (movkW 10 0x2847 16),
   .instr (movW 9 (BitVec.ofInt 32 (-763363328))), .b .l9,
   .label .l13,
   .instr (andW 3 3 10), .instr (orrW 3 3 9), .instr (strW 3 2 0),
   .label .l7,
   .instr (addXi 2 2 4), .instr (cmpX 2 4), .bcond .cs .l5,
   .label .l8,
   .instr (ldrW 3 2 0), .instr (bicsW zr 6 3), .bcond .eq .l13,
   .instr (bicsW zr 7 3), .bcond .ne .l7, .instr (strW 11 2 0), .b .l7,
   .label .l5,
   .instr (ldrX 8 8 0), .instr (cmpX 8 12), .b .payload,
   .label .l9,
   .instr (ldrX 2 8 48), .instr (ldrW 4 8 64), .instr (addX 4 4 2), .instr (cmpX 2 4),
   .bcond .cc .l8, .b .l5,
   .label .dead,
   .b .dead,
   -- `.align 4` is an alignment to 16 bytes.
   .align 4,
   .label .payload]

/-- AMCNTENSET0_EL0/ShellCode.WithoutLoop.S -/
def amcntenset0El0Source : List (Line SourceLabel) :=
  [.instr (movX 9 0), .instr (ldrXPre 6 9 16), .instr (cmpX 6 9), .bcond .eq .payload,
   .instr (movW 5 53920), .instr (movkW 5 0xD53B 16),
   .instr (movW 8 11615), .instr (movkW 8 0x2844 16),
   .instr (movW 7 (BitVec.ofInt 32 (-763363328))), .b .l8,
   .label .l6,
   .instr (addXi 2 2 4), .instr (cmpX 2 4), .bcond .cs .l5,
   .label .l7,
   .instr (ldrW 3 2 0), .instr (bicsW zr 5 3), .bcond .ne .l6,
   .instr (andW 3 3 8), .instr (orrW 3 3 7), .instr (strW 3 2 0), .b .l6,
   .label .l5,
   .instr (ldrX 6 6 0), .instr (cmpX 6 9), .b .payload,
   .label .l8,
   .instr (ldrX 2 6 48), .instr (ldrW 4 6 64), .instr (addX 4 4 2), .instr (cmpX 2 4),
   .bcond .cc .l7, .b .l5,
   .label .dead,
   .b .dead,
   .align 4,
   .label .payload]

/-- What `actlrEl1Source` assembles to. -/
def actlrEl1SourceProgram : List Instr :=
  [movX 12 0, ldrXPre 8 12 16, cmpX 8 12, .bcond .eq (off 148),
   movW 6 0x1020, movkW 6 0xD538 16, movW 7 0x1020, movkW 7 0xD518 16,
   movW 11 0x201F, movkW 11 0xD503 16, movW 10 0xEFDF, movkW 10 0x2847 16,
   movW 9 0xD2800000, .b (off 68),
   -- 14: the word reads ACTLR_EL1
   andW 3 3 10, orrW 3 3 9, strW 3 2 0,
   -- 17: next word
   addXi 2 2 4, cmpX 2 4, .bcond .cs (off 32),
   -- 20: test the word at x2
   ldrW 3 2 0, bicsW zr 6 3, .bcond .eq (off (-32)),
   bicsW zr 7 3, .bcond .ne (off (-28)), strW 11 2 0, .b (off (-36)),
   -- 27: end of the image
   ldrX 8 8 0, cmpX 8 12, .b (off 44),
   -- 30: the first image
   ldrX 2 8 48, ldrW 4 8 64, addX 4 4 2, cmpX 2 4, .bcond .cc (off (-56)), .b (off (-32)),
   .b (off 0), .nop, .nop, .nop]

/-- What `amcntenset0El0Source` assembles to. -/
def amcntenset0El0SourceProgram : List Instr :=
  [movX 9 0, ldrXPre 6 9 16, cmpX 6 9, .bcond .eq (off 116),
   movW 5 0xD2A0, movkW 5 0xD53B 16, movW 8 0x2D5F, movkW 8 0x2844 16, movW 7 0xD2800000,
   .b (off 56),
   -- 10: next word
   addXi 2 2 4, cmpX 2 4, .bcond .cs (off 32),
   -- 13: test the word at x2
   ldrW 3 2 0, bicsW zr 5 3, .bcond .ne (off (-20)),
   andW 3 3 8, orrW 3 3 7, strW 3 2 0, .b (off (-36)),
   -- 20: end of the image
   ldrX 6 6 0, cmpX 6 9, .b (off 40),
   -- 23: the first image
   ldrX 2 6 48, ldrW 4 6 64, addX 4 4 2, cmpX 2 4, .bcond .cc (off (-56)), .b (off (-32)),
   .b (off 0), .nop, .nop]

theorem actlrEl1Source_assemble : assemble actlrEl1Source = some actlrEl1SourceProgram := by
  decide +kernel

theorem amcntenset0El0Source_assemble :
    assemble amcntenset0El0Source = some amcntenset0El0SourceProgram := by decide +kernel

end KernelErrataPatcher
