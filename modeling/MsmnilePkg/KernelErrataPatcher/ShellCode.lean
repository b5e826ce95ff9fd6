/-
  MsmnilePkg.KernelErrataPatcher.ShellCode

  `OslArm64TransferToKernelShellCode` of KernelErrataPatcherLib.c: the machine
  code that is copied in front of the OS loader's transfer to the kernel.

  The array is the concatenation of one block per erratum the platform has.
  Every block comes with the program its bytes decode to; the proofs about a
  block walk through that program.
-/

import MsmnilePkg.Lib.A64.Asm

namespace KernelErrataPatcher

open ByteMem A64

/-! ## The embedded bytes -/

/-- `// ACTLR_EL1` -/
def actlrEl1Block : List Byte :=
  [0xEB, 0x03, 0x00, 0xAA, 0x68, 0x0D, 0x41, 0xF8, 0x1F, 0x01, 0x0B, 0xEB,
   0x20, 0x04, 0x00, 0x54, 0x06, 0x05, 0x82, 0x52, 0x06, 0xA7, 0xBA, 0x72,
   0x07, 0xFB, 0x9D, 0x52, 0xE7, 0x5C, 0xA5, 0x72, 0xEA, 0x03, 0x84, 0x52,
   0x6A, 0xA0, 0xBA, 0x72, 0x09, 0x01, 0x80, 0x52, 0x09, 0x50, 0xBA, 0x72,
   0x10, 0x00, 0x00, 0x14, 0x49, 0x00, 0x00, 0xB9, 0x42, 0x10, 0x00, 0x91,
   0x5F, 0x00, 0x04, 0xEB, 0x22, 0x01, 0x00, 0x54, 0x43, 0x00, 0x40, 0xB9,
   0x7F, 0x00, 0x06, 0x6B, 0x40, 0xFF, 0xFF, 0x54, 0x63, 0x00, 0x07, 0x0B,
   0x7F, 0x04, 0x00, 0x71, 0x08, 0xFF, 0xFF, 0x54, 0x4A, 0x00, 0x00, 0xB9,
   0xF6, 0xFF, 0xFF, 0x17, 0x08, 0x01, 0x40, 0xF9, 0x1F, 0x01, 0x0B, 0xEB,
   0x09, 0x00, 0x00, 0x14, 0x02, 0x19, 0x40, 0xF9, 0x04, 0x41, 0x40, 0xB9,
   0x84, 0x00, 0x02, 0x8B, 0x5F, 0x00, 0x04, 0xEB, 0x23, 0xFE, 0xFF, 0x54,
   0xF8, 0xFF, 0xFF, 0x17, 0x00, 0x00, 0x00, 0x14, 0x1F, 0x20, 0x03, 0xD5]

/-- `// AMCNTENSET0_EL0` -/
def amcntenset0El0Block : List Byte :=
  [0xE8, 0x03, 0x00, 0xAA, 0x06, 0x0D, 0x41, 0xF8, 0xDF, 0x00, 0x08, 0xEB,
   0x20, 0x03, 0x00, 0x54, 0x05, 0x55, 0x9A, 0x52, 0x65, 0xA7, 0xBA, 0x72,
   0x07, 0x01, 0x80, 0x52, 0x07, 0x50, 0xBA, 0x72, 0x0C, 0x00, 0x00, 0x14,
   0x42, 0x10, 0x00, 0x91, 0x5F, 0x00, 0x04, 0xEB, 0xC2, 0x00, 0x00, 0x54,
   0x43, 0x00, 0x40, 0xB9, 0x7F, 0x00, 0x05, 0x6B, 0x61, 0xFF, 0xFF, 0x54,
   0x47, 0x00, 0x00, 0xB9, 0xF9, 0xFF, 0xFF, 0x17, 0xC6, 0x00, 0x40, 0xF9,
   0xDF, 0x00, 0x08, 0xEB, 0x09, 0x00, 0x00, 0x14, 0xC2, 0x18, 0x40, 0xF9,
   0xC4, 0x40, 0x40, 0xB9, 0x84, 0x00, 0x02, 0x8B, 0x5F, 0x00, 0x04, 0xEB,
   0x83, 0xFE, 0xFF, 0x54, 0xF8, 0xFF, 0xFF, 0x17, 0x00, 0x00, 0x00, 0x14,
   0x1F, 0x20, 0x03, 0xD5]

/-- `// IRM` -/
def irmBlock : List Byte :=
  [0xEA, 0x03, 0x00, 0xAA, 0x49, 0x0D, 0x41, 0xF8, 0x3F, 0x01, 0x0A, 0xEB,
   0xA0, 0x0C, 0x00, 0x54, 0x03, 0x00, 0x80, 0xD2, 0x04, 0x00, 0x80, 0xD2,
   0x48, 0x75, 0x99, 0x52, 0x08, 0xA3, 0xBA, 0x72, 0x67, 0x00, 0x80, 0xD2,
   0x27, 0x01, 0xA0, 0xF2, 0xC7, 0x02, 0xC0, 0xF2, 0x27, 0x01, 0xE0, 0xF2,
   0x04, 0x00, 0x00, 0x14, 0x29, 0x01, 0x40, 0xF9, 0x3F, 0x01, 0x0A, 0xEB,
   0x13, 0x00, 0x00, 0x14, 0x22, 0x19, 0x40, 0xF9, 0x26, 0x41, 0x40, 0xB9,
   0xC6, 0x00, 0x02, 0x8B, 0x5F, 0x00, 0x06, 0xEB, 0x22, 0xFF, 0xFF, 0x54,
   0x45, 0x00, 0x40, 0xB9, 0xBF, 0x00, 0x08, 0x6B, 0x84, 0x10, 0x82, 0x9A,
   0x45, 0x00, 0x40, 0xF9, 0xBF, 0x00, 0x07, 0xEB, 0x63, 0x10, 0x82, 0x9A,
   0x9F, 0x00, 0x00, 0xF1, 0x64, 0x18, 0x40, 0xFA, 0x01, 0xFE, 0xFF, 0x54,
   0x42, 0x10, 0x00, 0x91, 0x5F, 0x00, 0x06, 0xEB, 0xA3, 0xFE, 0xFF, 0x54,
   0xEC, 0xFF, 0xFF, 0x17, 0x9F, 0x00, 0x00, 0xF1, 0x64, 0x18, 0x40, 0xFA,
   0x80, 0x08, 0x00, 0x54, 0x62, 0xA0, 0x02, 0xD1, 0x42, 0x00, 0x04, 0xCB,
   0x42, 0x6C, 0x02, 0x53, 0x05, 0x80, 0xB2, 0x52, 0x42, 0x00, 0x05, 0x2A,
   0x82, 0x00, 0x00, 0xB9, 0xA2, 0x7F, 0x8F, 0xD2, 0xE2, 0x37, 0xB5, 0xF2,
   0xA2, 0x7F, 0xC0, 0xF2, 0x02, 0x20, 0xF2, 0xF2, 0x62, 0x80, 0x15, 0xF8,
   0x42, 0x49, 0x80, 0xD2, 0x02, 0xC8, 0xB6, 0xF2, 0x42, 0x29, 0xDF, 0xF2,
   0xE2, 0x4A, 0xF2, 0xF2, 0x62, 0x00, 0x16, 0xF8, 0x42, 0x29, 0x80, 0xD2,
   0x02, 0x48, 0xB6, 0xF2, 0xC2, 0x7E, 0xC0, 0xF2, 0x42, 0x41, 0xF5, 0xF2,
   0x62, 0x80, 0x16, 0xF8, 0x22, 0x15, 0x80, 0xD2, 0x02, 0xA7, 0xBA, 0xF2,
   0x22, 0xA5, 0xC1, 0xF2, 0x02, 0x4F, 0xF2, 0xF2, 0x62, 0x00, 0x17, 0xF8,
   0x82, 0x02, 0x80, 0xD2, 0x02, 0x50, 0xBA, 0xF2, 0xA2, 0x22, 0xC0, 0xF2,
   0x02, 0x50, 0xEA, 0xF2, 0x62, 0x80, 0x17, 0xF8, 0xE2, 0x53, 0x84, 0xD2,
   0x22, 0x69, 0xBD, 0xF2, 0x02, 0x14, 0xC0, 0xF2, 0x02, 0x80, 0xEA, 0xF2,
   0x62, 0x00, 0x18, 0xF8, 0x02, 0xD1, 0x97, 0xD2, 0x02, 0x6E, 0xBA, 0xF2,
   0x42, 0x59, 0xC0, 0xF2, 0x02, 0x41, 0xF5, 0xF2, 0x62, 0x80, 0x18, 0xF8,
   0x42, 0x75, 0x99, 0xD2, 0x02, 0xA3, 0xBA, 0xF2, 0xE2, 0xF3, 0xC7, 0xF2,
   0x62, 0xA0, 0xFA, 0xF2, 0x62, 0x00, 0x19, 0xF8, 0x82, 0xD2, 0x80, 0xD2,
   0x02, 0x20, 0xB2, 0xF2, 0xA2, 0xD6, 0xC0, 0xF2, 0x02, 0x20, 0xEA, 0xF2,
   0x62, 0x80, 0x19, 0xF8, 0xA2, 0xE2, 0x9F, 0xD2, 0xE2, 0xBF, 0xA6, 0xF2,
   0x42, 0x00, 0xC0, 0xF2, 0x02, 0x80, 0xE2, 0xF2, 0x62, 0x00, 0x1A, 0xF8,
   0x42, 0x75, 0x99, 0xD2, 0x02, 0xA3, 0xBA, 0xF2, 0xA2, 0x7F, 0xCF, 0xF2,
   0x22, 0x18, 0xF5, 0xF2, 0x62, 0x80, 0x1A, 0xF8, 0x02, 0x78, 0x80, 0x52,
   0xE2, 0xCB, 0xBA, 0x72, 0x62, 0x00, 0x1B, 0xB8, 0x1F, 0x20, 0x03, 0xD5,
   0x1F, 0x20, 0x03, 0xD5, 0x1F, 0x20, 0x03, 0xD5]

/-- `// IRM_X8` -/
def irmX8Block : List Byte :=
  [0xEA, 0x03, 0x00, 0xAA, 0x49, 0x0D, 0x41, 0xF8, 0x3F, 0x01, 0x0A, 0xEB,
   0xA0, 0x0C, 0x00, 0x54, 0x03, 0x00, 0x80, 0xD2, 0x04, 0x00, 0x80, 0xD2,
   0x08, 0x75, 0x99, 0x52, 0x08, 0xA3, 0xBA, 0x72, 0x67, 0x00, 0x80, 0xD2,
   0x27, 0x01, 0xA0, 0xF2, 0xC7, 0x02, 0xC0, 0xF2, 0x27, 0x01, 0xE0, 0xF2,
   0x04, 0x00, 0x00, 0x14, 0x29, 0x01, 0x40, 0xF9, 0x3F, 0x01, 0x0A, 0xEB,
   0x13, 0x00, 0x00, 0x14, 0x22, 0x19, 0x40, 0xF9, 0x26, 0x41, 0x40, 0xB9,
   0xC6, 0x00, 0x02, 0x8B, 0x5F, 0x00, 0x06, 0xEB, 0x22, 0xFF, 0xFF, 0x54,
   0x45, 0x00, 0x40, 0xB9, 0xBF, 0x00, 0x08, 0x6B, 0x84, 0x10, 0x82, 0x9A,
   0x45, 0x00, 0x40, 0xF9, 0xBF, 0x00, 0x07, 0xEB, 0x63, 0x10, 0x82, 0x9A,
   0x9F, 0x00, 0x00, 0xF1, 0x64, 0x18, 0x40, 0xFA, 0x01, 0xFE, 0xFF, 0x54,
   0x42, 0x10, 0x00, 0x91, 0x5F, 0x00, 0x06, 0xEB, 0xA3, 0xFE, 0xFF, 0x54,
   0xEC, 0xFF, 0xFF, 0x17, 0x9F, 0x00, 0x00, 0xF1, 0x64, 0x18, 0x40, 0xFA,
   0x80, 0x08, 0x00, 0x54, 0x62, 0xA0, 0x02, 0xD1, 0x42, 0x00, 0x04, 0xCB,
   0x42, 0x6C, 0x02, 0x53, 0x05, 0x80, 0xB2, 0x52, 0x42, 0x00, 0x05, 0x2A,
   0x82, 0x00, 0x00, 0xB9, 0xA2, 0x7F, 0x8F, 0xD2, 0xE2, 0x37, 0xB5, 0xF2,
   0xA2, 0x7F, 0xC0, 0xF2, 0x02, 0x20, 0xF2, 0xF2, 0x62, 0x80, 0x15, 0xF8,
   0x02, 0x49, 0x80, 0xD2, 0x02, 0xC8, 0xB6, 0xF2, 0x02, 0x21, 0xDF, 0xF2,
   0xE2, 0x4A, 0xF2, 0xF2, 0x62, 0x00, 0x16, 0xF8, 0x02, 0x21, 0x80, 0xD2,
   0x02, 0x48, 0xB6, 0xF2, 0xC2, 0x7E, 0xC0, 0xF2, 0x02, 0x41, 0xF5, 0xF2,
   0x62, 0x80, 0x16, 0xF8, 0x22, 0x15, 0x80, 0xD2, 0x02, 0xA7, 0xBA, 0xF2,
   0x22, 0xA5, 0xC1, 0xF2, 0x02, 0x4F, 0xF2, 0xF2, 0x62, 0x00, 0x17, 0xF8,
   0x82, 0x02, 0x80, 0xD2, 0x02, 0x50, 0xBA, 0xF2, 0xA2, 0x22, 0xC0, 0xF2,
   0x02, 0x50, 0xEA, 0xF2, 0x62, 0x80, 0x17, 0xF8, 0xE2, 0x53, 0x84, 0xD2,
   0x22, 0x69, 0xBD, 0xF2, 0x02, 0x14, 0xC0, 0xF2, 0x02, 0x80, 0xEA, 0xF2,
   0x62, 0x00, 0x18, 0xF8, 0x42, 0xD1, 0x97, 0xD2, 0x02, 0x6E, 0xBA, 0xF2,
   0x02, 0x59, 0xC0, 0xF2, 0x42, 0x41, 0xF5, 0xF2, 0x62, 0x80, 0x18, 0xF8,
   0x02, 0x75, 0x99, 0xD2, 0x02, 0xA3, 0xBA, 0xF2, 0xE2, 0xF3, 0xC7, 0xF2,
   0x62, 0xA0, 0xFA, 0xF2, 0x62, 0x00, 0x19, 0xF8, 0x82, 0xD2, 0x80, 0xD2,
   0x02, 0x20, 0xB2, 0xF2, 0xA2, 0xD6, 0xC0, 0xF2, 0x02, 0x20, 0xEA, 0xF2,
   0x62, 0x80, 0x19, 0xF8, 0xA2, 0xE2, 0x9F, 0xD2, 0xE2, 0xBF, 0xA6, 0xF2,
   0x42, 0x00, 0xC0, 0xF2, 0x02, 0x80, 0xE2, 0xF2, 0x62, 0x00, 0x1A, 0xF8,
   0x02, 0x75, 0x99, 0xD2, 0x02, 0xA3, 0xBA, 0xF2, 0xA2, 0x7F, 0xCF, 0xF2,
   0x22, 0x18, 0xF5, 0xF2, 0x62, 0x80, 0x1A, 0xF8, 0x02, 0x78, 0x80, 0x52,
   0xE2, 0xCB, 0xBA, 0x72, 0x62, 0x00, 0x1B, 0xB8, 0x1F, 0x20, 0x03, 0xD5,
   0x1F, 0x20, 0x03, 0xD5, 0x1F, 0x20, 0x03, 0xD5]

/-- `// PSCI_MEMPROTECT` -/
def psciMemprotectBlock : List Byte :=
  [0xEC, 0x03, 0x00, 0xAA, 0x88, 0x0D, 0x41, 0xF8, 0x1F, 0x01, 0x0C, 0xEB,
   0x20, 0x06, 0x00, 0x54, 0xA6, 0x5A, 0x80, 0xD2, 0x06, 0x00, 0xA3, 0xF2,
   0x66, 0x00, 0xC0, 0xF2, 0x06, 0x50, 0xFA, 0xF2, 0x67, 0x00, 0x80, 0xD2,
   0x07, 0x50, 0xBA, 0xF2, 0x47, 0x00, 0xC0, 0xF2, 0x07, 0x50, 0xFA, 0xF2,
   0x2A, 0x00, 0x80, 0xD2, 0x0A, 0x50, 0xBA, 0xF2, 0x0A, 0x48, 0xC0, 0xF2,
   0x0A, 0x00, 0xE3, 0xF2, 0x0B, 0x78, 0x80, 0x52, 0xEB, 0xCB, 0xBA, 0x72,
   0x49, 0x00, 0x80, 0xD2, 0x09, 0x50, 0xBA, 0xF2, 0x29, 0x00, 0xC0, 0xF2,
   0x09, 0x50, 0xFA, 0xF2, 0x17, 0x00, 0x00, 0x14, 0x43, 0x04, 0x40, 0xF9,
   0x7F, 0x00, 0x09, 0xEB, 0xE0, 0x01, 0x00, 0x54, 0x42, 0x10, 0x00, 0x91,
   0x5F, 0x00, 0x05, 0xEB, 0xC2, 0x01, 0x00, 0x54, 0x43, 0x00, 0x40, 0xF9,
   0x7F, 0x00, 0x06, 0xEB, 0x00, 0xFF, 0xFF, 0x54, 0x7F, 0x00, 0x07, 0xEB,
   0x21, 0xFF, 0xFF, 0x54, 0x43, 0x04, 0x40, 0xF9, 0x63, 0xF8, 0x58, 0x92,
   0x7F, 0x00, 0x0A, 0xEB, 0xA1, 0xFE, 0xFF, 0x54, 0x4B, 0x40, 0x1E, 0xB8,
   0xF3, 0xFF, 0xFF, 0x17, 0x4B, 0x00, 0x1E, 0xB8, 0xF1, 0xFF, 0xFF, 0x17,
   0x08, 0x01, 0x40, 0xF9, 0x1F, 0x01, 0x0C, 0xEB, 0x08, 0x00, 0x00, 0x14,
   0x02, 0x19, 0x40, 0xF9, 0x05, 0x41, 0x40, 0xB9, 0xA5, 0x00, 0x02, 0x8B,
   0x5F, 0x00, 0x05, 0xEB, 0x83, 0xFD, 0xFF, 0x54, 0xF8, 0xFF, 0xFF, 0x17,
   0x00, 0x00, 0x00, 0x14]


/-- Which errata the platform's build switches on. -/
structure Errata where
  /-- `PLATFORM_HAS_ACTLR_EL1_UNIMPLEMENTED_ERRATA` -/
  actlrEl1 : Bool
  /-- `PLATFORM_HAS_AMCNTENSET0_EL0_UNIMPLEMENTED_ERRATA` -/
  amcntenset0El0 : Bool
  /-- `PLATFORM_HAS_GIC_V3_WITHOUT_IRM_FLAG_SUPPORT_ERRATA` -/
  gicV3WithoutIrm : Bool
  /-- `PLATFORM_HAS_PSCI_MEMPROTECT_FAILING_ERRATA` -/
  psciMemprotect : Bool
  deriving DecidableEq, Repr

/-- `OslArm64TransferToKernelShellCode` -/
def oslArm64TransferToKernelShellCode (e : Errata) : List Byte :=
  (if e.actlrEl1 then actlrEl1Block else []) ++
  (if e.amcntenset0El0 then amcntenset0El0Block else []) ++
  (if e.gicV3WithoutIrm then irmBlock ++ irmX8Block else []) ++
  (if e.psciMemprotect then psciMemprotectBlock else [])

/-- The little-endian words of a byte array. -/
def wordsOf : List Byte → List (BitVec 32)
  | b0 :: b1 :: b2 :: b3 :: rest => word32 b0 b1 b2 b3 :: wordsOf rest
  | _ => []

/-! ## The programs of the blocks -/

/-- What `actlrEl1Block` decodes to. -/
def actlrEl1Program : List Instr :=
  [movX 11 0, ldrXPre 8 11 16, cmpX 8 11, .bcond .eq (off 132),
   movW 6 0x1028, movkW 6 0xD538 16, movW 7 0xEFD8, movkW 7 0x2AE7 16,
   movW 10 0x201F, movkW 10 0xD503 16, movW 9 0x8, movkW 9 0xD280 16, .b (off 64),
   -- 13: the word reads ACTLR_EL1 into x8
   strW 9 2 0,
   -- 14: next word
   addXi 2 2 4, cmpX 2 4, .bcond .cs (off 36),
   -- 17: test the word at x2
   ldrW 3 2 0, cmpW 3 6, .bcond .eq (off (-24)),
   addW 3 3 7, cmpWi 3 1, .bcond .hi (off (-32)), strW 10 2 0, .b (off (-40)),
   -- 25: end of the image
   ldrX 8 8 0, cmpX 8 11, .b (off 36),
   -- 28: the first image
   ldrX 2 8 48, ldrW 4 8 64, addX 4 4 2, cmpX 2 4, .bcond .cc (off (-60)), .b (off (-32)),
   .b (off 0), .nop]

/-- What `amcntenset0El0Block` decodes to. -/
def amcntenset0El0Program : List Instr :=
  [movX 8 0, ldrXPre 6 8 16, cmpX 6 8, .bcond .eq (off 100),
   movW 5 0xD2A8, movkW 5 0xD53B 16, movW 7 0x8, movkW 7 0xD280 16, .b (off 48),
   -- 9: next word
   addXi 2 2 4, cmpX 2 4, .bcond .cs (off 24),
   -- 12: test the word at x2
   ldrW 3 2 0, cmpW 3 5, .bcond .ne (off (-20)), strW 7 2 0, .b (off (-28)),
   -- 17: end of the image
   ldrX 6 6 0, cmpX 6 8, .b (off 36),
   -- 20: the first image
   ldrX 2 6 48, ldrW 4 6 64, addX 4 4 2, cmpX 2 4, .bcond .cc (off (-48)), .b (off (-32)),
   .b (off 0), .nop]

/-- What `psciMemprotectBlock` decodes to. -/
def psciMemprotectProgram : List Instr :=
  [movX 12 0, ldrXPre 8 12 16, cmpX 8 12, .bcond .eq (off 196),
   movXi 6 0x2D5, movkX 6 0x1800 16, movkX 6 0x3 32, movkX 6 0xD280 48,
   movXi 7 0x3, movkX 7 0xD280 16, movkX 7 0x2 32, movkX 7 0xD280 48,
   movXi 10 0x1, movkX 10 0xD280 16, movkX 10 0x240 32, movkX 10 0x1800 48,
   movW 11 0x3C0, movkW 11 0xD65F 16,
   movXi 9 0x2, movkX 9 0xD280 16, movkX 9 0x1 32, movkX 9 0xD280 48, .b (off 92),
   -- 23: the second doubleword of the first pattern
   ldrX 3 2 8, cmpX 3 9, .bcond .eq (off 60),
   -- 26: next word
   addXi 2 2 4, cmpX 2 5, .bcond .cs (off 56),
   -- 29: test the doubleword at x2
   ldrX 3 2 0, cmpX 3 6, .bcond .eq (off (-32)), cmpX 3 7, .bcond .ne (off (-28)),
   -- 34: the second doubleword of the second pattern, with bit 39 cleared
   ldrX 3 2 8, andXi 3 3 0xFFFFFF7FFFFFFFFF, cmpX 3 10, .bcond .ne (off (-44)),
   strW 11 2 (off (-28)), .b (off (-52)),
   strW 11 2 (off (-32)), .b (off (-60)),
   -- 42: end of the image
   ldrX 8 8 0, cmpX 8 12, .b (off 32),
   -- 45: the first image
   ldrX 2 8 48, ldrW 5 8 64, addX 5 5 2, cmpX 2 5, .bcond .cc (off (-80)), .b (off (-32)),
   .b (off 0)]

/-- The data in which the IRM and the IRM_X8 block differ: the instruction they
    look for and the trampoline they plant, which both end in `ret`. -/
structure IrmVariant where
  insn : BitVec 32
  trampoline : List (BitVec 64)

/-- Load a doubleword constant into `x2` and store it at `x3 + offset`. -/
def storeDword (d offset : BitVec 64) : List Instr :=
  [movXi 2 (d.extractLsb' 0 16), movkX 2 (d.extractLsb' 16 16) 16,
   movkX 2 (d.extractLsb' 32 16) 32, movkX 2 (d.extractLsb' 48 16) 48, strX 2 3 offset]

/-- The stores of consecutive doublewords from `x3 + offset` on. -/
def storeDwords : List (BitVec 64) → BitVec 64 → List Instr
  | [], _ => []
  | d :: ds, offset => storeDword d offset ++ storeDwords ds (offset + 8#64)

/-- The scan of an IRM block: everything before the first store. -/
def irmScanProgram (insn : BitVec 32) : List Instr :=
  [movX 10 0, ldrXPre 9 10 16, cmpX 9 10, .bcond .eq (off 404),
   movXi 3 0, movXi 4 0,
   .movz false 8 (insn.extractLsb' 0 16) 0, movkW 8 (insn.extractLsb' 16 16) 16,
   movXi 7 3, movkX 7 9 16, movkX 7 0x16 32, movkX 7 9 48, .b (off 16),
   -- 13: end of the image
   ldrX 9 9 0, cmpX 9 10, .b (off 76),
   -- 16: the first image
   ldrX 2 9 48, ldrW 6 9 64, addX 6 6 2, cmpX 2 6, .bcond .cs (off (-28)),
   -- 21: test the word and the doubleword at x2
   ldrW 5 2 0, cmpW 5 8, cselX 4 4 2 .ne, ldrX 5 2 0, cmpX 5 7, cselX 3 3 2 .ne,
   cmpXi 4 0, ccmpX 3 0 4 .ne, .bcond .ne (off (-64)),
   addXi 2 2 4, cmpX 2 6, .bcond .cc (off (-44)), .b (off (-80)),
   -- 34: patch when both were found
   cmpXi 4 0, ccmpX 3 0 4 .ne, .bcond .eq (off 272)]

/-- Plant the branch at `x4`. -/
def irmBranchProgram : List Instr :=
  [subXi 2 3 168, subX 2 2 4, ubfxW 2 2 2 26, movW 5 0x94000000, orrW 2 2 5, strW 2 4 0]

/-- Plant the `ret` behind the trampoline. -/
def irmRetProgram : List Instr :=
  [movW 2 0x3C0, movkW 2 0xD65F 16, strW 2 3 (off (-80)), .nop, .nop, .nop]

/-- The patch of an IRM block: the branch at `x4`, then the trampoline. -/
def irmPatchProgram (trampoline : List (BitVec 64)) : List Instr :=
  irmBranchProgram ++ (storeDwords trampoline (off (-168)) ++ irmRetProgram)

/-- What an IRM block decodes to. -/
def irmProgram (v : IrmVariant) : List Instr :=
  irmScanProgram v.insn ++ irmPatchProgram v.trampoline

/-- `msr icc_sgi1r_el1, x10` -/
def irmX10 : IrmVariant where
  insn := 0xD518CBAA
  trampoline :=
    [0x910003FDA9BF7BFD, 0x9257F94AB640024A, 0xAA0A03F6B240014A, 0x92780D29D53800A9,
     0x52800115D2800014, 0x540000A0EB49229F, 0xAA0802CAD370BE88, 0xD5033F9FD518CBAA,
     0x510006B591000694, 0x1400000235FFFF15, 0xA8C17BFDD518CBAA]

/-- `msr icc_sgi1r_el1, x8` -/
def irmX8 : IrmVariant where
  insn := 0xD518CBA8
  trampoline :=
    [0x910003FDA9BF7BFD, 0x9257F908B6400248, 0xAA0803F6B2400108, 0x92780D29D53800A9,
     0x52800115D2800014, 0x540000A0EB49229F, 0xAA0A02C8D370BE8A, 0xD5033F9FD518CBA8,
     0x510006B591000694, 0x1400000235FFFF15, 0xA8C17BFDD518CBA8]

/-! ## The bytes decode to the programs -/

theorem actlrEl1Block_decode :
    (wordsOf actlrEl1Block).map decode = actlrEl1Program.map some := by decide +kernel

theorem amcntenset0El0Block_decode :
    (wordsOf amcntenset0El0Block).map decode = amcntenset0El0Program.map some := by
  decide +kernel

theorem psciMemprotectBlock_decode :
    (wordsOf psciMemprotectBlock).map decode = psciMemprotectProgram.map some := by
  decide +kernel

theorem irmBlock_decode :
    (wordsOf irmBlock).map decode = (irmProgram irmX10).map some := by decide +kernel

theorem irmX8Block_decode :
    (wordsOf irmX8Block).map decode = (irmProgram irmX8).map some := by decide +kernel

end KernelErrataPatcher
