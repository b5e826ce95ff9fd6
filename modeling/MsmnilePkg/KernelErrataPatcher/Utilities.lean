/-
  MsmnilePkg.KernelErrataPatcher.Utilities

  Utilities.c: the search for the base of winload, the byte copy and the
  pattern search.
-/

import MsmnilePkg.Lib.ByteMem

namespace KernelErrataPatcher

open ByteMem

/-! ## LocateWinloadBase -/

/-- Round up to whole pages, as the source does it for an address and for a size. -/
def pageUp (a : BitVec 64) : BitVec 64 :=
  if a &&& 0xFFF#64 ≠ 0#64 then (a &&& ~~~0xFFF#64) + 0x1000#64 else a

/-- `newBase`, the NT headers of the image at `base`. -/
def ntHeaders (m : Mem) (base : Addr) : Addr := base + (read32 m (base + 0x3C#64)).setWidth 64

/-- The page begins with `IMAGE_DOS_SIGNATURE`, and the low half of `IMAGE_NT_SIGNATURE` is
    where it says. -/
def looksLikeImage (m : Mem) (base : Addr) : Bool :=
  read16 m base == 0x5A4D#16 && read16 m (ntHeaders m base) == 0x4550#16

/-- The `VirtualSize` of the first section, in whole pages. -/
def firstSectionSize (m : Mem) (base : Addr) : BitVec 64 :=
  pageUp ((read32 m (ntHeaders m base + 0x110#64)).setWidth 64)

/-- The loop of `LocateWinloadBase`; `none` when no page of the first `fuel` ones does. -/
def locateLoop (m : Mem) : Nat → Addr → Option (Addr × BitVec 64)
  | 0, _ => none
  | fuel + 1, base =>
      if looksLikeImage m base then some (base, firstSectionSize m base)
      else locateLoop m fuel (base - 0x1000#64)

/-- The pages of the address space: a walk that is not over by then never ends. -/
def pageCount : Nat := 2 ^ 52

def locateWinloadBase (m : Mem) (base : Addr) : Option (Addr × BitVec 64) :=
  locateLoop m pageCount (pageUp base)

/-! ## CopyMemory -/

/-- `CopyMemory(destination, source, sizeof(source))`, for an array `source` of the driver. -/
def copyMemory (m : Mem) : Addr → List Byte → Mem
  | _, [] => m
  | destination, b :: source => copyMemory (write8 m destination b) (destination + 1#64) source

/-- A byte before the destination or behind the copy keeps its value. -/
theorem copyMemory_of_outside {b : Addr} : ∀ (source : List Byte) (m : Mem) (destination : Addr),
    source.length ≤ (b - destination).toNat → copyMemory m destination source b = m b := by
  intro source
  induction source with
  | nil => intro m destination _; rfl
  | cons v source ih =>
      intro m destination hb
      rw [List.length_cons] at hb
      have hne : b ≠ destination := by
        rintro rfl
        simp at hb
      have hnext : source.length ≤ (b - (destination + 1#64)).toNat := by bv_omega
      rw [copyMemory, ih _ _ hnext, write8_of_ne hne]

/-- The copy is that of the source. -/
theorem copyMemory_inside : ∀ (source : List Byte) (m : Mem) (destination : Addr) (i : Nat)
    (hi : i < source.length), source.length ≤ 2 ^ 64 →
      copyMemory m destination source (destination + BitVec.ofNat 64 i) = source[i] := by
  intro source
  induction source with
  | nil => intro m destination i hi; exact absurd hi (Nat.not_lt_zero i)
  | cons v source ih =>
      intro m destination i hi hlen
      rw [List.length_cons] at hi hlen
      rw [copyMemory]
      cases i with
      | zero =>
          have hfirst : source.length ≤ (destination - (destination + 1#64)).toNat := by bv_omega
          rw [BitVec.add_zero, copyMemory_of_outside _ _ _ hfirst, write8_same]
          rfl
      | succ i =>
          have haddr : destination + BitVec.ofNat 64 (i + 1)
              = destination + 1#64 + BitVec.ofNat 64 i := by
            rw [Nat.add_comm, BitVec.ofNat_add, BitVec.add_assoc]
          rw [haddr, ih _ _ i (by omega) (by omega)]
          rfl

/-! ## FindPattern -/

/-- `GET_BITS` -/
def getBits (x : Byte) : Byte :=
  if 0x41#8 ≤ x &&& ~~~0x20#8 ∧ x &&& ~~~0x20#8 ≤ 0x46#8 then (x &&& ~~~0x20#8) - 0x41#8 + 0xA#8
  else if 0x30#8 ≤ x ∧ x ≤ 0x39#8 then x - 0x30#8
  else 0#8

/-- `GET_BYTE` -/
def getByte (a b : Byte) : Byte := getBits a <<< 4 ||| getBits b

/-- Character `i` of a string; behind its terminator a string has no character. -/
def charAt (pattern : List Byte) (i : Nat) : Option Byte := (pattern ++ [0#8])[i]?

/-- The test of the token at `i`, whose first character is `byte`. -/
def acceptsAt (m : Mem) (pattern : List Byte) (byte : Byte) (i : Nat) (current : Addr) :
    Option Bool :=
  if byte = 0x3F#8 then some true
  else (charAt pattern (i + 1)).map fun c => decide (m current = getByte byte c)

/-- The loop of `FindPattern`, with `i` the place of `currentPattern` in the string.  `none`
    says that it reads behind the end of the string. -/
def findPatternLoop (m : Mem) (limit : Addr) (pattern : List Byte) :
    Nat → Addr → Addr → Nat → Option Addr
  | 0, _, _, _ => none
  | fuel + 1, current, firstMatch, i =>
      if current < limit then
        (charAt pattern i).bind fun byte =>
          if byte = 0#8 then some firstMatch
          else (acceptsAt m pattern byte i current).bind fun accepted =>
            if accepted then
              let firstMatch := if firstMatch = 0#64 then current else firstMatch
              (charAt pattern (i + 2)).bind fun c =>
                if c = 0#8 then some firstMatch
                else findPatternLoop m limit pattern fuel (current + 1#64) firstMatch
                  (if byte = 0x3F#8 then i + 2 else i + 3)
            else findPatternLoop m limit pattern fuel (current + 1#64) 0#64 0
      else some 0#64

def findPattern (m : Mem) (baseAddress : Addr) (size : BitVec 64) (pattern : List Byte) :
    Option Addr :=
  findPatternLoop m (baseAddress + size) pattern (size.toNat + 1) baseAddress 0#64 0

end KernelErrataPatcher
