/-
  MsmnilePkg.KernelErrataPatcher.ActlrFixup

  KernelErrataPatcherApplyReadACTLREL1Patches: the first `mrs x8, actlr_el1`
  of winload becomes `movz x8, #0`.

  The search goes byte by byte and not word by word, so it may stop at bytes
  that are no instruction, and it may pass over one.
-/

import MsmnilePkg.KernelErrataPatcher.FindPattern
import MsmnilePkg.Lib.WordScan

namespace KernelErrataPatcher

open ByteMem StreamMatch WordScan

/-- `"28 10 38 D5"` -/
def actlrEl1Pattern : List Byte :=
  [0x32, 0x38, 0x20, 0x31, 0x30, 0x20, 0x33, 0x38, 0x20, 0x44, 0x35]

/-- `FixedInstruction0` -/
def fixedInstruction0 : List Byte := [0x08, 0x00, 0x80, 0xD2]

/-- `KernelErrataPatcherApplyReadACTLREL1Patches` -/
def applyReadActlrEl1Patches (m : Mem) (base : Addr) (size : BitVec 64) : Option Mem :=
  (findPattern m base size actlrEl1Pattern).map fun illegalInstruction0 =>
    if illegalInstruction0 ≠ 0#64 then copyMemory m illegalInstruction0 fixedInstruction0 else m

def actlrEl1Tokens : List Token :=
  [.byte (.digit 2) (.digit 8), .byte (.digit 1) (.digit 0), .byte (.digit 3) (.digit 8),
    .byte (.upper ⟨3, by decide⟩) (.digit 5)]

theorem actlrEl1Pattern_eq : actlrEl1Pattern = patternText actlrEl1Tokens := by decide

/-! ## Words -/

section Words

variable {m : Mem} {base a b : Addr} {size : BitVec 64} {s : Nat}

/-- A word is what its four bytes are. -/
theorem read32_eq_iff {w : BitVec 32} :
    read32 m a = w ↔ ∀ j < 4, m (a + BitVec.ofNat 64 j) = byteOf32 w j := by
  constructor
  · rintro rfl j hj
    exact (byteOf32_read32 m a hj).symm
  · intro h
    have h0 := h 0 (by decide)
    rw [BitVec.add_zero] at h0
    rw [read32, h0, h 1 (by decide), h 2 (by decide), h 3 (by decide), word32_byteOf32]

/-- The pattern is the instruction's bytes. -/
theorem patternAt_iff :
    PatternAt actlrEl1Tokens m base size s ↔
      s + 4 ≤ size.toNat ∧ read32 m (base + BitVec.ofNat 64 s) = 0xD5381028#32 := by
  have htoken : ∀ j < 4, ∀ v : Byte, hits actlrEl1Tokens (fun _ => v) 0#64 j 0 = true ↔
      v = byteOf32 0xD5381028#32 j := by decide +kernel
  have hhits : ∀ j < 4, hits actlrEl1Tokens m base j (s + j) = true ↔
      m (base + BitVec.ofNat 64 s + BitVec.ofNat 64 j) = byteOf32 0xD5381028#32 j := by
    intro j hj
    rw [BitVec.add_assoc, ← BitVec.ofNat_add]
    exact htoken j hj _
  rw [read32_eq_iff]
  refine and_congr Iff.rfl ⟨fun h j hj => (hhits j hj).mp (h j hj), fun h j hj => ?_⟩
  exact (hhits j hj).mpr (h j hj)

/-- The fixed instruction is stored as a word. -/
theorem copyMemory_fixed (m : Mem) (a : Addr) :
    copyMemory m a fixedInstruction0 = write32 m a 0xD2800008#32 := by
  funext b
  by_cases hb : (b - a).toNat < 4
  · have haddr : b = a + BitVec.ofNat 64 (b - a).toNat := by bv_omega
    have hbytes : ∀ i (hi : i < 4), fixedInstruction0[i] = byteOf32 0xD2800008#32 i := by decide
    rw [haddr, copyMemory_inside _ _ _ _ hb (by decide), write32_byte hb]
    exact hbytes _ hb
  · rw [copyMemory_of_outside _ _ _ (by simpa [fixedInstruction0] using hb),
      write32_of_outside (by omega)]

/-- The first byte of the fix is in no other place of it, and not what was there. -/
theorem fixed_at_iff (ha : read32 m a = 0xD5381028#32) :
    write32 m b 0xD2800008#32 a = 0x08#8 ↔ a = b := by
  have hfirst : m a = 0x28#8 := by
    have hbyte := byteOf32_read32 m a (i := 0) (by decide)
    rw [ha, BitVec.add_zero] at hbyte
    rw [← hbyte]
    decide
  have hother : ∀ i < 4, byteOf32 0xD2800008#32 i = 0x08#8 → i = 0 := by decide
  constructor
  · intro h
    by_cases hab : (a - b).toNat < 4
    · rw [write32, if_pos hab] at h
      have hzero := hother _ hab h
      bv_omega
    · rw [write32_of_outside (by omega), hfirst] at h
      exact absurd h (by decide)
  · rintro rfl
    have hbyte := write32_byte (m := m) (a := a) (v := 0xD2800008#32) (i := 0) (by decide)
    rw [BitVec.add_zero] at hbyte
    rw [hbyte]
    decide

end Words

/-! ## The fix-up -/

/-- The instruction word `s` bytes behind the base is `mrs x8, actlr_el1`. -/
def InsnAt0 (m : Mem) (base : Addr) (size : BitVec 64) (s : Nat) : Prop :=
  (base + BitVec.ofNat 64 s).toNat % 4 = 0 ∧ s + 4 ≤ size.toNat ∧
    read32 m (base + BitVec.ofNat 64 s) = 0xD5381028#32

/-- The first such word. -/
def FirstInsn (m : Mem) (base : Addr) (size : BitVec 64) (s : Nat) : Prop :=
  InsnAt0 m base size s ∧ ∀ t < s, ¬ InsnAt0 m base size t

/-- The first `mrs x8, actlr_el1` of the region, if there is one, and nothing else is
    replaced. -/
def FixesFirst (m : Mem) (base : Addr) (size : BitVec 64) : Prop :=
  ∃ m', applyReadActlrEl1Patches m base size = some m' ∧
    (∀ s, FirstInsn m base size s →
      m' = write32 m (base + BitVec.ofNat 64 s) 0xD2800008#32) ∧
    ((∀ s, ¬ InsnAt0 m base size s) → m' = m)

section Fixup

variable {m : Mem} {base : Addr} {size : BitVec 64}

theorem InsnAt0.patternAt {s : Nat} (h : InsnAt0 m base size s) :
    PatternAt actlrEl1Tokens m base size s := patternAt_iff.mpr h.2

/-- What the search for the instruction returns. -/
theorem findPattern_actlrEl1_eq (m : Mem) (base : Addr) (size : BitVec 64) :
    findPattern m base size actlrEl1Pattern
      = if base.toNat + size.toNat < 2 ^ 64 then
          reported actlrEl1Tokens base
            (stream (hits actlrEl1Tokens m base) actlrEl1Tokens.length size.toNat 0 0)
        else some 0#64 := by
  rw [actlrEl1Pattern_eq]
  exact findPattern_eq (by decide) size

/-- A match is never reported at address 0. -/
theorem firstMatchOf_ne_zero (base : Addr) (s : Nat) : firstMatchOf base s 4 ≠ 0#64 := by
  by_cases hs : base + BitVec.ofNat 64 s ≠ 0#64
  · rw [firstMatchOf_found (by decide) hs]
    exact hs
  · simp [firstMatchOf, not_not.mp hs]

section NoWrap

variable (hwrap : base.toNat + size.toNat < 2 ^ 64)

include hwrap

theorem applyReadActlrEl1Patches_found {s : Nat} (htried : TriedAt actlrEl1Tokens m base s)
    (hat : PatternAt actlrEl1Tokens m base size s) :
    applyReadActlrEl1Patches m base size
      = some (write32 m (firstMatchOf base s 4) 0xD2800008#32) := by
  have hfind := findPattern_actlrEl1_eq m base size
  rw [if_pos hwrap, (stream_eq_some_iff (by decide)).mpr ⟨htried, hat⟩] at hfind
  rw [applyReadActlrEl1Patches, hfind]
  show some (if firstMatchOf base s 4 ≠ 0#64 then _ else m) = _
  rw [if_pos (firstMatchOf_ne_zero base s), copyMemory_fixed]
  rfl

theorem applyReadActlrEl1Patches_not_found
    (h : ∀ s, TriedAt actlrEl1Tokens m base s → ¬ PatternAt actlrEl1Tokens m base size s) :
    applyReadActlrEl1Patches m base size = some m := by
  have hfind := findPattern_actlrEl1_eq m base size
  have hnone : stream (hits actlrEl1Tokens m base) actlrEl1Tokens.length size.toNat 0 0 = none := by
    cases hstream : stream (hits actlrEl1Tokens m base) actlrEl1Tokens.length size.toNat 0 0 with
    | none => rfl
    | some s =>
        obtain ⟨htried, hat⟩ := (stream_eq_some_iff (by decide)).mp hstream
        exact absurd hat (h s htried)
  rw [if_pos hwrap, hnone] at hfind
  rw [applyReadActlrEl1Patches, hfind]
  rfl

end NoWrap

/-- A region that wraps is left alone. -/
theorem applyReadActlrEl1Patches_wrap (hwrap : ¬ base.toNat + size.toNat < 2 ^ 64) :
    applyReadActlrEl1Patches m base size = some m := by
  have hfind := findPattern_actlrEl1_eq m base size
  rw [applyReadActlrEl1Patches, hfind, if_neg hwrap]
  rfl

/-- `a` is where the fix-up stores, the first match that its search comes to. -/
def FixedAt (m : Mem) (base : Addr) (size : BitVec 64) (a : Addr) : Prop :=
  base.toNat + size.toNat < 2 ^ 64 ∧ ∃ s, TriedAt actlrEl1Tokens m base s ∧
    PatternAt actlrEl1Tokens m base size s ∧ a = firstMatchOf base s 4

/-- The search for the instruction ends, with the place of the fix-up or with 0. -/
theorem findPattern_actlrEl1 (m : Mem) (base : Addr) (size : BitVec 64) :
    ∃ r, findPattern m base size actlrEl1Pattern = some r ∧
      ∀ a, FixedAt m base size a ↔ r ≠ 0#64 ∧ a = r := by
  have hfind := findPattern_actlrEl1_eq m base size
  rw [hfind]
  by_cases hwrap : base.toNat + size.toNat < 2 ^ 64
  · rw [if_pos hwrap]
    -- What the search returns is the match that the stream finds.
    cases hstream : stream (hits actlrEl1Tokens m base) actlrEl1Tokens.length size.toNat 0 0 with
    | none =>
        refine ⟨0#64, rfl, fun a => ⟨?_, fun h => absurd rfl h.1⟩⟩
        rintro ⟨-, s, htried, hat, -⟩
        have hsome := (stream_eq_some_iff (by decide)).mpr ⟨htried, hat⟩
        rw [hstream] at hsome
        cases hsome
    | some s =>
        obtain ⟨htried, hat⟩ := (stream_eq_some_iff (by decide)).mp hstream
        have hne := firstMatchOf_ne_zero base s
        refine ⟨firstMatchOf base s 4, rfl, fun a => ⟨?_, ?_⟩⟩
        · rintro ⟨-, t, htried', hat', rfl⟩
          -- No other start of a match is tried.
          rw [htried.unique (by decide) hat htried' hat'] at hne ⊢
          exact ⟨hne, rfl⟩
        · rintro ⟨-, rfl⟩
          exact ⟨hwrap, s, htried, hat, rfl⟩
  · rw [if_neg hwrap]
    exact ⟨0#64, rfl, fun a => ⟨fun h => absurd h.1 hwrap, fun h => absurd rfl h.1⟩⟩

/-- Storing the fix over the instruction changes its first byte. -/
theorem fixed_ne {a b : Addr} (ha : read32 m a = 0xD5381028#32) (hne : a ≠ b) :
    write32 m a 0xD2800008#32 ≠ write32 m b 0xD2800008#32 := by
  intro heq
  have hself := (fixed_at_iff (b := a) ha).mpr rfl
  rw [heq] at hself
  exact hne ((fixed_at_iff ha).mp hself)

theorem fixed_ne_self {a : Addr} (ha : read32 m a = 0xD5381028#32) :
    write32 m a 0xD2800008#32 ≠ m := by
  intro heq
  have hread := read32_write32_self m a 0xD2800008#32
  rw [heq, ha] at hread
  exact absurd hread (by decide)

end Fixup

/-- With a tried occurrence, the fix-up does what it is for when that one is the first
    instruction, and not at address 0. -/
theorem fixesFirst_found_iff {m : Mem} {base : Addr} {size : BitVec 64} {t : Nat}
    (hwrap : base.toNat + size.toNat < 2 ^ 64) (htried : TriedAt actlrEl1Tokens m base t)
    (hat : PatternAt actlrEl1Tokens m base size t) :
    FixesFirst m base size ↔
      FirstInsn m base size t ∧ base + BitVec.ofNat 64 t ≠ 0#64 := by
  have happly := applyReadActlrEl1Patches_found hwrap htried hat
  have hword := patternAt_iff.mp hat
  constructor
  · rintro ⟨m', hm', hfirst, hnone⟩
    obtain rfl := Option.some.inj (happly.symm.trans hm')
    -- If no word is the instruction, bytes that are none were rewritten.
    have hsome : ∃ s, InsnAt0 m base size s := by
      by_contra hno
      have hunaligned : (base + BitVec.ofNat 64 t).toNat % 4 ≠ 0 :=
        fun halign => hno ⟨t, halign, hword⟩
      have hne : base + BitVec.ofNat 64 t ≠ 0#64 := by
        intro heq
        rw [heq] at hunaligned
        exact hunaligned rfl
      have heq := hnone fun s hs => hno ⟨s, hs⟩
      rw [firstMatchOf_found (by decide) hne] at heq
      exact fixed_ne_self hword.2 heq
    obtain ⟨s, hs⟩ := hsome
    obtain ⟨u, hu⟩ := exists_first hs
    -- Only the place of the store has changed, so that the first instruction is there.
    have hplace : base + BitVec.ofNat 64 u = firstMatchOf base t 4 := by
      by_contra hne
      exact fixed_ne hu.1.2.2 hne (hfirst u hu).symm
    -- A match at address 0 is reported as 1, which is not aligned.
    by_cases hzero : base + BitVec.ofNat 64 t = 0#64
    · have hone : firstMatchOf base t 4 = 1#64 := by simp [firstMatchOf, hzero]
      have halign := hu.1.1
      rw [hplace, hone] at halign
      exact absurd halign (by decide)
    · rw [firstMatchOf_found (by decide) hzero] at hplace
      have hin' := hu.1.2.1
      have hut : u = t := by bv_omega
      exact ⟨hut ▸ hu, hzero⟩
  · rintro ⟨hfirst, hne⟩
    refine ⟨_, happly, fun s hs => ?_, fun hno => absurd hfirst.1 (hno t)⟩
    have hst : s = t := First.unique (P := InsnAt0 m base size) hs hfirst
    rw [firstMatchOf_found (by decide) hne, hst]

/-- The fix-up replaces the first `mrs x8, actlr_el1` of the region, if there is one, and
    nothing else, exactly when that instruction, where there is one, is at a place the search
    tries (not at address 0, and in a region that ends below 2 ^ 64), and every tried occurrence
    of the four bytes is an aligned word. -/
theorem actlrEl1_fixes_first_iff (m : Mem) (base : Addr) (size : BitVec 64) :
    FixesFirst m base size ↔
      (∀ s, FirstInsn m base size s → base.toNat + size.toNat < 2 ^ 64 ∧
        TriedAt actlrEl1Tokens m base s ∧ base + BitVec.ofNat 64 s ≠ 0#64) ∧
      (base.toNat + size.toNat < 2 ^ 64 → ∀ s, TriedAt actlrEl1Tokens m base s →
        PatternAt actlrEl1Tokens m base size s → (base + BitVec.ofNat 64 s).toNat % 4 = 0) := by
  by_cases hwrap : base.toNat + size.toNat < 2 ^ 64
  · by_cases hsome : ∃ t, TriedAt actlrEl1Tokens m base t ∧ PatternAt actlrEl1Tokens m base size t
    · -- The search stops at `t`, the only occurrence that it tries.
      obtain ⟨t, htried, hat⟩ := hsome
      have hunique : ∀ s, TriedAt actlrEl1Tokens m base s →
          PatternAt actlrEl1Tokens m base size s → s = t :=
        fun s hs hs' => Tried.unique (by decide) hs hs' htried hat
      rw [fixesFirst_found_iff hwrap htried hat]
      constructor
      · rintro ⟨hfirst, hne⟩
        refine ⟨fun s hs => ?_, fun _ s hs hs' => hunique s hs hs' ▸ hfirst.1.1⟩
        have hst : s = t := First.unique (P := InsnAt0 m base size) hs hfirst
        exact hst ▸ ⟨hwrap, htried, hne⟩
      · rintro ⟨hfirst, haligned⟩
        have hinsn : InsnAt0 m base size t :=
          ⟨haligned hwrap t htried hat, patternAt_iff.mp hat⟩
        obtain ⟨u, hu⟩ := exists_first hinsn
        obtain ⟨-, hutried, hne⟩ := hfirst u hu
        obtain rfl := hunique u hutried hu.1.patternAt
        exact ⟨hu, hne⟩
    · -- Nothing is found, and nothing is stored.
      have hnone : ∀ s, TriedAt actlrEl1Tokens m base s →
          ¬ PatternAt actlrEl1Tokens m base size s := fun s hs hs' => hsome ⟨s, hs, hs'⟩
      have happly := applyReadActlrEl1Patches_not_found hwrap hnone
      constructor
      · rintro ⟨m', hm', hfirst, -⟩
        obtain rfl : m = m' := Option.some.inj (happly.symm.trans hm')
        exact ⟨fun s hs => absurd (hfirst s hs).symm (fixed_ne_self hs.1.2.2),
          fun _ s hs hs' => absurd hs' (hnone s hs)⟩
      · rintro ⟨hfirst, -⟩
        exact ⟨m, happly, fun s hs => absurd hs.1.patternAt (hnone s (hfirst s hs).2.1),
          fun _ => rfl⟩
  · -- The end of the range wraps below its base, and the loop makes no turn.
    have happly := applyReadActlrEl1Patches_wrap (m := m) hwrap
    constructor
    · rintro ⟨m', hm', hfirst, -⟩
      obtain rfl : m = m' := Option.some.inj (happly.symm.trans hm')
      exact ⟨fun s hs => absurd (hfirst s hs).symm (fixed_ne_self hs.1.2.2),
        fun hnowrap => absurd hnowrap hwrap⟩
    · rintro ⟨hfirst, -⟩
      exact ⟨m, happly, fun s hs => absurd (hfirst s hs).1 hwrap, fun _ => rfl⟩

/-! ## Bytes across two instructions -/

/-- The words 0x28000000 and 0x00D53810 from 0x1000 on. -/
def straddlingMem : Mem := fun a =>
  if a = 0x1003#64 then 0x28#8 else if a = 0x1004#64 then 0x10#8
  else if a = 0x1005#64 then 0x38#8 else if a = 0x1006#64 then 0xD5#8 else 0#8

/-- The four bytes stand across two words, neither of which is the instruction. -/
theorem straddling_bytes_are_patched : ¬ FixesFirst straddlingMem 0x1000#64 8#64 := by
  rintro ⟨m', hm', -, hnone⟩
  have hfound : (applyReadActlrEl1Patches straddlingMem 0x1000#64 8#64).map (fun m => m 0x1003#64)
      = some 0x08#8 := by decide +kernel
  have hno : ∀ s, ¬ InsnAt0 straddlingMem 0x1000#64 8#64 s := by
    rintro s ⟨halign, hin, hread⟩
    have hsize : (8#64).toNat = 8 := rfl
    have hwords : ∀ s < 5, (0x1000#64 + BitVec.ofNat 64 s).toNat % 4 = 0 →
        read32 straddlingMem (0x1000#64 + BitVec.ofNat 64 s) ≠ 0xD5381028#32 := by decide
    exact hwords s (by omega) halign hread
  rw [hm', hnone hno] at hfound
  exact absurd hfound (by decide)

end KernelErrataPatcher
