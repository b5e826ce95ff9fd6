/-
  MsmnilePkg.KernelErrataPatcher.WinloadBase

  Which image LocateWinloadBase locates.

  The walk begins at the address rounded UP to a page and goes down.  From an
  address inside an image it always ends, at the latest at the image's own
  base; it ends above it when a page on the way looks like the head of an
  image, such as the next image when that lies directly behind.
-/

import Mathlib.Tactic.Ring
import MsmnilePkg.KernelErrataPatcher.ModuleWalk
import MsmnilePkg.KernelErrataPatcher.Utilities

namespace KernelErrataPatcher

open ByteMem

/-! ## Images -/

/-- An image of `size` bytes is loaded at `base`: `MZ` at its start, and `PE\0\0` where the
    field behind the DOS header says. -/
structure LoadedImage (m : Mem) (base : Addr) (size : BitVec 64) : Prop where
  aligned : base.toNat % 4096 = 0
  fits : base.toNat + size.toNat ≤ 2 ^ 64
  dosSignature : read16 m base = 0x5A4D#16
  ntSignature : read32 m (ntHeaders m base) = 0x00004550#32

/-- `n` bytes in whole pages. -/
def wholePages (n : Nat) : Nat := (n + 4095) / 4096 * 4096

/-- LocateWinloadBase returns the base of the image, and the `VirtualSize` of its first section
    in whole pages. -/
def Locates (m : Mem) (base addr : Addr) : Prop :=
  ∃ size, locateWinloadBase m addr = some (base, size) ∧
    size.toNat = wholePages (read32 m (ntHeaders m base + 0x110#64)).toNat

/-- The page `k` pages below `a`. -/
def pageBelow (a : Addr) (k : Nat) : Addr := a - BitVec.ofNat 64 (4096 * k)

/-- The pages the walk from `addr` meets before it comes to `base`. -/
def pagesBefore (base addr : Addr) : Nat := (pageUp addr - base).toNat / 4096

/-! ## Rounding -/

theorem low_bits_eq_zero_iff (a : BitVec 64) : a &&& 0xFFF#64 = 0#64 ↔ a.toNat % 4096 = 0 := by
  have hlow : (a &&& 0xFFF#64).toNat = a.toNat % 2 ^ 12 := by
    rw [BitVec.toNat_and]
    exact Nat.and_two_pow_sub_one_eq_mod a.toNat 12
  rw [← BitVec.toNat_inj, hlow]
  rfl

theorem clear_low_bits (a : BitVec 64) :
    a &&& ~~~0xFFF#64 = a - BitVec.ofNat 64 (a.toNat % 4096) := by
  have hsplit : a &&& 0xFFF#64 = BitVec.ofNat 64 (a.toNat % 4096) := by
    apply BitVec.eq_of_toNat_eq
    have hlow : (BitVec.ofNat 64 (a.toNat % 4096)).toNat = a.toNat % 2 ^ 12 := by
      rw [BitVec.toNat_ofNat, Nat.mod_eq_of_lt (by omega)]
      rfl
    rw [BitVec.toNat_and, hlow]
    exact Nat.and_two_pow_sub_one_eq_mod a.toNat 12
  -- the low bits and the others have no bit in common
  have hsum : (a &&& ~~~0xFFF#64) + (a &&& 0xFFF#64) = a := by
    rw [BitVec.add_eq_or_of_and_eq_zero]
    · ext i hi
      simp only [BitVec.getElem_or, BitVec.getElem_and, BitVec.getElem_not]
      cases a[i] <;> cases (0xFFF#64)[i] <;> rfl
    · ext i hi
      simp only [BitVec.getElem_and, BitVec.getElem_not, BitVec.getElem_zero]
      cases a[i] <;> cases (0xFFF#64)[i] <;> rfl
  rw [← hsplit]
  exact BitVec.eq_sub_iff_add_eq.mpr hsum

theorem pageUp_toNat (a : BitVec 64) : (pageUp a).toNat = wholePages a.toNat % 2 ^ 64 := by
  unfold wholePages
  rw [pageUp]
  by_cases hzero : a &&& 0xFFF#64 = 0#64
  · rw [if_neg (not_not.mpr hzero)]
    rw [low_bits_eq_zero_iff] at hzero
    omega
  · rw [if_pos hzero, clear_low_bits]
    rw [low_bits_eq_zero_iff] at hzero
    bv_omega

/-! ## The walk -/

theorem pageBelow_zero (a : Addr) : pageBelow a 0 = a := by
  rw [pageBelow]
  exact BitVec.sub_zero a

theorem pageBelow_succ (a : Addr) (k : Nat) :
    pageBelow a (k + 1) = pageBelow (a - 0x1000#64) k := by
  unfold pageBelow
  bv_omega

/-- The walk ends at the first page that looks like an image. -/
theorem locateLoop_eq {m : Mem} : ∀ {n fuel : Nat} {a : Addr}, n < fuel →
    (∀ k < n, looksLikeImage m (pageBelow a k) = false) →
    looksLikeImage m (pageBelow a n) = true →
      locateLoop m fuel a = some (pageBelow a n, firstSectionSize m (pageBelow a n)) := by
  intro n
  induction n with
  | zero =>
      intro fuel a hfuel _ hfound
      obtain ⟨fuel, rfl⟩ : ∃ k, fuel = k + 1 := ⟨fuel - 1, by omega⟩
      rw [pageBelow_zero] at hfound ⊢
      rw [locateLoop, if_pos hfound]
  | succ n ih =>
      intro fuel a hfuel hbefore hfound
      obtain ⟨fuel, rfl⟩ : ∃ k, fuel = k + 1 := ⟨fuel - 1, by omega⟩
      have hfirst := hbefore 0 (Nat.succ_pos n)
      rw [pageBelow_zero] at hfirst
      rw [pageBelow_succ] at hfound ⊢
      rw [locateLoop, if_neg (by rw [hfirst]; exact Bool.false_ne_true)]
      refine ih (by omega) (fun k hk => ?_) hfound
      rw [← pageBelow_succ]
      exact hbefore (k + 1) (by omega)

section Walk

variable {m : Mem} {base addr : Addr} {size : BitVec 64}

theorem LoadedImage.looksLikeImage (h : LoadedImage m base size) :
    looksLikeImage m base = true := by
  have hlow : read16 m (ntHeaders m base) = (read32 m (ntHeaders m base)).setWidth 16 := by
    ext i hi
    simp only [read16, read32, word32, BitVec.getElem_setWidth, BitVec.getLsbD_or,
      BitVec.getElem_or, BitVec.getElem_shiftLeft, BitVec.getLsbD_shiftLeft,
      BitVec.getLsbD_setWidth]
    grind
  rw [KernelErrataPatcher.looksLikeImage, h.dosSignature, hlow, h.ntSignature]
  decide

/-- The walk from an address of an image comes to the image's base. -/
theorem pageBelow_pagesBefore (h : LoadedImage m base size) (addr : Addr) :
    pageBelow (pageUp addr) (pagesBefore base addr) = base := by
  have haligned := h.aligned
  have hup := pageUp_toNat addr
  have hmod : (pageUp addr - base).toNat % 4096 = 0 := by
    unfold wholePages at hup
    bv_omega
  unfold pageBelow pagesBefore
  rw [show 4096 * ((pageUp addr - base).toNat / 4096) = (pageUp addr - base).toNat by omega]
  bv_omega

theorem pagesBefore_lt (base addr : Addr) : pagesBefore base addr < pageCount := by
  unfold pagesBefore pageCount
  omega

/-- The walk ends, at the latest at the base of the image. -/
theorem locateWinloadBase_terminates (h : LoadedImage m base size) (addr : Addr) :
    ∃ j ≤ pagesBefore base addr, looksLikeImage m (pageBelow (pageUp addr) j) = true ∧
      (∀ k < j, looksLikeImage m (pageBelow (pageUp addr) k) = false) ∧
      locateWinloadBase m addr
        = some (pageBelow (pageUp addr) j, firstSectionSize m (pageBelow (pageUp addr) j)) := by
  have hbase := h.looksLikeImage
  rw [← pageBelow_pagesBefore h addr] at hbase
  obtain ⟨j, hfirst⟩ := WordScan.exists_first
    (P := fun k => KernelErrataPatcher.looksLikeImage m (pageBelow (pageUp addr) k) = true) hbase
  have hj := hfirst.le hbase
  have hbefore : ∀ k < j,
      KernelErrataPatcher.looksLikeImage m (pageBelow (pageUp addr) k) = false :=
    fun k hk => Bool.eq_false_iff.mpr (hfirst.2 k hk)
  have hcount := pagesBefore_lt base addr
  exact ⟨j, hj, hfirst.1, hbefore, locateLoop_eq (by omega) hbefore hfirst.1⟩

theorem firstSectionSize_toNat (m : Mem) (base : Addr) :
    (firstSectionSize m base).toNat
      = wholePages (read32 m (ntHeaders m base + 0x110#64)).toNat := by
  have hwide : ((read32 m (ntHeaders m base + 0x110#64)).setWidth 64).toNat
      = (read32 m (ntHeaders m base + 0x110#64)).toNat := by
    rw [BitVec.toNat_setWidth, Nat.mod_eq_of_lt (by omega)]
  rw [firstSectionSize, pageUp_toNat, hwide]
  unfold wholePages
  omega

end Walk

/-- LocateWinloadBase terminates, and it returns the base of the image that contains the address
    and that image's section size exactly when no page that it meets before the base looks like
    the head of an image. -/
theorem locateWinloadBase_iff {m : Mem} {base : Addr} {size : BitVec 64}
    (himage : LoadedImage m base size) (addr : Addr) :
    (∃ r, locateWinloadBase m addr = some r) ∧
      (InImage base size addr → (Locates m base addr ↔ ∀ k < pagesBefore base addr,
        looksLikeImage m (pageBelow (pageUp addr) k) = false)) := by
  obtain ⟨j, hj, hfound, hbefore, hlocate⟩ := locateWinloadBase_terminates himage addr
  refine ⟨⟨_, hlocate⟩, fun _ => ?_⟩
  have hbase := pageBelow_pagesBefore himage addr
  have hcount := pagesBefore_lt base addr
  constructor
  · -- the walk ended at the base, so no page before it looked like an image
    rintro ⟨s, hs, -⟩ k hk
    rw [hlocate, Option.some.injEq, Prod.mk.injEq] at hs
    have hplace := hs.1
    rw [← hbase] at hplace
    have hjn : j = pagesBefore base addr := by
      unfold pageBelow at hplace
      unfold pageCount at hcount
      bv_omega
    exact hbefore k (hjn ▸ hk)
  · -- the page at which it ended is not one of those before the base
    intro hclear
    have hjn : j = pagesBefore base addr := by
      by_contra hne
      rw [hclear j (by omega)] at hfound
      cases hfound
    rw [hjn, hbase] at hlocate
    exact ⟨_, hlocate, firstSectionSize_toNat m base⟩

/-- The head of an image at 0x10000, with its NT headers at 0x40, and nothing else. -/
def headMem : Mem := fun a =>
  if a = 0x10000#64 then 0x4D#8 else if a = 0x10001#64 then 0x5A#8
  else if a = 0x1003C#64 then 0x40#8 else if a = 0x10040#64 then 0x50#8
  else if a = 0x10041#64 then 0x45#8 else 0#8

/-- From its second page the image of three pages is located over two pages before its base. -/
theorem locateWinloadBase_secondPage : Locates headMem 0x10000#64 0x11800#64 :=
  have himage : LoadedImage headMem 0x10000#64 0x3000#64 :=
    ⟨by decide, by decide, by decide, by decide⟩
  ((locateWinloadBase_iff himage 0x11800#64).2 (by decide)).mpr
    (by decide : ∀ k < 2, looksLikeImage headMem (pageBelow (pageUp 0x11800#64) k) = false)

/-! ## Images back to back -/

/-- Every page is the head of an image, with its NT headers at 0x40. -/
def headsMem : Mem := fun a =>
  if a &&& 0xFFF#64 = 0#64 then 0x4D#8 else if a &&& 0xFFF#64 = 1#64 then 0x5A#8
  else if a &&& 0xFFF#64 = 0x3C#64 then 0x40#8 else if a &&& 0xFFF#64 = 0x40#64 then 0x50#8
  else if a &&& 0xFFF#64 = 0x41#64 then 0x45#8 else 0#8

theorem headsMem_images : LoadedImage headsMem 0x10000#64 0x1000#64 ∧
    LoadedImage headsMem 0x11000#64 0x1000#64 := by
  constructor
  · exact ⟨by decide, by decide, by decide, by decide⟩
  · exact ⟨by decide, by decide, by decide, by decide⟩

/-- From the middle of the only page of the first of two images the second one is found. -/
theorem next_image_is_located : LoadedImage headsMem 0x10000#64 0x1000#64 ∧
    LoadedImage headsMem 0x11000#64 0x1000#64 ∧ InImage 0x10000#64 0x1000#64 0x10800#64 ∧
    ¬ Locates headsMem 0x10000#64 0x10800#64 := by
  refine ⟨headsMem_images.1, headsMem_images.2, by decide, ?_⟩
  rintro ⟨size, hlocate, -⟩
  have hup : pageBelow (pageUp 0x10800#64) 0 = 0x11000#64 := by decide
  have hfound : locateWinloadBase headsMem 0x10800#64
      = some (0x11000#64, firstSectionSize headsMem 0x11000#64) := by
    rw [← hup]
    refine locateLoop_eq (by decide) (fun k hk => absurd hk (Nat.not_lt_zero k)) ?_
    rw [hup]
    exact headsMem_images.2.looksLikeImage
  rw [hfound, Option.some.injEq, Prod.mk.injEq] at hlocate
  exact absurd hlocate.1 (by decide)

end KernelErrataPatcher
