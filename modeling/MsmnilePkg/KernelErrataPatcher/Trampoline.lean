/-
  MsmnilePkg.KernelErrataPatcher.Trampoline

  What an IRM patch plants: a branch at the instruction it has found, and the
  23 words of its trampoline 42 words before the marker.
-/

import MsmnilePkg.KernelErrataPatcher.Reference

namespace KernelErrataPatcher

open ByteMem A64 WordScan

/-! ## The branch -/

/-- The distance from the instruction to the trampoline. -/
def branchDistance (site code : Addr) : Int := (code - site).toInt

/-- The distance fits the 26-bit field of a `bl`. -/
def InBranchRange (site code : Addr) : Prop :=
  -2 ^ 27 ≤ branchDistance site code ∧ branchDistance site code < 2 ^ 27

theorem arm64BranchLocationInstruction_opcode (site code : Addr) :
    (arm64BranchLocationInstruction site code).extractLsb' 26 6 = 0b100101#6 := by
  have hop : ∀ i < 32, (0x94000000#32).getLsbD i = decide (i = 26 ∨ i = 28 ∨ i = 31) := by decide
  have h27 : ∀ i < 32, (0x7FFFFFF#32).getLsbD i = decide (i < 27) := by decide
  have h6 : ∀ i < 6, (0b100101#6).getLsbD i = decide (i = 0 ∨ i = 2 ∨ i = 5) := by decide
  apply BitVec.eq_of_getLsbD_eq
  intro i hi
  rw [BitVec.getLsbD_extractLsb', arm64BranchLocationInstruction, BitVec.getLsbD_or,
    BitVec.getLsbD_and, hop _ (by omega), h27 _ (by omega), h6 _ hi]
  grind

theorem arm64BranchLocationInstruction_offset (site code : Addr) :
    (arm64BranchLocationInstruction site code).extractLsb' 0 26
      = (code - site).extractLsb' 2 26 := by
  have hop : ∀ i < 32, (0x94000000#32).getLsbD i = decide (i = 26 ∨ i = 28 ∨ i = 31) := by decide
  have h27 : ∀ i < 32, (0x7FFFFFF#32).getLsbD i = decide (i < 27) := by decide
  have hdiv : (code - site) / 4#64 = (code - site) >>> 2 := by
    apply BitVec.eq_of_toNat_eq
    rw [BitVec.toNat_udiv, BitVec.toNat_ushiftRight, Nat.shiftRight_eq_div_pow]
    rfl
  apply BitVec.eq_of_getLsbD_eq
  intro i hi
  rw [BitVec.getLsbD_extractLsb', BitVec.getLsbD_extractLsb', arm64BranchLocationInstruction, hdiv,
    BitVec.getLsbD_or, BitVec.getLsbD_and, BitVec.getLsbD_setWidth, BitVec.getLsbD_ushiftRight,
    hop _ (by omega), h27 _ (by omega)]
  grind

/-- The planted word branches to the trampoline exactly when the distance fits. -/
theorem blTarget_planted_iff {site code : Addr} (halign : (code - site).toNat % 4 = 0) :
    blTarget site (arm64BranchLocationInstruction site code) = some code ↔
      InBranchRange site code := by
  rw [blTarget_bl site (arm64BranchLocationInstruction_opcode site code),
    arm64BranchLocationInstruction_offset, Option.some.injEq, wordOffset_eq]
  obtain ⟨d, hd⟩ : ∃ d, d = code - site := ⟨_, rfl⟩
  have hcode : code = site + d := by rw [hd]; bv_omega
  have hfield : (d.extractLsb' 2 26).toNat = d.toNat / 4 % 2 ^ 26 := by
    rw [BitVec.extractLsb'_toNat, Nat.shiftRight_eq_div_pow]
  have hcancel : site + BitVec.ofInt 64 (4 * (d.extractLsb' 2 26).toInt) = code ↔
      BitVec.ofInt 64 (4 * (d.extractLsb' 2 26).toInt) = d := by
    rw [hcode]
    exact BitVec.add_right_inj site
  rw [← hd] at halign
  rw [← hd, hcancel, InBranchRange, branchDistance, ← hd]
  -- The field, sign extended, is the distance in words modulo `2 ^ 26`.
  have hint : (d.extractLsb' 2 26).toInt = if 2 * (d.toNat / 4 % 2 ^ 26) < 2 ^ 26 then
      ((d.toNat / 4 % 2 ^ 26 : Nat) : Int) else ((d.toNat / 4 % 2 ^ 26 : Nat) : Int) - 2 ^ 26 := by
    rw [BitVec.toInt_eq_toNat_cond, hfield]
    rfl
  have hbmod : (4 * (d.extractLsb' 2 26).toInt).bmod (2 ^ 64) = 4 * (d.extractLsb' 2 26).toInt := by
    apply Int.bmod_eq_of_le
    · rw [hint]
      split <;> omega
    · rw [hint]
      split <;> omega
  rw [← BitVec.toInt_inj, BitVec.toInt_ofInt, hbmod, hint, BitVec.toInt_eq_toNat_cond]
  split <;> split <;> omega

/-! ## The trampoline -/

/-- The words of consecutive doublewords. -/
def dwordWords : List (BitVec 64) → List (BitVec 32)
  | [] => []
  | d :: ds => d.setWidth 32 :: (d >>> 32).setWidth 32 :: dwordWords ds

theorem dwordWords_length (ds : List (BitVec 64)) : (dwordWords ds).length = 2 * ds.length := by
  induction ds with
  | nil => rfl
  | cons d ds ih =>
      rw [dwordWords, List.length_cons, List.length_cons, List.length_cons, ih]
      omega

/-- The words of a trampoline, with the `ret` behind them. -/
def trampolineWords (v : IrmVariant) : List (BitVec 32) :=
  dwordWords v.trampoline ++ [0xD65F03C0#32]

theorem writeDwords_eq (ds : List (BitVec 64)) (a : Addr) (m : Mem) :
    writeDwords ds a m = writeWords (dwordWords ds) a m := by
  induction ds generalizing a m with
  | nil => rfl
  | cons d ds ih =>
      have haddr : a + 4#64 + 4#64 = a + 8#64 := by rw [BitVec.add_assoc]; rfl
      rw [writeDwords, ih, dwordWords, writeWords, writeWords, haddr]
      rfl

/-- The patch stores the branch, then the words of the trampoline. -/
theorem irmPatch_eq {v : IrmVariant} (hlen : v.trampoline.length = 11) {m : Mem} {f : IrmFound}
    (h : f.both = true) : irmPatch v m f = writeWords (trampolineWords v)
      (codeLocation f.realEstateFunc) (write32 m f.gicInstr
        (arm64BranchLocationInstruction f.gicInstr (codeLocation f.realEstateFunc))) := by
  have hwords : (dwordWords v.trampoline).length = 22 := by rw [dwordWords_length, hlen]
  rw [irmPatch, if_pos h, trampolineWords, writeWords_append, hwords, ← writeDwords_eq]
  rfl

/-- What keeps two trampolines apart: their first word is in no other place, and none of
    their words is a branch with link. -/
structure IrmVariant.Distinct (v : IrmVariant) : Prop where
  length : (trampolineWords v).length = 23
  first : (trampolineWords v)[0]? = some 0xA9BF7BFD#32
  rest : ∀ k, (trampolineWords v)[k]? = some 0xA9BF7BFD#32 → k = 0
  no_bl : ∀ w ∈ trampolineWords v, isBl w = false

theorem distinct_of_decide {v : IrmVariant} (hlen : (trampolineWords v).length = 23)
    (hfirst : (trampolineWords v)[0]? = some 0xA9BF7BFD#32)
    (hrest : ∀ k < 23, (trampolineWords v)[k]? = some 0xA9BF7BFD#32 → k = 0)
    (hbl : (trampolineWords v).all (fun w => !isBl w) = true) : v.Distinct := by
  refine ⟨hlen, hfirst, fun k hk => ?_, fun w hw => ?_⟩
  · exact hrest k (hlen ▸ (List.getElem?_eq_some_iff.mp hk).1) hk
  · simpa using List.all_eq_true.mp hbl w hw

theorem irmX10_distinct : irmX10.Distinct :=
  distinct_of_decide (by decide +kernel) (by decide +kernel) (by decide +kernel) (by decide +kernel)

theorem irmX8_distinct : irmX8.Distinct :=
  distinct_of_decide (by decide +kernel) (by decide +kernel) (by decide +kernel) (by decide +kernel)

theorem wordAddr_mod_four {a b : Addr} (h : (a - b).toNat % 4 = 0) (k : Nat) :
    (wordAddr a k - b).toNat % 4 = 0 := by
  unfold wordAddr
  bv_omega

/-- The instruction at `site` branches to the trampoline of `v` before the marker, and the
    trampoline is there. -/
def ReachesTrampoline (v : IrmVariant) (m : Mem) (site marker : Addr) : Prop :=
  blTarget site (read32 m site) = some (codeLocation marker) ∧
    HoldsWords m (codeLocation marker) (trampolineWords v)

/-- The address is not in the 92 bytes of the trampoline before the marker. -/
def ClearOf (a marker : Addr) : Prop := 92 ≤ (a - codeLocation marker).toNat

/-- Two different trampolines that are both whole have no byte in common. -/
theorem HoldsWords.apart {m : Mem} {a b : Addr} {v v' : IrmVariant} (hv : v.Distinct)
    (hv' : v'.Distinct) (hne : trampolineWords v ≠ trampolineWords v')
    (halign : (b - a).toNat % 4 = 0) (h : HoldsWords m a (trampolineWords v))
    (h' : HoldsWords m b (trampolineWords v')) : Apart a 92 b 92 := by
  -- Where one begins inside the other, the other has its first word a second time.
  have hbegin : ∀ {x y : Addr} {u u' : IrmVariant}, u.Distinct → u'.Distinct →
      HoldsWords m x (trampolineWords u) → HoldsWords m y (trampolineWords u') →
      (y - x).toNat % 4 = 0 → (y - x).toNat < 92 → x = y := by
    intro x y u u' hu hu' hx hy hal hlt
    have hk : (y - x).toNat / 4 < (trampolineWords u).length := by rw [hu.length]; omega
    have haddr : wordAddr x ((y - x).toNat / 4) = y := by
      unfold wordAddr
      rw [show 4 * ((y - x).toNat / 4) = (y - x).toNat by omega]
      bv_omega
    have hword := hx _ _ (List.getElem?_eq_getElem hk)
    have hfirst := hy 0 _ hu'.first
    rw [wordAddr_zero] at hfirst
    rw [haddr, hfirst] at hword
    have hzero := hu.rest _ ((List.getElem?_eq_getElem hk).trans (congrArg some hword.symm))
    rw [hzero, wordAddr_zero] at haddr
    exact haddr
  -- Two that overlap begin at one address, and then their words are the same.
  by_contra hnot
  have heq : a = b := by
    by_cases hab : (b - a).toNat < 92
    · exact hbegin hv hv' h h' halign hab
    · have hba : (a - b).toNat < 92 := by
        by_contra hge
        exact hnot ⟨by omega, by omega⟩
      exact (hbegin hv' hv h' h (by bv_omega) hba).symm
  subst heq
  refine hne (List.ext_getElem? fun k => ?_)
  by_cases hk : k < 23
  · have hk1 : k < (trampolineWords v).length := by rw [hv.length]; exact hk
    have hk2 : k < (trampolineWords v').length := by rw [hv'.length]; exact hk
    rw [List.getElem?_eq_getElem hk1, List.getElem?_eq_getElem hk2,
      ← h k _ (List.getElem?_eq_getElem hk1), ← h' k _ (List.getElem?_eq_getElem hk2)]
  · rw [List.getElem?_eq_none (by rw [hv.length]; omega),
      List.getElem?_eq_none (by rw [hv'.length]; omega)]

/-! ## One patch and two -/

/-- The memory after a branch at `site` and a trampoline before the marker. -/
def planted (v : IrmVariant) (m : Mem) (site marker : Addr) : Mem :=
  writeWords (trampolineWords v) (codeLocation marker)
    (write32 m site (arm64BranchLocationInstruction site (codeLocation marker)))

section Planted

variable {v : IrmVariant} {m : Mem} {site marker : Addr}

theorem planted_holds (m : Mem) (site marker : Addr) (hv : v.Distinct) :
    HoldsWords (planted v m site marker) (codeLocation marker) (trampolineWords v) :=
  holdsWords_writeWords _ _ (by rw [hv.length]; decide)

/-- An aligned word clear of the trampoline is the branch at `site` or what it was. -/
theorem planted_word (hv : v.Distinct) {a : Addr} (ha : (a - codeLocation marker).toNat % 4 = 0)
    (hsite : (a - site).toNat % 4 = 0) (hclear : ClearOf a marker) :
    read32 (planted v m site marker) a
      = if a = site then arm64BranchLocationInstruction site (codeLocation marker)
        else read32 m a := by
  have hapart : Apart (codeLocation marker) (4 * (trampolineWords v).length) a 4 := by
    rw [hv.length]
    unfold ClearOf at hclear
    constructor <;> bv_omega
  rw [planted, read32_writeWords_of_apart hapart]
  by_cases heq : a = site
  · rw [if_pos heq, heq, read32_write32_self]
  · rw [if_neg heq, read32_write32_of_apart]
    constructor <;> bv_omega

/-- A word that is a `bl` is clear of a trampoline that is whole. -/
theorem clearOf_of_bl (hv : v.Distinct) {a target : Addr}
    (ha : (a - codeLocation marker).toNat % 4 = 0)
    (hholds : HoldsWords m (codeLocation marker) (trampolineWords v))
    (hbl : blTarget a (read32 m a) = some target) : ClearOf a marker := by
  by_contra hnot
  unfold ClearOf at hnot
  obtain ⟨w, hw, hread⟩ := hholds.get ha (by rw [hv.length]; omega)
  have htrue := isBl_of_blTarget hbl
  rw [hread, hv.no_bl w hw] at htrue
  cases htrue

/-- The site of a patch is a branch to the trampoline when the branch can reach it and is not
    overwritten by it. -/
theorem blTarget_at_planted_iff (hv : v.Distinct)
    (halign : (site - codeLocation marker).toNat % 4 = 0) :
    blTarget site (read32 (planted v m site marker) site) = some (codeLocation marker) ↔
      InBranchRange site (codeLocation marker) ∧ ClearOf site marker := by
  have hself : (site - site).toNat % 4 = 0 := by simp
  have hback : (codeLocation marker - site).toNat % 4 = 0 := by bv_omega
  constructor
  · intro hbl
    have hclear := clearOf_of_bl hv halign (planted_holds m site marker hv) hbl
    rw [planted_word hv halign hself hclear, if_pos rfl] at hbl
    exact ⟨(blTarget_planted_iff hback).mp hbl, hclear⟩
  · rintro ⟨hrange, hclear⟩
    rw [planted_word hv halign hself hclear, if_pos rfl]
    exact (blTarget_planted_iff hback).mpr hrange

/-- The site of one patch reaches its trampoline when the branch can and is not overwritten
    by it. -/
theorem reaches_planted_iff (hv : v.Distinct)
    (halign : (site - codeLocation marker).toNat % 4 = 0) :
    ReachesTrampoline v (planted v m site marker) site marker ↔
      InBranchRange site (codeLocation marker) ∧ ClearOf site marker := by
  rw [← blTarget_at_planted_iff (m := m) hv halign]
  exact and_iff_left (planted_holds m site marker hv)

/-- At the site of a patch there is no instruction that is neither a `bl` nor a word of the
    trampoline. -/
theorem planted_site_ne {insn : BitVec 32} (hv : v.Distinct)
    (halign : (site - codeLocation marker).toNat % 4 = 0) (hinsn : isBl insn = false)
    (hword : insn ∉ trampolineWords v) : read32 (planted v m site marker) site ≠ insn := by
  intro hread
  by_cases hclear : ClearOf site marker
  · rw [planted_word hv halign (by simp) hclear, if_pos rfl] at hread
    have htrue := isBl_of_blTarget
      (blTarget_bl site (arm64BranchLocationInstruction_opcode site (codeLocation marker)))
    rw [hread, hinsn] at htrue
    cases htrue
  · unfold ClearOf at hclear
    obtain ⟨w, hw, hword'⟩ := (planted_holds m site marker hv).get halign
      (by rw [hv.length]; omega)
    exact hword (hread ▸ hword' ▸ hw)

/-- After a second patch, whose site was another instruction, the site of the first one
    reaches its trampoline when it did before and the second trampoline lies apart from the
    first one and from the site. -/
theorem reaches_planted_planted_iff {v' : IrmVariant} {site' marker' : Addr} {insn : BitVec 32}
    (hv : v.Distinct) (hv' : v'.Distinct) (hne : trampolineWords v ≠ trampolineWords v')
    (hinsn : isBl insn = false) (hword : insn ∉ trampolineWords v)
    (halign : (site - codeLocation marker).toNat % 4 = 0)
    (hsites : (site - site').toNat % 4 = 0)
    (hmarkers : (codeLocation marker' - codeLocation marker).toNat % 4 = 0)
    (hread : read32 (planted v m site marker) site' = insn) :
    ReachesTrampoline v (planted v' (planted v m site marker) site' marker') site marker ↔
      (InBranchRange site (codeLocation marker) ∧ ClearOf site marker) ∧
        Apart (codeLocation marker) 92 (codeLocation marker') 92 ∧ ClearOf site marker' := by
  have halign' : (site - codeLocation marker').toNat % 4 = 0 := by bv_omega
  have hmarkers' : (codeLocation marker - codeLocation marker').toNat % 4 = 0 := by bv_omega
  have hsite' : (codeLocation marker - site').toNat % 4 = 0 := by bv_omega
  have hholds := planted_holds m site marker hv
  have hother : site ≠ site' := by
    rintro rfl
    exact planted_site_ne hv halign hinsn hword hread
  rw [← reaches_planted_iff (m := m) hv halign]
  constructor
  · rintro ⟨hbl, hold⟩
    -- What is planted last is there, so that the first one must lie apart from it.
    have hold' := planted_holds (planted v m site marker) site' marker' hv'
    have hapart := HoldsWords.apart hv hv' hne hmarkers hold hold'
    have hclear' := clearOf_of_bl hv' halign' hold' hbl
    rw [planted_word hv' halign' hsites hclear', if_neg hother] at hbl
    exact ⟨⟨hbl, hholds⟩, hapart, hclear'⟩
  · rintro ⟨⟨hbl, -⟩, hapart, hclear'⟩
    refine ⟨?_, ?_⟩
    · rw [planted_word hv' halign' hsites hclear', if_neg hother]
      exact hbl
    · -- No word of the first trampoline is overwritten.
      intro k w hk
      have hlt : k < 23 := hv.length ▸ (List.getElem?_eq_some_iff.mp hk).1
      have hclear : ClearOf (wordAddr (codeLocation marker) k) marker' :=
        hapart.symm.outside (by omega)
      have hal := wordAddr_mod_four hmarkers' k
      have hal' := wordAddr_mod_four hsite' k
      have hword' := hholds k w hk
      have hne' : wordAddr (codeLocation marker) k ≠ site' := by
        intro heq
        rw [heq, hread] at hword'
        exact hword (hword' ▸ List.mem_of_getElem? hk)
      rw [planted_word hv' hal hal' hclear, if_neg hne', hword']

end Planted

end KernelErrataPatcher
