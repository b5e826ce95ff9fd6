/-
  MsmnilePkg.KernelErrataPatcher.IrmSelect

  Which instruction and which marker an IRM scan ends with.

  The scan keeps the last match of each pattern and stops when it has one of
  both.  So it ends with the first instruction and the last marker before it,
  or with the first marker and the last instruction before it, whichever pair
  is complete first.  A match at address zero counts as none.
-/

import MsmnilePkg.KernelErrataPatcher.Reference

namespace KernelErrataPatcher

open ByteMem WordScan

section Image

variable (insn : BitVec 32) (m : Mem) (base : Addr)

/-- Word `k` of the image is the instruction. -/
def InsnAt (k : Nat) : Prop :=
  wordAddr base k ≠ 0#64 ∧ read32 m (wordAddr base k) = insn

/-- The doubleword at word `k` of the image is the marker. -/
def MarkerAt (k : Nat) : Prop :=
  wordAddr base k ≠ 0#64 ∧ read64 m (wordAddr base k) = irmMarker

/-- Of the matches `P`, those at `i` and the matches `Q`, that at `j`: `i` is the first one
    and `j` the last one before it. -/
def FirstAndLastBefore (P Q : Nat → Prop) (i j : Nat) : Prop :=
  P i ∧ Q j ∧ j < i ∧ (∀ k < i, ¬ P k) ∧ ∀ k, j < k → k < i → ¬ Q k

/-- The match of `P` at `i` and the match of `Q` at `j` are the pair that is complete first. -/
def CompletedFirst (P Q : Nat → Prop) (i j : Nat) : Prop :=
  FirstAndLastBefore P Q i j ∨ FirstAndLastBefore Q P j i

/-- The words `i` and `j` of the image with which the scan ends. -/
def SelectsAt (i j : Nat) : Prop :=
  CompletedFirst (InsnAt insn m base) (MarkerAt m base) i j

end Image

/-- The instruction and the marker with which the scan of the first image ends. -/
def IrmSelects (insn : BitVec 32) (m : Mem) (loaderBlock site marker : Addr) : Prop :=
  firstEntry m loaderBlock ≠ loadOrderListHead loaderBlock ∧
  ∃ i < wordCount (sizeOfImage m (firstEntry m loaderBlock)),
  ∃ j < wordCount (sizeOfImage m (firstEntry m loaderBlock)),
    SelectsAt insn m (dllBase m (firstEntry m loaderBlock)) i j ∧
    site = wordAddr (dllBase m (firstEntry m loaderBlock)) i ∧
    marker = wordAddr (dllBase m (firstEntry m loaderBlock)) j

theorem FirstAndLastBefore.unique {P Q : Nat → Prop} {i j i' j' : Nat}
    (h : FirstAndLastBefore P Q i j) (h' : FirstAndLastBefore P Q i' j') : i = i' ∧ j = j' := by
  obtain ⟨hP, hQ, hlt, hfirst, hlast⟩ := h
  obtain ⟨hP', hQ', hlt', hfirst', hlast'⟩ := h'
  have hi : i = i' := by
    rcases Nat.lt_trichotomy i i' with hl | he | hg
    · exact absurd hP (hfirst' i hl)
    · exact he
    · exact absurd hP' (hfirst i' hg)
  subst hi
  refine ⟨rfl, ?_⟩
  rcases Nat.lt_trichotomy j j' with hl | he | hg
  · exact absurd hQ' (hlast j' hl hlt')
  · exact he
  · exact absurd hQ (hlast' j hg hlt)

/-- Only one of the two pairs is complete first. -/
theorem FirstAndLastBefore.exclusive {P Q : Nat → Prop} {i j i' j' : Nat}
    (h : FirstAndLastBefore P Q i j) (h' : FirstAndLastBefore Q P j' i') : False := by
  obtain ⟨hP, hQ, hlt, hfirst, -⟩ := h
  obtain ⟨hQ', hP', hlt', hfirst', -⟩ := h'
  have hi : ¬ i' < i := fun hl => hfirst i' hl hP'
  have hj : ¬ j < j' := fun hl => hfirst' j hl hQ
  omega

theorem CompletedFirst.unique {P Q : Nat → Prop} {i j i' j' : Nat}
    (h : CompletedFirst P Q i j) (h' : CompletedFirst P Q i' j') : i = i' ∧ j = j' := by
  rcases h with h | h
  · rcases h' with h' | h'
    · exact h.unique h'
    · exact (h.exclusive h').elim
  · rcases h' with h' | h'
    · exact (h'.exclusive h).elim
    · exact (h.unique h').symm

theorem IrmSelects.unique {insn : BitVec 32} {m : Mem}
    {loaderBlock site marker site' marker' : Addr} (h : IrmSelects insn m loaderBlock site marker)
    (h' : IrmSelects insn m loaderBlock site' marker') : site = site' ∧ marker = marker' := by
  obtain ⟨-, i, -, j, -, hsel, rfl, rfl⟩ := h
  obtain ⟨-, i', -, j', -, hsel', rfl, rfl⟩ := h'
  obtain ⟨rfl, rfl⟩ := hsel.unique hsel'
  exact ⟨rfl, rfl⟩

/-! ## The scan -/

/-- `a` is the address of the last match before word `k`, zero when there is none. -/
def LastMatch (P : Nat → Prop) (base : Addr) (k : Nat) (a : Addr) : Prop :=
  (a = 0#64 ∧ ∀ i < k, ¬ P i) ∨ ∃ i < k, a = wordAddr base i ∧ P i ∧ ∀ l, i < l → l < k → ¬ P l

/-- One turn of the scan moves the last match on. -/
theorem LastMatch.step {P : Nat → Prop} {base : Addr} {k : Nat} {a : Addr} {hit : Prop}
    [Decidable hit] (h : LastMatch P base k a) (hP : P k ↔ wordAddr base k ≠ 0#64 ∧ hit)
    (hzero : wordAddr base k = 0#64 → a = 0#64) :
    LastMatch P base (k + 1) (if hit then wordAddr base k else a) := by
  by_cases hk : P k
  · rw [if_pos (hP.mp hk).2]
    exact Or.inr ⟨k, Nat.lt_succ_self k, rfl, hk, fun l hl hl' => by omega⟩
  · -- A hit at address 0 is none, and leaves 0 as it was.
    have hsame : (if hit then wordAddr base k else a) = a := by
      by_cases hhit : hit
      · have hz : wordAddr base k = 0#64 := by
          by_contra hne
          exact hk (hP.mpr ⟨hne, hhit⟩)
        rw [if_pos hhit, hz, hzero hz]
      · rw [if_neg hhit]
    rw [hsame]
    -- The last match stays the last one when there is none at k.
    rcases h with ⟨ha, hnone⟩ | ⟨i, hi, ha, hPi, hlast⟩
    · refine Or.inl ⟨ha, fun i hi => ?_⟩
      rcases Nat.lt_succ_iff_lt_or_eq.mp hi with hlt | rfl
      · exact hnone i hlt
      · exact hk
    · refine Or.inr ⟨i, by omega, ha, hPi, fun l hl hl' => ?_⟩
      rcases Nat.lt_succ_iff_lt_or_eq.mp hl' with hlt | rfl
      · exact hlast l hl hlt
      · exact hk

theorem LastMatch.none_of_zero {P : Nat → Prop} {base : Addr} {k : Nat} {a : Addr}
    (h : LastMatch P base k a) (hP : ∀ i, P i → wordAddr base i ≠ 0#64) (ha : a = 0#64) :
    ∀ i < k, ¬ P i := by
  rcases h with ⟨-, hnone⟩ | ⟨i, -, rfl, hPi, -⟩
  · exact hnone
  · exact absurd ha (hP i hPi)

theorem LastMatch.index {P : Nat → Prop} {base : Addr} {k : Nat} {a : Addr}
    (h : LastMatch P base k a) (ha : a ≠ 0#64) :
    ∃ i < k, a = wordAddr base i ∧ P i ∧ ∀ l, i < l → l < k → ¬ P l := by
  rcases h with ⟨hz, -⟩ | hi
  · exact absurd hz ha
  · exact hi

section Scan

variable {insn : BitVec 32} {m : Mem} {base : Addr} {count : Nat}

theorem marker_ne_insn (hinsn : insn ≠ 0x00090003#32) {k : Nat} (h : InsnAt insn m base k) :
    ¬ MarkerAt m base k := by
  rintro ⟨-, hmark⟩
  have hlow : read32 m (wordAddr base k) = 0x00090003#32 := by
    rw [← read64_lo, hmark]
    rfl
  exact hinsn (h.2.symm.trans hlow)

/-- The scan from word `k` on, with the last matches before it. -/
theorem irm_scan_selects (hinsn : insn ≠ 0x00090003#32) (hend : base.toNat + 4 * count < 2 ^ 64) :
    ∀ (n k : Nat) (f : IrmFound), k + n = count → LastMatch (InsnAt insn m base) base k f.gicInstr →
      LastMatch (MarkerAt m base) base k f.realEstateFunc → f.both = false →
      ∀ f', (scanUntil Prod.snd (irmBody insn m) n (wordAddr base k) (f, false)).1 = f' →
        (f'.both = true → ∃ i < count, ∃ j < count, SelectsAt insn m base i j ∧
          f'.gicInstr = wordAddr base i ∧ f'.realEstateFunc = wordAddr base j) ∧
        (f'.both = false →
          (∀ i < count, ¬ InsnAt insn m base i) ∨ ∀ j < count, ¬ MarkerAt m base j) := by
  -- By induction on the words that are left.  What is found so far is the last match before
  -- the cursor, and never one of each kind, or the scan would have stopped.
  intro n
  induction n with
  | zero =>
      intro k f hk hgic hreal hboth f' hf'
      obtain rfl : f = f' := hf'
      obtain rfl : k = count := hk
      -- The end of the image: one of the two was never found.
      refine ⟨fun h => absurd h (by simp [hboth]), fun _ => ?_⟩
      by_cases hz : f.gicInstr = 0#64
      · exact Or.inl (hgic.none_of_zero (fun i h => h.1) hz)
      · have hz' : f.realEstateFunc = 0#64 := by
          by_contra hne
          simp [IrmFound.both, hz, hne] at hboth
        exact Or.inr (hreal.none_of_zero (fun i h => h.1) hz')
  | succ n ih =>
      intro k f hk hgic hreal hboth f' hf'
      have hzero : wordAddr base k = 0#64 → k = 0 := by
        unfold wordAddr
        intro h
        bv_omega
      have hstart : ∀ {P : Nat → Prop} {a : Addr}, LastMatch P base k a →
          wordAddr base k = 0#64 → a = 0#64 := by
        rintro P a (⟨ha, -⟩ | ⟨i, hi, -⟩) h
        · exact ha
        · exact absurd hi (by rw [hzero h]; exact Nat.not_lt_zero i)
      -- The turn keeps the invariant.
      have hgic' : LastMatch (InsnAt insn m base) base (k + 1)
          (irmMatch insn m f (wordAddr base k)).gicInstr := hgic.step Iff.rfl (hstart hgic)
      have hreal' : LastMatch (MarkerAt m base) base (k + 1)
          (irmMatch insn m f (wordAddr base k)).realEstateFunc := hreal.step Iff.rfl (hstart hreal)
      have hnext : wordAddr base k + 4#64 = wordAddr base (k + 1) := by
        unfold wordAddr
        bv_omega
      have hturn : (scanUntil Prod.snd (irmBody insn m) n (wordAddr base k + 4#64)
          (irmMatch insn m f (wordAddr base k), (irmMatch insn m f (wordAddr base k)).both)).1
            = f' := hf'
      cases hb : (irmMatch insn m f (wordAddr base k)).both with
      | false =>
          rw [hb, hnext] at hturn
          exact ih (k + 1) _ (by omega) hgic' hreal' hb f' hturn
      | true =>
          -- The scan stops here: one of the two matches is at `k` and is the first of its kind.
          rw [hb, scanUntil_stopped rfl] at hturn
          obtain rfl : irmMatch insn m f (wordAddr base k) = f' := hturn
          refine ⟨fun _ => ?_, fun h => absurd h (by simp [hb])⟩
          obtain ⟨hgne, hrne⟩ : (irmMatch insn m f (wordAddr base k)).gicInstr ≠ 0#64 ∧
              (irmMatch insn m f (wordAddr base k)).realEstateFunc ≠ 0#64 := by
            simpa [IrmFound.both] using hb
          obtain ⟨i, hi, hgi, hPi, hlasti⟩ := hgic'.index hgne
          obtain ⟨j, hj, hrj, hPj, hlastj⟩ := hreal'.index hrne
          refine ⟨i, by omega, j, by omega, ?_, hgi, hrj⟩
          rcases Nat.lt_trichotomy j i with hji | rfl | hij
          · -- The marker came before this turn, so no instruction did.
            have hreal0 : f.realEstateFunc ≠ 0#64 := fun hz =>
              hreal.none_of_zero (fun l h => h.1) hz j (by omega) hPj
            have hgic0 : f.gicInstr = 0#64 := by
              by_contra hne
              simp [IrmFound.both, hne, hreal0] at hboth
            have hnone := hgic.none_of_zero (fun l h => h.1) hgic0
            have hik : i = k := by
              by_contra hne
              exact hnone i (by omega) hPi
            exact Or.inl ⟨hPi, hPj, hji, hik ▸ hnone, fun l hl hl' => hlastj l hl (by omega)⟩
          · exact absurd hPj (marker_ne_insn hinsn hPi)
          · -- The instruction came before this turn, so no marker did.
            have hgic0 : f.gicInstr ≠ 0#64 := fun hz =>
              hgic.none_of_zero (fun l h => h.1) hz i (by omega) hPi
            have hreal0 : f.realEstateFunc = 0#64 := by
              by_contra hne
              simp [IrmFound.both, hne, hgic0] at hboth
            have hnone := hreal.none_of_zero (fun l h => h.1) hreal0
            have hjk : j = k := by
              by_contra hne
              exact hnone j (by omega) hPj
            exact Or.inr ⟨hPj, hPi, hij, hjk ▸ hnone, fun l hl hl' => hlasti l hl (by omega)⟩

/-- What the scan of the first image finds is what it selects. -/
theorem irmSelects_iff (hinsn : insn ≠ 0x00090003#32) {loaderBlock site marker : Addr}
    (himg : FirstImageOk m loaderBlock) :
    IrmSelects insn m loaderBlock site marker ↔
      (irmFirstModuleFound insn m loaderBlock).both = true ∧
        irmFirstModuleFound insn m loaderBlock = ⟨site, marker⟩ := by
  by_cases hempty : firstEntry m loaderBlock = loadOrderListHead loaderBlock
  · have hnone : irmFirstModuleFound insn m loaderBlock = ⟨0#64, 0#64⟩ := by
      rw [irmFirstModuleFound, if_pos hempty]
    rw [hnone]
    constructor
    · rintro ⟨hne, -⟩
      exact absurd hempty hne
    · rintro ⟨hboth, -⟩
      exact absurd hboth (by simp [IrmFound.both])
  -- The scan of the first image, from its first word on.
  have hok := himg hempty
  have hfound : irmFirstModuleFound insn m loaderBlock = (scanUntil Prod.snd (irmBody insn m)
      (wordCount (sizeOfImage m (firstEntry m loaderBlock)))
      (wordAddr (dllBase m (firstEntry m loaderBlock)) 0) (⟨0#64, 0#64⟩, false)).1 := by
    rw [irmFirstModuleFound, if_neg hempty, wordAddr_zero]
  have hend : (dllBase m (firstEntry m loaderBlock)).toNat
      + 4 * wordCount (sizeOfImage m (firstEntry m loaderBlock)) < 2 ^ 64 := by
    have := hok.no_wrap
    unfold wordCount
    omega
  obtain ⟨hsome, hnone⟩ := irm_scan_selects hinsn hend _ 0 ⟨0#64, 0#64⟩ (Nat.zero_add _)
    (Or.inl ⟨rfl, fun i hi => absurd hi (Nat.not_lt_zero i)⟩)
    (Or.inl ⟨rfl, fun i hi => absurd hi (Nat.not_lt_zero i)⟩) rfl _ hfound.symm
  have hselected : (irmFirstModuleFound insn m loaderBlock).both = true →
      IrmSelects insn m loaderBlock (irmFirstModuleFound insn m loaderBlock).gicInstr
        (irmFirstModuleFound insn m loaderBlock).realEstateFunc := by
    intro hboth
    obtain ⟨i, hi, j, hj, hsel, hg, hr⟩ := hsome hboth
    exact ⟨hempty, i, hi, j, hj, hsel, hg, hr⟩
  constructor
  · intro h
    -- A scan that selects nothing lacks the instruction or the marker.
    have hboth : (irmFirstModuleFound insn m loaderBlock).both = true := by
      cases hb : (irmFirstModuleFound insn m loaderBlock).both with
      | true => rfl
      | false =>
          obtain ⟨-, i, hi, j, hj, hsel, -, -⟩ := h
          have hmatch : InsnAt insn m (dllBase m (firstEntry m loaderBlock)) i ∧
              MarkerAt m (dllBase m (firstEntry m loaderBlock)) j := by
            rcases hsel with ⟨hP, hQ, -⟩ | ⟨hQ, hP, -⟩
            · exact ⟨hP, hQ⟩
            · exact ⟨hP, hQ⟩
          rcases hnone hb with hno | hno
          · exact absurd hmatch.1 (hno i hi)
          · exact absurd hmatch.2 (hno j hj)
    obtain ⟨hsite, hmarker⟩ := (hselected hboth).unique h
    exact ⟨hboth, by rw [← hsite, ← hmarker]⟩
  · rintro ⟨hboth, heq⟩
    have h := hselected hboth
    rwa [heq] at h

end Scan

end KernelErrataPatcher
