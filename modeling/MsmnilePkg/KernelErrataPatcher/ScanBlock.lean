/-
  MsmnilePkg.KernelErrataPatcher.ScanBlock

  The skeleton the ACTLR_EL1, AMCNTENSET0_EL0 and PSCI_MEMPROTECT code share.

  The compiler lays every one of these loops out the same way: the prologue
  finds the first entry of the load-order list, constants are loaded, the
  bounds of the first image are computed, and a scan steps `x2` through the
  image.  A block differs in its registers, its constants and what it does to
  the word at the cursor.  The walk through the skeleton is done once, in
  `ScanBlock.run`; a block supplies its constants and the test of one word.
-/

import MsmnilePkg.KernelErrataPatcher.Reference

namespace KernelErrataPatcher

open ByteMem A64 WordScan

/-- Two states agree on the registers of a list. -/
def SameOn (rs : List Reg) (s t : State) : Prop := ∀ r ∈ rs, t.gpr r = s.gpr r

theorem SameOn.refl (rs : List Reg) (s : State) : SameOn rs s s := fun _ _ => rfl

theorem SameOn.trans {rs : List Reg} {s t u : State} (h1 : SameOn rs s t) (h2 : SameOn rs t u) :
    SameOn rs s u := fun r hr => (h2 r hr).trans (h1 r hr)

theorem SameOn.mono {rs rs' : List Reg} {s t : State} (h : SameOn rs s t) (hsub : rs' ⊆ rs) :
    SameOn rs' s t := fun r hr => h r (hsub hr)

theorem SameOn.setGpr {rs : List Reg} {s t : State} {r : Reg} {v : BitVec 64}
    (h : SameOn rs s t) (hr : r ∉ rs) : SameOn rs s (t.setGpr r v) := by
  intro r' hr'
  have hne : r' ≠ r := fun he => hr (he ▸ hr')
  rw [State.gpr_setGpr, if_neg hne]
  exact h r' hr'

/-- The registers the transfer to the kernel still needs: the two arguments, the
    return address and the stack pointer. -/
def transferRegs : List Reg := [0#5, 1#5, 30#5, 31#5]

/-! ## The instructions every block begins with -/

section Prologue

variable {code : Code} {base : Addr} {prog : List Instr}

/-- The walk to the first entry of the list; an empty list leads to `x` at once. -/
theorem reach_firstEntry (hl : Loaded code base prog) {h e : Reg} {x : Nat}
    (h0 : prog[0]? = some (movX h 0#5))
    (h1 : prog[1]? = some (ldrXPre e h 16#64))
    (h2 : prog[2]? = some (cmpX e h))
    (h3 : prog[3]? = some (.bcond .eq (dist 3 x)))
    (hne : h ≠ e) (hhead : h ∉ transferRegs) (hentry : e ∉ transferRegs)
    {s : State} (hpc : s.pc = pcOf base 0) {entry : Addr}
    (hfirst : entry = firstEntry s.mem (s.gpr 0#5)) :
    Reach code (fun t =>
      t.pc = pcOf base (if entry = loadOrderListHead (s.gpr 0#5) then x else 4) ∧
      t.gpr e = entry ∧ t.mem = s.mem ∧ SameOn transferRegs s t) s := by
  have hhead31 : h ≠ 31#5 := fun hx => hhead (hx ▸ by decide)
  have hentry31 : e ≠ 31#5 := fun hx => hentry (hx ▸ by decide)
  -- mov h, x0
  refine .set (r := h) (v := s.gpr 0#5) hl 0 hpc h0 ?_ ?_
  · rw [exec_movX, State.setX_of_ne hhead31, State.x_of_ne (by decide)]
  -- ldr e, [h, #16]!
  refine .instr hl 1 rfl h1 ?_
  rw [exec_ldrXPre, State.setX_of_ne hentry31]
  have hload : read64 s.mem (s.gpr 0#5 + 16#64) = entry := hfirst.symm
  simp only [State.gpr_setPc, State.gpr_setGpr, if_pos, State.mem_setPc, State.mem_setGpr, hload]
  have hsame : SameOn transferRegs s (((s.setGpr h (s.gpr 0#5)).setGpr h
      (s.gpr 0#5 + 16#64)).setGpr e entry) :=
    (((SameOn.refl _ s).setGpr hhead).setGpr hhead).setGpr hentry
  -- cmp e, h; b.eq to the end
  refine .cmpX (q := entry = loadOrderListHead (s.gpr 0#5)) hentry31 hhead31 hl 2 x
    (pcOf_next base 1) h2 h3 ?_ ?_ ?_
  · rw [holds_eq, decide_eq_decide]
    simp [hne, loadOrderListHead]
  · intro hempty f
    rw [if_pos hempty]
    exact .refl ⟨rfl, by simp, rfl, hsame⟩
  · intro hempty f
    rw [if_neg hempty]
    exact .refl ⟨rfl, by simp, rfl, hsame⟩

/-- The bounds of the image of an entry. -/
theorem reach_bounds (hl : Loaded code base prog) (k : Nat) {e l : Reg}
    (h0 : prog[k]? = some (ldrX 2#5 e 48#64))
    (h1 : prog[k + 1]? = some (ldrW l e 64#64))
    (h2 : prog[k + 2]? = some (addX l l 2#5))
    (hentry : e ≠ 2#5) (hlim2 : l ≠ 2#5) (hlim31 : l ≠ 31#5)
    {s : State} (hpc : s.pc = pcOf base k) {entry first limit : Addr}
    (hgpr : s.gpr e = entry) (hfirst : first = dllBase s.mem entry)
    (hlimit : limit = first + sizeOfImage s.mem entry) :
    Reach code (fun t => t.pc = pcOf base (k + 3) ∧ t.gpr 2#5 = first ∧ t.gpr l = limit ∧
      t.mem = s.mem ∧ ∀ rs : List Reg, 2#5 ∉ rs → l ∉ rs → SameOn rs s t) s := by
  have hsize : (read32 s.mem (entry + 64#64)).setWidth 64 = sizeOfImage s.mem entry := rfl
  have hbase : read64 s.mem (entry + 48#64) = first := hfirst.symm
  -- ldr x2, [e, #48]
  refine .ldrX (by decide) hl k hpc h0 ?_
  rw [hgpr, hbase]
  -- ldr l, [e, #64], a word
  refine .ldrW hlim31 hl (k + 1) rfl h1 ?_
  simp only [State.gpr_setPc, State.gpr_setGpr, if_neg hentry, State.mem_setPc, State.mem_setGpr,
    hgpr, hsize]
  -- add l, l, x2
  refine .set (r := l) (v := limit) hl (k + 2) rfl h2 ?_ (.refl ⟨rfl, ?_, ?_, rfl, ?_⟩)
  · rw [exec_addX, State.setX_of_ne hlim31, State.x_of_ne hlim31, State.x_of_ne (by decide),
      hlimit, BitVec.add_comm]
    simp [hlim2.symm]
  · simp [hlim2.symm]
  · simp
  · exact fun rs h2 hlim => (((SameOn.refl rs s).setGpr h2).setGpr hlim).setGpr hlim

end Prologue

/-! ## Blocks that rewrite word by word -/

/-- The registers, constants and instruction indices of a block, and what its scan
    does to the memory at the cursor. -/
structure ScanBlock where
  prog : List Instr
  headReg : Reg
  entryReg : Reg
  limitReg : Reg
  consts : List (Reg × BitVec 64)
  image : Nat
  nextWord : Nat
  imageEnd : Nat
  body : Mem → Addr → Mem

namespace ScanBlock

/-- The test of a word follows the step to the next word. -/
def testWord (b : ScanBlock) : Nat := b.nextWord + 3

/-- The registers that stay as they are while the image is scanned. -/
def liveRegs (b : ScanBlock) : List Reg := transferRegs ++ b.limitReg :: b.consts.map Prod.fst

/-- The constants are in their registers. -/
def ConstsIn (b : ScanBlock) (s : State) : Prop := ∀ p ∈ b.consts, s.gpr p.1 = p.2

theorem ConstsIn.of_sameOn {b : ScanBlock} {s t : State} (h : b.ConstsIn s)
    (hst : SameOn (b.consts.map Prod.fst) s t) : b.ConstsIn t := by
  intro p hp
  rw [hst p.1 (List.mem_map.mpr ⟨p, hp, rfl⟩)]
  exact h p hp

theorem consts_sub_live (b : ScanBlock) : b.consts.map Prod.fst ⊆ b.liveRegs := fun _ hr =>
  List.mem_append.mpr (Or.inr (List.mem_cons_of_mem _ hr))

theorem transfer_sub_live (b : ScanBlock) : transferRegs ⊆ b.liveRegs :=
  List.subset_append_left _ _

/-- The instructions of the skeleton, at the indices the block gives. -/
structure Layout (b : ScanBlock) : Prop where
  start0 : b.prog[0]? = some (movX b.headReg 0#5)
  start1 : b.prog[1]? = some (ldrXPre b.entryReg b.headReg 16#64)
  start2 : b.prog[2]? = some (cmpX b.entryReg b.headReg)
  start3 : b.prog[3]? = some (.bcond .eq (dist 3 b.prog.length))
  image0 : b.prog[b.image]? = some (ldrX 2#5 b.entryReg 48#64)
  image1 : b.prog[b.image + 1]? = some (ldrW b.limitReg b.entryReg 64#64)
  image2 : b.prog[b.image + 2]? = some (addX b.limitReg b.limitReg 2#5)
  image3 : b.prog[b.image + 3]? = some (cmpX 2#5 b.limitReg)
  image4 : b.prog[b.image + 4]? = some (.bcond .cc (dist (b.image + 4) b.testWord))
  image5 : b.prog[b.image + 5]? = some (.b (dist (b.image + 5) b.imageEnd))
  next0 : b.prog[b.nextWord]? = some (addXi 2#5 2#5 4#64)
  next1 : b.prog[b.nextWord + 1]? = some (cmpX 2#5 b.limitReg)
  next2 : b.prog[b.nextWord + 2]? = some (.bcond .cs (dist (b.nextWord + 2) b.imageEnd))
  end0 : b.prog[b.imageEnd]? = some (ldrX b.entryReg b.entryReg 0#64)
  end1 : b.prog[b.imageEnd + 1]? = some (cmpX b.entryReg b.headReg)
  end2 : b.prog[b.imageEnd + 2]? = some (.b (dist (b.imageEnd + 2) b.prog.length))
  head_ne : b.headReg ≠ b.entryReg
  head_live : b.headReg ∉ transferRegs
  entry_live : b.entryReg ∉ b.liveRegs
  cursor_live : (2#5 : Reg) ∉ b.liveRegs
  cursor_entry : b.entryReg ≠ 2#5
  limit_live : b.limitReg ∉ transferRegs
  limit_consts : b.limitReg ∉ b.consts.map Prod.fst
  limit_entry : b.limitReg ≠ b.entryReg

/-- What a block has to supply, for its program loaded anywhere: from instruction 4
    on it loads its constants, and from the test it comes to the next word with the
    body done. -/
structure Pieces (b : ScanBlock) (code : Code) (base : Addr) : Prop where
  consts : ∀ s : State, s.pc = pcOf base 4 →
    Reach code (fun t => t.pc = pcOf base b.image ∧ b.ConstsIn t ∧ t.mem = s.mem ∧
      SameOn (b.headReg :: b.entryReg :: transferRegs) s t) s
  body : ∀ s : State, s.pc = pcOf base b.testWord → b.ConstsIn s →
    Reach code (fun t => t.pc = pcOf base b.nextWord ∧ t.mem = b.body s.mem (s.gpr 2#5) ∧
      SameOn (2#5 :: b.liveRegs) s t) s

section Walk

variable {b : ScanBlock} {code : Code} {base : Addr}

/-- At the end of the image the block is left by its last branch. -/
theorem reach_end (hb : b.Layout) (hl : Loaded code base b.prog) {s : State}
    (hpc : s.pc = pcOf base b.imageEnd) :
    Reach code (fun t => t.pc = pcOf base b.prog.length ∧ t.mem = s.mem ∧
      SameOn b.liveRegs s t) s := by
  have hentry : b.entryReg ≠ 31#5 := fun h =>
    hb.entry_live (h ▸ transfer_sub_live b (by decide))
  refine .ldrX hentry hl b.imageEnd hpc hb.end0 ?_
  refine .flags hl (b.imageEnd + 1) rfl hb.end1 (exec_cmpX ..) ?_
  refine .b hl (b.imageEnd + 2) b.prog.length rfl hb.end2 (.refl ⟨rfl, rfl, ?_⟩)
  exact (SameOn.refl b.liveRegs s).setGpr hb.entry_live

/-- The step to the next word comes back to the test while words are left. -/
theorem reach_next (hb : b.Layout) (hl : Loaded code base b.prog) {s : State} {c limit : Addr}
    (hpc : s.pc = pcOf base b.nextWord) (hc : s.gpr 2#5 = c) (hlim : s.gpr b.limitReg = limit) :
    Reach code (fun t => t.pc = pcOf base (if c + 4#64 < limit then b.testWord else b.imageEnd) ∧
      t.gpr 2#5 = c + 4#64 ∧ t.mem = s.mem ∧ SameOn b.liveRegs s t) s := by
  have hlim31 : b.limitReg ≠ 31#5 := fun h => hb.limit_live (h ▸ by decide)
  have hlim2 : b.limitReg ≠ 2#5 := fun h => hb.cursor_live (by simp [liveRegs, ← h])
  have hsame : SameOn b.liveRegs s (s.setGpr 2#5 (c + 4#64)) :=
    (SameOn.refl b.liveRegs s).setGpr hb.cursor_live
  refine .set (r := 2#5) (v := c + 4#64) hl b.nextWord hpc hb.next0 (by rw [exec_addXi, hc]) ?_
  refine .cmpX (q := ¬ c + 4#64 < limit) (by decide) hlim31 hl (b.nextWord + 1) b.imageEnd rfl
    hb.next1 hb.next2 ?_ ?_ ?_
  · rw [holds_cs, decide_eq_decide, BitVec.not_lt]
    simp [hlim2, hlim]
  · intro hlt f
    rw [if_neg hlt]
    exact .refl ⟨rfl, rfl, rfl, hsame⟩
  · intro hlt f
    rw [if_pos (not_not.mp hlt)]
    exact .refl ⟨rfl, rfl, rfl, hsame⟩

/-- The scan of a range of at least one word, from its first test on. -/
theorem reach_scan (hb : b.Layout) (hp : b.Pieces code base) (hl : Loaded code base b.prog)
    (n : Nat) : ∀ (s : State) (c limit : Addr), s.pc = pcOf base b.testWord → s.gpr 2#5 = c →
      s.gpr b.limitReg = limit → b.ConstsIn s → c.toNat + 4 * (n + 1) = limit.toNat →
      Reach code (fun t => t.pc = pcOf base b.imageEnd ∧
        t.mem = scanUntil never b.body (n + 1) c s.mem ∧ SameOn b.liveRegs s t) s := by
  have hlimit : b.limitReg ∈ b.liveRegs := by simp [liveRegs]
  induction n with
  | zero =>
      intro s c limit hpc hc hlim hconsts hlen
      -- the last word: the step to the next one leaves the loop
      refine (hp.body s hpc hconsts).trans ?_
      rintro t ⟨htpc, htmem, htsame⟩
      have hlt : ¬ c + 4#64 < limit := by
        have := limit.isLt
        bv_omega
      have htc : t.gpr 2#5 = c := (htsame 2#5 (List.mem_cons_self ..)).trans hc
      have htlim : t.gpr b.limitReg = limit :=
        (htsame _ (List.mem_cons_of_mem _ hlimit)).trans hlim
      refine (reach_next hb hl htpc htc htlim).mono ?_
      rintro u ⟨hupc, -, humem, husame⟩
      rw [if_neg hlt] at hupc
      refine ⟨hupc, ?_, (htsame.mono (List.subset_cons_self ..)).trans husame⟩
      rw [humem, htmem, hc]
      rfl
  | succ n ih =>
      intro s c limit hpc hc hlim hconsts hlen
      refine (hp.body s hpc hconsts).trans ?_
      rintro t ⟨htpc, htmem, htsame⟩
      have hlt : c + 4#64 < limit := by
        have := limit.isLt
        bv_omega
      have htc : t.gpr 2#5 = c := (htsame 2#5 (List.mem_cons_self ..)).trans hc
      have htlim : t.gpr b.limitReg = limit :=
        (htsame _ (List.mem_cons_of_mem _ hlimit)).trans hlim
      refine (reach_next hb hl htpc htc htlim).trans ?_
      rintro u ⟨hupc, huc, humem, husame⟩
      rw [if_pos hlt] at hupc
      have hsu : SameOn b.liveRegs s u := (htsame.mono (List.subset_cons_self ..)).trans husame
      have hrest : (c + 4#64).toNat + 4 * (n + 1) = limit.toNat := by
        have := limit.isLt
        bv_omega
      refine (ih u (c + 4#64) limit hupc huc ((hsu _ hlimit).trans hlim)
        (hconsts.of_sameOn (hsu.mono (consts_sub_live b))) hrest).mono ?_
      rintro v ⟨hvpc, hvmem, hvsame⟩
      refine ⟨hvpc, ?_, hsu.trans hvsame⟩
      rw [hvmem, humem, htmem, hc]
      rfl

/-- The bounds of the image, and the test for an image without words. -/
theorem reach_image (hb : b.Layout) (hl : Loaded code base b.prog) {s : State} {entry : Addr}
    (hpc : s.pc = pcOf base b.image) (hentry : s.gpr b.entryReg = entry)
    (hconsts : b.ConstsIn s) {first limit : Addr} (hfirst : first = dllBase s.mem entry)
    (hlimit : limit = first + sizeOfImage s.mem entry) :
    Reach code (fun t => t.pc = pcOf base (if first < limit then b.testWord else b.imageEnd) ∧
      t.gpr 2#5 = first ∧ t.gpr b.limitReg = limit ∧ t.mem = s.mem ∧ b.ConstsIn t ∧
      SameOn transferRegs s t) s := by
  have hlim31 : b.limitReg ≠ 31#5 := fun h => hb.limit_live (h ▸ by decide)
  have hlim2 : b.limitReg ≠ 2#5 := fun h => hb.cursor_live (by simp [liveRegs, ← h])
  refine (reach_bounds hl b.image hb.image0 hb.image1 hb.image2 hb.cursor_entry hlim2 hlim31 hpc
    hentry hfirst hlimit).trans ?_
  rintro t ⟨htpc, htfirst, htlimit, htmem, htsame⟩
  have hlive : SameOn transferRegs s t :=
    htsame _ (fun h => hb.cursor_live (transfer_sub_live b h)) hb.limit_live
  have htconsts : b.ConstsIn t := hconsts.of_sameOn
    (htsame _ (fun h => hb.cursor_live (consts_sub_live b h)) hb.limit_consts)
  refine .cmpX (q := first < limit) (by decide) hlim31 hl (b.image + 3) b.testWord htpc hb.image3
    hb.image4 ?_ ?_ ?_
  · rw [holds_cc, htfirst, htlimit]
  · intro hlt f
    rw [if_pos hlt]
    exact .refl ⟨rfl, htfirst, htlimit, htmem, htconsts, hlive⟩
  · -- no word: the branch behind the test goes to the end of the image
    intro hlt f
    rw [if_neg hlt]
    exact .b hl (b.image + 5) b.imageEnd rfl hb.image5
      (.refl ⟨rfl, htfirst, htlimit, htmem, htconsts, hlive⟩)

end Walk

/-- Where a block leaves the machine: behind its last instruction, the registers of the
    transfer as they were, and the first image patched. -/
def Done (b : ScanBlock) (base : Addr) (s t : State) : Prop :=
  t.pc = pcOf base b.prog.length ∧ t.mem = firstModuleMem b.body s.mem (s.gpr 0#5) ∧
    SameOn transferRegs s t

/-- A block with the layout and the pieces of the skeleton patches the first image. -/
theorem run {b : ScanBlock} {code : Code} {base : Addr} (hb : b.Layout)
    (hp : b.Pieces code base) (hl : Loaded code base b.prog) {s : State}
    (hpc : s.pc = pcOf base 0) (himg : FirstImageOk s.mem (s.gpr 0#5)) :
    Reach code (b.Done base s) s := by
  have hsub := transfer_sub_live b
  obtain ⟨entry, hentry⟩ : ∃ entry, entry = firstEntry s.mem (s.gpr 0#5) := ⟨_, rfl⟩
  refine (reach_firstEntry hl hb.start0 hb.start1 hb.start2 hb.start3 hb.head_ne hb.head_live
    (fun h => hb.entry_live (hsub h)) hpc hentry).trans ?_
  rintro t ⟨htpc, htentry, htmem, htsame⟩
  by_cases hempty : entry = loadOrderListHead (s.gpr 0#5)
  · -- the list is empty, and the block leads to its end at once
    rw [if_pos hempty] at htpc
    refine .refl ⟨htpc, ?_, htsame⟩
    rw [firstModuleMem, ← hentry, if_pos hempty, htmem]
  rw [if_neg hempty] at htpc
  have hok : ImageOk (dllBase s.mem entry) (sizeOfImage s.mem entry) :=
    hentry ▸ himg (hentry ▸ hempty)
  have hmem : firstModuleMem b.body s.mem (s.gpr 0#5) = scanUntil never b.body
      (wordCount (sizeOfImage s.mem entry)) (dllBase s.mem entry) s.mem := by
    rw [firstModuleMem, ← hentry, if_neg hempty]
  refine (hp.consts t htpc).trans ?_
  rintro u ⟨hupc, huconsts, humem, husame⟩
  have hsu : SameOn transferRegs s u :=
    htsame.trans (husame.mono fun r hr => List.mem_cons_of_mem _ (List.mem_cons_of_mem _ hr))
  have huentry : u.gpr b.entryReg = entry := by
    rw [husame b.entryReg (by simp), htentry]
  refine (reach_image hb hl hupc huentry huconsts rfl rfl).trans ?_
  rw [humem, htmem]
  rintro v ⟨hvpc, hvc, hvlim, hvmem, hvconsts, hvsame⟩
  have hlen := hok.limit
  by_cases hlt : dllBase s.mem entry < dllBase s.mem entry + sizeOfImage s.mem entry
  · rw [if_pos hlt] at hvpc
    obtain ⟨n, hn⟩ : ∃ n, wordCount (sizeOfImage s.mem entry) = n + 1 :=
      ⟨wordCount (sizeOfImage s.mem entry) - 1, by rw [BitVec.lt_def] at hlt; omega⟩
    rw [hn] at hlen hmem
    refine (reach_scan hb hp hl n v _ _ hvpc hvc hvlim hvconsts hlen).trans ?_
    rintro w ⟨hwpc, hwmem, hwsame⟩
    refine (reach_end hb hl hwpc).mono ?_
    rintro z ⟨hzpc, hzmem, hzsame⟩
    refine ⟨hzpc, ?_, hsu.trans (hvsame.trans ((hwsame.trans hzsame).mono hsub))⟩
    rw [hzmem, hwmem, hvmem, hmem]
  · rw [if_neg hlt] at hvpc
    have hn : wordCount (sizeOfImage s.mem entry) = 0 := by rw [BitVec.lt_def] at hlt; omega
    refine (reach_end hb hl hvpc).mono ?_
    rintro z ⟨hzpc, hzmem, hzsame⟩
    refine ⟨hzpc, ?_, hsu.trans (hvsame.trans (hzsame.mono hsub))⟩
    rw [hzmem, hvmem, hmem, hn]
    rfl

end ScanBlock

end KernelErrataPatcher
