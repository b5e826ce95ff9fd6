/-
  MsmnilePkg.KernelErrataPatcher.ProtectedRange

  What KernelErrataPatcherExitBootServices writes outside the range that
  UnprotectWinload made writable.

  The range is the first section of winload, from `0x1000` on.  The shell code
  is copied in front of a function at the very start of that section, or
  `0x80` bytes behind it.
-/

import MsmnilePkg.KernelErrataPatcher.TransferCall

namespace KernelErrataPatcher

open ByteMem A64 WordScan Efi

/-! ## The range -/

/-- The byte is one of those UnprotectWinload makes writable. -/
def InUnprotected (winloadBase : Addr) (tempSize : BitVec 64) (b : Addr) : Prop :=
  (b - (winloadBase + efiPageSize)).toNat < tempSize.toNat

/-- All `n` bytes from `a` on are. -/
def SpanUnprotected (winloadBase : Addr) (tempSize : BitVec 64) (a : Addr) (n : Nat) : Prop :=
  ∀ b ∈ span a n, InUnprotected winloadBase tempSize b

theorem spanUnprotected_iff {wb a : Addr} {size : BitVec 64} {n : Nat} (hpos : 0 < n)
    (hn : n ≤ 2 ^ 32) (hsize : size.toNat ≤ 2 ^ 33) :
    SpanUnprotected wb size a n ↔ (a - (wb + efiPageSize)).toNat + n ≤ size.toNat := by
  obtain ⟨d, hd⟩ : ∃ d, d = a - (wb + efiPageSize) := ⟨_, rfl⟩
  have hbyte : ∀ i < n, InUnprotected wb size (a + BitVec.ofNat 64 i) ↔
      (d + BitVec.ofNat 64 i).toNat < size.toNat := by
    intro i _
    rw [InUnprotected, hd]
    have hcomm : a + BitVec.ofNat 64 i - (wb + efiPageSize)
        = a - (wb + efiPageSize) + BitVec.ofNat 64 i := by bv_omega
    rw [hcomm]
  rw [← hd]
  constructor
  · intro h
    -- The first and the last byte decide, as the span is shorter than 2 ^ 32.
    have hfirst := (hbyte 0 hpos).mp
      (h _ (List.mem_map.mpr ⟨0, List.mem_range.mpr hpos, rfl⟩))
    have hlast := (hbyte (n - 1) (by omega)).mp
      (h _ (List.mem_map.mpr ⟨n - 1, List.mem_range.mpr (by omega), rfl⟩))
    bv_omega
  · intro h b hb
    obtain ⟨i, hi, rfl⟩ := List.mem_map.mp hb
    have hlt := List.mem_range.mp hi
    apply (hbyte i hlt).mpr
    bv_omega

theorem locateLoop_size {m : Mem} {base : Addr} {size : BitVec 64} : ∀ {fuel : Nat} {a : Addr},
    locateLoop m fuel a = some (base, size) → size = firstSectionSize m base := by
  intro fuel
  induction fuel with
  | zero => intro a h; cases h
  | succ fuel ih =>
      intro a h
      rw [locateLoop] at h
      split at h
      · cases h
        rfl
      · exact ih h

/-- The size of the range comes from a field of 32 bits. -/
theorem locateWinloadBase_size_le {m : Mem} {fwp wb : Addr} {size : BitVec 64}
    (h : locateWinloadBase m fwp = some (wb, size)) : size.toNat ≤ 2 ^ 33 := by
  rw [locateLoop_size h, firstSectionSize_toNat]
  unfold wholePages
  omega

/-! ## The bytes written -/

/-- The memory the search for the call looks at. -/
def fixedUpMem (e : Errata) (fwpKernelSetupPhase1 : Addr) (m : Mem) : Mem :=
  if e.actlrEl1 then (applyReadActlrEl1Patches m fwpKernelSetupPhase1 scanMax).getD m else m

/-- The fix-up writes the four bytes of the instruction. -/
theorem fixUpWinload_written {e : Errata} {fwp : Addr} {s t : Winload}
    (h : fixUpWinload e fwp s = some t) : t.mem = fixedUpMem e fwp s.mem ∧
      ∀ b, b ∈ t.written ↔ b ∈ s.written ∨
        e.actlrEl1 = true ∧ ∃ a, FixedAt s.mem fwp scanMax a ∧ b ∈ span a 4 := by
  rw [fixUpWinload] at h
  rw [fixedUpMem]
  by_cases hactlr : e.actlrEl1 = true
  · rw [if_pos hactlr] at h ⊢
    -- The memory is that of the function without the record of its writes.
    have hmem := s.applyReadActlrEl1Patches_mem fwp scanMax
    rw [h, Option.map_some] at hmem
    rw [← hmem]
    refine ⟨rfl, fun b => ?_⟩
    obtain ⟨r, hr, hfixed⟩ := findPattern_actlrEl1 s.mem fwp scanMax
    rw [Winload.applyReadActlrEl1Patches, hr, Option.map_some, Option.some.injEq] at h
    -- Written only when the pattern was found.
    by_cases hne : r ≠ 0#64
    · rw [if_pos hne] at h
      rw [← h, Winload.copyMemory, List.mem_append, or_comm]
      refine or_congr Iff.rfl ⟨fun hb => ⟨hactlr, r, (hfixed r).mpr ⟨hne, rfl⟩, hb⟩, ?_⟩
      rintro ⟨-, a, ha, hb⟩
      rw [((hfixed a).mp ha).2] at hb
      exact hb
    · rw [if_neg hne] at h
      rw [← h]
      refine ⟨.inl, ?_⟩
      rintro (hb | ⟨-, a, ha, -⟩)
      · exact hb
      · exact absurd ((hfixed a).mp ha).1 hne
  · rw [if_neg hactlr] at h ⊢
    obtain rfl : s = t := Option.some.inj h
    exact ⟨rfl, fun b => ⟨.inl, fun hb => hb.resolve_right fun hfix => hactlr hfix.1⟩⟩

/-! ## The shell code -/

/-- The build has no more shell code than the 112 bytes for AMCNTENSET0_EL0, and these come
    between the start of the section and the function at `0x480`. -/
def ShellCodeFits (e : Errata) (winloadBase : Addr) (tempSize : BitVec 64) (addr : Addr) : Prop :=
  (e.actlrEl1 = false ∧ e.gicV3WithoutIrm = false ∧ e.psciMemprotect = false) ∧
    (e.amcntenset0El0 = true →
      addr = transferToKernelAddr winloadBase transferToKernelOffsetGermanium ∧
        0x80 ≤ tempSize.toNat)

theorem shellCode_length_eq_zero_iff (e : Errata) :
    (oslArm64TransferToKernelShellCode e).length = 0 ↔ (e.actlrEl1 = false ∧
      e.gicV3WithoutIrm = false ∧ e.psciMemprotect = false) ∧ e.amcntenset0El0 = false := by
  rw [shellCode_length]
  rcases e with ⟨actlr, amcnt, gic, psci⟩
  cases actlr <;> cases amcnt <;> cases gic <;> cases psci <;> decide

theorem shellCode_length_le_iff (e : Errata) :
    (oslArm64TransferToKernelShellCode e).length ≤ 0x80 ↔ e.actlrEl1 = false ∧
      e.gicV3WithoutIrm = false ∧ e.psciMemprotect = false := by
  rw [shellCode_length]
  rcases e with ⟨actlr, amcnt, gic, psci⟩
  cases actlr <;> cases amcnt <;> cases gic <;> cases psci <;> decide

theorem shellCodeFits_iff {e : Errata} {wb addr : Addr} {size : BitVec 64}
    (hsize : size.toNat ≤ 2 ^ 33)
    (haddr : addr = transferToKernelAddr wb transferToKernelOffsetGermanium ∨
      addr = transferToKernelAddr wb transferToKernelOffset) :
    SpanUnprotected wb size (newTransferToKernelAddr e addr)
      (oslArm64TransferToKernelShellCode e).length ↔ ShellCodeFits e wb size addr := by
  have hle := shellCode_length_le e
  have hsmall := shellCode_length_le_iff e
  have hnone := shellCode_length_eq_zero_iff e
  obtain ⟨len, hlen⟩ : ∃ len, len = (oslArm64TransferToKernelShellCode e).length := ⟨_, rfl⟩
  have hnew : newTransferToKernelAddr e addr = addr - BitVec.ofNat 64 len := by
    rw [hlen, newTransferToKernelAddr]
  rw [← hlen] at hle hsmall hnone ⊢
  rw [hnew, ShellCodeFits, ← hsmall]
  by_cases hzero : len = 0
  · have hflag := (hnone.mp hzero).2
    constructor
    · intro _
      refine ⟨by omega, fun htrue => ?_⟩
      rw [hflag] at htrue
      cases htrue
    · intro _ b hb
      rw [hzero] at hb
      cases hb
  -- Only a shell code of at most `0x80` bytes leaves a choice.
  have hamcnt : len ≤ 0x80 → e.amcntenset0El0 = true := by
    intro hlen80
    by_contra hfalse
    exact hzero (hnone.mpr ⟨hsmall.mp hlen80, Bool.eq_false_iff.mpr hfalse⟩)
  rw [spanUnprotected_iff (Nat.pos_of_ne_zero hzero) (by omega) hsize]
  rcases haddr with haddr | haddr
  · have hroom : (addr - BitVec.ofNat 64 len - (wb + efiPageSize)).toNat + len ≤ size.toNat ↔
        len ≤ 0x80 ∧ 0x80 ≤ size.toNat := by
      rw [haddr]
      unfold transferToKernelAddr transferToKernelOffsetGermanium efiPageSize
      constructor
      · intro h
        bv_omega
      · intro h
        bv_omega
    rw [hroom]
    exact ⟨fun h => ⟨h.1, fun _ => ⟨haddr, h.2⟩⟩, fun h => ⟨h.1, (h.2 (hamcnt h.1)).2⟩⟩
  · have hroom : ¬ (addr - BitVec.ofNat 64 len - (wb + efiPageSize)).toNat + len ≤ size.toNat := by
      rw [haddr]
      unfold transferToKernelAddr transferToKernelOffset efiPageSize
      bv_omega
    have hne : addr ≠ transferToKernelAddr wb transferToKernelOffsetGermanium := by
      rw [haddr]
      unfold transferToKernelAddr transferToKernelOffset transferToKernelOffsetGermanium
      bv_omega
    exact ⟨fun h => absurd h hroom, fun h => absurd (h.2 (hamcnt h.1)).1 hne⟩

/-! ## The whole call -/

/-- The static and the lists of calls and writes when winload calls ExitBootServices. -/
def Winload.entry (m : Mem) (winloadAttributes : BitVec 64) : Winload :=
  ⟨m, winloadAttributes, [], []⟩

/-- The firmware does not tell the attributes of the range, or does not clear the read-only
    one. -/
def UnprotectRefused (p : Option MemoryAttributeProtocol) (base : Addr) (length : BitVec 64) :
    Prop :=
  ∃ q, p = some q ∧ ((q.getMemoryAttributes base length).1.isError = true ∨
    ((q.getMemoryAttributes base length).2 &&& efiMemoryRo ≠ 0#64 ∧
      (q.clearMemoryAttributes base length efiMemoryRo).isError = true))

theorem unprotectWinload_isError_iff (p : Option MemoryAttributeProtocol) (base : Addr)
    (length : BitVec 64) (s : Winload) :
    (unprotectWinload p base length s).1.isError = true ↔ UnprotectRefused p base length := by
  cases p with
  | none =>
      constructor
      · intro h
        cases h
      · rintro ⟨q, hq, -⟩
        cases hq
  | some q =>
      -- Refused by the protocol that is there.
      have hrefused : UnprotectRefused (some q) base length ↔
          ((q.getMemoryAttributes base length).1.isError = true ∨
            ((q.getMemoryAttributes base length).2 &&& efiMemoryRo ≠ 0#64 ∧
              (q.clearMemoryAttributes base length efiMemoryRo).isError = true)) := by
        constructor
        · rintro ⟨q', hq, h⟩
          rw [Option.some.inj hq]
          exact h
        · exact fun h => ⟨q, rfl, h⟩
      rw [hrefused]
      unfold unprotectWinload
      by_cases hget : (q.getMemoryAttributes base length).1.isError = true
      · simp [hget]
      · by_cases hro : (q.getMemoryAttributes base length).2 &&& efiMemoryRo = 0#64
        · simp [hget, hro]
        · simp [hget, hro]

/-- Every byte that is written is one that UnprotectWinload made writable. -/
def WritesUnprotected (e : Errata) (p : Option MemoryAttributeProtocol)
    (fwpKernelSetupPhase1 : Addr) (s : Winload) (winloadBase : Addr) (tempSize : BitVec 64) :
    Prop :=
  ∃ s', kernelErrataPatcherExitBootServices e p fwpKernelSetupPhase1 s = some s' ∧
    ∀ b ∈ s'.written, InUnprotected winloadBase tempSize b

/-- The places of the fix-up, of the call and of the shell code all lie in the range.  The shell
    code of a build with the fix-up never does, so there must be no call, with the fixed
    instruction at the place of the fix-up if there is one. -/
structure PatchesUnprotected (e : Errata) (fwpKernelSetupPhase1 : Addr) (m : Mem)
    (winloadBase : Addr) (tempSize : BitVec 64) : Prop where
  call : e.actlrEl1 = false → ∀ addr site, ChosenCall m winloadBase addr site →
    SpanUnprotected winloadBase tempSize site 4 ∧ ShellCodeFits e winloadBase tempSize addr
  fixUp : e.actlrEl1 = true → ∀ a, FixedAt m fwpKernelSetupPhase1 scanMax a →
    SpanUnprotected winloadBase tempSize a 4 ∧
      NoTransferCall (write32 m a 0xD2800008#32) winloadBase
  noFixUp : e.actlrEl1 = true → (∀ a, ¬ FixedAt m fwpKernelSetupPhase1 scanMax a) →
    NoTransferCall m winloadBase

section WholeCall

variable {e : Errata} {p : Option MemoryAttributeProtocol} {fwp wb : Addr} {size : BitVec 64}
  {m : Mem} {attributes : BitVec 64}

theorem ChosenCall.addr_eq {addr site : Addr} (h : ChosenCall m wb addr site) :
    addr = transferToKernelAddr wb transferToKernelOffsetGermanium ∨
      addr = transferToKernelAddr wb transferToKernelOffset := by
  cases h with
  | germanium _ => exact .inl rfl
  | older _ _ => exact .inr rfl

theorem ChosenCall.unique {addr site addr' site' : Addr} (h : ChosenCall m wb addr site)
    (h' : ChosenCall m wb addr' site') : addr = addr' ∧ site = site' := by
  cases h with
  | germanium hk =>
      cases h' with
      | germanium hj => exact ⟨rfl, by rw [hk.unique hj]⟩
      | older hnone _ => exact absurd hk.1 (hnone _)
  | older hnone hk =>
      cases h' with
      | germanium hj => exact absurd hj.1 (hnone _)
      | older _ hj => exact ⟨rfl, by rw [hk.unique hj]⟩

theorem noTransferCall_iff {wb : Addr} :
    NoTransferCall m wb ↔ ∀ addr site, ¬ ChosenCall m wb addr site := by
  constructor
  · intro hnone addr site hchosen
    cases hchosen with
    | germanium hk => exact (hnone _).1 hk.1
    | older _ hk => exact (hnone _).2 hk.1
  · intro h
    refine (noTransferCall_or_chosen m wb).resolve_right ?_
    rintro ⟨addr, site, hchosen⟩
    exact h addr site hchosen

/-- Without the fix-up the search looks at the input memory, and with it at the input memory
    with the fixed instruction. -/
theorem fixedUpMem_eq (e : Errata) (fwp : Addr) (m : Mem) :
    (e.actlrEl1 = false → fixedUpMem e fwp m = m) ∧
      (e.actlrEl1 = true →
        (∀ a, FixedAt m fwp scanMax a → fixedUpMem e fwp m = write32 m a 0xD2800008#32) ∧
          ((∀ a, ¬ FixedAt m fwp scanMax a) → fixedUpMem e fwp m = m)) := by
  obtain ⟨r, hr, hfixed⟩ := findPattern_actlrEl1 m fwp scanMax
  rw [fixedUpMem, applyReadActlrEl1Patches, hr, Option.map_some, Option.getD_some]
  refine ⟨fun hactlr => ?_, fun hactlr => ⟨fun a ha => ?_, fun hnone => ?_⟩⟩
  · rw [hactlr, if_neg Bool.false_ne_true]
  · obtain ⟨hne, rfl⟩ := (hfixed a).mp ha
    rw [hactlr, if_pos rfl, if_pos hne, copyMemory_fixed]
  · rw [hactlr, if_pos rfl, if_neg fun hne => hnone r ((hfixed r).mpr ⟨hne, rfl⟩)]

/-- The condition, with the memory that the search looks at. -/
theorem patchesUnprotected_iff : PatchesUnprotected e fwp m wb size ↔
    (e.actlrEl1 = true → ∀ a, FixedAt m fwp scanMax a → SpanUnprotected wb size a 4) ∧
      ∀ addr site, ChosenCall (fixedUpMem e fwp m) wb addr site →
        SpanUnprotected wb size site 4 ∧ ShellCodeFits e wb size addr := by
  obtain ⟨hplain, hactlr⟩ := fixedUpMem_eq e fwp m
  cases hflag : e.actlrEl1 with
  | false =>
      rw [hplain hflag]
      constructor
      · exact fun h => ⟨fun h => absurd h Bool.false_ne_true, h.call hflag⟩
      · exact fun h => {
          call := fun _ => h.2
          fixUp := fun h => absurd (h.symm.trans hflag).symm Bool.false_ne_true
          noFixUp := fun h => absurd (h.symm.trans hflag).symm Bool.false_ne_true }
  | true =>
      obtain ⟨hfound, hnotFound⟩ := hactlr hflag
      -- The shell code does not fit, so there is no call.
      have hcalls : (∀ addr site, ChosenCall (fixedUpMem e fwp m) wb addr site →
          SpanUnprotected wb size site 4 ∧ ShellCodeFits e wb size addr) ↔
          NoTransferCall (fixedUpMem e fwp m) wb := by
        rw [noTransferCall_iff]
        refine forall_congr' fun addr => forall_congr' fun site =>
          ⟨fun h hchosen => ?_, fun h hchosen => absurd hchosen h⟩
        exact Bool.false_ne_true ((h hchosen).2.1.1.symm.trans hflag)
      rw [hcalls]
      constructor
      · refine fun h => ⟨fun _ a ha => (h.fixUp hflag a ha).1, ?_⟩
        by_cases hsome : ∃ a, FixedAt m fwp scanMax a
        · obtain ⟨a, ha⟩ := hsome
          rw [hfound a ha]
          exact (h.fixUp hflag a ha).2
        · rw [hnotFound (not_exists.mp hsome)]
          exact h.noFixUp hflag (not_exists.mp hsome)
      · refine fun h => {
          call := fun h => absurd (h.symm.trans hflag) Bool.false_ne_true
          fixUp := fun _ a ha => ⟨h.1 rfl a ha, by rw [← hfound a ha]; exact h.2⟩
          noFixUp := fun _ hnone => by rw [← hnotFound hnone]; exact h.2 }

/-- Which bytes are written once winload is writable. -/
theorem exitBootServices_written (attributes : BitVec 64)
    (hloc : locateWinloadBase m fwp = some (wb, size))
    (hun : ¬ UnprotectRefused p (wb + efiPageSize) size) :
    ∃ s', kernelErrataPatcherExitBootServices e p fwp (.entry m attributes) = some s' ∧
      ∀ b, b ∈ s'.written ↔
        (e.actlrEl1 = true ∧ ∃ a, FixedAt m fwp scanMax a ∧ b ∈ span a 4) ∨
        ∃ addr site, ChosenCall (fixedUpMem e fwp m) wb addr site ∧
          (b ∈ span site 4 ∨ b ∈ span (newTransferToKernelAddr e addr)
            (oslArm64TransferToKernelShellCode e).length) := by
  have hok : (unprotectWinload p (wb + efiPageSize) size (.entry m attributes)).1.isError
      = false :=
    Bool.eq_false_iff.mpr (mt (unprotectWinload_isError_iff p _ size _).mp hun)
  obtain ⟨fixed, hfix, -⟩ := fixUpWinload_some e fwp
    (unprotectWinload p (wb + efiPageSize) size (.entry m attributes)).2
  obtain ⟨hunMem, hunWritten, -⟩ := unprotectWinload_state p (wb + efiPageSize) size
    (.entry m attributes)
  obtain ⟨hmem, hwritten⟩ := fixUpWinload_written hfix
  rw [hunMem] at hmem hwritten
  rw [hunWritten] at hwritten
  -- Up to the calls only the fix-up of ACTLR_EL1 has written.
  have hfixed : ∀ b, b ∈ fixed.written ↔
      e.actlrEl1 = true ∧ ∃ a, FixedAt m fwp scanMax a ∧ b ∈ span a 4 := by
    intro b
    rw [hwritten]
    exact or_iff_right (List.not_mem_nil)
  have hchoose : fixed.mem = fixedUpMem e fwp m := hmem
  -- Without a call to rewrite nothing more is written.
  rcases noTransferCall_or_chosen fixed.mem wb with hnone | ⟨addr, site, hchosen⟩
  · obtain ⟨-, hlast, -⟩ := reProtectWinload_state p (wb + efiPageSize) size fixed
    refine ⟨_, exitBootServices_unprotected hloc hok hfix (patchTransferCalls_none hnone), ?_⟩
    intro b
    rw [hlast, hfixed]
    refine ⟨.inl, fun h => h.resolve_right ?_⟩
    rintro ⟨addr, site, hchosen, -⟩
    rw [← hchoose] at hchosen
    exact noTransferCall_iff.mp hnone addr site hchosen
  · obtain ⟨-, hlast, -⟩ := reProtectWinload_state p (wb + efiPageSize) size
      (injectShellCode e addr site fixed)
    refine ⟨_, exitBootServices_unprotected hloc hok hfix (patchTransferCalls_chosen hchosen), ?_⟩
    intro b
    rw [hlast, injectShellCode, Winload.copyMemory, Winload.store32, List.mem_append,
      List.mem_append, hfixed]
    rw [hchoose] at hchosen
    constructor
    · rintro (hcopy | hsite | hfixUp)
      · exact .inr ⟨addr, site, hchosen, .inr hcopy⟩
      · exact .inr ⟨addr, site, hchosen, .inl hsite⟩
      · exact .inl hfixUp
    · rintro (hfixUp | ⟨addr', site', hchosen', hb⟩)
      · exact .inr (.inr hfixUp)
      · obtain ⟨rfl, rfl⟩ := hchosen.unique hchosen'
        rcases hb with hsite | hcopy
        · exact .inr (.inl hsite)
        · exact .inl hcopy

theorem writesUnprotected_of_refused (hloc : locateWinloadBase m fwp = some (wb, size))
    (hun : UnprotectRefused p (wb + efiPageSize) size) :
    WritesUnprotected e p fwp (.entry m attributes) wb size := by
  obtain ⟨-, hwritten, -⟩ := unprotectWinload_state p (wb + efiPageSize) size
    (.entry m attributes)
  refine ⟨_, exitBootServices_protected hloc
    ((unprotectWinload_isError_iff p _ size _).mpr hun), fun b hb => ?_⟩
  rw [hwritten] at hb
  cases hb

theorem writesUnprotected_iff_patches (hloc : locateWinloadBase m fwp = some (wb, size))
    (hun : ¬ UnprotectRefused p (wb + efiPageSize) size) :
    WritesUnprotected e p fwp (.entry m attributes) wb size ↔
      PatchesUnprotected e fwp m wb size := by
  have hsize := locateWinloadBase_size_le hloc
  obtain ⟨s', hs', hwritten⟩ := exitBootServices_written (e := e) attributes hloc hun
  -- There is just one run, so it is the one that is asked about.
  have hrun : WritesUnprotected e p fwp (.entry m attributes) wb size ↔
      ∀ b ∈ s'.written, InUnprotected wb size b := by
    constructor
    · rintro ⟨t, ht, h⟩
      rw [hs', Option.some.injEq] at ht
      rw [ht]
      exact h
    · exact fun h => ⟨s', hs', h⟩
  rw [hrun, patchesUnprotected_iff]
  constructor
  · intro h
    constructor
    · intro hactlr a ha b hb
      exact h b ((hwritten b).mpr (.inl ⟨hactlr, a, ha, hb⟩))
    · intro addr site hchosen
      refine ⟨fun b hb => ?_, (shellCodeFits_iff hsize hchosen.addr_eq).mp fun b hb => ?_⟩
      · exact h b ((hwritten b).mpr (.inr ⟨addr, site, hchosen, .inl hb⟩))
      · exact h b ((hwritten b).mpr (.inr ⟨addr, site, hchosen, .inr hb⟩))
  · rintro ⟨hfixUp, hcall⟩ b hb
    rcases (hwritten b).mp hb with ⟨hactlr, a, ha, hin⟩ | ⟨addr, site, hchosen, hin⟩
    · exact hfixUp hactlr a ha b hin
    · obtain ⟨hsite, hfits⟩ := hcall addr site hchosen
      rcases hin with hin | hin
      · exact hsite b hin
      · exact (shellCodeFits_iff hsize hchosen.addr_eq).mpr hfits b hin

/-- The writes stay in the range exactly when none is made because the firmware refuses, or
    when the places of all patches lie in it. -/
theorem writes_unprotected_iff (hloc : locateWinloadBase m fwp = some (wb, size)) :
    WritesUnprotected e p fwp (.entry m attributes) wb size ↔
      UnprotectRefused p (wb + efiPageSize) size ∨ PatchesUnprotected e fwp m wb size := by
  by_cases hun : UnprotectRefused p (wb + efiPageSize) size
  · exact ⟨fun _ => .inl hun, fun _ => writesUnprotected_of_refused hloc hun⟩
  · rw [writesUnprotected_iff_patches hloc hun]
    exact ⟨.inr, fun h => h.resolve_left hun⟩

end WholeCall

/-! ## The shell code of the Surface Duo 1 -/

/-- The errata of the Surface Duo 1. -/
def surfaceDuo1 : Errata := ⟨false, false, false, true⟩

theorem writes_unprotected_iff_called :
    WritesUnprotected surfaceDuo1 none 0x101000#64
        (.entry (calledWinload 0x1010C0#64).mem 0#64) 0x100000#64 0x3000#64 ↔
      UnprotectRefused none (0x100000#64 + efiPageSize) 0x3000#64 ∨
        PatchesUnprotected surfaceDuo1 0x101000#64 (calledWinload 0x1010C0#64).mem 0x100000#64
          0x3000#64 :=
  writes_unprotected_iff calledWinload_located

/-- The 208 bytes of the shell code begin in the page before the range. -/
theorem shellCode_before_section : ¬ WritesUnprotected surfaceDuo1 none 0x101000#64
    (.entry (calledWinload 0x1010C0#64).mem 0#64) 0x100000#64 0x3000#64 := by
  have hallowed : ¬ UnprotectRefused none (0x100000#64 + efiPageSize) 0x3000#64 := by
    rintro ⟨q, hq, -⟩
    cases hq
  rw [writesUnprotected_iff_patches calledWinload_located hallowed]
  intro h
  have hcall : TransferCallAt (calledWinload 0x1010C0#64).mem 0x101080#64 0x10 :=
    ⟨by decide, by decide +kernel, by decide +kernel⟩
  obtain ⟨k, hk⟩ := exists_first hcall
  have hfits := (h.call rfl _ _ (.germanium hk)).2
  exact absurd hfits.1.2.2 (by decide)

end KernelErrataPatcher
