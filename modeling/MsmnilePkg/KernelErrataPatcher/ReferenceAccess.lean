/-
  MsmnilePkg.KernelErrataPatcher.ReferenceAccess

  Where the PSCI_MEMPROTECT and the IRM reference patches read and write.

  The runs of Reference.lean are repeated with a log of the accesses to the
  images.  At the last word of an image both scans read a doubleword, so four
  bytes behind it; the image that ends highest has no other one there.
-/

import Mathlib.Data.Finset.Dedup
import Mathlib.Data.Finset.Max
import MsmnilePkg.KernelErrataPatcher.ModuleWalk

namespace KernelErrataPatcher

open ByteMem WordScan

/-! ## Accesses -/

/-- `size` bytes at `addr` are read or written. -/
structure Access where
  addr : Addr
  size : Nat
  deriving DecidableEq

def Access.Touches (x : Access) (b : Addr) : Prop := (b - x.addr).toNat < x.size

/-- The accesses of `psciMemprotectBody`, in the order of evaluation. -/
def psciMemprotectAccesses (m : Mem) (current : Addr) : List Access :=
  let next := current + arm64TotalInstructionLength 2
  let second :=
    if read64 m current = 0xD2800002D2800003#64 then
      if read64 m next = 0x18000240D2800001#64 then
        [⟨current, 8⟩, ⟨next, 8⟩, ⟨current - arm64TotalInstructionLength 7, 4⟩]
      else if read64 m next = 0x180002C0D2800001#64 then
        [⟨current, 8⟩, ⟨next, 8⟩, ⟨next, 8⟩, ⟨current - arm64TotalInstructionLength 7, 4⟩]
      else [⟨current, 8⟩, ⟨next, 8⟩, ⟨next, 8⟩]
    else [⟨current, 8⟩]
  ⟨current, 8⟩ ::
    if read64 m current = 0xD2800003180002D5#64 then
      if read64 m next = 0xD2800001D2800002#64 then
        [⟨next, 8⟩, ⟨current - arm64TotalInstructionLength 8, 4⟩]
      else ⟨next, 8⟩ :: second
    else second

/-- The accesses of `irmBody`. -/
def irmAccesses (current : Addr) : List Access := [⟨current, 4⟩, ⟨current, 8⟩]

/-- The accesses of `irmPatch`. -/
def irmPatchAccesses (v : IrmVariant) (f : IrmFound) : List Access :=
  if f.both then
    ⟨f.gicInstr, 4⟩ ::
      ((List.range v.trampoline.length).map fun k =>
        ⟨codeLocation f.realEstateFunc + arm64TotalInstructionLength (2 * k), 8⟩) ++
      [⟨codeLocation f.realEstateFunc + arm64TotalInstructionLength 22, 4⟩]
  else []

/-! ## Runs with a log -/

/-- `psciMemprotectBody`, with its accesses behind the log. -/
def psciMemprotectLogged (s : Mem × List Access) (current : Addr) : Mem × List Access :=
  (psciMemprotectBody s.1 current, s.2 ++ psciMemprotectAccesses s.1 current)

def psciMemprotectRun (fuel : Nat) (m : Mem) (loaderBlock : Addr) : Option (Mem × List Access) :=
  forEachModule Prod.fst
    (fun s base size => forWords base (base + size) never psciMemprotectLogged s)
    (loadOrderListHead loaderBlock) fuel (forwardLink m (loadOrderListHead loaderBlock)) (m, [])

/-- The state of an IRM search with a log. -/
structure IrmLogged where
  mem : Mem
  found : IrmFound
  log : List Access

/-- `irmBody`, with its accesses behind the log. -/
def irmLoggedBody (insn : BitVec 32) (m : Mem) (t : (IrmFound × Bool) × List Access)
    (current : Addr) : (IrmFound × Bool) × List Access :=
  (irmBody insn m t.1 current, t.2 ++ irmAccesses current)

/-- `irmScanImage` with a log. -/
def irmLoggedScanImage (insn : BitVec 32) (s : IrmLogged) (base : Addr) (size : BitVec 64) :
    Option IrmLogged :=
  (forWords base (base + size) (fun t => t.1.2) (irmLoggedBody insn s.mem)
    ((s.found, false), s.log)).map fun t => ⟨s.mem, t.1.1, t.2⟩

def irmRun (v : IrmVariant) (fuel : Nat) (m : Mem) (loaderBlock : Addr) :
    Option (Mem × List Access) :=
  (forEachModule IrmLogged.mem (irmLoggedScanImage v.insn) (loadOrderListHead loaderBlock) fuel
    (forwardLink m (loadOrderListHead loaderBlock)) ⟨m, ⟨0#64, 0#64⟩, []⟩).map
      fun s => (irmPatch v s.mem s.found, s.log ++ irmPatchAccesses v s.found)

/-- A run ends, and every byte it has read or written lies in one of the images. -/
def StaysInside (m : Mem) (mods : List Addr) (run : Option (Mem × List Access)) : Prop :=
  ∃ m' log, run = some (m', log) ∧ ∀ x ∈ log, ∀ b, x.Touches b → InSomeImage m mods b

/-! ## The runs are those of the patches -/

section Erase

variable {σ τ : Type}

/-- Two scans whose states correspond end in corresponding states. -/
theorem whileFuel_map {cond : σ → Bool} {cond' : τ → Bool} {body : σ → σ} {body' : τ → τ}
    (g : σ → τ) (hcond : ∀ s, cond' (g s) = cond s) (hbody : ∀ s, g (body s) = body' (g s)) :
    ∀ (fuel : Nat) (s : σ), (Loop.whileFuel cond body fuel s).map g
      = Loop.whileFuel cond' body' fuel (g s) := by
  intro fuel
  induction fuel with
  | zero => intro s; rfl
  | succ fuel ih =>
      intro s
      rw [Loop.whileFuel, Loop.whileFuel, hcond]
      by_cases hc : cond s = true
      · rw [if_pos hc, if_pos hc, ih, hbody]
      · rw [if_neg hc, if_neg hc]
        rfl

theorem forWords_map {stop : σ → Bool} {stop' : τ → Bool} {body : σ → Addr → σ}
    {body' : τ → Addr → τ} (g : σ → τ) (hstop : ∀ s, stop' (g s) = stop s)
    (hbody : ∀ s c, g (body s c) = body' (g s) c) (base limit : Addr) (s : σ) :
    (forWords base limit stop body s).map g = forWords base limit stop' body' (g s) := by
  have hmap : (Loop.whileFuel (fun p : Addr × σ => decide (p.1 < limit) && !stop p.2)
        (fun p => (p.1 + 4#64, body p.2 p.1)) maxTurns (base, s)).map (fun p => (p.1, g p.2))
      = Loop.whileFuel (fun p : Addr × τ => decide (p.1 < limit) && !stop' p.2)
        (fun p => (p.1 + 4#64, body' p.2 p.1)) maxTurns (base, g s) :=
    whileFuel_map (fun p => (p.1, g p.2)) (fun p => by rw [hstop]) (fun p => by rw [hbody])
      maxTurns (base, s)
  rw [forWords, forWords, Option.map_map, ← hmap, Option.map_map]
  rfl

theorem forEachModule_map {memOf : σ → Mem} (memOf' : τ → Mem)
    {perModule : σ → Addr → BitVec 64 → Option σ} {perModule' : τ → Addr → BitVec 64 → Option τ}
    (g : σ → τ) (hmem : ∀ s, memOf' (g s) = memOf s)
    (hmodule : ∀ s base size, (perModule s base size).map g = perModule' (g s) base size)
    (head : Addr) : ∀ (fuel : Nat) (entry : Addr) (s : σ),
      (forEachModule memOf perModule head fuel entry s).map g
        = forEachModule memOf' perModule' head fuel entry (g s) := by
  intro fuel
  induction fuel with
  | zero => intro entry s; rfl
  | succ fuel ih =>
      intro entry s
      rw [forEachModule, forEachModule]
      by_cases hend : entry = head
      · rw [if_pos hend, if_pos hend]
        rfl
      · rw [if_neg hend, if_neg hend, hmem, ← hmodule]
        -- Both walks stop at a module whose visit fails.
        cases perModule s (dllBase (memOf s) entry) (sizeOfImage (memOf s) entry) with
        | none => rfl
        | some t =>
            show (forEachModule memOf perModule head fuel (forwardLink (memOf t) entry) t).map g
              = forEachModule memOf' perModule' head fuel (forwardLink (memOf' (g t)) entry) (g t)
            rw [ih, hmem]

end Erase

theorem psciMemprotectRun_mem (fuel : Nat) (m : Mem) (loaderBlock : Addr) :
    (psciMemprotectRun fuel m loaderBlock).map Prod.fst
      = psciMemprotectTransferToKernel fuel m loaderBlock := by
  have hscan : ∀ (s : Mem × List Access) (base : Addr) (size : BitVec 64),
      (forWords base (base + size) never psciMemprotectLogged s).map Prod.fst
        = scanImage psciMemprotectBody s.1 base size := by
    intro s base size
    have hwords : (forWords base (base + size) never psciMemprotectLogged s).map Prod.fst
        = forWords base (base + size) never psciMemprotectBody s.1 := by
      refine forWords_map Prod.fst ?_ ?_ base (base + size) s
      · exact fun _ => rfl
      · exact fun _ _ => rfl
    exact hwords
  exact forEachModule_map id Prod.fst (fun _ => rfl) hscan _ fuel _ (m, [])

theorem irmRun_mem (v : IrmVariant) (fuel : Nat) (m : Mem) (loaderBlock : Addr) :
    (irmRun v fuel m loaderBlock).map Prod.fst = irmTransferToKernel v fuel m loaderBlock := by
  have hscan : ∀ (s : IrmLogged) (base : Addr) (size : BitVec 64),
      (irmLoggedScanImage v.insn s base size).map (fun t => (t.mem, t.found))
        = irmScanImage v.insn (s.mem, s.found) base size := by
    intro s base size
    have hwords : (forWords base (base + size) (fun t => t.1.2) (irmLoggedBody v.insn s.mem)
          ((s.found, false), s.log)).map Prod.fst
        = forWords base (base + size) Prod.snd (irmBody v.insn s.mem) (s.found, false) := by
      refine forWords_map Prod.fst ?_ ?_ base (base + size) _
      · exact fun _ => rfl
      · exact fun _ _ => rfl
    rw [irmScanImage, ← hwords, irmLoggedScanImage, Option.map_map, Option.map_map]
    rfl
  have hwalk := forEachModule_map Prod.fst (fun s : IrmLogged => (s.mem, s.found))
    (fun _ => rfl) hscan (loadOrderListHead loaderBlock) fuel
    (forwardLink m (loadOrderListHead loaderBlock)) ⟨m, ⟨0#64, 0#64⟩, []⟩
  rw [irmRun, irmTransferToKernel, ← hwalk, Option.map_map, Option.map_map]
  rfl

/-! ## Every word is read with the next one -/

/-- The scan reads a doubleword at every word, and changes only bytes that it has logged. -/
structure ScanLogged (c : Addr) (n : Nat) (s t : Mem × List Access) : Prop where
  reads : ∀ k < n, (⟨wordAddr c k, 8⟩ : Access) ∈ t.2
  log : ∀ x ∈ s.2, x ∈ t.2
  changed : ∀ b, (∀ x ∈ t.2, ¬ x.Touches b) → t.1 b = s.1 b

theorem psciMemprotectAccesses_reads (m : Mem) (current : Addr) :
    (⟨current, 8⟩ : Access) ∈ psciMemprotectAccesses m current := List.mem_cons_self ..

theorem psciMemprotectBody_changed {m : Mem} {current b : Addr}
    (h : ∀ x ∈ psciMemprotectAccesses m current, ¬ x.Touches b) :
    psciMemprotectBody m current b = m b := by
  rw [psciMemprotectBody]
  by_cases hfirst : read64 m current = 0xD2800003180002D5#64 ∧
      read64 m (current + arm64TotalInstructionLength 2) = 0xD2800001D2800002#64
  · rw [if_pos hfirst]
    have hout := h ⟨current - arm64TotalInstructionLength 8, 4⟩
      (by simp [psciMemprotectAccesses, hfirst.1, hfirst.2])
    exact write32_of_outside (Nat.le_of_not_lt hout)
  rw [if_neg hfirst]
  by_cases hsecond : read64 m current = 0xD2800002D2800003#64 ∧
      (read64 m (current + arm64TotalInstructionLength 2) = 0x18000240D2800001#64 ∨
        read64 m (current + arm64TotalInstructionLength 2) = 0x180002C0D2800001#64)
  · obtain ⟨hcurrent, hnext⟩ := hsecond
    rw [if_pos ⟨hcurrent, hnext⟩]
    have hout := h ⟨current - arm64TotalInstructionLength 7, 4⟩ (by
      rcases hnext with hnext | hnext <;> simp [psciMemprotectAccesses, hcurrent, hnext])
    exact write32_of_outside (Nat.le_of_not_lt hout)
  · rw [if_neg hsecond]

theorem scan_logged : ∀ (n : Nat) (c : Addr) (s : Mem × List Access),
    ScanLogged c n s (scanUntil never psciMemprotectLogged n c s) := by
  intro n
  induction n with
  | zero =>
      intro c s
      exact ⟨fun k hk => absurd hk (Nat.not_lt_zero k), fun _ => id, fun _ _ => rfl⟩
  | succ n ih =>
      intro c s
      obtain ⟨hreads, hlog, hchanged⟩ := ih (c + 4#64) (psciMemprotectLogged s c)
      -- The accesses for the first word stay in the log.
      have hown : ∀ x ∈ psciMemprotectAccesses s.1 c,
          x ∈ (scanUntil never psciMemprotectLogged n (c + 4#64) (psciMemprotectLogged s c)).2 :=
        fun x hx => hlog x (List.mem_append_right _ hx)
      rw [scanUntil_never_succ]
      refine ⟨fun k hk => ?_, fun x hx => hlog x (List.mem_append_left _ hx), fun b hb => ?_⟩
      · cases k with
        | zero =>
            rw [wordAddr_zero]
            exact hown _ (psciMemprotectAccesses_reads s.1 c)
        | succ k =>
            rw [wordAddr_succ]
            exact hreads k (by omega)
      · rw [hchanged b hb]
        exact psciMemprotectBody_changed fun x hx => hb x (hown x hx)

/-- What every scan preserves holds when the walk is over. -/
theorem forEachModule_invariant {σ : Type} {memOf : σ → Mem}
    {perModule : σ → Addr → BitVec 64 → Option σ} {I : σ → Prop}
    (hmodule : ∀ s base size t, I s → perModule s base size = some t → I t) {head : Addr} :
    ∀ (fuel : Nat) (entry : Addr) (s r : σ), I s →
      forEachModule memOf perModule head fuel entry s = some r → I r := by
  intro fuel
  induction fuel with
  | zero => intro entry s r _ hrun; cases hrun
  | succ fuel ih =>
      intro entry s r hs hrun
      rw [forEachModule] at hrun
      by_cases hend : entry = head
      · rw [if_pos hend] at hrun
        exact Option.some.inj hrun ▸ hs
      · rw [if_neg hend] at hrun
        obtain ⟨t, ht, hrest⟩ := Option.bind_eq_some_iff.mp hrun
        exact ih _ t r (hmodule s _ _ t hs ht) hrest

/-- The log only grows. -/
theorem psci_walk_log {head entry : Addr} {fuel : Nat} {s r : Mem × List Access}
    (hrun : forEachModule Prod.fst
      (fun s base size => forWords base (base + size) never psciMemprotectLogged s)
      head fuel entry s = some r) {x : Access} (hx : x ∈ s.2) : x ∈ r.2 := by
  refine forEachModule_invariant (I := fun s => x ∈ s.2) ?_ fuel entry s r hx hrun
  intro s base size t hs ht
  obtain ⟨p, hp, rfl⟩ := Option.map_eq_some_iff.mp ht
  exact (Loop.whileFuel_invariant (I := fun p : Addr × (Mem × List Access) => x ∈ p.2.2)
    (fun p hp _ => List.mem_append_left _ hp) hs hp).1

section Walk

variable {m0 : Mem} {all : List Addr}

/-- A run that stays inside the images keeps the list, and so it reads every image to its last
    word. -/
theorem psci_walk_reads {head entry : Addr} {mods : List Addr}
    (himages : ∀ d ∈ all, ImageOk (dllBase m0 d) (sizeOfImage m0 d))
    (hfields : ∀ e ∈ all, ∀ d ∈ all, FieldsOutside (dllBase m0 d) (sizeOfImage m0 d) e)
    (hchain : LinkChain m0 head entry mods) :
    ∀ (s r : Mem × List Access) (fuel : Nat), mods ⊆ all → (∀ e ∈ all, FieldsKept m0 s.1 e) →
      forEachModule Prod.fst
        (fun s base size => forWords base (base + size) never psciMemprotectLogged s)
        head fuel entry s = some r →
      (∀ x ∈ r.2, ∀ b, x.Touches b → InSomeImage m0 all b) →
      ∀ d ∈ mods, ∀ k < wordCount (sizeOfImage m0 d),
        (⟨wordAddr (dllBase m0 d) k, 8⟩ : Access) ∈ r.2 := by
  induction hchain with
  | nil => intro s r fuel _ _ _ _ d hd; exact absurd hd List.not_mem_nil
  | @cons entry rest hne _ ih =>
      intro s r fuel hsub hkept hrun hinside
      cases fuel with
      | zero => cases hrun
      | succ fuel =>
          have hentry : entry ∈ all := hsub (List.mem_cons_self ..)
          have hok := himages entry hentry
          obtain ⟨t, ht⟩ : ∃ t, t = scanUntil never psciMemprotectLogged
              (wordCount (sizeOfImage m0 entry)) (dllBase m0 entry) s := ⟨_, rfl⟩
          have hscan : ScanLogged (dllBase m0 entry) (wordCount (sizeOfImage m0 entry)) s t :=
            ht ▸ scan_logged _ _ s
          have hrest : forEachModule Prod.fst
              (fun s base size => forWords base (base + size) never psciMemprotectLogged s)
              head fuel (forwardLink t.1 entry) t = some r := by
            rw [forEachModule, if_neg hne, (hkept entry hentry).dllBase,
              (hkept entry hentry).sizeOfImage] at hrun
            have hforWords := forWords_eq hok.limit never psciMemprotectLogged s
            rw [hforWords, ← ht] at hrun
            exact hrun
          have hlog : ∀ x ∈ t.2, x ∈ r.2 := fun x hx => psci_walk_log hrest hx
          -- Bytes outside every image are outside every access, so the scan has kept them.
          have hkept' : ∀ e ∈ all, FieldsKept m0 t.1 e := by
            intro e he
            have hbyte : ∀ b, ¬ InSomeImage m0 all b → t.1 b = s.1 b := fun b hb =>
              hscan.changed b fun x hx htouch => hb (hinside x (hlog x hx) b htouch)
            refine (hkept e he).trans ⟨?_, ?_, ?_⟩
            · refine read64_congr fun i hi => hbyte _ ?_
              rintro ⟨d, hd, hin⟩
              exact (hfields e he d hd).forwardLink i hi hin
            · refine read64_congr fun i hi => hbyte _ ?_
              rintro ⟨d, hd, hin⟩
              exact (hfields e he d hd).dllBase i hi hin
            · refine congrArg (BitVec.setWidth 64) (read32_congr fun i hi => hbyte _ ?_)
              rintro ⟨d, hd, hin⟩
              exact (hfields e he d hd).sizeOfImage i hi hin
          rw [(hkept' entry hentry).forwardLink] at hrest
          intro d hd k hk
          rcases List.mem_cons.mp hd with rfl | hd
          · exact hlog _ (hscan.reads k hk)
          · exact ih t r fuel (fun e he => hsub (List.mem_cons_of_mem _ he)) hkept' hrest hinside
              d hd k hk

end Walk

/-! ## Behind the last image -/

/-- The address behind a proper image. -/
def imageEnd (m : Mem) (entry : Addr) : Nat := (dllBase m entry).toNat + (sizeOfImage m entry).toNat

/-- The PSCI_MEMPROTECT patch reads behind the images unless they are all empty. -/
theorem psciMemprotect_leaves_images {m : Mem} {loaderBlock : Addr} {mods : List Addr}
    (hlist : ModuleList m loaderBlock mods) {fuel : Nat}
    (hinside : StaysInside m mods (psciMemprotectRun fuel m loaderBlock)) :
    ∀ d ∈ mods, sizeOfImage m d = 0#64 := by
  obtain ⟨m', log, hrun, hlog⟩ := hinside
  have hreads := psci_walk_reads hlist.images hlist.fields hlist.chain (m, []) (m', log) fuel
    (List.Subset.refl _) (fun e _ => ⟨rfl, rfl, rfl⟩) hrun hlog
  intro d hd
  by_contra hsize
  -- Of the images that have words, one ends highest.
  obtain ⟨e, he, hmax⟩ := Finset.exists_max_image
    (mods.filter fun d => sizeOfImage m d ≠ 0#64).toFinset (imageEnd m)
    ⟨d, by simp [hd, hsize]⟩
  simp only [List.mem_toFinset, List.mem_filter, decide_eq_true_eq] at he hmax
  obtain ⟨hbase, hwords, hwrap⟩ := hlist.images e he.1
  have hpos : 4 ≤ (sizeOfImage m e).toNat := by
    have hne : (sizeOfImage m e).toNat ≠ 0 := fun h0 => he.2 (BitVec.eq_of_toNat_eq h0)
    omega
  obtain ⟨n, hn⟩ : ∃ n, wordCount (sizeOfImage m e) = n + 1 :=
    ⟨wordCount (sizeOfImage m e) - 1, by unfold wordCount; omega⟩
  obtain ⟨d', hd', hin⟩ := hlog _ (hreads e he.1 n (by omega))
    (dllBase m e + sizeOfImage m e) (by
      unfold Access.Touches wordAddr
      unfold wordCount at hn
      bv_omega)
  obtain ⟨-, -, hwrap'⟩ := hlist.images d' hd'
  unfold InImage at hin
  have hle := hmax d' ⟨hd', fun h0 => by rw [h0] at hin; exact absurd hin (Nat.not_lt_zero _)⟩
  unfold imageEnd at hle
  bv_omega

/-! ## Empty images -/

/-- Over empty images a walk does nothing. -/
theorem forEachModule_empty {σ : Type} {memOf : σ → Mem}
    {perModule : σ → Addr → BitVec 64 → Option σ} {m : Mem} {s : σ} (hmem : memOf s = m)
    (hempty : ∀ base, perModule s base 0#64 = some s) {head entry : Addr} {mods : List Addr}
    (hchain : LinkChain m head entry mods) : ∀ fuel, (∀ d ∈ mods, sizeOfImage m d = 0#64) →
      mods.length < fuel → forEachModule memOf perModule head fuel entry s = some s := by
  induction hchain with
  | nil =>
      intro fuel _ hfuel
      obtain ⟨fuel, rfl⟩ : ∃ k, fuel = k + 1 := ⟨fuel - 1, by omega⟩
      rw [forEachModule, if_pos rfl]
  | @cons entry rest hne _ ih =>
      intro fuel hsize hfuel
      obtain ⟨fuel, rfl⟩ : ∃ k, fuel = k + 1 := ⟨fuel - 1, by omega⟩
      rw [forEachModule, if_neg hne, hmem, hsize entry (List.mem_cons_self ..), hempty]
      show forEachModule memOf perModule head fuel (forwardLink (memOf s) entry) s = some s
      rw [hmem]
      exact ih fuel (fun d hd => hsize d (List.mem_cons_of_mem _ hd)) (by simpa using hfuel)

/-- A scan of no words ends at once. -/
theorem forWords_empty {σ : Type} (base : Addr) (stop : σ → Bool) (body : σ → Addr → σ) (s : σ) :
    forWords base (base + 0#64) stop body s = some s := by
  rw [BitVec.add_zero]
  exact forWords_eq (n := 0) rfl stop body s

/-- Both patches read and write only bytes of the listed images exactly when these are all
    empty. -/
theorem reference_accesses_inside_iff {m : Mem} {loaderBlock : Addr} {mods : List Addr}
    (hlist : ModuleList m loaderBlock mods) {fuel : Nat} (hfuel : mods.length < fuel) :
    (StaysInside m mods (psciMemprotectRun fuel m loaderBlock) ∧
      StaysInside m mods (irmRun irmX10 fuel m loaderBlock)) ↔
      ∀ d ∈ mods, sizeOfImage m d = 0#64 := by
  constructor
  · rintro ⟨hpsci, -⟩
    exact psciMemprotect_leaves_images hlist hpsci
  · intro hempty
    have hnone : ∀ x ∈ ([] : List Access), ∀ b, x.Touches b → InSomeImage m mods b :=
      fun x hx => absurd hx List.not_mem_nil
    constructor
    · refine ⟨m, [], ?_, hnone⟩
      exact forEachModule_empty rfl (fun base => forWords_empty base never psciMemprotectLogged _)
        hlist.chain fuel hempty hfuel
    · refine ⟨m, [], ?_, hnone⟩
      -- An image of no bytes is not read.
      have hscan : ∀ base, irmLoggedScanImage irmX10.insn ⟨m, ⟨0#64, 0#64⟩, []⟩ base 0#64
          = some ⟨m, ⟨0#64, 0#64⟩, []⟩ := by
        intro base
        rw [irmLoggedScanImage, forWords_empty]
        rfl
      have hwalk : forEachModule IrmLogged.mem (irmLoggedScanImage irmX10.insn)
          (loadOrderListHead loaderBlock) fuel (forwardLink m (loadOrderListHead loaderBlock))
            ⟨m, ⟨0#64, 0#64⟩, []⟩ = some ⟨m, ⟨0#64, 0#64⟩, []⟩ :=
        forEachModule_empty rfl hscan hlist.chain fuel hempty hfuel
      rw [irmRun, hwalk]
      rfl

/-! ## One word -/

/-- A list whose only image has one word. -/
theorem one_word_moduleList : ModuleList (sampleMem [0xD503201F]) 0x1000#64 [0x2000#64] :=
  moduleList_singleton 0x3000#64 4#64 (by decide +kernel) (by decide +kernel)
    (by decide +kernel) (by decide +kernel) (by decide +kernel) ⟨by decide, by decide, by decide⟩
    ⟨by decide +kernel, by decide +kernel, by decide +kernel⟩ (by decide +kernel)

theorem one_word_size : sizeOfImage (sampleMem [0xD503201F]) 0x2000#64 = 4#64 := by
  decide +kernel

/-- Of an empty image nothing is accessed, and of one with a word more than that word. -/
theorem reference_accesses_inside_samples :
    (StaysInside (sampleMem []) [0x2000#64] (psciMemprotectRun 2 (sampleMem []) 0x1000#64) ∧
      StaysInside (sampleMem []) [0x2000#64] (irmRun irmX10 2 (sampleMem []) 0x1000#64)) ∧
    ¬ (StaysInside (sampleMem [0xD503201F]) [0x2000#64]
          (psciMemprotectRun 2 (sampleMem [0xD503201F]) 0x1000#64) ∧
        StaysInside (sampleMem [0xD503201F]) [0x2000#64]
          (irmRun irmX10 2 (sampleMem [0xD503201F]) 0x1000#64)) := by
  constructor
  · refine (reference_accesses_inside_iff
      (moduleList_singleton 0x3000#64 0#64 (by decide +kernel) (by decide +kernel)
        (by decide +kernel) (by decide +kernel) (by decide +kernel)
        ⟨by decide, by decide, by decide⟩ ⟨by decide +kernel, by decide +kernel, by decide +kernel⟩
        (by decide +kernel)) (by decide)).mpr fun d hd => ?_
    rw [List.mem_singleton.mp hd]
    decide +kernel
  · intro hinside
    have hempty := (reference_accesses_inside_iff one_word_moduleList (by decide)).mp hinside
      0x2000#64 (List.mem_singleton.mpr rfl)
    rw [one_word_size] at hempty
    exact absurd hempty (by decide)

/-- At the only word of an image the PSCI_MEMPROTECT patch reads the four bytes behind it. -/
theorem one_word_is_read_past :
    ModuleList (sampleMem [0xD503201F]) 0x1000#64 [0x2000#64] ∧
      ¬ StaysInside (sampleMem [0xD503201F]) [0x2000#64]
        (psciMemprotectRun 2 (sampleMem [0xD503201F]) 0x1000#64) := by
  refine ⟨one_word_moduleList, fun hinside => ?_⟩
  have hempty := psciMemprotect_leaves_images one_word_moduleList hinside 0x2000#64
    (List.mem_singleton.mpr rfl)
  rw [one_word_size] at hempty
  exact absurd hempty (by decide)

end KernelErrataPatcher
