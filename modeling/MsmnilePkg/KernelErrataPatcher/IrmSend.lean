/-
  MsmnilePkg.KernelErrataPatcher.IrmSend

  What the trampolines of the IRM patches send.

  The model is `Send` of PoC2/test/test.cpp.  An SGI to all other cores (bit
  40) becomes one SGI for each of the eight cores but the own one; any other
  SGI is sent as it is.
-/

import MsmnilePkg.KernelErrataPatcher.IrmPair
import MsmnilePkg.KernelErrataPatcher.ShellCodeRun

namespace KernelErrataPatcher

open ByteMem A64 WordScan

/-! ## The model -/

/-- The SGI for one core. -/
def sgiFor (sgi v2 : BitVec 64) : BitVec 64 :=
  ((sgi &&& 0xFFFFFEFFFFFFFFFE#64) ||| 1#64) ||| (v2 <<< 16)

/-- The loop of `Send`, with the values it passes to `ArmGicV3SendNsG1Sgi`. -/
def sendLoop (sgi v1 : BitVec 64) : Nat → BitVec 64 → List (BitVec 64)
  | 0, _ => []
  | v3 + 1, v2 =>
      (if v2 ≠ v1 >>> 8 then [sgiFor sgi v2] else []) ++ sendLoop sgi v1 v3 (v2 + 1#64)

theorem sendLoop_succ (sgi v1 : BitVec 64) (v3 : Nat) (v2 : BitVec 64) :
    sendLoop sgi v1 (v3 + 1) v2
      = (if v2 ≠ v1 >>> 8 then [sgiFor sgi v2] else []) ++ sendLoop sgi v1 v3 (v2 + 1#64) := rfl

/-- `Send` -/
def send (sgi currentMpidr : BitVec 64) : List (BitVec 64) :=
  if sgi &&& 0x10000000000#64 ≠ 0#64 then sendLoop sgi (currentMpidr &&& 0xF00#64) 8 0#64
  else [sgi]

theorem irm_bit_iff (sgi : BitVec 64) :
    sgi &&& 0x10000000000#64 ≠ 0#64 ↔ sgi.getLsbD 40 = true := by
  have hbit : (0x10000000000#64) = BitVec.twoPow 64 40 := by decide
  rw [hbit, BitVec.and_twoPow]
  cases sgi.getLsbD 40 with
  | true => simp; decide
  | false => simp

/-- Clearing bit 0 before it is set makes no difference. -/
theorem target_bit_eq (sgi : BitVec 64) :
    (sgi &&& 0xFFFFFEFFFFFFFFFF#64) ||| 1#64 = (sgi &&& 0xFFFFFEFFFFFFFFFE#64) ||| 1#64 := by
  have hall : ∀ i < 64, (0xFFFFFEFFFFFFFFFF#64).getLsbD i = !decide (i = 40) := by decide
  have hbut : ∀ i < 64, (0xFFFFFEFFFFFFFFFE#64).getLsbD i
      = (!decide (i = 40) && !decide (i = 0)) := by decide
  have hone : ∀ i < 64, (1#64).getLsbD i = decide (i = 0) := by decide
  apply BitVec.eq_of_getLsbD_eq
  intro i hi
  rw [BitVec.getLsbD_or, BitVec.getLsbD_or, BitVec.getLsbD_and, BitVec.getLsbD_and, hall i hi,
    hbut i hi, hone i hi]
  cases decide (i = 0) <;> simp

/-! ## The program -/

/-- `icc_sgi1r_el1` -/
def iccSgi1rEl1 : SysReg := 0x465D

/-- `mpidr_el1` -/
def mpidrEl1 : SysReg := 0x4005

/-- The trampoline for an SGI value in `r`, with the scratch register `t`. -/
def trampolineProgram (r t : Reg) : List Instr :=
  [.stp 29#5 30#5 31#5 (off (-16)) .pre, addXi 29#5 31#5 0#64, .tbz false r 40 (dist 2 20),
   andXi r r 0xFFFFFEFFFFFFFFFF#64, orrXi r r 1#64, movX 22#5 r,
   .mrs 9#5 mpidrEl1, andXi 9#5 9#5 0xF00#64, movXi 20#5 0#16, .movz false 21#5 8#16 0,
   -- 10: one core
   cmpXLsr 20#5 9#5 8, .bcond .eq (dist 11 16), lslX t 20#5 16, orrX r 22#5 t,
   .msr iccSgi1rEl1 r, .barrier,
   -- 16: the next core
   addXi 20#5 20#5 1#64, subWi 21#5 21#5 1#64, .cbz false true 21#5 (dist 18 10),
   .b (dist 19 21),
   -- 20: not an SGI to all other cores
   .msr iccSgi1rEl1 r,
   -- 21: return
   .ldp 29#5 30#5 31#5 16#64 .post, .ret 30#5]

theorem irmX10_trampoline_decode :
    (trampolineWords irmX10).map decode = (trampolineProgram 10#5 8#5).map some := by
  decide +kernel

theorem irmX8_trampoline_decode :
    (trampolineWords irmX8).map decode = (trampolineProgram 8#5 10#5).map some := by
  decide +kernel

/-! ## The loop -/

section Loop

variable {code : Code} {base : Addr} {r t : Reg} {s : State} {sgi v1 v2 : BitVec 64}

/-- The registers that hold the loop together. -/
def loopRegs : List Reg := [9#5, 20#5, 21#5, 22#5, 31#5]

/-- One core: its SGI is sent unless it is the own one. -/
theorem trampoline_turn (hl : Loaded code base (trampolineProgram r t))
    (hr : r ∉ loopRegs) (ht : t ∉ loopRegs) (hpc : s.pc = pcOf base 10)
    (hindex : s.gpr 20#5 = v2) (hown : s.gpr 9#5 = v1)
    (hvalue : s.gpr 22#5 = (sgi &&& 0xFFFFFEFFFFFFFFFE#64) ||| 1#64) :
    Reach code (fun u => u.pc = pcOf base 16 ∧ u.mem = s.mem ∧ SameOn loopRegs s u ∧
      u.sysWrites = s.sysWrites ++ (if v2 ≠ v1 >>> 8 then [sgiFor sgi v2] else []).map
        (Prod.mk iccSgi1rEl1)) s := by
  have hr31 : r ≠ 31#5 := fun h => hr (h ▸ by decide)
  have ht31 : t ≠ 31#5 := fun h => ht (h ▸ by decide)
  have ht22 : 22#5 ≠ t := fun h => ht (h ▸ by decide)
  have hcmp := exec_cmpXLsr s 20#5 9#5 8
  rw [State.x_of_ne (by decide), State.x_of_ne (by decide), hindex, hown] at hcmp
  refine .cmp_bcond (q := v2 = v1 >>> 8) hl 10 16 hpc rfl hcmp rfl (holds_eq _ _) ?_ ?_
  · -- The own core is left out.
    intro heq
    refine .refl ⟨rfl, rfl, SameOn.refl _ s, ?_⟩
    rw [if_neg (not_not.mpr heq)]
    exact (List.append_nil _).symm
  · intro hne
    -- The SGI with the number of the core in bits 16 on.
    refine .set (i := lslX t 20#5 16) (r := t) (v := v2 <<< 16) hl 12 rfl rfl ?_ ?_
    · rw [exec_lslX _ _ _ (by decide) (by decide), State.setX_of_ne ht31,
        State.x_of_ne (by decide), State.gpr_setPc, State.gpr_setFlags, hindex]
    refine .set (i := orrX r 22#5 t) (r := r) (v := sgiFor sgi v2) hl 13 rfl rfl ?_ ?_
    · rw [exec_orrX, State.setX_of_ne hr31, State.x_of_ne (by decide), State.x_of_ne ht31,
        State.gpr_setPc, State.gpr_setGpr, State.gpr_setGpr, if_neg ht22, if_pos rfl,
        State.gpr_setPc, State.gpr_setFlags, hvalue, sgiFor]
    refine .instr (i := .msr iccSgi1rEl1 r) hl 14 rfl rfl ?_
    rw [exec_msr, State.x_of_ne hr31, State.gpr_setPc, State.gpr_setGpr, if_pos rfl]
    refine .instr (i := .barrier) hl 15 (pcOf_next base 14) rfl (.refl ⟨?_, rfl, ?_, ?_⟩)
    · exact (congrArg (· + 4#64) (pcOf_next base 14)).trans (pcOf_next base 15)
    · exact ((SameOn.refl loopRegs s).setGpr ht).setGpr hr
    · rw [if_pos hne]
      rfl

/-- The counters after a turn, and the branch back while cores are left. -/
theorem trampoline_next (hl : Loaded code base (trampolineProgram r t)) {n : Nat} (hn : n < 8)
    (hpc : s.pc = pcOf base 16) (hindex : s.gpr 20#5 = v2)
    (hleft : s.gpr 21#5 = BitVec.ofNat 64 (n + 1)) :
    Reach code (fun u => u.pc = pcOf base (if n = 0 then 21 else 10) ∧ u.mem = s.mem ∧
      u.sysWrites = s.sysWrites ∧ u.gpr 20#5 = v2 + 1#64 ∧ u.gpr 21#5 = BitVec.ofNat 64 n ∧
      SameOn [9#5, 22#5, 31#5] s u) s := by
  have hdown : ((BitVec.ofNat 64 (n + 1) - 1#64).setWidth 32).setWidth 64 = BitVec.ofNat 64 n := by
    bv_omega
  refine .set (i := addXi 20#5 20#5 1#64) (r := 20#5) (v := v2 + 1#64) hl 16 hpc rfl ?_ ?_
  · rw [exec_addXi, hindex]
  refine .set (i := subWi 21#5 21#5 1#64) (r := 21#5) (v := BitVec.ofNat 64 n) hl 17 rfl rfl ?_ ?_
  · rw [exec_subWi, State.gpr_setPc, State.gpr_setGpr, if_neg (by decide), hleft, hdown]
  have hsame : SameOn [9#5, 22#5, 31#5] s
      ((s.setGpr 20#5 (v2 + 1#64)).setGpr 21#5 (BitVec.ofNat 64 n)) :=
    ((SameOn.refl _ s).setGpr (by decide)).setGpr (by decide)
  -- `cbz` tests the low word of the counter.
  have htest : ∀ u : State, u.gpr 21#5 = BitVec.ofNat 64 n →
      ((trunc false (u.x 21#5) == 0#64) != true) = decide (n ≠ 0) := by
    intro u hu
    have htrunc : trunc false (BitVec.ofNat 64 n) = BitVec.ofNat 64 n := by
      unfold trunc
      rw [if_neg Bool.false_ne_true]
      bv_omega
    have hzero : BitVec.ofNat 64 n = 0#64 ↔ n = 0 := by
      constructor
      · intro h
        bv_omega
      · rintro rfl
        rfl
    rw [State.x_of_ne (by decide), hu, htrunc, Bool.eq_iff_iff, decide_eq_true_iff,
      bne_iff_ne, ne_eq, beq_iff_eq, hzero]
  refine .cbz (q := n ≠ 0) hl 18 10 rfl rfl (htest _ rfl) ?_ ?_
  · intro hmore
    refine .refl ⟨?_, rfl, rfl, rfl, rfl, hsame⟩
    rw [if_neg hmore]
    rfl
  · intro hlast
    refine .b hl 19 21 rfl rfl (.refl ⟨?_, rfl, rfl, rfl, rfl, hsame⟩)
    rw [if_pos (not_not.mp hlast)]
    rfl

/-- The loop sends what that of the model does. -/
theorem trampoline_loop (hl : Loaded code base (trampolineProgram r t))
    (hr : r ∉ loopRegs) (ht : t ∉ loopRegs) : ∀ {n : Nat} {s : State} {v2 : BitVec 64}, n < 8 →
      s.pc = pcOf base 10 → s.gpr 20#5 = v2 → s.gpr 21#5 = BitVec.ofNat 64 (n + 1) →
      s.gpr 9#5 = v1 → s.gpr 22#5 = (sgi &&& 0xFFFFFEFFFFFFFFFE#64) ||| 1#64 →
      Reach code (fun u => u.pc = pcOf base 21 ∧ u.mem = s.mem ∧ u.gpr 31#5 = s.gpr 31#5 ∧
        u.sysWrites = s.sysWrites ++ (sendLoop sgi v1 (n + 1) v2).map (Prod.mk iccSgi1rEl1)) s := by
  -- By induction on the cores that are left.
  intro n
  induction n with
  | zero =>
      intro s v2 hn hpc hindex hleft hown hvalue
      refine (trampoline_turn hl hr ht hpc hindex hown hvalue).trans ?_
      rintro u ⟨hupc, humem, husame, hsent⟩
      refine (trampoline_next hl hn hupc ((husame 20#5 (by decide)).trans hindex)
        ((husame 21#5 (by decide)).trans hleft)).mono ?_
      rintro w ⟨hwpc, hwmem, hwsent, -, -, hwsame⟩
      refine ⟨hwpc, hwmem.trans humem,
        (hwsame 31#5 (by decide)).trans (husame 31#5 (by decide)), ?_⟩
      rw [hwsent, hsent, sendLoop_succ, sendLoop, List.append_nil]
  | succ n ih =>
      intro s v2 hn hpc hindex hleft hown hvalue
      refine (trampoline_turn hl hr ht hpc hindex hown hvalue).trans ?_
      rintro u ⟨hupc, humem, husame, hsent⟩
      refine (trampoline_next hl hn hupc ((husame 20#5 (by decide)).trans hindex)
        ((husame 21#5 (by decide)).trans hleft)).trans ?_
      rintro w ⟨hwpc, hwmem, hwsent, hwindex, hwleft, hwsame⟩
      rw [if_neg (Nat.succ_ne_zero n)] at hwpc
      have hwown : w.gpr 9#5 = v1 :=
        (hwsame 9#5 (by decide)).trans ((husame 9#5 (by decide)).trans hown)
      have hwvalue := (hwsame 22#5 (by decide)).trans ((husame 22#5 (by decide)).trans hvalue)
      refine (ih (by omega) hwpc hwindex hwleft hwown hwvalue).mono ?_
      rintro z ⟨hzpc, hzmem, hzsp, hzsent⟩
      refine ⟨hzpc, hzmem.trans (hwmem.trans humem), hzsp.trans
        ((hwsame 31#5 (by decide)).trans (husame 31#5 (by decide))), ?_⟩
      rw [hzsent, hwsent, hsent, List.append_assoc, sendLoop_succ _ _ (n + 1) v2, List.map_append]

end Loop

/-! ## The whole trampoline -/

section Whole

variable {code : Code} {base : Addr} {r t : Reg} {s : State}

/-- The registers that come back as they were. -/
def returnRegs : List Reg := [29#5, 31#5]

/-- Behind the prologue: the two registers are on the stack. -/
def prologueMem (s : State) : Mem :=
  write64 (write64 s.mem (s.gpr 31#5 - 16#64) (s.gpr 29#5)) (s.gpr 31#5 - 16#64 + 8#64)
    (s.gpr 30#5)

theorem read64_prologueMem (s : State) :
    read64 (prologueMem s) (s.gpr 31#5 - 16#64) = s.gpr 29#5 ∧
      read64 (prologueMem s) (s.gpr 31#5 - 16#64 + 8#64) = s.gpr 30#5 := by
  have hapart : Apart (s.gpr 31#5 - 16#64 + 8#64) 8 (s.gpr 31#5 - 16#64) 8 := by
    constructor <;> bv_omega
  constructor
  · rw [prologueMem, read64_write64_of_apart hapart, read64_write64_self]
  · rw [prologueMem, read64_write64_self]

/-- The last two instructions return with the registers that were saved. -/
theorem trampoline_return (hl : Loaded code base (trampolineProgram r t)) {u : State}
    (hpc : u.pc = pcOf base 21) (hmem : u.mem = prologueMem s)
    (hsp : u.gpr 31#5 = s.gpr 31#5 - 16#64) :
    Reach code (fun w => w.pc = s.gpr 30#5 ∧ w.sysWrites = u.sysWrites ∧
      SameOn returnRegs s w) u := by
  obtain ⟨hfp, hlr⟩ := read64_prologueMem s
  have hldp : exec (.ldp 29#5 30#5 31#5 16#64 .post) u
      = (((u.setGpr 31#5 (s.gpr 31#5)).setGpr 29#5 (s.gpr 29#5)).setGpr 30#5
          (s.gpr 30#5)).next := by
    have hback : s.gpr 31#5 - 16#64 + 16#64 = s.gpr 31#5 := by bv_omega
    rw [exec, State.setX_of_ne (by decide), State.setX_of_ne (by decide), State.writeBack,
      accessAddr, State.xsp, hsp, hmem, hfp, hlr, hback]
  refine .instr hl 21 hpc rfl ?_
  rw [hldp]
  refine .instr hl 22 (by simp [hpc]) rfl (.refl ⟨?_, rfl, ?_⟩)
  · rw [exec, State.pc_setPc, State.x_of_ne (by decide), State.gpr_next, State.gpr_setGpr,
      if_pos rfl]
  · intro q hq
    obtain rfl | rfl : q = 29#5 ∨ q = 31#5 := by simpa [returnRegs] using hq
    · rfl
    · rfl

/-- The prologue, and the test for an SGI to all other cores. -/
theorem trampoline_prologue (hl : Loaded code base (trampolineProgram r t)) (hr29 : r ≠ 29#5)
    (hr31 : r ≠ 31#5) (hpc : s.pc = pcOf base 0) :
    Reach code (fun u => u.pc = pcOf base (if (s.gpr r).getLsbD 40 = true then 3 else 20) ∧
      u.mem = prologueMem s ∧ u.gpr 31#5 = s.gpr 31#5 - 16#64 ∧ u.gpr r = s.gpr r ∧
      u.sys = s.sys ∧ u.sysWrites = s.sysWrites) s := by
  have hstp : exec (.stp 29#5 30#5 31#5 (off (-16)) .pre) s
      = ((s.setGpr 31#5 (s.gpr 31#5 - 16#64)).setMem (prologueMem s)).next := by
    have hoff : s.gpr 31#5 + off (-16) = s.gpr 31#5 - 16#64 := by
      have h16 : off (-16) = -16#64 := by decide
      rw [h16, BitVec.sub_eq_add_neg]
    rw [exec, State.writeBack, accessAddr, State.xsp, hoff, State.x_of_ne (by decide),
      State.x_of_ne (by decide)]
    rfl
  refine .instr hl 0 hpc rfl ?_
  rw [hstp]
  refine .set (i := addXi 29#5 31#5 0#64) (r := 29#5) (v := s.gpr 31#5 - 16#64) hl 1
    (by simp [hpc]) rfl ?_ ?_
  · rw [exec_addXi, BitVec.add_zero]
    rfl
  -- The state behind the frame record, before bit 40 is tested.
  obtain ⟨u, hu⟩ : ∃ u : State, u = (((s.setGpr 31#5 (s.gpr 31#5 - 16#64)).setMem
      (prologueMem s)).next.setGpr 29#5 (s.gpr 31#5 - 16#64)).setPc (pcOf base (1 + 1)) := ⟨_, rfl⟩
  have hur : u.gpr r = s.gpr r := by
    rw [hu, State.gpr_setPc, State.gpr_setGpr, if_neg hr29, State.gpr_next, State.gpr_setMem,
      State.gpr_setGpr, if_neg hr31]
  have husp : u.gpr 31#5 = s.gpr 31#5 - 16#64 := by
    rw [hu]
    rfl
  have hrest : u.pc = pcOf base 2 ∧ u.mem = prologueMem s ∧ u.sys = s.sys ∧
      u.sysWrites = s.sysWrites := by
    rw [hu]
    exact ⟨rfl, rfl, rfl, rfl⟩
  obtain ⟨hupc, humem, husys, husent⟩ := hrest
  rw [← hu]
  refine .tbz (q := (s.gpr r).getLsbD 40 = false) hl 2 20 hupc rfl ?_ ?_ ?_
  · rw [State.x_of_ne hr31, hur]
    cases (s.gpr r).getLsbD 40 <;> rfl
  · intro hone
    refine .refl ⟨?_, humem, husp, hur, husys, husent⟩
    rw [if_neg (by rw [hone]; exact Bool.false_ne_true)]
    rfl
  · intro hall
    refine .refl ⟨?_, humem, husp, hur, husys, husent⟩
    rw [if_pos (Bool.not_eq_false _ ▸ hall)]
    rfl

/-- The registers of the loop are set up. -/
theorem trampoline_setup (hl : Loaded code base (trampolineProgram r t)) (hr : r ∉ loopRegs)
    (hpc : s.pc = pcOf base 3) :
    Reach code (fun u => u.pc = pcOf base 10 ∧ u.mem = s.mem ∧ u.sysWrites = s.sysWrites ∧
      u.gpr 31#5 = s.gpr 31#5 ∧ u.gpr 20#5 = 0#64 ∧ u.gpr 21#5 = BitVec.ofNat 64 (7 + 1) ∧
      u.gpr 9#5 = s.sys mpidrEl1 &&& 0xF00#64 ∧
      u.gpr 22#5 = (s.gpr r &&& 0xFFFFFEFFFFFFFFFE#64) ||| 1#64) s := by
  have hne : ∀ q ∈ loopRegs, r ≠ q := fun q hq h => hr (h ▸ hq)
  have hr31 : r ≠ 31#5 := hne _ (by decide)
  refine .set (i := andXi r r 0xFFFFFEFFFFFFFFFF#64) (r := r)
    (v := s.gpr r &&& 0xFFFFFEFFFFFFFFFF#64) hl 3 hpc rfl ?_ ?_
  · rw [exec_andXi, State.x_of_ne hr31]
  refine .set (i := orrXi r r 1#64) (r := r)
    (v := (s.gpr r &&& 0xFFFFFEFFFFFFFFFE#64) ||| 1#64) hl 4 rfl rfl ?_ ?_
  · rw [exec_orrXi, State.x_of_ne hr31, State.gpr_setPc, State.gpr_setGpr, if_pos rfl,
      target_bit_eq]
  -- x22 is the SGI for one core, x9 the own number, x20 and x21 count.
  refine .set (i := movX 22#5 r) (r := 22#5)
    (v := (s.gpr r &&& 0xFFFFFEFFFFFFFFFE#64) ||| 1#64) hl 5 rfl rfl ?_ ?_
  · rw [exec_movX, State.setX_of_ne (by decide), State.x_of_ne hr31, State.gpr_setPc,
      State.gpr_setGpr, if_pos rfl]
  refine .set (i := .mrs 9#5 mpidrEl1) (r := 9#5) (v := s.sys mpidrEl1) hl 6 rfl rfl ?_ ?_
  · rw [exec_mrs, State.setX_of_ne (by decide)]
    rfl
  refine .set (i := andXi 9#5 9#5 0xF00#64) (r := 9#5) (v := s.sys mpidrEl1 &&& 0xF00#64) hl 7
    rfl rfl ?_ ?_
  · rw [exec_andXi, State.x_of_ne (by decide), State.gpr_setPc, State.gpr_setGpr, if_pos rfl]
  refine .set (i := movXi 20#5 0#16) (r := 20#5) (v := 0#64) hl 8 rfl rfl ?_ ?_
  · rw [exec_movz _ (by decide)]
    rfl
  refine .set (i := .movz false 21#5 8#16 0) (r := 21#5) (v := 8#64) hl 9 rfl rfl ?_ ?_
  · rw [exec_movz _ (by decide)]
    rfl
  refine .refl ⟨rfl, rfl, rfl, ?_, rfl, rfl, rfl, rfl⟩
  have hsame : SameOn [31#5] s ((((((((s.setGpr r (s.gpr r &&& 0xFFFFFEFFFFFFFFFF#64)).setGpr r
      ((s.gpr r &&& 0xFFFFFEFFFFFFFFFE#64) ||| 1#64)).setGpr 22#5
      ((s.gpr r &&& 0xFFFFFEFFFFFFFFFE#64) ||| 1#64)).setGpr 9#5 (s.sys mpidrEl1)).setGpr 9#5
      (s.sys mpidrEl1 &&& 0xF00#64)).setGpr 20#5 0#64).setGpr 21#5 8#64)) := by
    have hr1 : r ∉ [31#5] := by simpa using hr31
    exact (((((((SameOn.refl _ s).setGpr hr1).setGpr hr1).setGpr (by decide)).setGpr
      (by decide)).setGpr (by decide)).setGpr (by decide)).setGpr (by decide)
  exact hsame 31#5 (by decide)

/-- The trampoline sends what the model sends, and returns. -/
theorem trampoline_run (hl : Loaded code base (trampolineProgram r t)) (hr29 : r ≠ 29#5)
    (hr : r ∉ loopRegs) (ht : t ∉ loopRegs) (hpc : s.pc = pcOf base 0) :
    Reach code (fun u => u.pc = s.gpr 30#5 ∧
      u.sysWrites = s.sysWrites ++ (send (s.gpr r) (s.sys mpidrEl1)).map (Prod.mk iccSgi1rEl1) ∧
      SameOn returnRegs s u) s := by
  have hr31 : r ≠ 31#5 := fun h => hr (h ▸ by decide)
  refine (trampoline_prologue hl hr29 hr31 hpc).trans ?_
  rintro u ⟨hupc, humem, husp, hur, husys, husent⟩
  by_cases hall : (s.gpr r).getLsbD 40 = true
  · -- Bit 40 is set: one SGI for each other core.
    rw [if_pos hall] at hupc
    rw [send, if_pos ((irm_bit_iff _).mpr hall)]
    refine (trampoline_setup hl hr hupc).trans ?_
    rintro w ⟨hwpc, hwmem, hwsent, hwsp, hwindex, hwleft, hwown, hwvalue⟩
    refine (trampoline_loop hl hr ht (by omega) hwpc hwindex hwleft hwown hwvalue).trans ?_
    rintro x ⟨hxpc, hxmem, hxsp, hxsent⟩
    refine (trampoline_return hl hxpc (hxmem.trans (hwmem.trans humem))
      (hxsp.trans (hwsp.trans husp))).mono ?_
    rintro z ⟨hzpc, hzsent, hzsame⟩
    refine ⟨hzpc, ?_, hzsame⟩
    rw [hzsent, hxsent, hwsent, husent, hur, husys]
  · -- Any other SGI is sent as it is.
    rw [if_neg hall] at hupc
    rw [send, if_neg (mt (irm_bit_iff _).mp hall)]
    refine .instr (i := .msr iccSgi1rEl1 r) hl 20 hupc rfl ?_
    rw [exec_msr, State.x_of_ne hr31, hur]
    have hpc21 : ((u.log iccSgi1rEl1 (s.gpr r)).next).pc = pcOf base 21 :=
      (congrArg (· + 4#64) hupc).trans (pcOf_next base 20)
    refine (trampoline_return hl hpc21 humem husp).mono ?_
    rintro z ⟨hzpc, hzsent, hzsame⟩
    refine ⟨hzpc, ?_, hzsame⟩
    rw [hzsent]
    exact congrArg (· ++ [(iccSgi1rEl1, s.gpr r)]) husent

end Whole

/-! ## The patched instruction -/

/-- The machine that comes to the patched instruction sends the SGI in `r` as the model does,
    and goes on behind the instruction. -/
def SendsLikeModel (m : Mem) (site : Addr) (r : Reg) (s : State) : Prop :=
  Reach (memCode m) (fun u => u.pc = site + 4#64 ∧
    u.sysWrites = s.sysWrites ++ (send (s.gpr r) (s.sys mpidrEl1)).map (Prod.mk iccSgi1rEl1) ∧
    u.gpr 31#5 = s.gpr 31#5 ∧ u.gpr 29#5 = s.gpr 29#5) s

theorem sendsLikeModel_of_reaches {v : IrmVariant} {r t : Reg} {m : Mem} {site marker : Addr}
    {s : State} (hdec : (trampolineWords v).map decode = (trampolineProgram r t).map some)
    (hr : r ∉ 29#5 :: 30#5 :: loopRegs) (ht : t ∉ loopRegs) (hpc : s.pc = site)
    (h : ReachesTrampoline v m site marker) : SendsLikeModel m site r s := by
  obtain ⟨hbranch, hholds⟩ := h
  have hne : ∀ q ∈ 29#5 :: 30#5 :: loopRegs, r ≠ q := fun q hq heq => hr (heq ▸ hq)
  have hloaded : Loaded (memCode m) (codeLocation marker) (trampolineProgram r t) :=
    loaded_of_holdsWords hholds hdec
  obtain ⟨u, hu⟩ : ∃ u : State,
      u = (s.setGpr 30#5 (site + 4#64)).setPc (codeLocation marker) := ⟨_, rfl⟩
  -- The branch, and then the run of the trampoline.
  have hstep : A64.step (memCode m) s = some u := by
    rw [hu]
    exact step_blTarget hbranch hpc
  have hur : u.gpr r = s.gpr r := by
    rw [hu, State.gpr_setPc, State.gpr_setGpr, if_neg (hne _ (by decide))]
  have hupc : u.pc = pcOf (codeLocation marker) 0 := by
    rw [hu, pcOf_zero]
    rfl
  refine .step hstep ((trampoline_run hloaded (hne _ (by decide))
    (fun h => hr (List.mem_cons_of_mem _ (List.mem_cons_of_mem _ h))) ht hupc).mono ?_)
  rintro w ⟨hwpc, hwsent, hwsame⟩
  have hback : ∀ q ∈ returnRegs, u.gpr q = s.gpr q := by
    intro q hq
    have h30 : q ≠ 30#5 := fun h => absurd (h ▸ hq) (by decide)
    rw [hu, State.gpr_setPc, State.gpr_setGpr, if_neg h30]
  refine ⟨?_, ?_, ?_, ?_⟩
  · rw [hwpc, hu]
    rfl
  · rw [hwsent, hur, hu]
    rfl
  · exact (hwsame 31#5 (by decide)).trans (hback 31#5 (by decide))
  · exact (hwsame 29#5 (by decide)).trans (hback 29#5 (by decide))

/-- Both trampolines send what the model sends, for every SGI and every core. -/
theorem irm_trampolines_send {m : Mem} {site : Addr} {s : State} (hpc : s.pc = site)
    (marker : Addr) :
    (ReachesTrampoline irmX10 m site marker → SendsLikeModel m site 10#5 s) ∧
      (ReachesTrampoline irmX8 m site marker → SendsLikeModel m site 8#5 s) :=
  ⟨sendsLikeModel_of_reaches irmX10_trampoline_decode (by decide) (by decide) hpc,
    sendsLikeModel_of_reaches irmX8_trampoline_decode (by decide) (by decide) hpc⟩

/-- At the patched instruction, with an SGI to all other cores in both registers. -/
def sendingState (site : Addr) : State where
  gpr := fun r => if r = 10#5 ∨ r = 8#5 then 0x1000F000000#64 else 0x9000#64
  pc := site
  flags := ⟨false, false, false, false⟩
  mem := fun _ => 0#8
  sys := fun _ => 0x81000200#64
  sysWrites := []

/-- The branch at `0x3000` with the trampoline before the marker at `0x4000`. -/
theorem irm_trampolines_send_planted :
    SendsLikeModel (planted irmX10 (fun _ => 0#8) 0x3000#64 0x4000#64) 0x3000#64 10#5
        (sendingState 0x3000#64) ∧
      SendsLikeModel (planted irmX8 (fun _ => 0#8) 0x3000#64 0x4000#64) 0x3000#64 8#5
        (sendingState 0x3000#64) := by
  have hrange : InBranchRange 0x3000#64 (codeLocation 0x4000#64) := by
    constructor <;> decide
  have hclear : ClearOf 0x3000#64 0x4000#64 := by
    show 92 ≤ _
    decide
  have hx10 : ReachesTrampoline irmX10 (planted irmX10 (fun _ => 0#8) 0x3000#64 0x4000#64) 0x3000#64
      0x4000#64 := (reaches_planted_iff irmX10_distinct (by decide)).mpr ⟨hrange, hclear⟩
  have hx8 : ReachesTrampoline irmX8 (planted irmX8 (fun _ => 0#8) 0x3000#64 0x4000#64) 0x3000#64
      0x4000#64 := (reaches_planted_iff irmX8_distinct (by decide)).mpr ⟨hrange, hclear⟩
  exact ⟨(irm_trampolines_send rfl 0x4000#64).1 hx10, (irm_trampolines_send rfl 0x4000#64).2 hx8⟩

end KernelErrataPatcher
