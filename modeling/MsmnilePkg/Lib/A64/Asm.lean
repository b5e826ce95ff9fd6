/-
  MsmnilePkg.Lib.A64.Asm

  Assembly text: the aliases an assembler accepts, and the resolution of
  labels to branch distances.
-/

import MsmnilePkg.Lib.A64.Run

namespace A64

open ByteMem

/-! ## Aliases -/

/-- `mov xd, xm` -/
abbrev movX (rd rm : Reg) : Instr := .logicReg true .orr false rd 31#5 rm .lsl 0
/-- `mov wd, #imm` for a value with one non-zero halfword. -/
abbrev movW (rd : Reg) (imm : BitVec 32) : Instr :=
  if imm.extractLsb' 16 16 = 0#16 then .movz false rd (imm.extractLsb' 0 16) 0
  else .movz false rd (imm.extractLsb' 16 16) 16
/-- `mov xd, #imm` for a value below `2 ^ 16`. -/
abbrev movXi (rd : Reg) (imm : BitVec 16) : Instr := .movz true rd imm 0
/-- `movk wd, #imm, lsl #n` -/
abbrev movkW (rd : Reg) (imm : BitVec 16) (lsl : Nat) : Instr := .movk false rd imm lsl
/-- `movk xd, #imm, lsl #n` -/
abbrev movkX (rd : Reg) (imm : BitVec 16) (lsl : Nat) : Instr := .movk true rd imm lsl
/-- `ldr xt, [xn, #off]!` -/
abbrev ldrXPre (rt rn : Reg) (off : BitVec 64) : Instr := .ldr true rt rn off .pre
/-- `ldr xt, [xn, #off]` -/
abbrev ldrX (rt rn : Reg) (off : BitVec 64) : Instr := .ldr true rt rn off .offset
/-- `ldr wt, [xn, #off]` -/
abbrev ldrW (rt rn : Reg) (off : BitVec 64) : Instr := .ldr false rt rn off .offset
/-- `str xt, [xn, #off]` -/
abbrev strX (rt rn : Reg) (off : BitVec 64) : Instr := .str true rt rn off .offset
/-- `str wt, [xn, #off]` -/
abbrev strW (rt rn : Reg) (off : BitVec 64) : Instr := .str false rt rn off .offset
/-- `cmp xn, xm` -/
abbrev cmpX (rn rm : Reg) : Instr := .addSubReg true true true 31#5 rn rm .lsl 0
/-- `cmp wn, wm` -/
abbrev cmpW (rn rm : Reg) : Instr := .addSubReg false true true 31#5 rn rm .lsl 0
/-- `cmp xn, #imm` -/
abbrev cmpXi (rn : Reg) (imm : BitVec 64) : Instr := .addSubImm true true true 31#5 rn imm
/-- `cmp wn, #imm` -/
abbrev cmpWi (rn : Reg) (imm : BitVec 64) : Instr := .addSubImm false true true 31#5 rn imm
/-- `add xd, xn, #imm` -/
abbrev addXi (rd rn : Reg) (imm : BitVec 64) : Instr := .addSubImm true false false rd rn imm
/-- `sub xd, xn, #imm` -/
abbrev subXi (rd rn : Reg) (imm : BitVec 64) : Instr := .addSubImm true true false rd rn imm
/-- `add xd, xn, xm` -/
abbrev addX (rd rn rm : Reg) : Instr := .addSubReg true false false rd rn rm .lsl 0
/-- `add wd, wn, wm` -/
abbrev addW (rd rn rm : Reg) : Instr := .addSubReg false false false rd rn rm .lsl 0
/-- `sub xd, xn, xm` -/
abbrev subX (rd rn rm : Reg) : Instr := .addSubReg true true false rd rn rm .lsl 0
/-- `and wd, wn, wm` -/
abbrev andW (rd rn rm : Reg) : Instr := .logicReg false .and false rd rn rm .lsl 0
/-- `orr wd, wn, wm` -/
abbrev orrW (rd rn rm : Reg) : Instr := .logicReg false .orr false rd rn rm .lsl 0
/-- `orr xd, xn, xm` -/
abbrev orrX (rd rn rm : Reg) : Instr := .logicReg true .orr false rd rn rm .lsl 0
/-- `bics wd, wn, wm` -/
abbrev bicsW (rd rn rm : Reg) : Instr := .logicReg false .ands true rd rn rm .lsl 0
/-- `and xd, xn, #mask` -/
abbrev andXi (rd rn : Reg) (mask : BitVec 64) : Instr := .logicImm true .and rd rn mask
/-- `orr xd, xn, #mask` -/
abbrev orrXi (rd rn : Reg) (mask : BitVec 64) : Instr := .logicImm true .orr rd rn mask
/-- `sub wd, wn, #imm` -/
abbrev subWi (rd rn : Reg) (imm : BitVec 64) : Instr := .addSubImm false true false rd rn imm
/-- `cmp xn, xm, lsr #n` -/
abbrev cmpXLsr (rn rm : Reg) (n : Nat) : Instr := .addSubReg true true true 31#5 rn rm .lsr n
/-- `lsl xd, xn, #n` -/
abbrev lslX (rd rn : Reg) (n : Nat) : Instr := .ubfm true rd rn (64 - n) (63 - n)
/-- `ubfx wd, wn, #lsb, #width` -/
abbrev ubfxW (rd rn : Reg) (lsb width : Nat) : Instr := .ubfm false rd rn lsb (lsb + width - 1)
/-- `csel xd, xn, xm, cond` -/
abbrev cselX (rd rn rm : Reg) (c : Cond) : Instr := .csel true rd rn rm c
/-- `ccmp xn, #imm, #nzcv, cond` -/
abbrev ccmpX (rn : Reg) (imm : BitVec 64) (nzcv : BitVec 4) (c : Cond) : Instr :=
  .ccmpImm true rn imm nzcv c

/-- The zero register. -/
abbrev zr : Reg := 31#5

/-- A signed byte distance. -/
abbrev off (d : Int) : BitVec 64 := BitVec.ofInt 64 d

/-! ## The effect of the aliases -/

section Effects

variable (s : State) (rd rn rm rt : Reg) (o imm : BitVec 64) (c : Cond)

theorem exec_movX : exec (movX rd rm) s = (s.setX rd (s.x rm)).next := by
  simp [exec, logic, shiftOperand, trunc]

theorem exec_ldrXPre : exec (ldrXPre rt rn o) s =
    ((s.setGpr rn (s.gpr rn + o)).setX rt (read64 s.mem (s.gpr rn + o))).next := rfl

theorem exec_ldrX : exec (ldrX rt rn o) s = (s.setX rt (read64 s.mem (s.gpr rn + o))).next := rfl

theorem exec_ldrW : exec (ldrW rt rn o) s =
    (s.setX rt ((read32 s.mem (s.gpr rn + o)).setWidth 64)).next := rfl

theorem exec_strX : exec (strX rt rn o) s =
    (s.setMem (write64 s.mem (s.gpr rn + o) (s.x rt))).next := rfl

theorem exec_strW : exec (strW rt rn o) s =
    (s.setMem (write32 s.mem (s.gpr rn + o) ((s.x rt).setWidth 32))).next := rfl

theorem exec_cmpX : exec (cmpX rn rm) s = (s.setFlags (cmpFlags (s.x rn) (s.x rm))).next := by
  simp [exec, arithFlags, shiftOperand]

theorem exec_cmpW : exec (cmpW rn rm) s =
    (s.setFlags (cmpFlags ((s.x rn).setWidth 32) ((s.x rm).setWidth 32))).next := by
  simp [exec, arithFlags, shiftOperand]

theorem exec_cmpXi : exec (cmpXi rn imm) s = (s.setFlags (cmpFlags (s.gpr rn) imm)).next := by
  simp [exec, arithFlags, State.xsp]

theorem exec_cmpWi : exec (cmpWi rn imm) s =
    (s.setFlags (cmpFlags ((s.gpr rn).setWidth 32) (imm.setWidth 32))).next := by
  simp [exec, arithFlags, State.xsp]

theorem exec_addXi : exec (addXi rd rn imm) s = (s.setGpr rd (s.gpr rn + imm)).next := rfl

theorem exec_addX : exec (addX rd rn rm) s = (s.setX rd (s.x rn + s.x rm)).next := by
  simp [exec, arith, trunc, shiftOperand]

theorem exec_addW : exec (addW rd rn rm) s =
    (s.setX rd (((s.x rn).setWidth 32 + (s.x rm).setWidth 32).setWidth 64)).next := by
  simp [exec, arith, trunc, shiftOperand, BitVec.setWidth_add]

theorem exec_subX : exec (subX rd rn rm) s = (s.setX rd (s.x rn - s.x rm)).next := by
  simp [exec, arith, trunc, shiftOperand]

theorem exec_orrW : exec (orrW rd rn rm) s =
    (s.setX rd (((s.x rn ||| s.x rm).setWidth 32).setWidth 64)).next := by
  simp [exec, logic, trunc, shiftOperand]

theorem exec_andW : exec (andW rd rn rm) s =
    (s.setX rd (((s.x rn &&& s.x rm).setWidth 32).setWidth 64)).next := by
  simp [exec, logic, trunc, shiftOperand]

theorem exec_tstBicsW : exec (bicsW zr rn rm) s = (s.setFlags (logicFlags false
    (((s.x rn).setWidth 32 &&& ~~~(s.x rm).setWidth 32).setWidth 64))).next := by
  simp [exec, logic, trunc, shiftOperand]

theorem exec_cselX : exec (cselX rd rn rm c) s =
    (s.setX rd (if c.holds s.flags then s.x rn else s.x rm)).next := rfl

theorem exec_ccmpX (nzcv : BitVec 4) : exec (ccmpX rn imm nzcv c) s =
    (s.setFlags (if c.holds s.flags then cmpFlags (s.x rn) imm
      else ⟨nzcv.getLsbD 3, nzcv.getLsbD 2, nzcv.getLsbD 1, nzcv.getLsbD 0⟩)).next := rfl

theorem exec_orrX : exec (orrX rd rn rm) s = (s.setX rd (s.x rn ||| s.x rm)).next := by
  simp [exec, logic, trunc, shiftOperand]

theorem exec_andXi : exec (andXi rd rn imm) s = (s.setGpr rd (s.x rn &&& imm)).next := by
  simp [exec, logic, trunc]

theorem exec_orrXi : exec (orrXi rd rn imm) s = (s.setGpr rd (s.x rn ||| imm)).next := by
  simp [exec, logic, trunc]

theorem exec_subWi : exec (subWi rd rn imm) s =
    (s.setGpr rd (((s.gpr rn - imm).setWidth 32).setWidth 64)).next := rfl

theorem exec_cmpXLsr (n : Nat) : exec (cmpXLsr rn rm n) s =
    (s.setFlags (cmpFlags (s.x rn) (s.x rm >>> n))).next := by
  simp [exec, arithFlags, shiftOperand]

theorem ubfmResult_lsl (v : BitVec 64) {n : Nat} (hpos : 0 < n) (hn : n < 64) :
    ubfmResult true v (64 - n) (63 - n) = v <<< n := by
  have hmask : ∀ i < 64, (BitVec.ofNat 64 (2 ^ (63 - n + 1) - 1)).getLsbD i
      = decide (i < 63 - n + 1) := by
    intro i hi
    rw [BitVec.getLsbD_ofNat, Nat.testBit_two_pow_sub_one]
    simp [hi]
  have hshift : 64 - (64 - n) = n := by omega
  rw [ubfmResult, if_neg (by omega)]
  apply BitVec.eq_of_getLsbD_eq
  intro i hi
  show ((v &&& BitVec.ofNat 64 (2 ^ (63 - n + 1) - 1)) <<< (64 - (64 - n))).getLsbD i
    = (v <<< n).getLsbD i
  rw [hshift, BitVec.getLsbD_shiftLeft, BitVec.getLsbD_shiftLeft, BitVec.getLsbD_and]
  by_cases hlow : i < n
  · simp [hlow]
  · rw [hmask _ (by omega), decide_eq_true (show i - n < 63 - n + 1 by omega), Bool.and_true]

theorem exec_lslX {n : Nat} (hpos : 0 < n) (hn : n < 64) :
    exec (lslX rd rn n) s = (s.setX rd (s.x rn <<< n)).next := by
  rw [exec, ubfmResult_lsl _ hpos hn]

theorem exec_msr (r : SysReg) : exec (.msr r rt) s = (s.log r (s.x rt)).next := rfl

theorem exec_mrs (r : SysReg) : exec (.mrs rt r) s = (s.setX rt (s.sys r)).next := rfl

theorem exec_bcond : exec (.bcond c o) s =
    if c.holds s.flags then s.setPc (s.pc + o) else s.next := rfl

theorem exec_b : exec (.b o) s = s.setPc (s.pc + o) := rfl

end Effects

/-! ## Constants in halfwords -/

/-- What `movk` leaves in its register: `c` in the halfword at bit `lsl`. -/
def insertHalf (v : BitVec 64) (c : BitVec 16) (lsl : Nat) : BitVec 64 :=
  (v &&& ~~~((0xFFFF#64) <<< lsl)) ||| c.setWidth 64 <<< lsl

theorem insertHalf_bit (v : BitVec 64) (c : BitVec 16) (lsl : Nat) {i : Nat} (hi : i < 64) :
    (insertHalf v c lsl).getLsbD i
      = if lsl ≤ i ∧ i < lsl + 16 then c.getLsbD (i - lsl) else v.getLsbD i := by
  have hmask : ∀ j < 64, (0xFFFF#64).getLsbD j = decide (j < 16) := by decide
  unfold insertHalf
  simp only [BitVec.getLsbD_or, BitVec.getLsbD_and, BitVec.getLsbD_not, BitVec.getLsbD_shiftLeft,
    BitVec.getLsbD_setWidth, hmask _ (show i - lsl < 64 by omega)]
  by_cases hlow : i < lsl
  · rw [if_neg (by omega)]
    simp [hi, hlow]
  · by_cases hhigh : i < lsl + 16
    · rw [if_pos (by omega)]
      simp [hi, hlow, show i - lsl < 16 by omega]
      omega
    · rw [if_neg (by omega), BitVec.getLsbD_of_ge c _ (by omega)]
      simp [hi, hlow, show ¬ i - lsl < 16 by omega]

theorem insertHalf_four (c0 c1 c2 c3 : BitVec 16) :
    insertHalf (insertHalf (insertHalf (c0.setWidth 64) c1 16) c2 32) c3 48
      = c3 ++ c2 ++ c1 ++ c0 := by
  apply BitVec.eq_of_getLsbD_eq
  intro i hi
  rw [insertHalf_bit _ _ _ hi, insertHalf_bit _ _ _ hi, insertHalf_bit _ _ _ hi,
    BitVec.getLsbD_append, BitVec.getLsbD_append, BitVec.getLsbD_append, BitVec.getLsbD_setWidth]
  grind

theorem insertHalf_two (c0 c1 : BitVec 16) :
    ((insertHalf (c0.setWidth 64) c1 16).setWidth 32).setWidth 64 = (c1 ++ c0).setWidth 64 := by
  apply BitVec.eq_of_getLsbD_eq
  intro i hi
  rw [BitVec.getLsbD_setWidth, BitVec.getLsbD_setWidth, BitVec.getLsbD_setWidth,
    insertHalf_bit _ _ _ hi, BitVec.getLsbD_append, BitVec.getLsbD_setWidth]
  grind

theorem exec_movkX (s : State) {r : Reg} (hr : r ≠ 31#5) (c : BitVec 16) (lsl : Nat) :
    exec (movkX r c lsl) s = (s.setGpr r (insertHalf (s.gpr r) c lsl)).next := by
  rw [exec, State.setX_of_ne hr, State.x_of_ne hr]
  rfl

theorem exec_movkW (s : State) {r : Reg} (hr : r ≠ 31#5) (c : BitVec 16) (lsl : Nat) :
    exec (movkW r c lsl) s
      = (s.setGpr r (((insertHalf (s.gpr r) c lsl).setWidth 32).setWidth 64)).next := by
  rw [exec, State.setX_of_ne hr, State.x_of_ne hr]
  rfl

theorem exec_movz (s : State) {r : Reg} (hr : r ≠ 31#5) (sf : Bool) (c : BitVec 16) :
    exec (.movz sf r c 0) s = (s.setGpr r (c.setWidth 64)).next := by
  rw [exec, State.setX_of_ne hr, BitVec.shiftLeft_zero]

/-! ## Rules for branches and constants -/

section Rules

variable {code : Code} {P : State → Prop} {s : State} {base : Addr}
  {prog : List Instr}

/-- The byte distance of a branch from instruction `k` to instruction `t`. -/
def dist (k t : Nat) : BitVec 64 := off (4 * ((t : Int) - k))

theorem pcOf_dist (base : Addr) (k t : Nat) : pcOf base k + dist k t = pcOf base t :=
  pcOf_branch base k t rfl

theorem Reach.b (hl : Loaded code base prog) (k t : Nat) (hpc : s.pc = pcOf base k)
    (hi : prog[k]? = some (.b (dist k t))) (h : Reach code P (s.setPc (pcOf base t))) :
    Reach code P s := by
  refine .instr hl k hpc hi ?_
  rwa [exec_b, hpc, pcOf_dist]

theorem Reach.bcond {c : Cond} (hl : Loaded code base prog) (k t : Nat)
    (hpc : s.pc = pcOf base k) (hi : prog[k]? = some (.bcond c (dist k t)))
    (hyes : c.holds s.flags = true → Reach code P (s.setPc (pcOf base t)))
    (hno : c.holds s.flags = false → Reach code P (s.setPc (pcOf base (k + 1)))) :
    Reach code P s := by
  refine .instr hl k hpc hi ?_
  rw [exec_bcond]
  cases hc : c.holds s.flags with
  | true =>
      rw [if_pos rfl, hpc, pcOf_dist]
      exact hyes hc
  | false =>
      rw [if_neg (by simp), State.next, hpc, pcOf_next]
      exact hno hc

/-- A compare and branch.  `q` is what the test says. -/
theorem Reach.cbz {sf nonzero : Bool} {r : Reg} {q : Prop} [Decidable q]
    (hl : Loaded code base prog) (k t : Nat) (hpc : s.pc = pcOf base k)
    (hi : prog[k]? = some (.cbz sf nonzero r (dist k t)))
    (hq : ((trunc sf (s.x r) == 0#64) != nonzero) = decide q)
    (hyes : q → Reach code P (s.setPc (pcOf base t)))
    (hno : ¬ q → Reach code P (s.setPc (pcOf base (k + 1)))) : Reach code P s := by
  refine .instr hl k hpc hi ?_
  rw [exec, hq]
  by_cases h : q
  · rw [if_pos (decide_eq_true h), hpc, pcOf_dist]
    exact hyes h
  · rw [if_neg (by simp [h]), State.next, hpc, pcOf_next]
    exact hno h

/-- A test of one bit and branch. -/
theorem Reach.tbz {nonzero : Bool} {r : Reg} {bit : Nat} {q : Prop} [Decidable q]
    (hl : Loaded code base prog) (k t : Nat) (hpc : s.pc = pcOf base k)
    (hi : prog[k]? = some (.tbz nonzero r bit (dist k t)))
    (hq : ((s.x r).getLsbD bit == nonzero) = decide q)
    (hyes : q → Reach code P (s.setPc (pcOf base t)))
    (hno : ¬ q → Reach code P (s.setPc (pcOf base (k + 1)))) : Reach code P s := by
  refine .instr hl k hpc hi ?_
  rw [exec, hq]
  by_cases h : q
  · rw [if_pos (decide_eq_true h), hpc, pcOf_dist]
    exact hyes h
  · rw [if_neg (by simp [h]), State.next, hpc, pcOf_next]
    exact hno h

/-- An instruction whose only effect is a register. -/
theorem Reach.set {i : Instr} {r : Reg} {v : BitVec 64} (hl : Loaded code base prog) (k : Nat)
    (hpc : s.pc = pcOf base k) (hi : prog[k]? = some i) (hexec : exec i s = (s.setGpr r v).next)
    (h : Reach code P ((s.setGpr r v).setPc (pcOf base (k + 1)))) : Reach code P s := by
  refine .instr hl k hpc hi ?_
  rwa [hexec, State.next, State.pc_setGpr, hpc, pcOf_next]

/-- An instruction whose only effect are the flags. -/
theorem Reach.flags {i : Instr} {f : Flags} (hl : Loaded code base prog) (k : Nat)
    (hpc : s.pc = pcOf base k) (hi : prog[k]? = some i) (hexec : exec i s = (s.setFlags f).next)
    (h : Reach code P ((s.setFlags f).setPc (pcOf base (k + 1)))) : Reach code P s := by
  refine .instr hl k hpc hi ?_
  rwa [hexec, State.next, State.pc_setFlags, hpc, pcOf_next]

theorem Reach.nop (hl : Loaded code base prog) (k : Nat) (hpc : s.pc = pcOf base k)
    (hi : prog[k]? = some .nop) (h : Reach code P (s.setPc (pcOf base (k + 1)))) :
    Reach code P s := by
  refine .instr hl k hpc hi ?_
  rwa [show exec .nop s = s.next from rfl, State.next, hpc, pcOf_next]

theorem Reach.ldrX {r n : Reg} {o : BitVec 64} (hr : r ≠ 31#5) (hl : Loaded code base prog)
    (k : Nat) (hpc : s.pc = pcOf base k) (hi : prog[k]? = some (A64.ldrX r n o))
    (h : Reach code P ((s.setGpr r (read64 s.mem (s.gpr n + o))).setPc (pcOf base (k + 1)))) :
    Reach code P s := by
  refine .set hl k hpc hi ?_ h
  rw [exec_ldrX, State.setX_of_ne hr]

theorem Reach.ldrW {r n : Reg} {o : BitVec 64} (hr : r ≠ 31#5) (hl : Loaded code base prog)
    (k : Nat) (hpc : s.pc = pcOf base k) (hi : prog[k]? = some (A64.ldrW r n o))
    (h : Reach code P ((s.setGpr r ((read32 s.mem (s.gpr n + o)).setWidth 64)).setPc
      (pcOf base (k + 1)))) :
    Reach code P s := by
  refine .set hl k hpc hi ?_ h
  rw [exec_ldrW, State.setX_of_ne hr]

theorem Reach.strW {r n : Reg} {o : BitVec 64} {a : Addr} {w : BitVec 32} (hr : r ≠ 31#5)
    (hl : Loaded code base prog) (k : Nat) (hpc : s.pc = pcOf base k)
    (hi : prog[k]? = some (A64.strW r n o)) (ha : s.gpr n + o = a)
    (hw : (s.gpr r).setWidth 32 = w)
    (h : Reach code P ((s.setMem (write32 s.mem a w)).setPc (pcOf base (k + 1)))) :
    Reach code P s := by
  refine .instr hl k hpc hi ?_
  rwa [exec_strW, State.x_of_ne hr, State.next, State.pc_setMem, hpc, pcOf_next, ha, hw]

/-- A comparison and the branch on it.  `q` is what the condition says. -/
theorem Reach.cmp_bcond {i : Instr} {c : Cond} {f : Flags} {q : Prop} [Decidable q]
    (hl : Loaded code base prog) (k t : Nat) (hpc : s.pc = pcOf base k)
    (hi : prog[k]? = some i) (hexec : exec i s = (s.setFlags f).next)
    (hb : prog[k + 1]? = some (.bcond c (dist (k + 1) t))) (hq : c.holds f = decide q)
    (hyes : q → Reach code P ((s.setFlags f).setPc (pcOf base t)))
    (hno : ¬ q → Reach code P ((s.setFlags f).setPc (pcOf base (k + 2)))) :
    Reach code P s := by
  refine .instr hl k hpc hi ?_
  rw [hexec]
  refine .bcond hl (k + 1) t (by simp [hpc]) hb (fun h => hyes ?_) (fun h => hno ?_)
  · exact of_decide_eq_true (hq.symm.trans h)
  · exact of_decide_eq_false (hq.symm.trans h)

theorem Reach.cmpX {c : Cond} {n m : Reg} {q : Prop} [Decidable q] (hn : n ≠ 31#5)
    (hm : m ≠ 31#5) (hl : Loaded code base prog) (k t : Nat) (hpc : s.pc = pcOf base k)
    (hi : prog[k]? = some (A64.cmpX n m)) (hb : prog[k + 1]? = some (.bcond c (dist (k + 1) t)))
    (hq : c.holds (cmpFlags (s.gpr n) (s.gpr m)) = decide q)
    (hyes : q → ∀ f, Reach code P ((s.setFlags f).setPc (pcOf base t)))
    (hno : ¬ q → ∀ f, Reach code P ((s.setFlags f).setPc (pcOf base (k + 2)))) :
    Reach code P s := by
  have hexec := exec_cmpX s n m
  rw [State.x_of_ne hn, State.x_of_ne hm] at hexec
  exact .cmp_bcond hl k t hpc hi hexec hb hq (fun h => hyes h _) (fun h => hno h _)

theorem Reach.cmpW {c : Cond} {n m : Reg} {q : Prop} [Decidable q] (hn : n ≠ 31#5)
    (hm : m ≠ 31#5) (hl : Loaded code base prog) (k t : Nat) (hpc : s.pc = pcOf base k)
    (hi : prog[k]? = some (A64.cmpW n m)) (hb : prog[k + 1]? = some (.bcond c (dist (k + 1) t)))
    (hq : c.holds (cmpFlags ((s.gpr n).setWidth 32) ((s.gpr m).setWidth 32)) = decide q)
    (hyes : q → ∀ f, Reach code P ((s.setFlags f).setPc (pcOf base t)))
    (hno : ¬ q → ∀ f, Reach code P ((s.setFlags f).setPc (pcOf base (k + 2)))) :
    Reach code P s := by
  have hexec := exec_cmpW s n m
  rw [State.x_of_ne hn, State.x_of_ne hm] at hexec
  exact .cmp_bcond hl k t hpc hi hexec hb hq (fun h => hyes h _) (fun h => hno h _)

theorem Reach.cmpWi {c : Cond} {n : Reg} {v : BitVec 64} {q : Prop} [Decidable q]
    (hl : Loaded code base prog) (k t : Nat) (hpc : s.pc = pcOf base k)
    (hi : prog[k]? = some (A64.cmpWi n v)) (hb : prog[k + 1]? = some (.bcond c (dist (k + 1) t)))
    (hq : c.holds (cmpFlags ((s.gpr n).setWidth 32) (v.setWidth 32)) = decide q)
    (hyes : q → ∀ f, Reach code P ((s.setFlags f).setPc (pcOf base t)))
    (hno : ¬ q → ∀ f, Reach code P ((s.setFlags f).setPc (pcOf base (k + 2)))) :
    Reach code P s :=
  .cmp_bcond hl k t hpc hi (exec_cmpWi s n v) hb hq (fun h => hyes h _) (fun h => hno h _)

/-- `bics wzr, wn, wm` sets `Z` exactly when `wm` has every bit of `wn`. -/
theorem holds_eq_bics (mask w : BitVec 32) :
    Cond.holds (logicFlags false ((mask &&& ~~~w).setWidth 64)) .eq
      = decide (w &&& mask = mask) := by
  -- No bit of the mask is missing in the word.
  have hiff : mask &&& ~~~w = 0#32 ↔ w &&& mask = mask := by
    constructor
    · intro h
      apply BitVec.eq_of_getLsbD_eq
      intro i hi
      have hbit := congrArg (fun v => v.getLsbD i) h
      simp only [BitVec.getLsbD_and, BitVec.getLsbD_not, hi, decide_true, Bool.true_and,
        BitVec.getLsbD_zero] at hbit
      rw [BitVec.getLsbD_and]
      cases hw : w.getLsbD i <;> simp_all
    · intro h
      rw [← h]
      apply BitVec.eq_of_getLsbD_eq
      intro i hi
      rw [BitVec.getLsbD_and, BitVec.getLsbD_and, BitVec.getLsbD_not, BitVec.getLsbD_zero]
      cases hw : w.getLsbD i <;> simp
  have hz : (logicFlags false ((mask &&& ~~~w).setWidth 64)).z = decide (mask &&& ~~~w = 0#32) := by
    simp [logicFlags, beq_eq_decide]
  rw [Cond.holds, hz, decide_eq_decide]
  exact hiff

theorem holds_ne_bics (mask w : BitVec 32) :
    Cond.holds (logicFlags false ((mask &&& ~~~w).setWidth 64)) .ne
      = decide (w &&& mask ≠ mask) := by
  rw [decide_not, ← holds_eq_bics]
  rfl

theorem Reach.bicsW {c : Cond} {n m : Reg} {v w : BitVec 32} {q : Prop} [Decidable q]
    (hn : n ≠ 31#5) (hm : m ≠ 31#5) (hl : Loaded code base prog) (k t : Nat)
    (hpc : s.pc = pcOf base k) (hi : prog[k]? = some (A64.bicsW zr n m))
    (hb : prog[k + 1]? = some (.bcond c (dist (k + 1) t)))
    (hmask : (s.gpr n).setWidth 32 = v) (hw : (s.gpr m).setWidth 32 = w)
    (hq : c.holds (logicFlags false ((v &&& ~~~w).setWidth 64)) = decide q)
    (hyes : q → ∀ f, Reach code P ((s.setFlags f).setPc (pcOf base t)))
    (hno : ¬ q → ∀ f, Reach code P ((s.setFlags f).setPc (pcOf base (k + 2)))) :
    Reach code P s := by
  have hexec := exec_tstBicsW s n m
  rw [State.x_of_ne hn, State.x_of_ne hm, hmask, hw] at hexec
  exact .cmp_bcond hl k t hpc hi hexec hb hq (fun h => hyes h _) (fun h => hno h _)

/-- A doubleword constant, loaded in four halfwords. -/
theorem Reach.constX {r : Reg} (hr : r ≠ 31#5) (c0 c1 c2 c3 : BitVec 16)
    (hl : Loaded code base prog) (k : Nat) (hpc : s.pc = pcOf base k)
    (h0 : prog[k]? = some (movXi r c0)) (h1 : prog[k + 1]? = some (movkX r c1 16))
    (h2 : prog[k + 2]? = some (movkX r c2 32)) (h3 : prog[k + 3]? = some (movkX r c3 48))
    (h : Reach code P ((s.setGpr r (c3 ++ c2 ++ c1 ++ c0)).setPc (pcOf base (k + 4)))) :
    Reach code P s := by
  have hlast : s.pc + 4#64 + 4#64 + 4#64 + 4#64 = pcOf base (k + 4) := by simp [hpc]
  refine .instr hl k hpc h0 ?_
  rw [exec_movz s hr]
  refine .instr hl (k + 1) (by simp [hpc]) h1 ?_
  rw [exec_movkX _ hr, State.setGpr_next, State.setGpr_setGpr, State.gpr_next, State.gpr_setGpr,
    if_pos rfl]
  refine .instr hl (k + 2) (by simp [hpc]) h2 ?_
  rw [exec_movkX _ hr, State.setGpr_next, State.setGpr_next, State.setGpr_setGpr, State.gpr_next,
    State.gpr_next, State.gpr_setGpr, if_pos rfl]
  refine .instr hl (k + 3) (by simp [hpc]) h3 ?_
  rw [exec_movkX _ hr, State.setGpr_next, State.setGpr_next, State.setGpr_next,
    State.setGpr_setGpr, State.gpr_next, State.gpr_next, State.gpr_next, State.gpr_setGpr,
    if_pos rfl, insertHalf_four]
  rwa [← hlast] at h

/-- A word constant, loaded in two halfwords. -/
theorem Reach.constW {r : Reg} (hr : r ≠ 31#5) (c0 c1 : BitVec 16)
    (hl : Loaded code base prog) (k : Nat) (hpc : s.pc = pcOf base k)
    (h0 : prog[k]? = some (.movz false r c0 0)) (h1 : prog[k + 1]? = some (movkW r c1 16))
    (h : Reach code P ((s.setGpr r ((c1 ++ c0).setWidth 64)).setPc (pcOf base (k + 2)))) :
    Reach code P s := by
  have hlast : s.pc + 4#64 + 4#64 = pcOf base (k + 2) := by simp [hpc]
  refine .instr hl k hpc h0 ?_
  rw [exec_movz s hr]
  refine .instr hl (k + 1) (by simp [hpc]) h1 ?_
  rw [exec_movkW _ hr, State.setGpr_next, State.setGpr_setGpr, State.gpr_next, State.gpr_setGpr,
    if_pos rfl, insertHalf_two]
  rwa [← hlast] at h

end Rules

/-! ## Labels -/

/-- A line of assembly over the labels `L`. -/
inductive Line (L : Type) where
  | label (l : L)
  | instr (i : Instr)
  | b (l : L)
  | bcond (c : Cond) (l : L)
  /-- Pad with `nop` up to a multiple of `n` instructions. -/
  | align (n : Nat)

variable {L : Type} [DecidableEq L]

/-- The number of instructions a line takes at instruction index `k`. -/
def Line.size (k : Nat) : Line L → Nat
  | .label _ => 0
  | .align n => (n - k % n) % n
  | _ => 1

/-- The instruction index of a label. -/
def labelIndex (l : L) : Nat → List (Line L) → Option Nat
  | _, [] => none
  | k, .label l' :: rest => if l' = l then some k else labelIndex l k rest
  | k, line :: rest => labelIndex l (k + line.size k) rest

/-- The byte distance from instruction `k` to a label. -/
def labelOffset (text : List (Line L)) (k : Nat) (l : L) : Option (BitVec 64) :=
  (labelIndex l 0 text).map fun target => BitVec.ofInt 64 (4 * ((target : Int) - k))

/-- Assemble the lines from instruction index `k` on; `none` for an unknown label. -/
def assembleFrom (text : List (Line L)) : Nat → List (Line L) → Option (List Instr)
  | _, [] => some []
  | k, line :: rest => do
      let here ← match line with
        | .label _ => some []
        | .instr i => some [i]
        | .b l => (labelOffset text k l).map fun d => [.b d]
        | .bcond c l => (labelOffset text k l).map fun d => [.bcond c d]
        | .align _ => some (List.replicate (line.size k) .nop)
      let tail ← assembleFrom text (k + line.size k) rest
      some (here ++ tail)

def assemble (text : List (Line L)) : Option (List Instr) := assembleFrom text 0 text

end A64
