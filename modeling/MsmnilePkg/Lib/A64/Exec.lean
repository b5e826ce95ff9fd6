/-
  MsmnilePkg.Lib.A64.Exec

  Machine state and the effect of one instruction.

  The instruction stream is a function from addresses to instructions, kept
  apart from the data memory: instructions are fetched from the code as it was
  loaded, and stores go to the data memory only.  A write to a system register
  is an event of the trace `sysWrites`; reads of system registers come from
  the fixed environment `sys`.
-/

import MsmnilePkg.Lib.A64.Instr

namespace A64

open ByteMem

structure Flags where
  n : Bool
  z : Bool
  c : Bool
  v : Bool
  deriving DecidableEq, Repr

structure State where
  /-- `x0` to `x30`; entry 31 is `sp`. -/
  gpr : Reg → BitVec 64
  pc : Addr
  flags : Flags
  mem : Mem
  sys : SysReg → BitVec 64
  /-- The values written to system registers, oldest first. -/
  sysWrites : List (SysReg × BitVec 64)

namespace State

/-- Read a register whose number 31 is the zero register. -/
def x (s : State) (r : Reg) : BitVec 64 := if r = 31#5 then 0#64 else s.gpr r

/-- Read a register whose number 31 is `sp`. -/
def xsp (s : State) (r : Reg) : BitVec 64 := s.gpr r

def setGpr (s : State) (r : Reg) (v : BitVec 64) : State :=
  { s with gpr := fun r' => if r' = r then v else s.gpr r' }

/-- Write a register whose number 31 is the zero register. -/
def setX (s : State) (r : Reg) (v : BitVec 64) : State := if r = 31#5 then s else s.setGpr r v

def setPc (s : State) (pc : Addr) : State := { s with pc := pc }
def setFlags (s : State) (f : Flags) : State := { s with flags := f }
def setMem (s : State) (m : Mem) : State := { s with mem := m }

/-- Go on with the next instruction. -/
def next (s : State) : State := s.setPc (s.pc + 4#64)

def log (s : State) (r : SysReg) (v : BitVec 64) : State :=
  { s with sysWrites := s.sysWrites ++ [(r, v)] }

section Accessors

variable (s : State) (r r' : Reg) (v : BitVec 64) (p : Addr) (f : Flags) (m : Mem)

@[simp] theorem gpr_setGpr : (s.setGpr r v).gpr r' = if r' = r then v else s.gpr r' := rfl
@[simp] theorem pc_setGpr : (s.setGpr r v).pc = s.pc := rfl
@[simp] theorem flags_setGpr : (s.setGpr r v).flags = s.flags := rfl
@[simp] theorem mem_setGpr : (s.setGpr r v).mem = s.mem := rfl
@[simp] theorem sys_setGpr : (s.setGpr r v).sys = s.sys := rfl
@[simp] theorem sysWrites_setGpr : (s.setGpr r v).sysWrites = s.sysWrites := rfl

@[simp] theorem gpr_setPc : (s.setPc p).gpr = s.gpr := rfl
@[simp] theorem pc_setPc : (s.setPc p).pc = p := rfl
@[simp] theorem flags_setPc : (s.setPc p).flags = s.flags := rfl
@[simp] theorem mem_setPc : (s.setPc p).mem = s.mem := rfl
@[simp] theorem sys_setPc : (s.setPc p).sys = s.sys := rfl
@[simp] theorem sysWrites_setPc : (s.setPc p).sysWrites = s.sysWrites := rfl

@[simp] theorem gpr_setFlags : (s.setFlags f).gpr = s.gpr := rfl
@[simp] theorem pc_setFlags : (s.setFlags f).pc = s.pc := rfl
@[simp] theorem flags_setFlags : (s.setFlags f).flags = f := rfl
@[simp] theorem mem_setFlags : (s.setFlags f).mem = s.mem := rfl
@[simp] theorem sys_setFlags : (s.setFlags f).sys = s.sys := rfl
@[simp] theorem sysWrites_setFlags : (s.setFlags f).sysWrites = s.sysWrites := rfl

@[simp] theorem gpr_setMem : (s.setMem m).gpr = s.gpr := rfl
@[simp] theorem pc_setMem : (s.setMem m).pc = s.pc := rfl
@[simp] theorem flags_setMem : (s.setMem m).flags = s.flags := rfl
@[simp] theorem mem_setMem : (s.setMem m).mem = m := rfl
@[simp] theorem sys_setMem : (s.setMem m).sys = s.sys := rfl
@[simp] theorem sysWrites_setMem : (s.setMem m).sysWrites = s.sysWrites := rfl

@[simp] theorem gpr_next : s.next.gpr = s.gpr := rfl
@[simp] theorem pc_next : s.next.pc = s.pc + 4#64 := rfl
@[simp] theorem flags_next : s.next.flags = s.flags := rfl
@[simp] theorem mem_next : s.next.mem = s.mem := rfl
@[simp] theorem sys_next : s.next.sys = s.sys := rfl
@[simp] theorem sysWrites_next : s.next.sysWrites = s.sysWrites := rfl

theorem setGpr_next : s.next.setGpr r v = (s.setGpr r v).next := rfl

theorem setPc_setPc (p' : Addr) : (s.setPc p).setPc p' = s.setPc p' := rfl

theorem setFlags_setPc : (s.setPc p).setFlags f = (s.setFlags f).setPc p := rfl

theorem setFlags_setFlags (f' : Flags) : (s.setFlags f).setFlags f' = s.setFlags f' := rfl

theorem setGpr_setGpr (v' : BitVec 64) : (s.setGpr r v).setGpr r v' = s.setGpr r v' := by
  have hgpr : ((s.setGpr r v).setGpr r v').gpr = (s.setGpr r v').gpr := by
    funext r'
    by_cases h : r' = r
    · simp [h]
    · simp [h]
  exact congrArg (fun g => { s with gpr := g }) hgpr

theorem x_of_ne {s : State} {r : Reg} (h : r ≠ 31#5) : s.x r = s.gpr r := by
  simp [State.x, h]

theorem setX_of_ne {s : State} {r : Reg} {v : BitVec 64} (h : r ≠ 31#5) :
    s.setX r v = s.setGpr r v := by
  simp [State.setX, h]

@[simp] theorem x_zr : s.x 31#5 = 0#64 := by simp [State.x]

@[simp] theorem setX_zr : s.setX 31#5 v = s := by simp [State.setX]

end Accessors

end State

/-! ## Arithmetic with flags -/

/-- `x + y + carry` with the four condition flags. -/
def addWithCarry {w : Nat} (x y : BitVec w) (carry : Bool) : BitVec w × Flags :=
  let r := BitVec.ofNat w (x.toNat + y.toNat + carry.toNat)
  (r, { n := r.msb
        z := r == 0#w
        c := decide (2 ^ w ≤ x.toNat + y.toNat + carry.toNat)
        v := decide (r.toInt ≠ x.toInt + y.toInt + carry.toNat) })

/-- The flags of a comparison `x - y`. -/
def cmpFlags {w : Nat} (x y : BitVec w) : Flags := (addWithCarry x (~~~y) true).2

/-- After a comparison, `Z` says that the operands are equal. -/
@[simp] theorem cmpFlags_z {w : Nat} (x y : BitVec w) : (cmpFlags x y).z = decide (x = y) := by
  simp only [cmpFlags, addWithCarry, Bool.toNat_true, BitVec.toNat_not]
  rw [Bool.eq_iff_iff, beq_iff_eq, decide_eq_true_iff, ← BitVec.toNat_inj, ← BitVec.toNat_inj,
    BitVec.toNat_ofNat, BitVec.toNat_zero]
  constructor
  · intro h
    have hdvd := Nat.dvd_of_mod_eq_zero h
    obtain ⟨k, hk⟩ := hdvd
    have : x.toNat + (2 ^ w - 1 - y.toNat) + 1 < 2 ^ w * 2 := by omega
    have hk2 : k < 2 := by
      rw [hk] at this
      exact Nat.lt_of_mul_lt_mul_left this
    obtain rfl | rfl : k = 0 ∨ k = 1 := by omega
    · omega
    · omega
  · intro h
    rw [h, show y.toNat + (2 ^ w - 1 - y.toNat) + 1 = 2 ^ w by omega, Nat.mod_self]

/-- After a comparison, `C` says that the first operand is not below the second. -/
@[simp] theorem cmpFlags_c {w : Nat} (x y : BitVec w) : (cmpFlags x y).c = decide (y ≤ x) := by
  simp only [cmpFlags, addWithCarry, Bool.toNat_true, BitVec.toNat_not]
  rw [decide_eq_decide, BitVec.le_def]
  omega

/-- Whether a condition holds under the flags. -/
def Cond.holds (f : Flags) : Cond → Bool
  | .eq => f.z
  | .ne => !f.z
  | .cs => f.c
  | .cc => !f.c
  | .mi => f.n
  | .pl => !f.n
  | .vs => f.v
  | .vc => !f.v
  | .hi => f.c && !f.z
  | .ls => !(f.c && !f.z)
  | .ge => f.n == f.v
  | .lt => !(f.n == f.v)
  | .gt => !f.z && (f.n == f.v)
  | .le => !(!f.z && (f.n == f.v))
  | .al | .nv => true

section Comparisons

variable {w : Nat} (a b : BitVec w)

theorem holds_eq : Cond.holds (cmpFlags a b) .eq = decide (a = b) := cmpFlags_z a b

theorem holds_ne : Cond.holds (cmpFlags a b) .ne = decide (a ≠ b) := by
  rw [Cond.holds, cmpFlags_z, decide_not]

theorem holds_cs : Cond.holds (cmpFlags a b) .cs = decide (b ≤ a) := cmpFlags_c a b

theorem holds_cc : Cond.holds (cmpFlags a b) .cc = decide (a < b) := by
  rw [Cond.holds, cmpFlags_c, ← decide_not, decide_eq_decide, BitVec.not_le]

theorem holds_hi : Cond.holds (cmpFlags a b) .hi = decide (b < a) := by
  have hiff : b < a ↔ b ≤ a ∧ a ≠ b := by
    rw [BitVec.lt_def, BitVec.le_def, ne_eq, ← BitVec.toNat_inj]
    omega
  rw [Cond.holds, cmpFlags_c, cmpFlags_z, ← decide_not, ← Bool.decide_and, decide_eq_decide, hiff]

end Comparisons

/-! ## Operand forms -/

/-- Cut a 64-bit value down to the width of the instruction. -/
def trunc (sf : Bool) (v : BitVec 64) : BitVec 64 :=
  if sf then v else (v.setWidth 32).setWidth 64

def shiftOperand (sf : Bool) (sh : Shift) (amount : Nat) (v : BitVec 64) : BitVec 64 :=
  if sf then
    match sh with
    | .lsl => v <<< amount
    | .lsr => v >>> amount
    | .asr => v.sshiftRight amount
    | .ror => v.rotateRight amount
  else
    let v32 := v.setWidth 32
    let r := match sh with
      | .lsl => v32 <<< amount
      | .lsr => v32 >>> amount
      | .asr => v32.sshiftRight amount
      | .ror => v32.rotateRight amount
    r.setWidth 64

/-- The flags of `a + b` or `a - b` at the width of the instruction. -/
def arithFlags (sf sub : Bool) (a b : BitVec 64) : Flags :=
  if sub then
    if sf then cmpFlags a b else cmpFlags (a.setWidth 32) (b.setWidth 32)
  else
    if sf then (addWithCarry a b false).2
    else (addWithCarry (a.setWidth 32) (b.setWidth 32) false).2

def arith (sf sub : Bool) (a b : BitVec 64) : BitVec 64 :=
  trunc sf (if sub then a - b else a + b)

def logic (op : LogicOp) (a b : BitVec 64) : BitVec 64 :=
  match op with
  | .and | .ands => a &&& b
  | .orr => a ||| b
  | .eor => a ^^^ b

/-- The flags `ands` and `bics` leave: `N` and `Z` of the result. -/
def logicFlags (sf : Bool) (r : BitVec 64) : Flags :=
  { n := if sf then r.msb else (r.setWidth 32).msb
    z := if sf then r == 0#64 else r.setWidth 32 == 0#32
    c := false
    v := false }

/-- Unsigned bitfield move: with `immr ≤ imms` the field `imms:immr` goes to the
    bottom, otherwise the bottom `imms + 1` bits go up by `width - immr`. -/
def ubfmResult (sf : Bool) (v : BitVec 64) (immr imms : Nat) : BitVec 64 :=
  let width := if sf then 64 else 32
  let src := trunc sf v
  if immr ≤ imms then
    (src >>> immr) &&& BitVec.ofNat 64 (2 ^ (imms - immr + 1) - 1)
  else
    trunc sf ((src &&& BitVec.ofNat 64 (2 ^ (imms + 1) - 1)) <<< (width - immr))

/-- The address an access uses. -/
def accessAddr (base offset : BitVec 64) : Index → Addr
  | .offset | .pre => base + offset
  | .post => base

/-- Write-back of the base register of an access. -/
def State.writeBack (s : State) (rn : Reg) (offset : BitVec 64) : Index → State
  | .offset => s
  | .pre | .post => s.setGpr rn (s.xsp rn + offset)

def loadReg (sf : Bool) (m : Mem) (a : Addr) : BitVec 64 :=
  if sf then read64 m a else (read32 m a).setWidth 64

def storeReg (sf : Bool) (m : Mem) (a : Addr) (v : BitVec 64) : Mem :=
  if sf then write64 m a v else write32 m a (v.setWidth 32)

/-! ## One instruction -/

/-- The effect of an instruction at `s.pc`. -/
def exec (i : Instr) (s : State) : State :=
  match i with
  | .addSubImm sf sub setFlags rd rn imm =>
      let r := arith sf sub (s.xsp rn) imm
      if setFlags then ((s.setX rd r).setFlags (arithFlags sf sub (s.xsp rn) imm)).next
      else (s.setGpr rd r).next
  | .addSubReg sf sub setFlags rd rn rm shift amount =>
      let op2 := shiftOperand sf shift amount (s.x rm)
      let r := arith sf sub (s.x rn) op2
      if setFlags then ((s.setX rd r).setFlags (arithFlags sf sub (s.x rn) op2)).next
      else (s.setX rd r).next
  | .logicImm sf op rd rn mask =>
      let r := trunc sf (logic op (s.x rn) mask)
      if op = .ands then ((s.setX rd r).setFlags (logicFlags sf r)).next
      else (s.setGpr rd r).next
  | .logicReg sf op invert rd rn rm shift amount =>
      let op2 := shiftOperand sf shift amount (s.x rm)
      let r := trunc sf (logic op (s.x rn) (if invert then ~~~op2 else op2))
      if op = .ands then ((s.setX rd r).setFlags (logicFlags sf r)).next
      else (s.setX rd r).next
  | .movz _ rd imm lsl => (s.setX rd (imm.setWidth 64 <<< lsl)).next
  | .movk sf rd imm lsl =>
      let mask : BitVec 64 := (0xFFFF#64) <<< lsl
      (s.setX rd (trunc sf ((s.x rd &&& ~~~mask) ||| imm.setWidth 64 <<< lsl))).next
  | .ubfm sf rd rn immr imms => (s.setX rd (ubfmResult sf (s.x rn) immr imms)).next
  | .csel sf rd rn rm cond =>
      (s.setX rd (trunc sf (if cond.holds s.flags then s.x rn else s.x rm))).next
  | .ccmpImm sf rn imm nzcv cond =>
      (s.setFlags (if cond.holds s.flags then arithFlags sf true (s.x rn) imm
        else ⟨nzcv.getLsbD 3, nzcv.getLsbD 2, nzcv.getLsbD 1, nzcv.getLsbD 0⟩)).next
  | .ldr sf rt rn offset ix =>
      let a := accessAddr (s.xsp rn) offset ix
      ((s.writeBack rn offset ix).setX rt (loadReg sf s.mem a)).next
  | .str sf rt rn offset ix =>
      let a := accessAddr (s.xsp rn) offset ix
      ((s.writeBack rn offset ix).setMem (storeReg sf s.mem a (s.x rt))).next
  | .ldp rt rt2 rn offset ix =>
      let a := accessAddr (s.xsp rn) offset ix
      (((s.writeBack rn offset ix).setX rt (read64 s.mem a)).setX rt2
        (read64 s.mem (a + 8#64))).next
  | .stp rt rt2 rn offset ix =>
      let a := accessAddr (s.xsp rn) offset ix
      ((s.writeBack rn offset ix).setMem
        (write64 (write64 s.mem a (s.x rt)) (a + 8#64) (s.x rt2))).next
  | .adr rd offset => (s.setX rd (s.pc + offset)).next
  | .ldrLit rt offset => (s.setX rt (read64 s.mem (s.pc + offset))).next
  | .b offset => s.setPc (s.pc + offset)
  | .bl offset => (s.setGpr 30#5 (s.pc + 4#64)).setPc (s.pc + offset)
  | .bcond cond offset => if cond.holds s.flags then s.setPc (s.pc + offset) else s.next
  | .cbz sf nonzero rt offset =>
      if (trunc sf (s.x rt) == 0#64) != nonzero then s.setPc (s.pc + offset) else s.next
  | .tbz nonzero rt bit offset =>
      if (s.x rt).getLsbD bit == nonzero then s.setPc (s.pc + offset) else s.next
  | .br rn => s.setPc (s.x rn)
  | .ret rn => s.setPc (s.x rn)
  | .mrs rt sys => (s.setX rt (s.sys sys)).next
  | .msr sys rt => (s.log sys (s.x rt)).next
  | .barrier => s.next
  | .nop => s.next

/-- The instruction stream: what is fetched and decoded at an address. -/
abbrev Code := Addr → Option Instr

/-- Fetch and execute; `none` when nothing can be executed at `pc`. -/
def step (code : Code) (s : State) : Option State := do
  let i ← code s.pc
  some (exec i s)

end A64
