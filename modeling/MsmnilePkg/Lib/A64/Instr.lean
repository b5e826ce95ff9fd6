/-
  MsmnilePkg.Lib.A64.Instr

  A subset of the A64 instruction set: instructions as data, and the decoder
  from 32-bit words.

  The operands of an instruction are stored decoded: branch offsets are
  sign-extended byte distances, immediates of logical instructions are the
  bit masks they stand for.  `decode w = none` means that `w` lies outside
  the subset, so a machine that meets it gets stuck.
-/

import MsmnilePkg.Lib.ByteMem

namespace A64

open ByteMem

/-- A register number.  Number 31 is `sp` or the zero register, depending on
    the instruction. -/
abbrev Reg := BitVec 5

/-- A system register, as `o0:op1:CRn:CRm:op2`. -/
abbrev SysReg := BitVec 15

inductive Cond where
  | eq | ne | cs | cc | mi | pl | vs | vc | hi | ls | ge | lt | gt | le | al | nv
  deriving DecidableEq, Repr

inductive Shift where
  | lsl | lsr | asr | ror
  deriving DecidableEq, Repr

inductive LogicOp where
  | and | orr | eor | ands
  deriving DecidableEq, Repr

/-- Where a load or store leaves its base register. -/
inductive Index where
  | offset | pre | post
  deriving DecidableEq, Repr

/-- `sf` is true for the 64-bit form of an instruction. -/
inductive Instr where
  | addSubImm (sf sub setFlags : Bool) (rd rn : Reg) (imm : BitVec 64)
  | addSubReg (sf sub setFlags : Bool) (rd rn rm : Reg) (shift : Shift) (amount : Nat)
  | logicImm (sf : Bool) (op : LogicOp) (rd rn : Reg) (mask : BitVec 64)
  | logicReg (sf : Bool) (op : LogicOp) (invert : Bool) (rd rn rm : Reg) (shift : Shift)
      (amount : Nat)
  | movz (sf : Bool) (rd : Reg) (imm : BitVec 16) (lsl : Nat)
  | movk (sf : Bool) (rd : Reg) (imm : BitVec 16) (lsl : Nat)
  | ubfm (sf : Bool) (rd rn : Reg) (immr imms : Nat)
  | csel (sf : Bool) (rd rn rm : Reg) (cond : Cond)
  | ccmpImm (sf : Bool) (rn : Reg) (imm : BitVec 64) (nzcv : BitVec 4) (cond : Cond)
  | ldr (sf : Bool) (rt rn : Reg) (offset : BitVec 64) (index : Index)
  | str (sf : Bool) (rt rn : Reg) (offset : BitVec 64) (index : Index)
  | ldp (rt rt2 rn : Reg) (offset : BitVec 64) (index : Index)
  | stp (rt rt2 rn : Reg) (offset : BitVec 64) (index : Index)
  | adr (rd : Reg) (offset : BitVec 64)
  | ldrLit (rt : Reg) (offset : BitVec 64)
  | b (offset : BitVec 64)
  | bl (offset : BitVec 64)
  | bcond (cond : Cond) (offset : BitVec 64)
  | cbz (sf nonzero : Bool) (rt : Reg) (offset : BitVec 64)
  | tbz (nonzero : Bool) (rt : Reg) (bit : Nat) (offset : BitVec 64)
  | br (rn : Reg)
  | ret (rn : Reg)
  | mrs (rt : Reg) (sys : SysReg)
  | msr (sys : SysReg) (rt : Reg)
  | barrier
  | nop
  deriving DecidableEq, Repr

/-! ## Decoding -/

def decodeCond (c : BitVec 4) : Cond :=
  match c.toNat with
  | 0 => .eq | 1 => .ne | 2 => .cs | 3 => .cc | 4 => .mi | 5 => .pl | 6 => .vs | 7 => .vc
  | 8 => .hi | 9 => .ls | 10 => .ge | 11 => .lt | 12 => .gt | 13 => .le | 14 => .al | _ => .nv

def decodeShift (s : BitVec 2) : Shift :=
  match s.toNat with
  | 0 => .lsl | 1 => .lsr | 2 => .asr | _ => .ror

def decodeLogicOp (opc : BitVec 2) : LogicOp :=
  match opc.toNat with
  | 0 => .and | 1 => .orr | 2 => .eor | _ => .ands

/-- A signed word count as a byte distance. -/
def wordOffset {n : Nat} (imm : BitVec n) : BitVec 64 := imm.signExtend 64 <<< 2

/-- The bit mask of a logical immediate: a run of `S + 1` ones, rotated right by
    `R` within an element of `2 ^ len` bits, the element repeated over 64 bits.
    Reserved encodings give `none`. -/
def decodeBitMask (sf n : Bool) (immr imms : BitVec 6) : Option (BitVec 64) :=
  let key := (BitVec.ofBool n ++ ~~~imms).toNat
  if key = 0 ∨ (n = true ∧ sf = false) then none
  else
    let len := Nat.log2 key
    let size := 2 ^ len
    let s := imms.toNat % size
    let r := immr.toNat % size
    if len = 0 ∨ s = size - 1 then none
    else
      let ones := 2 ^ (s + 1) - 1
      let elem := (ones >>> r ||| ones <<< (size - r)) % 2 ^ size
      let all := (List.range (64 / size)).foldl (fun acc i => acc ||| elem <<< (i * size)) 0
      some (if sf then BitVec.ofNat 64 all else BitVec.ofNat 64 (all % 2 ^ 32))

/-- Decode the index field of the single-register loads and stores. -/
def decodeIndex9 (op : BitVec 2) : Option Index :=
  match op.toNat with
  | 0 => some .offset | 1 => some .post | 3 => some .pre | _ => none

def decodeIndexPair (op : BitVec 3) : Option Index :=
  match op.toNat with
  | 1 => some .post | 2 => some .offset | 3 => some .pre | _ => none

def decodeDataImm (w : BitVec 32) : Option Instr :=
  let sf := w.getLsbD 31
  let rd : Reg := w.extractLsb' 0 5
  let rn : Reg := w.extractLsb' 5 5
  match (w.extractLsb' 23 3).toNat with
  | 0 | 1 =>
      let imm := w.extractLsb' 5 19 ++ w.extractLsb' 29 2
      if sf then none else some (.adr rd (imm.signExtend 64))
  | 2 =>
      let imm12 := (w.extractLsb' 10 12).setWidth 64
      some (.addSubImm sf (w.getLsbD 30) (w.getLsbD 29) rd rn
        (if w.getLsbD 22 then imm12 <<< 12 else imm12))
  | 4 =>
      (decodeBitMask sf (w.getLsbD 22) (w.extractLsb' 16 6) (w.extractLsb' 10 6)).map
        fun mask => .logicImm sf (decodeLogicOp (w.extractLsb' 29 2)) rd rn mask
  | 5 =>
      let hw := (w.extractLsb' 21 2).toNat
      let imm16 := w.extractLsb' 5 16
      if sf = false ∧ 2 ≤ hw then none
      else match (w.extractLsb' 29 2).toNat with
        | 2 => some (.movz sf rd imm16 (16 * hw))
        | 3 => some (.movk sf rd imm16 (16 * hw))
        | _ => none
  | 6 =>
      let immr := (w.extractLsb' 16 6).toNat
      let imms := (w.extractLsb' 10 6).toNat
      if w.extractLsb' 29 2 = 2#2 ∧ w.getLsbD 22 = sf ∧ (sf = true ∨ (immr < 32 ∧ imms < 32))
      then some (.ubfm sf rd rn immr imms) else none
  | _ => none

def decodeBranchSys (w : BitVec 32) : Option Instr :=
  let rt : Reg := w.extractLsb' 0 5
  let rn : Reg := w.extractLsb' 5 5
  if w.extractLsb' 26 6 = 0b000101#6 then some (.b (wordOffset (w.extractLsb' 0 26)))
  else if w.extractLsb' 26 6 = 0b100101#6 then some (.bl (wordOffset (w.extractLsb' 0 26)))
  else if w.extractLsb' 24 8 = 0x54#8 ∧ w.getLsbD 4 = false then
    some (.bcond (decodeCond (w.extractLsb' 0 4)) (wordOffset (w.extractLsb' 5 19)))
  else if w.extractLsb' 25 6 = 0b011010#6 then
    some (.cbz (w.getLsbD 31) (w.getLsbD 24) rt (wordOffset (w.extractLsb' 5 19)))
  else if w.extractLsb' 25 6 = 0b011011#6 then
    some (.tbz (w.getLsbD 24) rt ((w.extractLsb' 31 1 ++ w.extractLsb' 19 5).toNat)
      (wordOffset (w.extractLsb' 5 14)))
  else if w &&& 0xFFFFFC1F#32 = 0xD61F0000#32 then some (.br rn)
  else if w &&& 0xFFFFFC1F#32 = 0xD65F0000#32 then some (.ret rn)
  else if w = 0xD503201F#32 then some .nop
  else if w &&& 0xFFFFF01F#32 = 0xD503301F#32 then some .barrier
  else if w.extractLsb' 20 12 = 0xD53#12 then some (.mrs rt (w.extractLsb' 5 15))
  else if w.extractLsb' 20 12 = 0xD51#12 then some (.msr (w.extractLsb' 5 15) rt)
  else none

def decodeLoadStore (w : BitVec 32) : Option Instr :=
  let rt : Reg := w.extractLsb' 0 5
  let rn : Reg := w.extractLsb' 5 5
  let sf := w.getLsbD 30
  if w &&& 0xFF000000#32 = 0x58000000#32 then some (.ldrLit rt (wordOffset (w.extractLsb' 5 19)))
  else if w &&& 0xBFC00000#32 = 0xB9400000#32 then
    some (.ldr sf rt rn ((w.extractLsb' 10 12).setWidth 64 <<< (if sf then 3 else 2)) .offset)
  else if w &&& 0xBFC00000#32 = 0xB9000000#32 then
    some (.str sf rt rn ((w.extractLsb' 10 12).setWidth 64 <<< (if sf then 3 else 2)) .offset)
  else if w &&& 0xBFE00000#32 = 0xB8400000#32 then
    (decodeIndex9 (w.extractLsb' 10 2)).map
      fun ix => .ldr sf rt rn ((w.extractLsb' 12 9).signExtend 64) ix
  else if w &&& 0xBFE00000#32 = 0xB8000000#32 then
    (decodeIndex9 (w.extractLsb' 10 2)).map
      fun ix => .str sf rt rn ((w.extractLsb' 12 9).signExtend 64) ix
  else if w &&& 0xFE000000#32 = 0xA8000000#32 then
    (decodeIndexPair (w.extractLsb' 23 3)).map fun ix =>
      let offset := (w.extractLsb' 15 7).signExtend 64 <<< 3
      if w.getLsbD 22 then .ldp rt (w.extractLsb' 10 5) rn offset ix
      else .stp rt (w.extractLsb' 10 5) rn offset ix
  else none

def decodeDataReg (w : BitVec 32) : Option Instr :=
  let sf := w.getLsbD 31
  let rd : Reg := w.extractLsb' 0 5
  let rn : Reg := w.extractLsb' 5 5
  let rm : Reg := w.extractLsb' 16 5
  let amount := (w.extractLsb' 10 6).toNat
  let shift := decodeShift (w.extractLsb' 22 2)
  if w.extractLsb' 24 5 = 0b01010#5 then
    if sf = false ∧ 32 ≤ amount then none
    else some (.logicReg sf (decodeLogicOp (w.extractLsb' 29 2)) (w.getLsbD 21) rd rn rm shift
      amount)
  else if w.extractLsb' 24 5 = 0b01011#5 ∧ w.getLsbD 21 = false then
    if (sf = false ∧ 32 ≤ amount) ∨ shift = .ror then none
    else some (.addSubReg sf (w.getLsbD 30) (w.getLsbD 29) rd rn rm shift amount)
  else if w &&& 0x7FE00C00#32 = 0x1A800000#32 then
    some (.csel sf rd rn rm (decodeCond (w.extractLsb' 12 4)))
  else if w &&& 0x7FE00C10#32 = 0x7A400800#32 then
    some (.ccmpImm sf rn ((w.extractLsb' 16 5).setWidth 64) (w.extractLsb' 0 4)
      (decodeCond (w.extractLsb' 12 4)))
  else none

/-- Dispatch on the top-level encoding groups, bits 28 to 25. -/
def decode (w : BitVec 32) : Option Instr :=
  match (w.extractLsb' 25 4).toNat with
  | 8 | 9 => decodeDataImm w
  | 10 | 11 => decodeBranchSys w
  | 4 | 6 | 12 | 14 => decodeLoadStore w
  | 5 | 13 => decodeDataReg w
  | _ => none

/-! ## Branch targets -/

/-- Where the word at `pc` branches to when it is a `bl`. -/
def blTarget (pc : Addr) (w : BitVec 32) : Option Addr :=
  match decode w with
  | some (.bl offset) => some (pc + offset)
  | _ => none

/-- The opcode field makes a word a `bl`. -/
theorem decode_bl {w : BitVec 32} (h : w.extractLsb' 26 6 = 0b100101#6) :
    decode w = some (.bl (wordOffset (w.extractLsb' 0 26))) := by
  have hgroup :
      w.extractLsb' 25 4 = (w.extractLsb' 26 6).extractLsb' 0 3 ++ w.extractLsb' 25 1 := by
    apply BitVec.eq_of_getLsbD_eq
    intro i hi
    simp only [BitVec.getLsbD_append, BitVec.getLsbD_extractLsb']
    grind
  have hone : ∀ b : BitVec 1, ((0b100101#6).extractLsb' 0 3 ++ b).toNat = 10 ∨
      ((0b100101#6).extractLsb' 0 3 ++ b).toNat = 11 := by decide
  have hbranch : decodeBranchSys w = some (.bl (wordOffset (w.extractLsb' 0 26))) := by
    rw [decodeBranchSys]
    simp [h]
  rw [decode, hgroup, h]
  rcases hone (w.extractLsb' 25 1) with h10 | h11
  · rw [h10]
    exact hbranch
  · rw [h11]
    exact hbranch

theorem blTarget_bl {w : BitVec 32} (pc : Addr) (h : w.extractLsb' 26 6 = 0b100101#6) :
    blTarget pc w = some (pc + wordOffset (w.extractLsb' 0 26)) := by
  rw [blTarget, decode_bl h]

/-- Whether a word is a `bl`. -/
def isBl (w : BitVec 32) : Bool :=
  match decode w with
  | some (.bl _) => true
  | _ => false

theorem isBl_of_blTarget {pc target : Addr} {w : BitVec 32} (h : blTarget pc w = some target) :
    isBl w = true := by
  unfold blTarget at h
  unfold isBl
  split at h
  · rfl
  · cases h

theorem wordOffset_eq {n : Nat} (imm : BitVec n) :
    wordOffset imm = BitVec.ofInt 64 (4 * imm.toInt) := by
  apply BitVec.eq_of_toNat_eq
  rw [wordOffset, BitVec.signExtend, BitVec.toNat_shiftLeft, BitVec.toNat_ofInt, BitVec.toNat_ofInt,
    Nat.shiftLeft_eq]
  omega

/-! ### The word of a branch -/

theorem decodeDataImm_ne_bl {w : BitVec 32} {o : BitVec 64} : decodeDataImm w ≠ some (.bl o) := by
  intro h
  unfold decodeDataImm at h
  split at h
  all_goals grind [Option.map_eq_some_iff]

theorem decodeLoadStore_ne_bl {w : BitVec 32} {o : BitVec 64} :
    decodeLoadStore w ≠ some (.bl o) := by
  intro h
  unfold decodeLoadStore at h
  grind [Option.map_eq_some_iff]

theorem decodeDataReg_ne_bl {w : BitVec 32} {o : BitVec 64} :
    decodeDataReg w ≠ some (.bl o) := by
  intro h
  unfold decodeDataReg at h
  grind [Option.map_eq_some_iff]

theorem eq_some_of_ite {α : Type*} {c : Prop} [Decidable c] {x y : α} {r : Option α}
    (h : (if c then some x else r) = some y) (hxy : x ≠ y) : r = some y := by
  split at h
  · exact absurd (Option.some.inj h) hxy
  · exact h

theorem decodeBranchSys_eq_bl {w : BitVec 32} {o : BitVec 64}
    (h : decodeBranchSys w = some (.bl o)) : w.extractLsb' 26 6 = 0b100101#6 := by
  by_contra hne
  unfold decodeBranchSys at h
  dsimp only at h
  rw [if_neg hne] at h
  -- every other encoding of the group gives another instruction
  iterate 10 replace h := eq_some_of_ite h nofun
  cases h

/-- A word is a `bl` by its opcode field only. -/
theorem opcode_of_blTarget {pc target : Addr} {w : BitVec 32} (h : blTarget pc w = some target) :
    w.extractLsb' 26 6 = 0b100101#6 := by
  obtain ⟨o, ho⟩ : ∃ o, decode w = some (.bl o) := by
    unfold blTarget at h
    split at h
    · exact ⟨_, ‹_›⟩
    · cases h
  unfold decode at ho
  split at ho
  · exact absurd ho decodeDataImm_ne_bl
  · exact absurd ho decodeDataImm_ne_bl
  · exact decodeBranchSys_eq_bl ho
  · exact decodeBranchSys_eq_bl ho
  · exact absurd ho decodeLoadStore_ne_bl
  · exact absurd ho decodeLoadStore_ne_bl
  · exact absurd ho decodeLoadStore_ne_bl
  · exact absurd ho decodeLoadStore_ne_bl
  · exact absurd ho decodeDataReg_ne_bl
  · exact absurd ho decodeDataReg_ne_bl
  · cases ho

theorem wordOffset_inj {n : Nat} (hn : n ≤ 62) {a b : BitVec n} (h : wordOffset a = wordOffset b) :
    a = b := by
  have hbound : ∀ c : BitVec n, (4 * c.toInt).bmod (2 ^ 64) = 4 * c.toInt := by
    intro c
    have hlo := BitVec.le_toInt c
    have hhi := BitVec.toInt_lt (x := c)
    have hhalf : (2 : Int) ^ (n - 1) ≤ 2 ^ 61 := by
      exact_mod_cast Nat.pow_le_pow_right (by omega) (show n - 1 ≤ 61 by omega)
    apply Int.bmod_eq_of_le
    · omega
    · omega
  have hint := congrArg BitVec.toInt h
  rw [wordOffset_eq, wordOffset_eq, BitVec.toInt_ofInt, BitVec.toInt_ofInt, hbound, hbound] at hint
  apply BitVec.eq_of_toInt_eq
  omega

/-- One word at `pc` is the `bl` to `target`. -/
theorem blTarget_inj {pc target : Addr} {w w' : BitVec 32} (h : blTarget pc w = some target)
    (h' : blTarget pc w' = some target) : w = w' := by
  have hop := opcode_of_blTarget h
  have hop' := opcode_of_blTarget h'
  have hoff : w.extractLsb' 0 26 = w'.extractLsb' 0 26 := by
    rw [blTarget_bl pc hop, ← h', blTarget_bl pc hop', Option.some.injEq] at h
    exact wordOffset_inj (by omega) ((BitVec.add_right_inj pc).mp h)
  apply BitVec.eq_of_getLsbD_eq
  intro i hi
  by_cases hlow : i < 26
  · have hbit := congrArg (fun v => v.getLsbD i) hoff
    simpa [BitVec.getLsbD_extractLsb', hlow] using hbit
  · have hbit := congrArg (fun v => v.getLsbD (i - 26)) (hop.trans hop'.symm)
    have hi6 : i - 26 < 6 := by omega
    simpa [BitVec.getLsbD_extractLsb', hi6, show 26 + (i - 26) = i by omega] using hbit

end A64
