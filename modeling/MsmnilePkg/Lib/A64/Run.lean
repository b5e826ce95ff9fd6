/-
  MsmnilePkg.Lib.A64.Run

  Runs of the machine, and the rules by which a proof walks through a program.

  `Reach code P s` says that the machine, started in `s`, comes to a state that
  satisfies `P`.  `Loaded code base prog` says that the code has the program
  `prog` from `base` on; with it `Reach.instr` moves a goal over one
  instruction.
-/

import MsmnilePkg.Lib.A64.Exec

namespace A64

open ByteMem

/-- `n` steps. -/
def stepN (code : Code) : Nat → State → Option State
  | 0, s => some s
  | n + 1, s => (step code s).bind (stepN code n)

/-- The machine comes from `s` to a state that satisfies `P`. -/
def Reach (code : Code) (P : State → Prop) (s : State) : Prop :=
  ∃ n t, stepN code n s = some t ∧ P t

variable {code : Code} {P Q : State → Prop} {s t u : State}

theorem stepN_add (n m : Nat) (s : State) :
    stepN code (n + m) s = (stepN code n s).bind (stepN code m) := by
  induction n generalizing s with
  | zero => simp [stepN]
  | succ n ih =>
      rw [Nat.succ_add]
      simp only [stepN]
      cases hs : step code s with
      | none => rfl
      | some t => simpa using ih t

theorem Reach.refl (h : P s) : Reach code P s := ⟨0, s, rfl, h⟩

theorem Reach.step (hs : step code s = some t) (h : Reach code P t) : Reach code P s := by
  obtain ⟨n, u, hn, hu⟩ := h
  exact ⟨n + 1, u, by simp [stepN, hs, hn], hu⟩

theorem Reach.trans (h : Reach code P s) (hPQ : ∀ t, P t → Reach code Q t) : Reach code Q s := by
  obtain ⟨n, t, hn, ht⟩ := h
  obtain ⟨m, u, hm, hu⟩ := hPQ t ht
  exact ⟨n + m, u, by rw [stepN_add, hn]; exact hm, hu⟩

theorem Reach.mono (h : Reach code P s) (hPQ : ∀ t, P t → Q t) : Reach code Q s :=
  h.trans fun t ht => .refl (hPQ t ht)

/-- Two runs that both stop where nothing can be executed stop in the same state. -/
theorem stepN_unique {n m : Nat} (hn : stepN code n s = some t) (hm : stepN code m s = some u)
    (ht : A64.step code t = none) (hu : A64.step code u = none) : t = u := by
  induction n generalizing m s with
  | zero =>
      cases m with
      | zero => simpa [stepN] using hn.symm.trans hm
      | succ m =>
          obtain rfl : s = t := by simpa [stepN] using hn
          simp [stepN, ht] at hm
  | succ n ih =>
      cases hs : A64.step code s with
      | none => simp [stepN, hs] at hn
      | some v =>
          cases m with
          | zero =>
              obtain rfl : s = u := by simpa [stepN] using hm
              rw [hs] at hu
              exact absurd hu (by simp)
          | succ m =>
              simp only [stepN, hs, Option.bind_some] at hn hm
              exact ih hn hm

/-- A machine that has come to a branch to itself never leaves it. -/
theorem stepN_self_loop {pc : Addr} (hpc : code pc = some (.b 0#64)) :
    ∀ (n : Nat) (s t : State), s.pc = pc → stepN code n s = some t → t.pc = pc := by
  intro n
  induction n with
  | zero =>
      intro s t hs h
      obtain rfl : s = t := by simpa [stepN] using h
      exact hs
  | succ n ih =>
      intro s t hs h
      have hstep : A64.step code s = some (s.setPc (s.pc + 0#64)) := by
        simp [A64.step, hs, hpc, exec]
      rw [stepN, hstep, Option.bind_some] at h
      exact ih _ t (by simp [hs]) h

/-- A run that comes to where nothing can be executed has met no branch to itself. -/
theorem stepN_avoids_self_loop {n : Nat} (hn : stepN code n s = some t) (hend : code t.pc = none) :
    ∀ i ≤ n, ∀ u, stepN code i s = some u → code u.pc ≠ some (.b 0#64) := by
  intro i hi u hu hloop
  obtain ⟨k, rfl⟩ : ∃ k, n = i + k := ⟨n - i, by omega⟩
  rw [stepN_add, hu, Option.bind_some] at hn
  have hpc : t.pc = u.pc := stepN_self_loop hloop k u t rfl hn
  rw [hpc, hloop] at hend
  cases hend

/-! ## Programs in the code memory -/

/-- The address of instruction `k` of a program at `base`. -/
def pcOf (base : Addr) (k : Nat) : Addr := base + BitVec.ofNat 64 (4 * k)

@[simp] theorem pcOf_next (base : Addr) (k : Nat) : pcOf base k + 4#64 = pcOf base (k + 1) := by
  unfold pcOf
  bv_omega

/-- The target of a branch from instruction `k` to instruction `t`. -/
theorem pcOf_branch (base : Addr) (k t : Nat) {d : BitVec 64}
    (h : d = BitVec.ofInt 64 (4 * ((t : Int) - k))) : pcOf base k + d = pcOf base t := by
  have hk : BitVec.ofNat 64 (4 * k) + d = BitVec.ofNat 64 (4 * t) := by
    rw [h, ← BitVec.ofInt_natCast, ← BitVec.ofInt_natCast, ← BitVec.ofInt_add]
    congr 1
    push_cast
    omega
  rw [pcOf, pcOf, BitVec.add_assoc, hk]

/-- The code that has the program `prog` from `base` on and nothing else. -/
def progAt (base : Addr) (prog : List Instr) : Code := fun pc =>
  if (pc - base).toNat % 4 = 0 then prog[(pc - base).toNat / 4]? else none

/-- The code that has the words `words` from `base` on and nothing else. -/
def codeAt (base : Addr) (words : List (BitVec 32)) : Code := fun pc =>
  if (pc - base).toNat % 4 = 0 then words[(pc - base).toNat / 4]?.bind decode else none

/-- The code that a memory holds. -/
def memCode (m : Mem) : Code := fun pc => decode (read32 m pc)

/-- Instruction `k` of `prog` is what the code has at word `k`. -/
def Loaded (code : Code) (base : Addr) (prog : List Instr) : Prop :=
  ∀ k i, prog[k]? = some i → code (pcOf base k) = some i

/-- The machine takes the branch of a `bl`. -/
theorem step_blTarget {m : Mem} {pc target : Addr}
    (hbranch : blTarget pc (read32 m pc) = some target) (hpc : s.pc = pc) :
    A64.step (memCode m) s = some ((s.setGpr 30#5 (pc + 4#64)).setPc target) := by
  have hop := opcode_of_blTarget hbranch
  rw [blTarget_bl pc hop, Option.some.injEq] at hbranch
  have hfetch : memCode m s.pc = some (.bl (wordOffset ((read32 m pc).extractLsb' 0 26))) := by
    rw [hpc]
    exact decode_bl hop
  rw [A64.step, hfetch, ← hbranch, ← hpc]
  rfl

/-- Word `k` of a program decodes to its instruction `k`, and where one list ends so does
    the other. -/
theorem bind_decode_eq {words : List (BitVec 32)} {prog : List Instr}
    (h : words.map decode = prog.map some) (k : Nat) : words[k]?.bind decode = prog[k]? := by
  have hk : (words.map decode)[k]? = (prog.map some)[k]? := by rw [h]
  rw [List.getElem?_map, List.getElem?_map] at hk
  cases hw : words[k]? with
  | none =>
      rw [hw] at hk
      cases hi : prog[k]? with
      | none => rfl
      | some i => rw [hi] at hk; cases hk
  | some w =>
      rw [hw] at hk
      cases hi : prog[k]? with
      | none => rw [hi] at hk; cases hk
      | some i =>
          rw [hi] at hk
          exact Option.some.inj hk

/-- Words that decode to a program are that program. -/
theorem codeAt_eq_progAt {words : List (BitVec 32)} {prog : List Instr}
    (h : words.map decode = prog.map some) (base : Addr) :
    codeAt base words = progAt base prog := by
  funext pc
  rw [codeAt, progAt, bind_decode_eq h]

theorem progAt_pcOf {base : Addr} {prog : List Instr} {k : Nat} (hk : 4 * k < 2 ^ 64) :
    progAt base prog (pcOf base k) = prog[k]? := by
  have hd : (pcOf base k - base).toNat = 4 * k := by unfold pcOf; bv_omega
  rw [progAt, hd, if_pos (by omega), show 4 * k / 4 = k by omega]

theorem loaded_progAt {base : Addr} {prog : List Instr} (hlen : 4 * prog.length ≤ 2 ^ 64) :
    Loaded (progAt base prog) base prog := by
  intro k i hi
  have hk : k < prog.length := (List.getElem?_eq_some_iff.mp hi).1
  rw [progAt_pcOf (by omega), hi]

theorem pcOf_zero (base : Addr) : pcOf base 0 = base := by simp [pcOf]

theorem pcOf_add (base : Addr) (k j : Nat) : pcOf (pcOf base k) j = pcOf base (k + j) := by
  unfold pcOf
  rw [BitVec.add_assoc, ← BitVec.ofNat_add, Nat.mul_add]

/-- The parts of a loaded program are loaded, each at its own base. -/
theorem Loaded.left {base : Addr} {p q : List Instr} (h : Loaded code base (p ++ q)) :
    Loaded code base p := by
  intro k i hi
  refine h k i ?_
  rw [List.getElem?_append_left (List.getElem?_eq_some_iff.mp hi).1, hi]

theorem Loaded.right {base : Addr} {p q : List Instr} (h : Loaded code base (p ++ q)) :
    Loaded code (pcOf base p.length) q := by
  intro k i hi
  rw [pcOf_add]
  refine h (p.length + k) i ?_
  rw [List.getElem?_append_right (Nat.le_add_right ..), Nat.add_sub_cancel_left, hi]

/-- Nothing can be executed behind the last instruction. -/
theorem progAt_end {base : Addr} {prog : List Instr} (hlen : 4 * prog.length < 2 ^ 64) :
    progAt base prog (pcOf base prog.length) = none := by
  rw [progAt_pcOf hlen, List.getElem?_eq_none (le_refl _)]

/-- Go over the instruction at `pc`. -/
theorem Reach.instr {base : Addr} {prog : List Instr} {i : Instr} (hl : Loaded code base prog)
    (k : Nat) (hpc : s.pc = pcOf base k) (hi : prog[k]? = some i) (h : Reach code P (exec i s)) :
    Reach code P s := by
  exact .step (by rw [A64.step, hpc, hl k i hi]; rfl) h

end A64
