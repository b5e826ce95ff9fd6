/-
  MsmnilePkg.Lib.A64.OwnCode

  A program that may write over itself.

  The machine fetches from the memory that it writes.  `LeavesAt base words pc Q s`
  says that the machine, started in `s`, comes to `pc`, that what it executes there
  leaves it in a state that satisfies `Q`, and that every word it has fetched was
  the one that the program `words` at `base` has at its address.  The rules are
  equivalences, one word a rule: a word that is still to run is kept, or the program
  does not get there by its own code.
-/

import MsmnilePkg.Lib.A64.Asm
import MsmnilePkg.Lib.WordScan

namespace A64

open ByteMem WordScan

/-- The word that the program `words` at `base` has at `pc`. -/
def wordsAt (base : Addr) (words : List (BitVec 32)) (pc : Addr) : Option (BitVec 32) :=
  if (pc - base).toNat % 4 = 0 then words[(pc - base).toNat / 4]? else none

/-- The word that is fetched in `s` is the program's own. -/
def Own (base : Addr) (words : List (BitVec 32)) (s : State) : Prop :=
  wordsAt base words s.pc = some (read32 s.mem s.pc)

/-- The machine comes to `pc` by the program's own words, and the one at `pc` leaves it
    in a state that satisfies `Q`. -/
inductive LeavesAt (base : Addr) (words : List (BitVec 32)) (pc : Addr) (Q : State → Prop) :
    State → Prop
  | last {s t : State} (hpc : s.pc = pc) (hown : Own base words s)
      (hstep : A64.step (memCode s.mem) s = some t) (h : Q t) : LeavesAt base words pc Q s
  | next {s t : State} (hpc : s.pc ≠ pc) (hown : Own base words s)
      (hstep : A64.step (memCode s.mem) s = some t) (h : LeavesAt base words pc Q t) :
      LeavesAt base words pc Q s

variable {base pc : Addr} {words : List (BitVec 32)} {Q : State → Prop} {m : Mem} {s : State}
  {i : Instr} {k : Nat}

theorem wordsAt_pcOf (hk : 4 * k < 2 ^ 64) : wordsAt base words (pcOf base k) = words[k]? := by
  have hd : (pcOf base k - base).toNat = 4 * k := by unfold pcOf; bv_omega
  rw [wordsAt, hd, if_pos (by omega), show 4 * k / 4 = k by omega]

/-- At word `k` of a program that lies in `m`, the word fetched is the program's own exactly
    when it is the one in `m`; it is executed as the instruction it stands for. -/
theorem own_iff (hm : HoldsWords m base words) (hlen : 4 * words.length ≤ 2 ^ 64)
    (hi : words[k]?.bind decode = some i) (hpc : s.pc = pcOf base k) :
    (Own base words s ↔ read32 s.mem (pcOf base k) = read32 m (pcOf base k)) ∧
      (Own base words s → A64.step (memCode s.mem) s = some (exec i s)) := by
  obtain ⟨w, hw, hdecode⟩ := Option.bind_eq_some_iff.mp hi
  have hk : k < words.length := (List.getElem?_eq_some_iff.mp hw).1
  have hread : read32 m (pcOf base k) = w := hm k w hw
  rw [Own, hpc, wordsAt_pcOf (by omega), hw, hread, Option.some.injEq]
  refine ⟨eq_comm, fun hown => ?_⟩
  have hfetch : memCode s.mem s.pc = some i := by rw [memCode, hpc, ← hown, hdecode]
  rw [A64.step, hfetch]
  rfl

/-- Over a word before `pc`. -/
theorem leavesAt_iff_next (hm : HoldsWords m base words) (hlen : 4 * words.length ≤ 2 ^ 64)
    (hi : words[k]?.bind decode = some i) (hpc : s.pc = pcOf base k) (hne : pcOf base k ≠ pc) :
    LeavesAt base words pc Q s ↔
      read32 s.mem (pcOf base k) = read32 m (pcOf base k) ∧
        LeavesAt base words pc Q (exec i s) := by
  obtain ⟨hiff, hexec⟩ := own_iff hm hlen hi hpc
  constructor
  · intro h
    cases h with
    | last hlast => exact absurd (hpc.symm.trans hlast) hne
    | next _ hown hstep h =>
        obtain rfl := Option.some.inj (hstep.symm.trans (hexec hown))
        exact ⟨hiff.mp hown, h⟩
  · rintro ⟨hkept, h⟩
    have hown := hiff.mpr hkept
    exact .next (fun hlast => hne (hpc.symm.trans hlast)) hown (hexec hown) h

/-- Over the word at `pc`. -/
theorem leavesAt_iff_last (hm : HoldsWords m base words) (hlen : 4 * words.length ≤ 2 ^ 64)
    (hi : words[k]?.bind decode = some i) (hpc : s.pc = pcOf base k) :
    LeavesAt base words (pcOf base k) Q s ↔
      read32 s.mem (pcOf base k) = read32 m (pcOf base k) ∧ Q (exec i s) := by
  obtain ⟨hiff, hexec⟩ := own_iff hm hlen hi hpc
  constructor
  · intro h
    cases h with
    | last _ hown hstep h =>
        obtain rfl := Option.some.inj (hstep.symm.trans (hexec hown))
        exact ⟨hiff.mp hown, h⟩
    | next hne => exact absurd hpc hne
  · rintro ⟨hkept, h⟩
    have hown := hiff.mpr hkept
    exact .last hpc hown (hexec hown) h

/-! ## While nothing has been stored -/

theorem leavesAt_iff_exec (hm : HoldsWords m base words) (hlen : 4 * words.length ≤ 2 ^ 64)
    (hi : words[k]?.bind decode = some i) (hpc : s.pc = pcOf base k) (hne : pcOf base k ≠ pc)
    (hmem : s.mem = m) :
    LeavesAt base words pc Q s ↔ LeavesAt base words pc Q (exec i s) := by
  rw [leavesAt_iff_next hm hlen hi hpc hne, hmem]
  exact and_iff_right rfl

/-- An instruction whose only effect is a register. -/
theorem leavesAt_iff_set (hm : HoldsWords m base words) (hlen : 4 * words.length ≤ 2 ^ 64)
    {r : Reg} {v : BitVec 64} (hi : words[k]?.bind decode = some i) (hpc : s.pc = pcOf base k)
    (hne : pcOf base k ≠ pc) (hmem : s.mem = m) (hexec : exec i s = (s.setGpr r v).next) :
    LeavesAt base words pc Q s ↔
      LeavesAt base words pc Q ((s.setGpr r v).setPc (pcOf base (k + 1))) := by
  rw [leavesAt_iff_exec hm hlen hi hpc hne hmem, hexec, State.next, State.pc_setGpr, hpc,
    pcOf_next]

/-- `ldr xt, literal` -/
theorem leavesAt_iff_ldrLit (hm : HoldsWords m base words) (hlen : 4 * words.length ≤ 2 ^ 64)
    {r : Reg} {o : BitVec 64} {a : Addr} (hr : r ≠ 31#5)
    (hi : words[k]?.bind decode = some (.ldrLit r o)) (hpc : s.pc = pcOf base k)
    (hne : pcOf base k ≠ pc) (hmem : s.mem = m) (ha : pcOf base k + o = a) :
    LeavesAt base words pc Q s ↔
      LeavesAt base words pc Q ((s.setGpr r (read64 m a)).setPc (pcOf base (k + 1))) := by
  apply leavesAt_iff_set hm hlen hi hpc hne hmem
  rw [exec, State.setX_of_ne hr, hpc, ha, hmem]

end A64
