/-
  MsmnilePkg.BootShim.CopyLoop

  BootShim.S: the code in front of the firmware image that a bootloader starts
  as if it were a Linux kernel.  It copies the payload behind it to `UEFI_BASE`
  and jumps there.

  The shim runs from the memory it writes: the destination may lie over the
  literals of its header and over the words of the loop itself.  Every word is
  fetched when it is executed, and the literals and the payload are read when
  they are used.
-/

import MsmnilePkg.Lib.A64.OwnCode
import MsmnilePkg.Lib.ForwardCopy

namespace BootShim

open ByteMem A64 WordScan

/-! ## The image -/

namespace Label

/-! Labels, in words from `_Head`.  The header fields behind `_StackSize` (flags,
    reserved words, magic) are not used by the code. -/

def stackBase : Nat := 2
def stackSize : Nat := 4
def start : Nat := 16
def copyLoop : Nat := 21
def entry : Nat := 26
def dead : Nat := 27
def payload : Nat := 28

end Label

/-- `_Head` -/
def head : List Instr :=
  [.adr 1#5 (A64.dist 0 Label.payload),
   .b (A64.dist 1 Label.start)]

/-- `_Start` to `_Dead` -/
def start : List Instr :=
  [movX 4#5 1#5,
   .ldrLit 5#5 (A64.dist 17 Label.stackBase),
   cmpX 4#5 5#5,
   .bcond .eq (A64.dist 19 Label.entry),
   .ldrLit 6#5 (A64.dist 20 Label.stackSize),
   -- _CopyLoop
   .ldp 2#5 3#5 4#5 16#64 .post,
   .stp 2#5 3#5 5#5 16#64 .post,
   .addSubImm true true true 6#5 6#5 16#64,
   .bcond .ne (A64.dist 24 Label.copyLoop),
   .ldrLit 5#5 (A64.dist 25 Label.stackBase),
   -- _Entry
   .br 5#5,
   -- _Dead
   .b (A64.dist 27 Label.dead)]

/-- The words of `_Head`. -/
def headWords : List (BitVec 32) := [0x10000381, 0x1400000F]

/-- The words of `_Start` to `_Dead`. -/
def startWords : List (BitVec 32) :=
  [0xAA0103E4, 0x58FFFE25, 0xEB05009F, 0x540000E0, 0x58FFFE06,
   0xA8C10C82, 0xA8810CA2, 0xF10040C6, 0x54FFFFA1, 0x58FFFD25,
   0xD61F00A0,
   0x14000000]

theorem headWords_decode : headWords.map decode = head.map some := by decide

theorem startWords_decode : startWords.map decode = start.map some := by decide

/-- The words in front of the payload, assembled for `uefiBase` and `uefiSize`. -/
def image (uefiBase uefiSize : BitVec 64) : List (BitVec 32) :=
  headWords ++
  -- _StackBase and _StackSize, the flags and reserved words, "ARM\x64" and a reserved word
  [uefiBase.setWidth 32, (uefiBase >>> 32).setWidth 32,
   uefiSize.setWidth 32, (uefiSize >>> 32).setWidth 32,
   0, 0, 0, 0, 0, 0, 0, 0,
   0x644D5241, 0] ++
  startWords

/-- The image, assembled for `uefiBase` and `uefiSize`, is at `base` and is entered. -/
structure Entered (base uefiBase uefiSize : Addr) (s : State) : Prop where
  pc : s.pc = base
  image : HoldsWords s.mem base (image uefiBase uefiSize)

/-- Control is at `uefiBase`, where the payload lies as it was in `m` at `src`. -/
def Arrived (m : Mem) (src uefiBase uefiSize : Addr) (t : State) : Prop :=
  t.pc = uefiBase ∧ ∀ i < uefiSize.toNat,
    t.mem (uefiBase + BitVec.ofNat 64 i) = m (src + BitVec.ofNat 64 i)

/-- By its own words the shim comes to `_Entry`, and the branch there arrives. -/
def HandsOver (base uefiBase uefiSize : Addr) (s : State) : Prop :=
  LeavesAt base (image uefiBase uefiSize) (pcOf base Label.entry)
    (Arrived s.mem (pcOf base Label.payload) uefiBase uefiSize) s

/-! ## Its instructions -/

section Image

variable {base uefiBase uefiSize : Addr} {m : Mem} {Q : State → Prop} {s : State} {i : Instr}

theorem image_length (uefiBase uefiSize : Addr) : 4 * (image uefiBase uefiSize).length ≤ 2 ^ 64 :=
  show 4 * 28 ≤ 2 ^ 64 by decide

theorem image_head {k : Nat} (hi : head[k]? = some i) :
    (image uefiBase uefiSize)[k]?.bind decode = some i := by
  have hk : k < headWords.length := (List.getElem?_eq_some_iff.mp hi).1
  rw [image, List.append_assoc, List.getElem?_append_left hk, bind_decode_eq headWords_decode, hi]

theorem image_start {j : Nat} (hi : start[j]? = some i) :
    (image uefiBase uefiSize)[Label.start + j]?.bind decode = some i := by
  rw [image, List.getElem?_append_right (Nat.le_add_right 16 j)]
  show startWords[16 + j - 16]?.bind decode = some i
  rw [Nat.add_sub_cancel_left, bind_decode_eq startWords_decode, hi]

/-- The words before `_Entry` are not at `_Entry`. -/
theorem pcOf_ne_entry {k : Nat} (hk : k < Label.entry) : pcOf base k ≠ pcOf base Label.entry := by
  unfold pcOf Label.entry at *
  bv_omega

/-- The shim goes on from `s`, by its own words, and leaves `_Entry` for `Q`. -/
abbrev Leaves (base uefiBase uefiSize : Addr) (Q : State → Prop) (s : State) : Prop :=
  LeavesAt base (image uefiBase uefiSize) (pcOf base Label.entry) Q s

/-- Over the word at `_Start + j`. -/
theorem leaves_iff (hm : HoldsWords m base (image uefiBase uefiSize)) {k : Nat} (j : Nat)
    (hi : start[j]? = some i) (hk : Label.start + j = k) (hlt : k < Label.entry)
    (hpc : s.pc = pcOf base k) :
    Leaves base uefiBase uefiSize Q s ↔ read32 s.mem (pcOf base k) = read32 m (pcOf base k) ∧
      Leaves base uefiBase uefiSize Q (exec i s) := by
  subst hk
  exact leavesAt_iff_next hm (image_length _ _) (image_start hi) hpc (pcOf_ne_entry hlt)

/-- The two literals of the header. -/
theorem read64_stackBase (hm : HoldsWords m base (image uefiBase uefiSize)) :
    read64 m (pcOf base Label.stackBase) = uefiBase := by
  refine (read64_eq_iff _ _ _).mpr ⟨hm 2 _ rfl, ?_⟩
  rw [pcOf_next]
  exact hm 3 _ rfl

theorem read64_stackSize (hm : HoldsWords m base (image uefiBase uefiSize)) :
    read64 m (pcOf base Label.stackSize) = uefiSize := by
  refine (read64_eq_iff _ _ _).mpr ⟨hm 4 _ rfl, ?_⟩
  rw [pcOf_next]
  exact hm 5 _ rfl

end Image

/-! ## The copy loop -/

section Run

variable {base src dst size : Addr} {m : Mem} {Q : State → Prop} {s : State} {k : Nat}

/-- At `_CopyLoop`, with `k` pairs copied. -/
structure AtLoop (base src dst size : Addr) (m : Mem) (k : Nat) (s : State) : Prop where
  pc : s.pc = pcOf base Label.copyLoop
  x4 : s.gpr 4#5 = src + BitVec.ofNat 64 (16 * k)
  x5 : s.gpr 5#5 = dst + BitVec.ofNat 64 (16 * k)
  x6 : s.gpr 6#5 = size - BitVec.ofNat 64 (16 * k)
  mem : s.mem = copyUp 16 m dst src k

/-- Behind the loop, before `_StackBase` is loaded again. -/
structure AtReload (base src dst size : Addr) (m : Mem) (s : State) : Prop where
  pc : s.pc = pcOf base 25
  mem : s.mem = copyUp 16 m dst src (size.toNat / 16)

/-- The words of the turn behind `k` pairs are kept: `ldp` and `stp` are fetched before the
    turn writes its pair, `subs` and `b.ne` behind it. -/
def TurnKept (base : Addr) (m : Mem) (dst src : Addr) (k : Nat) : Prop :=
  read64 (copyUp 16 m dst src k) (pcOf base 21) = read64 m (pcOf base 21) ∧
    read64 (copyUp 16 m dst src (k + 1)) (pcOf base 23) = read64 m (pcOf base 23)

/-- The three instructions of the loop before its branch. -/
def turn (s : State) : State :=
  exec (.addSubImm true true true 6#5 6#5 16#64)
    (exec (.stp 2#5 3#5 5#5 16#64 .post) (exec (.ldp 2#5 3#5 4#5 16#64 .post) s))

@[simp] theorem turn_pc (s : State) : (turn s).pc = s.pc + 4#64 + 4#64 + 4#64 := rfl
@[simp] theorem turn_x4 (s : State) : (turn s).gpr 4#5 = s.gpr 4#5 + 16#64 := rfl
@[simp] theorem turn_x5 (s : State) : (turn s).gpr 5#5 = s.gpr 5#5 + 16#64 := rfl
@[simp] theorem turn_x6 (s : State) : (turn s).gpr 6#5 = s.gpr 6#5 - 16#64 := rfl
@[simp] theorem turn_flags (s : State) : (turn s).flags = cmpFlags (s.gpr 6#5) 16#64 := rfl

/-- A turn reads its sixteen bytes before it writes them. -/
@[simp] theorem turn_mem (s : State) :
    (turn s).mem = moveBlock 16 s.mem (s.gpr 5#5) (s.gpr 4#5) := by
  rw [← moveBlock_pair]
  rfl

/-- What the turn leaves before its branch. -/
theorem AtLoop.turn_mem (h : AtLoop base src dst size m k s) :
    (turn s).mem = copyUp 16 m dst src (k + 1) := by
  rw [BootShim.turn_mem, h.mem, h.x4, h.x5, copyUp]

theorem AtLoop.next (h : AtLoop base src dst size m k s) :
    AtLoop base src dst size m (k + 1) ((turn s).setPc (pcOf base Label.copyLoop)) where
  pc := rfl
  x4 := by simp only [State.gpr_setPc, turn_x4, h.x4]; bv_omega
  x5 := by simp only [State.gpr_setPc, turn_x5, h.x5]; bv_omega
  x6 := by simp only [State.gpr_setPc, turn_x6, h.x6]; bv_omega
  mem := h.turn_mem

/-- Over the four words of one turn. -/
theorem AtLoop.turn_iff (hm : HoldsWords m base (image dst size))
    (h : AtLoop base src dst size m k s) :
    Leaves base dst size Q s ↔ TurnKept base m dst src k ∧ Leaves base dst size Q
      ((turn s).setPc (if s.gpr 6#5 = 16#64 then pcOf base 25 else pcOf base Label.copyLoop)) := by
  have h22 : s.pc + 4#64 = pcOf base 22 := by rw [h.pc, pcOf_next]; rfl
  have h23 : s.pc + 4#64 + 4#64 = pcOf base 23 := by rw [h22, pcOf_next]
  have h24 : (turn s).pc = pcOf base 24 := by rw [turn_pc, h23, pcOf_next]
  -- b.ne _CopyLoop
  have hbranch : exec (.bcond .ne (A64.dist 24 Label.copyLoop)) (turn s) = (turn s).setPc
      (if s.gpr 6#5 = 16#64 then pcOf base 25 else pcOf base Label.copyLoop) := by
    rw [exec, turn_flags, holds_ne, State.next, h24, pcOf_dist, pcOf_next]
    by_cases hlast : s.gpr 6#5 = 16#64
    · simp [hlast]
    · simp [hlast]
  have hldp := leaves_iff (Q := Q) hm 5 rfl rfl (by decide) h.pc
  have hstp := leaves_iff (Q := Q) hm 6 rfl rfl (by decide)
    (s := exec (.ldp 2#5 3#5 4#5 16#64 .post) s) h22
  have hsubs := leaves_iff (Q := Q) hm 7 rfl rfl (by decide)
    (s := exec (.stp 2#5 3#5 5#5 16#64 .post) (exec (.ldp 2#5 3#5 4#5 16#64 .post) s)) h23
  have hbne := leaves_iff (Q := Q) hm 8 rfl rfl (by decide) (s := turn s) h24
  -- neither `ldp` nor `subs` writes to memory
  have hmem : (exec (.ldp 2#5 3#5 4#5 16#64 .post) s).mem = copyUp 16 m dst src k := h.mem
  have hmem' : (exec (.stp 2#5 3#5 5#5 16#64 .post) (exec (.ldp 2#5 3#5 4#5 16#64 .post) s)).mem
      = copyUp 16 m dst src (k + 1) := h.turn_mem
  rw [hldp, hstp, hsubs, ← turn, hbne, hbranch, h.mem, hmem, hmem', h.turn_mem, TurnKept,
    read64_eq_iff_read32, read64_eq_iff_read32, pcOf_next, pcOf_next]
  simp only [and_assoc]
  rfl

/-- What every turn from the one behind `k` pairs needs, and what is needed behind the loop. -/
theorem AtLoop.leaves_iff (hm : HoldsWords m base (image dst size)) {q : Prop}
    (hend : ∀ t, AtReload base src dst size m t → (Leaves base dst size Q t ↔ q)) {r : Nat}
    (hsize : size.toNat = 16 * (k + 1 + r)) (h : AtLoop base src dst size m k s) :
    Leaves base dst size Q s ↔
      (∀ j, k ≤ j → j < size.toNat / 16 → TurnKept base m dst src j) ∧ q := by
  have hx6 : s.gpr 6#5 = 16#64 ↔ r = 0 := by
    rw [h.x6]
    have := size.isLt
    bv_omega
  -- `r` is the number of turns behind this one
  induction r generalizing k s with
  | zero =>
      have hdone : size.toNat / 16 = k + 1 := by omega
      rw [h.turn_iff hm, if_pos (hx6.mpr rfl), hend _ ⟨rfl, by rw [hdone]; exact h.turn_mem⟩, hdone]
      apply and_congr_left
      intro _
      constructor
      · intro hkept j hkj hj
        obtain rfl : k = j := by omega
        exact hkept
      · intro hall
        exact hall k le_rfl (Nat.lt_succ_self k)
  | succ r ih =>
      have hnext := h.next
      have hx6next : ((turn s).setPc (pcOf base Label.copyLoop)).gpr 6#5 = 16#64 ↔ r = 0 := by
        rw [hnext.x6]
        have := size.isLt
        bv_omega
      have hrest : Leaves base dst size Q ((turn s).setPc (pcOf base Label.copyLoop)) ↔
          (∀ j, k + 1 ≤ j → j < size.toNat / 16 → TurnKept base m dst src j) ∧ q :=
        ih (by omega) hnext hx6next
      rw [h.turn_iff hm, if_neg (fun hlast => Nat.succ_ne_zero r (hx6.mp hlast)), hrest,
        ← and_assoc]
      apply and_congr_left
      intro _
      constructor
      · rintro ⟨hkept, hall⟩ j hkj hj
        rcases Nat.eq_or_lt_of_le hkj with rfl | hlt
        · exact hkept
        · exact hall j hlt hj
      · intro hall
        exact ⟨hall k le_rfl (by omega), fun j hkj hj => hall j (Nat.le_of_succ_le hkj) hj⟩

/-! ## Behind the loop -/

/-- `ldr x5, _StackBase; br x5` -/
theorem AtReload.leaves_iff (hm : HoldsWords m base (image dst size))
    (h : AtReload base src dst size m s) :
    Leaves base dst size (Arrived m src dst size) s ↔
      read64 (copyUp 16 m dst src (size.toNat / 16)) (pcOf base 25) = read64 m (pcOf base 25) ∧
      read64 (copyUp 16 m dst src (size.toNat / 16)) (pcOf base Label.stackBase) = dst ∧
      ∀ i < size.toNat, copyUp 16 m dst src (size.toNat / 16) (dst + BitVec.ofNat 64 i)
        = m (src + BitVec.ofNat 64 i) := by
  have hload : exec (.ldrLit 5#5 (A64.dist 25 Label.stackBase)) s = (s.setGpr 5#5
      (read64 s.mem (pcOf base Label.stackBase))).setPc (pcOf base Label.entry) := by
    rw [exec, State.setX_of_ne (by decide), State.next, State.pc_setGpr, h.pc, pcOf_dist, pcOf_next]
    rfl
  have hbr := leavesAt_iff_last hm (image_length _ _) (Q := Arrived m src dst size)
    (s := exec (.ldrLit 5#5 (A64.dist 25 Label.stackBase)) s) (image_start (j := 10) rfl)
    (by rw [hload]; rfl)
  rw [BootShim.leaves_iff hm 9 rfl rfl (by decide) h.pc, Leaves]
  refine (and_congr_right fun _ => hbr).trans ?_
  rw [hload, ← and_assoc, read64_eq_iff_read32, pcOf_next, ← h.mem]
  exact Iff.rfl

end Run

/-! ## From the first instruction -/

section Start

variable {base uefiBase uefiSize : Addr} {Q : State → Prop} {s : State}

/-- At `beq _Entry`, with the two addresses compared. -/
structure Compared (base uefiBase : Addr) (m : Mem) (t : State) : Prop where
  pc : t.pc = pcOf base 19
  x4 : t.gpr 4#5 = pcOf base Label.payload
  x5 : t.gpr 5#5 = uefiBase
  flags : t.flags = cmpFlags (pcOf base Label.payload) uefiBase
  mem : t.mem = m

theorem Entered.compared (h : Entered base uefiBase uefiSize s) (Q : State → Prop) :
    ∃ t, Compared base uefiBase s.mem t ∧
      (Leaves base uefiBase uefiSize Q s ↔ Leaves base uefiBase uefiSize Q t) := by
  have hlen := image_length uefiBase uefiSize
  have hpc : s.pc = pcOf base 0 := by rw [h.pc, pcOf_zero]
  have hb : exec (.b (A64.dist 1 Label.start)) ((s.setGpr 1#5 (pcOf base Label.payload)).setPc
      (pcOf base 1)) = (s.setGpr 1#5 (pcOf base Label.payload)).setPc (pcOf base Label.start) := by
    rw [exec, State.pc_setPc, pcOf_dist, State.setPc_setPc]
  refine ⟨exec (cmpX 4#5 5#5) ((((((s.setGpr 1#5 (pcOf base Label.payload)).setPc
    (pcOf base Label.start)).setGpr 4#5 (pcOf base Label.payload)).setPc (pcOf base 17)).setGpr 5#5
    uefiBase).setPc (pcOf base 18)), ?_, ?_⟩
  · rw [exec_cmpX]
    refine ⟨?_, rfl, rfl, rfl, rfl⟩
    exact pcOf_next base 18
  · -- adr x1, _Payload
    refine Iff.trans (leavesAt_iff_set h.image hlen (image_head (k := 0) rfl) hpc
      (pcOf_ne_entry (by decide)) rfl (r := 1#5) (v := pcOf base Label.payload) ?_) ?_
    · rw [exec, State.setX_of_ne (by decide), hpc, pcOf_dist]
    -- b _Start
    refine Iff.trans (leavesAt_iff_exec h.image hlen (image_head (k := 1) rfl) rfl
      (pcOf_ne_entry (by decide)) rfl) ?_
    rw [hb]
    -- mov x4, x1
    refine Iff.trans (leavesAt_iff_set h.image hlen (image_start (j := 0) rfl) rfl
      (pcOf_ne_entry (by decide)) rfl (r := 4#5) (v := pcOf base Label.payload) ?_) ?_
    · rw [exec_movX, State.setX_of_ne (by decide), State.x_of_ne (by decide)]
      rfl
    -- ldr x5, _StackBase
    refine Iff.trans (leavesAt_iff_ldrLit h.image hlen (by decide) (image_start (j := 1) rfl) rfl
      (pcOf_ne_entry (by decide)) rfl (pcOf_dist base 17 Label.stackBase)) ?_
    rw [read64_stackBase h.image]
    -- cmp x4, x5
    exact leavesAt_iff_exec h.image hlen (image_start (j := 2) rfl) rfl
      (pcOf_ne_entry (by decide)) rfl

/-- The payload is in place: nothing is copied. -/
theorem Entered.handsOver_of_in_place (h : Entered base uefiBase uefiSize s)
    (hplace : pcOf base Label.payload = uefiBase) : HandsOver base uefiBase uefiSize s := by
  obtain ⟨t, ht, hleaves⟩ :=
    h.compared (Arrived s.mem (pcOf base Label.payload) uefiBase uefiSize)
  have htaken : exec (.bcond .eq (A64.dist 19 Label.entry)) t
      = t.setPc (pcOf base Label.entry) := by
    rw [exec, ht.flags, holds_eq, if_pos (decide_eq_true hplace), ht.pc, pcOf_dist]
  refine hleaves.mpr ((leavesAt_iff_exec h.image (image_length _ _) (image_start (j := 3) rfl) ht.pc
    (pcOf_ne_entry (by decide)) ht.mem).mpr ?_)
  rw [htaken]
  refine (leavesAt_iff_last h.image (image_length _ _) (image_start (j := 10) rfl) rfl).mpr ⟨?_, ?_⟩
  · rw [State.mem_setPc, ht.mem]
  · refine ⟨ht.x5, fun i _ => ?_⟩
    rw [hplace]
    exact congrFun ht.mem _

/-- The payload is not in place: the loop is entered. -/
theorem Entered.atLoop (h : Entered base uefiBase uefiSize s)
    (hmove : pcOf base Label.payload ≠ uefiBase) (Q : State → Prop) :
    ∃ t, AtLoop base (pcOf base Label.payload) uefiBase uefiSize s.mem 0 t ∧
      (Leaves base uefiBase uefiSize Q s ↔ Leaves base uefiBase uefiSize Q t) := by
  obtain ⟨t, ht, hleaves⟩ := h.compared Q
  have hnot : exec (.bcond .eq (A64.dist 19 Label.entry)) t = t.setPc (pcOf base 20) := by
    rw [exec, ht.flags, holds_eq, if_neg (by simpa using hmove), State.next, ht.pc, pcOf_next]
  have hbeq := leavesAt_iff_exec (Q := Q) h.image (image_length _ _) (image_start (j := 3) rfl)
    ht.pc (pcOf_ne_entry (by decide)) ht.mem
  -- ldr x6, _StackSize
  have hldr := leavesAt_iff_ldrLit (Q := Q) (s := t.setPc (pcOf base 20)) h.image
    (image_length _ _) (by decide) (image_start (j := 4) rfl) rfl (pcOf_ne_entry (by decide))
    ht.mem (pcOf_dist base 20 Label.stackSize)
  rw [read64_stackSize h.image] at hldr
  rw [hnot] at hbeq
  refine ⟨((t.setPc (pcOf base 20)).setGpr 6#5 uefiSize).setPc (pcOf base Label.copyLoop), ?_,
    hleaves.trans (hbeq.trans hldr)⟩
  refine ⟨rfl, ?_, ?_, ?_, ht.mem⟩
  · simp [ht.x4]
  · simp [ht.x5]
  · simp

end Start

/-! ## When the payload arrives -/

section Arrival

variable {m : Mem} {base src dst size : Addr} {a : Addr} {n : Nat}

/-- Every payload byte that is overwritten before it is read is overwritten with itself. -/
def LateBytesAgree (m : Mem) (src dst : Addr) (n : Nat) : Prop :=
  ∀ i < n, ReadLate 16 (dst - src).toNat i →
    m (src + BitVec.ofNat 64 (i - (dst - src).toNat)) = m (src + BitVec.ofNat 64 i)

/-- What the first `n` bytes of the copy put over the doubleword at `a` is what it holds. -/
def Kept (m : Mem) (a src dst : Addr) (n : Nat) : Prop :=
  ∀ i < 8, (a + BitVec.ofNat 64 i - dst).toNat < n →
    m (src + (a + BitVec.ofNat 64 i - dst)) = m (a + BitVec.ofNat 64 i)

/-- The words that are still to run are kept: `ldp` and `stp` as far as they run again,
    `subs` and `b.ne`, `ldr` and `br`. -/
structure CodeKept (m : Mem) (base src dst : Addr) (n : Nat) : Prop where
  pair : Kept m (pcOf base 21) src dst (n - 16)
  count : Kept m (pcOf base 23) src dst n
  jump : Kept m (pcOf base 25) src dst n

/-- Nothing is read late when the destination does not start inside the payload. -/
theorem lateBytesAgree_of_not_ahead (h : n ≤ (dst - src).toNat) : LateBytesAgree m src dst n := by
  intro i hi hlate
  have := hlate.1
  omega

theorem LateBytesAgree.mono {n' : Nat} (h : LateBytesAgree m src dst n) (hn : n' ≤ n) :
    LateBytesAgree m src dst n' :=
  fun i hi => h i (Nat.lt_of_lt_of_le hi hn)

theorem kept_of_apart (h : Apart dst n a 8) : Kept m a src dst n := by
  intro i hi hin
  have := h.outside hi
  omega

theorem Kept.mono {n' : Nat} (h : Kept m a src dst n) (hn : n' ≤ n) : Kept m a src dst n' :=
  fun i hi hin => h i hi (Nat.lt_of_lt_of_le hin hn)

/-- Where no byte is lost, a doubleword is left alone exactly when it is kept. -/
theorem read64_copyUp_iff (m : Mem) (dst src : Addr) {k : Nat} (hk : 16 * k ≤ 2 ^ 64)
    (hlate : LateBytesAgree m src dst (16 * k)) (a : Addr) :
    read64 (copyUp 16 m dst src k) a = read64 m a ↔ Kept m a src dst (16 * k) := by
  have hcopy := (copyUp_faithful_iff m dst src hk).mpr hlate
  rw [read64_eq_read64_iff]
  -- a byte of the doubleword is either a byte of the destination or as it was
  apply forall₂_congr
  intro i _
  have hback : dst + BitVec.ofNat 64 (a + BitVec.ofNat 64 i - dst).toNat
      = a + BitVec.ofNat 64 i := by
    rw [BitVec.ofNat_toNat, BitVec.setWidth_eq]
    bv_omega
  by_cases hin : (a + BitVec.ofNat 64 i - dst).toNat < 16 * k
  · have hbyte := hcopy _ hin
    rw [hback, BitVec.ofNat_toNat, BitVec.setWidth_eq] at hbyte
    rw [hbyte]
    exact ⟨fun h _ => h, fun h => h hin⟩
  · rw [copyUp_of_outside src (Nat.le_of_not_lt hin)]
    exact iff_of_true rfl fun h => absurd h hin

/-- Where no byte is lost, every word is its own when it is fetched exactly when the words
    that are still to run are kept. -/
theorem codeKept_iff (hpos : 0 < size.toNat) (hsize : 16 ∣ size.toNat)
    (hlate : LateBytesAgree m src dst size.toNat) :
    (∀ j < size.toNat / 16, TurnKept base m dst src j) ∧
        read64 (copyUp 16 m dst src (size.toNat / 16)) (pcOf base 25) = read64 m (pcOf base 25) ↔
      CodeKept m base src dst size.toNat := by
  have hlt := size.isLt
  have hread : ∀ j ≤ size.toNat / 16, ∀ a, read64 (copyUp 16 m dst src j) a = read64 m a ↔
      Kept m a src dst (16 * j) := fun j hj =>
    read64_copyUp_iff _ _ _ (by omega) (hlate.mono (by omega))
  have hlen : 16 * (size.toNat / 16) = size.toNat := Nat.mul_div_cancel' hsize
  rw [hread _ le_rfl, hlen]
  constructor
  · rintro ⟨hturns, hjump⟩
    -- the last turn needs most
    obtain ⟨hpair, hcount⟩ := hturns (size.toNat / 16 - 1) (by omega)
    rw [hread _ (by omega)] at hpair hcount
    exact ⟨hpair.mono (by omega), hcount.mono (by omega), hjump⟩
  · rintro ⟨hpair, hcount, hjump⟩
    refine ⟨fun j hj => ⟨?_, ?_⟩, hjump⟩
    · exact (hread j (by omega) _).mpr (hpair.mono (by omega))
    · exact (hread (j + 1) (by omega) _).mpr (hcount.mono (by omega))

end Arrival

/-- What the copy leaves in memory decides the hand-over. -/
theorem Entered.handsOver_iff_copied {base uefiBase uefiSize : Addr} {s : State}
    (h : Entered base uefiBase uefiSize s) (hpos : 0 < uefiSize.toNat)
    (hsize : 16 ∣ uefiSize.toNat) (hmove : pcOf base Label.payload ≠ uefiBase) :
    HandsOver base uefiBase uefiSize s ↔
      (∀ j < uefiSize.toNat / 16, TurnKept base s.mem uefiBase (pcOf base Label.payload) j) ∧
      read64 (copyUp 16 s.mem uefiBase (pcOf base Label.payload) (uefiSize.toNat / 16))
          (pcOf base 25) = read64 s.mem (pcOf base 25) ∧
      read64 (copyUp 16 s.mem uefiBase (pcOf base Label.payload) (uefiSize.toNat / 16))
          (pcOf base Label.stackBase) = uefiBase ∧
      ∀ i < uefiSize.toNat,
        copyUp 16 s.mem uefiBase (pcOf base Label.payload) (uefiSize.toNat / 16)
            (uefiBase + BitVec.ofNat 64 i)
          = s.mem (pcOf base Label.payload + BitVec.ofNat 64 i) := by
  obtain ⟨t, ht, hleaves⟩ := h.atLoop hmove
    (Arrived s.mem (pcOf base Label.payload) uefiBase uefiSize)
  obtain ⟨r, hr⟩ := hsize
  rw [HandsOver, ← Leaves, hleaves, ht.leaves_iff h.image (fun u hu => hu.leaves_iff h.image)
    (r := r - 1) (by omega)]
  simp

/-- The shim hands over exactly when the payload is in place already, or no byte of it is
    lost to the copy and the copy leaves `_StackBase` and the code that is still to run
    alone. -/
theorem handsOver_iff {base uefiBase uefiSize : Addr} {s : State}
    (h : Entered base uefiBase uefiSize s) (hpos : 0 < uefiSize.toNat)
    (hsize : 16 ∣ uefiSize.toNat) :
    HandsOver base uefiBase uefiSize s ↔ pcOf base Label.payload = uefiBase ∨
      LateBytesAgree s.mem (pcOf base Label.payload) uefiBase uefiSize.toNat ∧
      Kept s.mem (pcOf base Label.stackBase) (pcOf base Label.payload) uefiBase uefiSize.toNat ∧
      CodeKept s.mem base (pcOf base Label.payload) uefiBase uefiSize.toNat := by
  by_cases hplace : pcOf base Label.payload = uefiBase
  · exact iff_of_true (h.handsOver_of_in_place hplace) (.inl hplace)
  · have hlen : 16 * (uefiSize.toNat / 16) = uefiSize.toNat := Nat.mul_div_cancel' hsize
    have hle : 16 * (uefiSize.toNat / 16) ≤ 2 ^ 64 := by rw [hlen]; exact uefiSize.isLt.le
    have hfaithful := copyUp_faithful_iff s.mem uefiBase (pcOf base Label.payload) hle
    have hlit := read64_copyUp_iff s.mem uefiBase (pcOf base Label.payload) hle
    rw [hlen] at hfaithful hlit
    rw [h.handsOver_iff_copied hpos hsize hplace, or_iff_right hplace, hfaithful]
    constructor
    · rintro ⟨hturns, hjump, hbase, hlate⟩
      replace hbase := hbase.trans (read64_stackBase h.image).symm
      exact ⟨hlate, (hlit hlate _).mp hbase, (codeKept_iff hpos hsize hlate).mp ⟨hturns, hjump⟩⟩
    · rintro ⟨hlate, hkept, hcode⟩
      obtain ⟨hturns, hjump⟩ := (codeKept_iff hpos hsize hlate).mpr hcode
      have hbase := (hlit hlate _).mpr hkept
      exact ⟨hturns, hjump, hbase.trans (read64_stackBase h.image), hlate⟩

/-! ## The image in memory -/

/-- The machine at the entry of an image whose payload begins with a one among zeros. -/
def sampleEntry (base uefiBase uefiSize : Addr) : State :=
  { gpr := fun _ => 0#64, pc := base, flags := ⟨false, false, false, false⟩,
    mem := writeWords (image uefiBase uefiSize) base
      fun a => if a = pcOf base Label.payload then 1 else 0,
    sys := fun _ => 0#64, sysWrites := [] }

theorem entered_sampleEntry (base uefiBase uefiSize : Addr) :
    Entered base uefiBase uefiSize (sampleEntry base uefiBase uefiSize) :=
  ⟨rfl, holdsWords_writeWords _ _ (image_length _ _)⟩

/-- Its payload. -/
theorem sampleEntry_payload (base uefiBase uefiSize : Addr) {i : Nat} (hi : i < 2 ^ 64 - 112) :
    (sampleEntry base uefiBase uefiSize).mem (pcOf base Label.payload + BitVec.ofNat 64 i)
      = if i = 0 then 1 else 0 := by
  have hout : 4 * (image uefiBase uefiSize).length
      ≤ (pcOf base Label.payload + BitVec.ofNat 64 i - base).toNat := by
    show 4 * 28 ≤ _
    unfold pcOf Label.payload
    bv_omega
  have hfirst : pcOf base Label.payload + BitVec.ofNat 64 i = pcOf base Label.payload ↔ i = 0 := by
    bv_omega
  rw [show (sampleEntry base uefiBase uefiSize).mem = writeWords _ base _ from rfl,
    writeWords_of_outside _ _ _ hout]
  simp only [hfirst]

/-- Loaded well below `0x9FC00000`, an image of three megabytes arrives. -/
theorem handsOver_iff_below : HandsOver 0x9F000000#64 0x9FC00000#64 0x300000#64
    (sampleEntry 0x9F000000#64 0x9FC00000#64 0x300000#64) := by
  have h := entered_sampleEntry 0x9F000000#64 0x9FC00000#64 0x300000#64
  apply (handsOver_iff h (by decide) (by decide)).mpr
  refine .inr ⟨lateBytesAgree_of_not_ahead (by decide), kept_of_apart (by decide), ?_⟩
  exact ⟨kept_of_apart (by decide), kept_of_apart (by decide), kept_of_apart (by decide)⟩

/-- Loaded at `0x9FA00000`, the sm8350 image, which goes to `0x9FC41000`, starts inside
    its own payload: the first byte comes round again at offset `0x240F90`. -/
theorem handsOver_not_always : ¬ ∀ (base uefiBase uefiSize : Addr) (s : State),
    Entered base uefiBase uefiSize s → 0 < uefiSize.toNat → 16 ∣ uefiSize.toNat →
    HandsOver base uefiBase uefiSize s := by
  intro hall
  have h := entered_sampleEntry 0x9FA00000#64 0x9FC41000#64 0x2BF000#64
  have hover := hall _ _ _ _ h (by decide) (by decide)
  have hcopy := ((h.handsOver_iff_copied (by decide) (by decide) (by decide)).mp hover).2.2.2
  have hlen : 16 * ((0x2BF000#64).toNat / 16) = (0x2BF000#64).toNat := by decide
  have hagree := (copyUp_faithful_iff _ _ _ (w := 16) (by rw [hlen]; decide)).mp
    (by rw [hlen]; exact hcopy) 0x240F90 (by rw [hlen]; decide) (by decide)
  -- the payload has a one at its first byte and a zero at this one
  rw [sampleEntry_payload _ _ _ (by decide), sampleEntry_payload _ _ _ (by decide)] at hagree
  exact absurd hagree (by decide)

end BootShim
