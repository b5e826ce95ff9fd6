/-
  MsmnilePkg.Lib.WordScan

  Scans over the aligned words of a memory range.

  `forWords base limit stop body s` is the C loop
  `for (current = base; current < limit; current += 4) { body; if (stop) break; }`
  over 64-bit addresses.  A range that does not wrap is scanned word by word
  (`scanUntil`), and a scan that replaces each word by a function of that word
  is a map over the words of the range (`scan_patch_word`, `scan_patch_other`),
  although it writes into the memory it is reading.
-/

import MsmnilePkg.Lib.Loop
import MsmnilePkg.Lib.ByteMem

namespace WordScan

open ByteMem

variable {σ : Type*}

/-- `n` turns of the scan from cursor `c`, left early once `stop` holds. -/
def scanUntil (stop : σ → Bool) (body : σ → Addr → σ) : Nat → Addr → σ → σ
  | 0, _, s => s
  | n + 1, c, s => if stop s then s else scanUntil stop body n (c + 4#64) (body s c)

theorem scanUntil_stopped {stop : σ → Bool} {body : σ → Addr → σ} {n : Nat} {c : Addr} {s : σ}
    (h : stop s = true) : scanUntil stop body n c s = s := by
  cases n with
  | zero => rfl
  | succ n => rw [scanUntil, if_pos h]

/-- The number of turns after which a cursor that advances by four is back
    where it started: a scan that is not over by then never ends. -/
def maxTurns : Nat := 2 ^ 62 + 1

/-- The scanning loop of the source; `none` when it does not terminate. -/
def forWords (base limit : Addr) (stop : σ → Bool) (body : σ → Addr → σ) (s : σ) : Option σ :=
  (Loop.whileFuel (fun p => decide (p.1 < limit) && !stop p.2)
    (fun p => (p.1 + 4#64, body p.2 p.1)) maxTurns (base, s)).map Prod.snd

theorem whileFuel_scan (limit : Addr) (stop : σ → Bool) (body : σ → Addr → σ) :
    ∀ (n fuel : Nat) (c : Addr) (s : σ), c.toNat + 4 * n = limit.toNat → n < fuel →
      (Loop.whileFuel (fun p => decide (p.1 < limit) && !stop p.2)
        (fun p => (p.1 + 4#64, body p.2 p.1)) fuel (c, s)).map Prod.snd
        = some (scanUntil stop body n c s) := by
  intro n
  induction n with
  | zero =>
      intro fuel c s hc hfuel
      obtain ⟨fuel, rfl⟩ : ∃ k, fuel = k + 1 := ⟨fuel - 1, by omega⟩
      have hlt : ¬ c < limit := by rw [BitVec.lt_def]; omega
      rw [Loop.whileFuel_of_not (by simp [hlt])]
      rfl
  | succ n ih =>
      intro fuel c s hc hfuel
      obtain ⟨fuel, rfl⟩ : ∃ k, fuel = k + 1 := ⟨fuel - 1, by omega⟩
      have hlt : c < limit := by rw [BitVec.lt_def]; omega
      -- Stopped already: neither the loop nor the scan goes on.
      by_cases hs : stop s = true
      · rw [Loop.whileFuel_of_not (by simp [hs])]
        simp [scanUntil, hs]
      · rw [Loop.whileFuel_of_cond (by simp [hlt, hs])]
        have hnext : (c + 4#64).toNat + 4 * n = limit.toNat := by
          have := limit.isLt
          bv_omega
        rw [ih fuel (c + 4#64) (body s c) hnext (by omega)]
        simp [scanUntil, hs]

/-- A scan over a range of whole words that does not wrap terminates after one
    turn a word. -/
theorem forWords_eq {base limit : Addr} {n : Nat} (hn : base.toNat + 4 * n = limit.toNat)
    (stop : σ → Bool) (body : σ → Addr → σ) (s : σ) :
    forWords base limit stop body s = some (scanUntil stop body n base s) :=
  whileFuel_scan limit stop body n maxTurns base s hn
    (by have := limit.isLt; unfold maxTurns; omega)

/-- A limit that wraps below the base ends the scan before its first turn. -/
theorem forWords_wrapped {base limit : Addr} (h : limit.toNat ≤ base.toNat) (stop : σ → Bool)
    (body : σ → Addr → σ) (s : σ) : forWords base limit stop body s = some s := by
  have hlt : ¬ base < limit := by rw [BitVec.lt_def]; omega
  have hturns : maxTurns = 2 ^ 62 + 1 := rfl
  rw [forWords, hturns, Loop.whileFuel_of_not (by simp [hlt])]
  rfl

/-! ## Scans that rewrite each word on its own -/

/-- Never leave the scan early. -/
def never : σ → Bool := fun _ => false

@[simp] theorem scanUntil_never_zero (body : σ → Addr → σ) (c : Addr) (s : σ) :
    scanUntil never body 0 c s = s := rfl

@[simp] theorem scanUntil_never_succ (body : σ → Addr → σ) (n : Nat) (c : Addr) (s : σ) :
    scanUntil never body (n + 1) c s = scanUntil never body n (c + 4#64) (body s c) := rfl

/-- Replace the word at the cursor by `g` of it. -/
def patchWord (g : BitVec 32 → BitVec 32) (m : Mem) (c : Addr) : Mem :=
  write32 m c (g (read32 m c))

/-- The address of word `k` of a range. -/
def wordAddr (base : Addr) (k : Nat) : Addr := base + BitVec.ofNat 64 (4 * k)

@[simp] theorem wordAddr_zero (base : Addr) : wordAddr base 0 = base := by
  simp [wordAddr]

theorem wordAddr_succ (base : Addr) (k : Nat) :
    wordAddr base (k + 1) = wordAddr (base + 4#64) k := by
  unfold wordAddr
  bv_omega

/-! ## Scans for one word -/

/-- A scan that finds nothing leaves its state alone. -/
theorem scanUntil_none {stop : σ → Bool} {body : σ → Addr → σ} {s : σ} :
    ∀ {n : Nat} {c : Addr}, (∀ k < n, body s (wordAddr c k) = s) →
      scanUntil stop body n c s = s := by
  intro n
  induction n with
  | zero => intro c _; rfl
  | succ n ih =>
      intro c hbody
      rw [scanUntil]
      by_cases hstop : stop s = true
      · rw [if_pos hstop]
      · have hfirst := hbody 0 (Nat.succ_pos n)
        rw [wordAddr_zero] at hfirst
        rw [if_neg hstop, hfirst]
        refine ih fun k hk => ?_
        rw [← wordAddr_succ]
        exact hbody (k + 1) (by omega)

/-- A scan that stops at the first word it acts on does what it does at that word. -/
theorem scanUntil_first {stop : σ → Bool} {body : σ → Addr → σ} {s : σ} (hs : stop s = false) :
    ∀ {n k : Nat} {c : Addr}, k < n → (∀ j < k, body s (wordAddr c j) = s) →
      stop (body s (wordAddr c k)) = true →
      scanUntil stop body n c s = body s (wordAddr c k) := by
  intro n
  induction n with
  | zero => intro k c hk; exact absurd hk (Nat.not_lt_zero k)
  | succ n ih =>
      intro k c hk hbody hstop
      rw [scanUntil, if_neg (by rw [hs]; exact Bool.false_ne_true)]
      cases k with
      | zero =>
          rw [wordAddr_zero] at hstop ⊢
          exact scanUntil_stopped hstop
      | succ k =>
          -- Word 0 does nothing, so the rest is scanned from the same state.
          have hfirst := hbody 0 (Nat.succ_pos k)
          rw [wordAddr_zero] at hfirst
          rw [wordAddr_succ] at hstop ⊢
          rw [hfirst]
          refine ih (by omega) (fun j hj => ?_) hstop
          rw [← wordAddr_succ]
          exact hbody (j + 1) (by omega)

/-- `k` is the first index with `P`. -/
def First (P : Nat → Prop) (k : Nat) : Prop := P k ∧ ∀ j < k, ¬ P j

theorem First.le {P : Nat → Prop} {j k : Nat} (hj : First P j) (hk : P k) : j ≤ k := by
  by_contra hlt
  exact hj.2 k (Nat.lt_of_not_le hlt) hk

theorem First.unique {P : Nat → Prop} {j k : Nat} (hj : First P j) (hk : First P k) : j = k :=
  Nat.le_antisymm (hj.le hk.1) (hk.le hj.1)

theorem exists_first {P : Nat → Prop} {k : Nat} (h : P k) : ∃ j, First P j := by
  induction k using Nat.strongRecOn with
  | ind k ih =>
      by_cases hearlier : ∃ j < k, P j
      · obtain ⟨j, hlt, hj⟩ := hearlier
        exact ih j hlt hj
      · exact ⟨k, h, fun j hlt hj => hearlier ⟨j, hlt, hj⟩⟩

/-- The cursor of a scan never returns to a word it has passed. -/
theorem apart_wordAddr {c : Addr} {k n : Nat} (hn : 4 * (n + 1) ≤ 2 ^ 64) (hk : k < n) :
    Apart c 4 (wordAddr (c + 4#64) k) 4 := by
  unfold Apart wordAddr
  constructor <;> bv_omega

/-- Bytes outside the scanned range keep their value. -/
theorem scan_patch_other (g : BitVec 32 → BitVec 32) {b : Addr} :
    ∀ (n : Nat) (c : Addr) (m : Mem), 4 * n ≤ (b - c).toNat →
      scanUntil never (patchWord g) n c m b = m b := by
  intro n
  induction n with
  | zero => intro c m _; rfl
  | succ n ih =>
      intro c m hb
      have hnext : 4 * n ≤ (b - (c + 4#64)).toNat := by
        have := (b - c).isLt
        bv_omega
      rw [scanUntil_never_succ, ih _ _ hnext, patchWord, write32_of_outside (by omega)]

/-- Each word of the range becomes `g` of the word it was before the scan. -/
theorem scan_patch_word (g : BitVec 32 → BitVec 32) :
    ∀ (n : Nat) (c : Addr) (m : Mem), 4 * n ≤ 2 ^ 64 → ∀ k < n,
      read32 (scanUntil never (patchWord g) n c m) (wordAddr c k)
        = g (read32 m (wordAddr c k)) := by
  intro n
  induction n with
  | zero => intro c m _ k hk; omega
  | succ n ih =>
      intro c m hn k hk
      rw [scanUntil_never_succ]
      cases k with
      | zero =>
          -- The word at the cursor is written once, by the first turn.
          have hkeep : ∀ i < 4, scanUntil never (patchWord g) n (c + 4#64) (patchWord g m c)
              (c + BitVec.ofNat 64 i) = patchWord g m c (c + BitVec.ofNat 64 i) := by
            intro i hi
            apply scan_patch_other
            bv_omega
          rw [wordAddr_zero, read32_congr hkeep, patchWord, read32_write32_self]
      | succ k =>
          have hk' : k < n := by omega
          rw [wordAddr_succ, ih _ _ (by omega) k hk', patchWord,
            read32_write32_of_apart (apart_wordAddr hn hk')]

/-- Two memories that agree on the words of a range and outside of it are equal. -/
theorem mem_ext_words {m m' : Mem} {c : Addr} {n : Nat}
    (hwords : ∀ k < n, read32 m (wordAddr c k) = read32 m' (wordAddr c k))
    (hother : ∀ b, 4 * n ≤ (b - c).toNat → m b = m' b) : m = m' := by
  funext b
  by_cases hb : 4 * n ≤ (b - c).toNat
  · exact hother b hb
  · have hk : (b - c).toNat / 4 < n := by omega
    have hi : (b - c).toNat % 4 < 4 := Nat.mod_lt _ (by omega)
    have haddr : wordAddr c ((b - c).toNat / 4) + BitVec.ofNat 64 ((b - c).toNat % 4) = b := by
      unfold wordAddr
      have hsplit := Nat.div_add_mod (b - c).toNat 4
      rw [BitVec.add_assoc, ← BitVec.ofNat_add, hsplit]
      bv_omega
    have hbyte := congrArg (fun w => byteOf32 w ((b - c).toNat % 4)) (hwords _ hk)
    rwa [byteOf32_read32 m _ hi, byteOf32_read32 m' _ hi, haddr] at hbyte

/-- Two word patches of one range leave the same memory exactly when they agree
    on every word that is in it. -/
theorem scan_patch_eq_iff (g g' : BitVec 32 → BitVec 32) {n : Nat} (c : Addr) (m : Mem)
    (hn : 4 * n ≤ 2 ^ 64) :
    scanUntil never (patchWord g) n c m = scanUntil never (patchWord g') n c m ↔
      ∀ k < n, g (read32 m (wordAddr c k)) = g' (read32 m (wordAddr c k)) := by
  constructor
  · intro h k hk
    rw [← scan_patch_word g n c m hn k hk, h, scan_patch_word g' n c m hn k hk]
  · intro h
    refine mem_ext_words (c := c) (n := n) (fun k hk => ?_) (fun b hb => ?_)
    · rw [scan_patch_word g n c m hn k hk, scan_patch_word g' n c m hn k hk, h k hk]
    · rw [scan_patch_other g n c m hb, scan_patch_other g' n c m hb]

/-! ## Runs of consecutive words -/

/-- Stores of consecutive words. -/
def writeWords : List (BitVec 32) → Addr → Mem → Mem
  | [], _, m => m
  | w :: ws, a, m => writeWords ws (a + 4#64) (write32 m a w)

theorem writeWords_append (ws ws' : List (BitVec 32)) (a : Addr) (m : Mem) :
    writeWords (ws ++ ws') a m = writeWords ws' (wordAddr a ws.length) (writeWords ws a m) := by
  induction ws generalizing a m with
  | nil => rw [List.nil_append, List.length_nil, wordAddr_zero]; rfl
  | cons w ws ih =>
      rw [List.cons_append, writeWords, ih, List.length_cons, wordAddr_succ]
      rfl

/-- A byte behind the last or before the first word keeps its value. -/
theorem writeWords_of_outside {b : Addr} : ∀ (ws : List (BitVec 32)) (a : Addr) (m : Mem),
    4 * ws.length ≤ (b - a).toNat → writeWords ws a m b = m b := by
  intro ws
  induction ws with
  | nil => intro a m _; rfl
  | cons w ws ih =>
      intro a m hb
      rw [List.length_cons] at hb
      have hnext : 4 * ws.length ≤ (b - (a + 4#64)).toNat := by
        have := (b - a).isLt
        bv_omega
      rw [writeWords, ih _ _ hnext, write32_of_outside (by omega)]

theorem read32_writeWords_of_apart {ws : List (BitVec 32)} {a b : Addr} {m : Mem}
    (h : Apart a (4 * ws.length) b 4) : read32 (writeWords ws a m) b = read32 m b :=
  read32_congr fun _ hi => writeWords_of_outside ws a m (h.outside hi)

theorem read32_writeWords : ∀ (ws : List (BitVec 32)) (a : Addr) (m : Mem) (k : Nat)
    (hk : k < ws.length), 4 * ws.length ≤ 2 ^ 64 →
      read32 (writeWords ws a m) (wordAddr a k) = ws[k] := by
  intro ws
  induction ws with
  | nil => intro a m k hk; exact absurd hk (Nat.not_lt_zero k)
  | cons w ws ih =>
      intro a m k hk hlen
      rw [List.length_cons] at hk hlen
      cases k with
      | zero =>
          have hkeep : ∀ i < 4, writeWords ws (a + 4#64) (write32 m a w) (a + BitVec.ofNat 64 i)
              = write32 m a w (a + BitVec.ofNat 64 i) := by
            intro i hi
            apply writeWords_of_outside
            bv_omega
          rw [wordAddr_zero, writeWords, read32_congr hkeep, read32_write32_self]
          rfl
      | succ k =>
          rw [wordAddr_succ, writeWords, ih _ _ k (by omega) (by omega)]
          rfl

/-- The words lie in memory from `a` on. -/
def HoldsWords (m : Mem) (a : Addr) (ws : List (BitVec 32)) : Prop :=
  ∀ k w, ws[k]? = some w → read32 m (wordAddr a k) = w

theorem holdsWords_writeWords {ws : List (BitVec 32)} (a : Addr) (m : Mem)
    (hlen : 4 * ws.length ≤ 2 ^ 64) : HoldsWords (writeWords ws a m) a ws := by
  intro k w hk
  obtain ⟨hlt, rfl⟩ := List.getElem?_eq_some_iff.mp hk
  exact read32_writeWords ws a m k hlt hlen

/-- An aligned word among the words of a run is one of them. -/
theorem HoldsWords.get {m : Mem} {a b : Addr} {ws : List (BitVec 32)} (h : HoldsWords m a ws)
    (halign : (b - a).toNat % 4 = 0) (hin : (b - a).toNat < 4 * ws.length) :
    ∃ w ∈ ws, read32 m b = w := by
  have hk : (b - a).toNat / 4 < ws.length := by omega
  have haddr : wordAddr a ((b - a).toNat / 4) = b := by
    unfold wordAddr
    rw [show 4 * ((b - a).toNat / 4) = (b - a).toNat by omega]
    bv_omega
  refine ⟨ws[(b - a).toNat / 4], List.getElem_mem hk, ?_⟩
  have hword := h _ _ (List.getElem?_eq_getElem hk)
  rwa [haddr] at hword

end WordScan
