/-
  MsmnilePkg.Avb.MontMul

  The products of avb_rsa.c: what each loop over the words computes.

  The two running sums of `montMulAdd` together are the sum of what comes in, and the lowest
  word of the second one is zero at the start.
-/

import MsmnilePkg.Avb.Rsa
import MsmnilePkg.Lib.Montgomery
import Mathlib.Tactic.LinearCombination
import Mathlib.Tactic.Zify

namespace Avb

open ByteMem LittleEndian Loop Limbs Montgomery

/-- The modulus. -/
def Key.modulus (key : Key) : Nat := num key.n key.len

def Key.R (key : Key) : Nat := 2 ^ (32 * key.len)

section Words

variable {key : Key} {a b c : Words 32}

/-! ## Comparing and subtracting -/

theorem geMLoop_eq : ∀ {i : Nat}, i ≤ key.len → (∀ j, i ≤ j → j < key.len → a j = key.n j) →
    (geMLoop key a i = true ↔ key.modulus ≤ num a key.len) := by
  intro i
  induction i with
  | zero =>
      intro _ habove
      refine iff_of_true rfl (Nat.le_of_eq ?_)
      exact num_congr fun j hj => (habove j (Nat.zero_le j) hj).symm
  | succ i ih =>
      intro hi habove
      have hrest : ∀ j, i < j → j < key.len → a j = key.n j := fun j hj => habove j hj
      rw [geMLoop]
      split
      · rename_i hlt
        refine iff_of_false Bool.false_ne_true (Nat.not_le_of_lt ?_)
        exact num_lt_num hi hrest hlt
      · rename_i hge
        split
        · rename_i hgt
          refine iff_of_true rfl (Nat.le_of_lt ?_)
          exact num_lt_num hi (fun j hj hlen => (hrest j hj hlen).symm) hgt
        · rename_i hle
          refine ih (Nat.le_of_succ_le hi) fun j hj hlen => ?_
          rcases Nat.lt_or_eq_of_le hj with hj | rfl
          · exact hrest j hj hlen
          · exact BitVec.eq_of_toNat_eq (Nat.le_antisymm (Nat.le_of_not_lt hle)
              (Nat.le_of_not_lt hge))

theorem geM_iff : geM key a = true ↔ key.modulus ≤ num a key.len :=
  geMLoop_eq (Nat.le_refl _) fun _ h hlt => absurd hlt (Nat.not_lt_of_le h)

/-- The words that are done, and the borrow. -/
structure Subtracted (key : Key) (a : Words 32) (k : Nat) (s : Int × Words 32) : Prop where
  borrow : s.1 = 0 ∨ s.1 = -1
  rest : ∀ j, k ≤ j → s.2 j = a j
  sum : (num s.2 k : Int) + s.1 * 2 ^ (32 * k) = num a k - num key.n k

theorem subMTurn_spec {k : Nat} {s : Int × Words 32} (h : Subtracted key a k s) :
    Subtracted key a (k + 1) (subMTurn key k s) := by
  obtain ⟨hborrow, hrest, hsum⟩ := h
  have ha := (s.2 k).isLt
  have hn := (key.n k).isLt
  have hword : ((BitVec.ofInt 32 (s.1 + (s.2 k).toNat - (key.n k).toNat)).toNat : Int)
      = (s.1 + (s.2 k).toNat - (key.n k).toNat) % 2 ^ 32 := by
    rw [BitVec.toNat_ofInt]
    omega
  refine ⟨?_, fun j hj => ?_, ?_⟩
  · rw [subMTurn]
    rcases hborrow with h | h <;> rw [h] <;> omega
  · exact (Function.update_of_ne (Nat.ne_of_gt hj) ..).trans (hrest j (Nat.le_of_succ_le hj))
  · have hsplit := Int.emod_add_mul_ediv (s.1 + (s.2 k).toNat - (key.n k).toNat) (2 ^ 32)
    rw [subMTurn, num_update_succ, num_succ, num_succ, ← hrest k (Nat.le_refl k)]
    simp only [Nat.cast_add, Nat.cast_mul, Nat.cast_pow, Nat.cast_ofNat]
    rw [hword]
    have hpow : (2 : Int) ^ (32 * (k + 1)) = 2 ^ 32 * 2 ^ (32 * k) := by
      rw [Nat.mul_succ, Int.pow_add, Int.mul_comm]
    rw [hpow]
    linear_combination hsum + 2 ^ (32 * k) * hsplit

/-- `subM` subtracts modulo `R`. -/
theorem subM_spec (key : Key) (a : Words 32) : ∃ borrow : Int, (borrow = 0 ∨ borrow = -1) ∧
    (num (subM key a) key.len : Int) + borrow * key.R = num a key.len - key.modulus := by
  have hstart : Subtracted key a 0 (0, a) := ⟨.inl rfl, fun _ _ => rfl, by simp⟩
  have h : Subtracted key a key.len (forTurns (subMTurn key) key.len (0, a)) :=
    forTurns_invariant hstart fun k _ s => subMTurn_spec
  refine ⟨_, h.borrow, ?_⟩
  rw [Key.R, Nat.cast_pow]
  exact h.sum

/-! ## One word of a product -/

/-- The header is that of the modulus. -/
structure Key.Sound (key : Key) : Prop where
  pos : 0 < key.len
  inv : 2 ^ 32 ∣ (key.n 0).toNat * key.n0inv.toNat + 1

theorem Key.Sound.modulus_mod (h : key.Sound) : key.modulus % 2 ^ 32 = (key.n 0).toNat :=
  num_mod key.n h.pos

/-- The modulus is odd. -/
theorem Key.Sound.coprime (h : key.Sound) : Nat.Coprime key.R key.modulus := by
  have hcop := coprime_of_inv h.inv
  rw [← h.modulus_mod, Nat.Coprime, Nat.gcd_comm, ← Nat.gcd_rec] at hcop
  rw [Key.R, Nat.pow_mul]
  exact Nat.Coprime.pow_left key.len hcop

theorem Key.Sound.modulus_pos (h : key.Sound) : 0 < key.modulus := by
  refine Nat.pos_of_ne_zero fun hzero => ?_
  have hn := h.modulus_mod
  rw [hzero, Nat.zero_mod] at hn
  have hinv := h.inv
  rw [← hn, Nat.zero_mul, Nat.zero_add] at hinv
  exact absurd (Nat.dvd_one.mp hinv) (by decide)

/-- The words that are done, with what the two sums still carry. -/
structure Added (key : Key) (c : Words 32) (a d0 : BitVec 32) (b : Words 32) (k : Nat)
    (s : Sums) : Prop where
  small : s.A < 2 ^ 64 ∧ s.B < 2 ^ 64
  rest : ∀ j, k ≤ j → s.c j = c j
  sum : num c (k + 1) + a.toNat * num b (k + 1) + d0.toNat * num key.n (k + 1)
    = 2 ^ 32 * (num s.c k + (s.A / 2 ^ 32 + s.B / 2 ^ 32) * 2 ^ (32 * k))

/-- A product of words, and two words, fit into 64 bits. -/
theorem mul_add_lt (x y : BitVec 32) {u v : Nat} (hu : u < 2 ^ 32) (hv : v < 2 ^ 32) :
    u + x.toNat * y.toNat + v < 2 ^ 64 := by
  have hmul : x.toNat * y.toNat ≤ (2 ^ 32 - 1) * (2 ^ 32 - 1) :=
    Nat.mul_le_mul (Nat.le_sub_one_of_lt x.isLt) (Nat.le_sub_one_of_lt y.isLt)
  omega

theorem montMulAddTurn_spec {d0 : BitVec 32} {a : BitVec 32} {k : Nat} {s : Sums}
    (h : Added key c a d0 b k s) : Added key c a d0 b (k + 1) (montMulAddTurn key a d0 b k s) := by
  obtain ⟨⟨hA, hB⟩, hrest, hsum⟩ := h
  have hc := hrest (k + 1) (Nat.le_succ k)
  have hAhigh : s.A / 2 ^ 32 < 2 ^ 32 := by omega
  have hBhigh : s.B / 2 ^ 32 < 2 ^ 32 := by omega
  -- The sums of this turn, without wrapping.
  have hA' := mul_add_lt a (b (k + 1)) hAhigh (s.c (k + 1)).isLt
  generalize hAeq : s.A / 2 ^ 32 + a.toNat * (b (k + 1)).toNat + (s.c (k + 1)).toNat = A at hA'
  have hB' := mul_add_lt d0 (key.n (k + 1)) hBhigh (Nat.mod_lt A (by decide : 0 < 2 ^ 32))
  generalize hBeq : s.B / 2 ^ 32 + d0.toNat * (key.n (k + 1)).toNat + A % 2 ^ 32 = B at hB'
  have hturn : montMulAddTurn key a d0 b k s
      = ⟨A, B, Function.update s.c k (BitVec.ofNat 32 B)⟩ := by
    rw [montMulAddTurn, hAeq, Nat.mod_eq_of_lt hA', hBeq, Nat.mod_eq_of_lt hB']
  rw [hturn]
  refine ⟨⟨hA', hB'⟩, fun j hj => ?_, ?_⟩
  · exact (Function.update_of_ne (Nat.ne_of_gt hj) ..).trans (hrest j (Nat.le_of_succ_le hj))
  · have hAsplit := Nat.mod_add_div A (2 ^ 32)
    have hBsplit := Nat.mod_add_div B (2 ^ 32)
    rw [num_update_succ, BitVec.toNat_ofNat, num_succ c, num_succ b, num_succ key.n, ← hc,
      pow_succ_limb]
    generalize 2 ^ (32 * k) = P at hsum ⊢
    simp only
    zify at hAeq hBeq hAsplit hBsplit hsum ⊢
    linear_combination hsum + 2 ^ 32 * P * (hAeq + hBeq - hAsplit - hBsplit)

/-- The start: the lowest word of the second sum is zero. -/
theorem added_start (hkey : key.Sound) (a : BitVec 32) (b c : Words 32) :
    Added key c a (BitVec.ofNat 32 ((a.toNat * (b 0).toNat + (c 0).toNat) % 2 ^ 64) * key.n0inv) b 0
      ⟨(a.toNat * (b 0).toNat + (c 0).toNat) % 2 ^ 64,
        ((BitVec.ofNat 32 ((a.toNat * (b 0).toNat + (c 0).toNat) % 2 ^ 64) * key.n0inv).toNat *
          (key.n 0).toNat + (a.toNat * (b 0).toNat + (c 0).toNat) % 2 ^ 64 % 2 ^ 32) % 2 ^ 64,
        c⟩ := by
  have hA := mul_add_lt a (b 0) (by decide : 0 < 2 ^ 32) (c 0).isLt
  rw [Nat.zero_add] at hA
  generalize hAeq : a.toNat * (b 0).toNat + (c 0).toNat = A at hA
  rw [Nat.mod_eq_of_lt hA]
  generalize hd0 : BitVec.ofNat 32 A * key.n0inv = d0
  have hB := mul_add_lt d0 (key.n 0) (by decide : 0 < 2 ^ 32)
    (Nat.mod_lt A (by decide : 0 < 2 ^ 32))
  rw [Nat.zero_add] at hB
  rw [Nat.mod_eq_of_lt hB]
  refine ⟨⟨hA, hB⟩, fun _ _ => rfl, ?_⟩
  have hlow : 2 ^ 32 ∣ d0.toNat * (key.n 0).toNat + A % 2 ^ 32 := by
    have hdvd := dvd_add_mul hkey.inv (A % 2 ^ 32)
    rwa [show A % 2 ^ 32 * key.n0inv.toNat % 2 ^ 32 = d0.toNat from by
      rw [← hd0, BitVec.toNat_mul, BitVec.toNat_ofNat], Nat.add_comm] at hdvd
  have hBsplit := Nat.mul_div_cancel' hlow
  have hAsplit := Nat.mod_add_div A (2 ^ 32)
  simp only [num_succ, num_zero, Nat.mul_zero, Nat.pow_zero, Nat.mul_one, Nat.zero_add]
  omega

/-- What the last sum carries is less than the modulus, so that one subtraction is enough. -/
theorem carry_lt {R x y z n a d0 : Nat} (hx : x < R) (hy : y < R) (ha : a < 2 ^ 32)
    (hd0 : d0 < 2 ^ 32) (hn : 0 < n) (hT : x + a * y + d0 * n = 2 ^ 32 * (z + R)) : z < n := by
  have hay : a * y ≤ (2 ^ 32 - 1) * (R - 1) :=
    Nat.mul_le_mul (Nat.le_sub_one_of_lt ha) (Nat.le_sub_one_of_lt hy)
  have hdn : d0 * n ≤ (2 ^ 32 - 1) * n := Nat.mul_le_mul_right n (Nat.le_sub_one_of_lt hd0)
  omega

/-- `montMulAdd` is one limb of a product. -/
theorem montMulAdd_spec (hkey : key.Sound) (c : Words 32) (a : BitVec 32) (b : Words 32) :
    2 ^ 32 * num (montMulAdd key c a b) key.len
      ≡ num c key.len + a.toNat * num b key.len [MOD key.modulus] := by
  rw [montMulAdd]
  have hstart := added_start hkey a b c
  generalize (a.toNat * (b 0).toNat + (c 0).toNat) % 2 ^ 64 = A₀ at hstart ⊢
  generalize hd0 : BitVec.ofNat 32 A₀ * key.n0inv = d0 at hstart ⊢
  have hloop : Added key c a d0 b (key.len - 1)
      (forTurns (montMulAddTurn key a d0 b) (key.len - 1) _) :=
    forTurns_invariant hstart fun k _ s => montMulAddTurn_spec
  generalize forTurns (montMulAddTurn key a d0 b) (key.len - 1) _ = s at hloop ⊢
  obtain ⟨⟨hA, hB⟩, -, hsum⟩ := hloop
  obtain ⟨l, hl⟩ : ∃ l, key.len = l + 1 := ⟨key.len - 1, by have := hkey.pos; omega⟩
  rw [hl, Nat.add_sub_cancel] at hsum ⊢
  have hR : key.R = 2 ^ 32 * 2 ^ (32 * l) := by rw [Key.R, hl, pow_succ_limb]
  have hN : key.modulus = num key.n (l + 1) := by rw [Key.modulus, hl]
  -- What is carried out of the last word.
  generalize hlast : s.A / 2 ^ 32 + s.B / 2 ^ 32 = A at hsum ⊢
  have hcarry : A / 2 ^ 32 ≤ 1 := by omega
  have hsplit := Nat.mod_add_div A (2 ^ 32)
  generalize hc₁ : Function.update s.c l (BitVec.ofNat 32 A) = c₁
  have hnum : num c₁ (l + 1) = num s.c l + A % 2 ^ 32 * 2 ^ (32 * l) := by
    rw [← hc₁, num_update_succ, BitVec.toNat_ofNat]
  have htotal : num c (l + 1) + a.toNat * num b (l + 1) + d0.toNat * num key.n (l + 1)
      = 2 ^ 32 * (num c₁ (l + 1) + A / 2 ^ 32 * key.R) := by
    rw [hsum, hnum, hR]
    generalize 2 ^ (32 * l) = P
    zify at hsplit ⊢
    linear_combination -(2 ^ 32 * P) * hsplit
  rw [← hN] at htotal
  have hmod : num c (l + 1) + a.toNat * num b (l + 1) + d0.toNat * key.modulus
      ≡ num c (l + 1) + a.toNat * num b (l + 1) [MOD key.modulus] :=
    Nat.add_mul_modulus_modEq_iff.mpr rfl
  split
  · -- The sum is not less than `R`, and the modulus is subtracted.
    rename_i hone
    rw [show A / 2 ^ 32 = 1 by omega, Nat.one_mul] at htotal
    have hbound : num c₁ (l + 1) < key.modulus :=
      carry_lt (by rw [Key.R, hl]; exact num_lt c _) (by rw [Key.R, hl]; exact num_lt b _) a.isLt
        d0.isLt hkey.modulus_pos htotal
    obtain ⟨borrow, hborrow, hsub⟩ := subM_spec key c₁
    rw [hl] at hsub
    have hminus : borrow = -1 := by
      rcases hborrow with h | h
      · rw [h] at hsub
        omega
      · exact h
    rw [hminus] at hsub
    have hresult : num (subM key c₁) (l + 1) + key.modulus = num c₁ (l + 1) + key.R := by omega
    refine Nat.ModEq.trans ?_ hmod
    rw [htotal, ← hresult, Nat.mul_add]
    exact (Nat.add_mul_modulus_modEq_iff.mpr rfl).symm
  · rename_i hzero
    rw [show A / 2 ^ 32 = 0 by omega, Nat.zero_mul, Nat.add_zero (num c₁ (l + 1))] at htotal
    rw [← htotal]
    exact hmod

/-! ## Products and powers -/

theorem montMul_spec (hkey : key.Sound) (a b : Words 32) :
    IsProduct key.R key.modulus (num a key.len) (num b key.len)
      (num (montMul key a b) key.len) := by
  refine forTurns_invariant
    (I := fun k c => IsProduct (2 ^ (32 * k)) key.modulus (num a k) (num b key.len)
      (num c key.len)) (n := key.len) ?_ fun k _ c hc => ?_
  · rw [IsProduct, num_const_zero, num_zero, Nat.mul_zero, Nat.zero_mul]
  · rw [pow_succ_limb, num_succ]
    exact isProduct_add hc (montMulAdd_spec hkey c (a k) b)

/-- The precomputed number is that of the modulus, the highest bit of which is set. -/
structure Key.Reduced (key : Key) : Prop extends key.Sound where
  rr : num key.rr key.len ≡ key.R ^ 2 [MOD key.modulus]
  top : key.R ≤ 2 * key.modulus

/-- The last subtraction. -/
theorem reduce_spec (hkey : key.Reduced) (a : Words 32) :
    num (if geM key a then subM key a else a) key.len = num a key.len % key.modulus := by
  have hlt : num a key.len < key.R := num_lt a key.len
  have htop := hkey.top
  cases hge : geM key a with
  | true =>
      have hle := geM_iff.mp hge
      obtain ⟨borrow, hborrow, hsub⟩ := subM_spec key a
      have hresult : num (subM key a) key.len + key.modulus = num a key.len := by
        rcases hborrow with h | h
        · rw [h] at hsub
          omega
        · have hsmall : num (subM key a) key.len < key.R := num_lt _ _
          rw [h] at hsub
          omega
      rw [if_pos rfl, ← hresult, Nat.add_mod_right]
      exact (Nat.mod_eq_of_lt (by omega)).symm
  | false =>
      have hlt : num a key.len < key.modulus := by
        refine Nat.lt_of_not_le fun hle => ?_
        exact Bool.false_ne_true (hge.symm.trans (geM_iff.mpr hle))
      rw [if_neg Bool.false_ne_true, Nat.mod_eq_of_lt hlt]

/-- Sixteen squares and a product: the exponent is 65537. -/
theorem modpow_spec (hkey : key.Reduced) (a : Words 32) :
    num (modpow key a) key.len = num a key.len ^ 65537 % key.modulus := by
  have hcop := hkey.toSound.coprime
  have hproduct := montMul_spec hkey.toSound
  have hstart : Stands key.R key.modulus (num a key.len ^ 4 ^ 0)
      (num (montMul key a key.rr) key.len) := by
    rw [Nat.pow_zero, Nat.pow_one]
    exact (hproduct a key.rr).stands hcop hkey.rr
  have hloop := forTurns_invariant (n := 8)
    (I := fun k aR => Stands key.R key.modulus (num a key.len ^ 4 ^ k) (num aR key.len))
    hstart fun k _ aR hk => by
      -- Two squares.
      have hsquare := hk.mul hcop hk (hproduct aR aR)
      have hfourth := hsquare.mul hcop hsquare (hproduct _ _)
      rwa [← Nat.pow_add, ← Nat.pow_add, show 4 ^ k + 4 ^ k + (4 ^ k + 4 ^ k) = 4 ^ (k + 1) by
        rw [Nat.pow_succ]; omega] at hfourth
  have hleave := hloop.leave hcop (hproduct _ a)
  rw [modpow]
  refine (reduce_spec hkey _).trans ?_
  rw [show (65537 : Nat) = 4 ^ 8 + 1 by decide, Nat.pow_succ]
  exact hleave

end Words

end Avb
