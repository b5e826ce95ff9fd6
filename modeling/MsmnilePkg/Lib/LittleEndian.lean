/-
  MsmnilePkg.Lib.LittleEndian

  Byte buffers: fields, little-endian values and 16-bit sums; bit fields of a word.

  A buffer is what a pointer points to.  A field is stored into it with
  `put`; the sum of its 16-bit words modulo `2 ^ 16` follows the fields that
  are stored at even places.
-/

import MsmnilePkg.Lib.ByteMem

namespace LittleEndian

open ByteMem

/-- The bytes behind a pointer. -/
abbrev Buffer := Nat → Byte

/-- Store the first `n` bytes of `src` from `offset` on. -/
def put (b : Buffer) (offset n : Nat) (src : Buffer) : Buffer := fun i =>
  if offset ≤ i ∧ i < offset + n then src (i - offset) else b i

theorem put_inside {b src : Buffer} {offset n i : Nat} (hi : i < n) :
    put b offset n src (offset + i) = src i := by
  rw [put, if_pos ⟨by omega, by omega⟩, Nat.add_sub_cancel_left]

theorem put_outside {b src : Buffer} {offset n i : Nat} (hi : i < offset ∨ offset + n ≤ i) :
    put b offset n src i = b i := by
  rw [put, if_neg (by omega)]

theorem put_zero (b : Buffer) (offset : Nat) (src : Buffer) : put b offset 0 src = b := by
  funext i
  exact put_outside (by omega)

/-- One more byte behind those that are stored. -/
theorem put_succ (b : Buffer) (offset n : Nat) (src : Buffer) :
    put (put b offset n src) (offset + n) 1 (fun _ => src n) = put b offset (n + 1) src := by
  funext i
  by_cases hlast : i = offset + n
  · subst hlast
    rw [put_inside (Nat.lt_succ_self n), put, if_pos ⟨by omega, by omega⟩]
  · rw [put_outside (by omega)]
    by_cases hin : offset ≤ i ∧ i < offset + n
    · rw [put, put, if_pos hin, if_pos ⟨by omega, by omega⟩]
    · rw [put_outside (by omega), put_outside (by omega)]

/-- Four single bytes are one store of four bytes. -/
theorem put_four (b : Buffer) (offset : Nat) (src : Buffer) :
    put (put (put (put b offset 1 fun _ => src 0) (offset + 1) 1 fun _ => src 1) (offset + 2) 1
      fun _ => src 2) (offset + 3) 1 (fun _ => src 3) = put b offset 4 src := by
  have hfirst : put b offset 1 (fun _ => src 0) = put b offset 1 src := by
    have hput := put_succ b offset 0 src
    rwa [put_zero] at hput
  have hsecond : put (put b offset 1 src) (offset + 1) 1 (fun _ => src 1)
      = put b offset 2 src := put_succ ..
  have hthird : put (put b offset 2 src) (offset + 2) 1 (fun _ => src 2)
      = put b offset 3 src := put_succ ..
  have hfourth : put (put b offset 3 src) (offset + 3) 1 (fun _ => src 3)
      = put b offset 4 src := put_succ ..
  rw [hfirst, hsecond, hthird, hfourth]

/-! ## Fields -/

/-- Fields that are stored one after the other: their offsets, their sizes and their bytes. -/
def putFields (b : Buffer) (fields : List (Nat × Nat × Buffer)) : Buffer :=
  fields.foldl (fun b field => put b field.1 field.2.1 field.2.2) b

/-- Fields of which none begins before another one has ended. -/
def FieldsApart (fields : List (Nat × Nat)) : Prop :=
  fields.Pairwise fun f g => f.1 + f.2 ≤ g.1 ∨ g.1 + g.2 ≤ f.1

theorem putFields_outside {fields : List (Nat × Nat × Buffer)} {b : Buffer} {i : Nat}
    (h : ∀ field ∈ fields, i < field.1 ∨ field.1 + field.2.1 ≤ i) : putFields b fields i = b i := by
  induction fields generalizing b with
  | nil => rfl
  | cons field fields ih =>
      obtain ⟨hfirst, hrest⟩ := List.forall_mem_cons.mp h
      rw [putFields, List.foldl_cons, ← putFields, ih hrest, put_outside hfirst]

theorem putFields_inside {fields : List (Nat × Nat × Buffer)} {b : Buffer}
    (hapart : FieldsApart (fields.map fun field => (field.1, field.2.1)))
    {field : Nat × Nat × Buffer} (hmem : field ∈ fields) {i : Nat} (hi : i < field.2.1) :
    putFields b fields (field.1 + i) = field.2.2 i := by
  rw [FieldsApart, List.pairwise_map] at hapart
  induction fields generalizing b with
  | nil => exact absurd hmem List.not_mem_nil
  | cons first fields ih =>
      obtain ⟨hfirst, hrest⟩ := List.pairwise_cons.mp hapart
      rw [putFields, List.foldl_cons, ← putFields]
      rcases List.mem_cons.mp hmem with rfl | hmem
      · -- No later field reaches into this one.
        rw [putFields_outside fun later hlater => ?_, put_inside hi]
        have := hfirst later hlater
        omega
      · exact ih hrest hmem

/-! ## Slices -/

/-- The `n` bytes from `offset` on. -/
def slice (b : Buffer) (offset n : Nat) : List Byte :=
  (List.range n).map fun k => b (offset + k)

@[simp] theorem slice_length (b : Buffer) (offset n : Nat) : (slice b offset n).length = n := by
  rw [slice, List.length_map, List.length_range]

@[simp] theorem slice_zero (b : Buffer) (offset : Nat) : slice b offset 0 = [] := rfl

theorem slice_congr {b b' : Buffer} {offset n : Nat}
    (h : ∀ k < n, b (offset + k) = b' (offset + k)) : slice b offset n = slice b' offset n := by
  refine List.map_congr_left fun k hk => ?_
  exact h k (List.mem_range.mp hk)

theorem slice_add (b : Buffer) (offset n m : Nat) :
    slice b offset (n + m) = slice b offset n ++ slice b (offset + n) m := by
  rw [slice, List.range_add, List.map_append, List.map_map]
  refine congrArg _ (List.map_congr_left fun k _ => ?_)
  rw [Function.comp_apply, Nat.add_assoc]

/-- What was stored is what the slice holds. -/
theorem slice_put (b : Buffer) (offset n : Nat) (src : Buffer) :
    slice (put b offset n src) offset n = (List.range n).map src := by
  refine List.map_congr_left fun k hk => ?_
  exact put_inside (List.mem_range.mp hk)

/-! ## Values -/

/-- The value of the `n` bytes from `offset` on, the lowest first. -/
def value (b : Buffer) (offset : Nat) : Nat → Nat
  | 0 => 0
  | n + 1 => value b offset n + (b (offset + n)).toNat * 256 ^ n

/-- The bytes of a value, the lowest first. -/
def bytesOf (v : Nat) : Buffer := fun i => BitVec.ofNat 8 (v / 256 ^ i)

theorem value_congr {b b' : Buffer} {offset : Nat} : ∀ {n : Nat},
    (∀ i < n, b (offset + i) = b' (offset + i)) → value b offset n = value b' offset n := by
  intro n
  induction n with
  | zero => intro _; rfl
  | succ n ih =>
      intro h
      rw [value, value, ih fun i hi => h i (by omega), h n (by omega)]

theorem value_bytesOf (v offset : Nat) {b : Buffer} : ∀ {n : Nat},
    (∀ i < n, b (offset + i) = bytesOf v i) → value b offset n = v % 256 ^ n := by
  intro n
  induction n with
  | zero =>
      intro _
      rw [value, pow_zero, Nat.mod_one]
  | succ n ih =>
      intro h
      have hsplit : v % 256 ^ (n + 1) = v % 256 ^ n + 256 ^ n * (v / 256 ^ n % 2 ^ 8) := by
        rw [Nat.pow_succ]
        exact Nat.mod_mul
      rw [value, ih fun i hi => h i (by omega), h n (by omega), bytesOf, BitVec.toNat_ofNat,
        hsplit, Nat.mul_comm (256 ^ n)]

/-- A value that was stored is read back modulo the width of its field. -/
theorem value_put (b : Buffer) (offset n v : Nat) :
    value (put b offset n (bytesOf v)) offset n = v % 256 ^ n :=
  value_bytesOf v offset fun _ hi => put_inside hi

theorem value_put_outside {b src : Buffer} {offset n offset' n' : Nat}
    (h : offset' + n' ≤ offset ∨ offset + n ≤ offset') :
    value (put b offset n src) offset' n' = value b offset' n' :=
  value_congr fun i hi => put_outside (by omega)

/-! ## Sums -/

/-- The 16-bit word at `offset`. -/
def word16 (b : Buffer) (offset : Nat) : BitVec 16 := BitVec.ofNat 16 (value b offset 2)

theorem word16_congr {b b' : Buffer} {offset : Nat} (h0 : b offset = b' offset)
    (h1 : b (offset + 1) = b' (offset + 1)) : word16 b offset = word16 b' offset := by
  refine congrArg (BitVec.ofNat 16) (value_congr fun i hi => ?_)
  obtain rfl | rfl : i = 0 ∨ i = 1 := by omega
  · exact h0
  · exact h1

theorem word16_put (b : Buffer) (offset : Nat) (w : BitVec 16) :
    word16 (put b offset 2 (bytesOf w.toNat)) offset = w := by
  have hmod : w.toNat % 256 ^ 2 = w.toNat := Nat.mod_eq_of_lt w.isLt
  rw [word16, value_put, hmod, BitVec.ofNat_toNat, BitVec.setWidth_eq]

/-- The bytes of a word are the bytes it was read from. -/
theorem bytesOf_word16 (b : Buffer) (offset : Nat) {i : Nat} (hi : i < 2) :
    bytesOf (word16 b offset).toNat i = b (offset + i) := by
  have hval : (word16 b offset).toNat = (b offset).toNat + (b (offset + 1)).toNat * 256 := by
    have hsum : value b offset 2 = (b offset).toNat + (b (offset + 1)).toNat * 256 := by
      simp [value]
    rw [word16, BitVec.toNat_ofNat, hsum, Nat.mod_eq_of_lt (by omega)]
  apply BitVec.eq_of_toNat_eq
  rw [bytesOf, BitVec.toNat_ofNat, hval]
  obtain rfl | rfl : i = 0 ∨ i = 1 := by omega
  · rw [pow_zero, Nat.div_one]
    show _ % 2 ^ 8 = (b offset).toNat
    omega
  · rw [pow_one]
    omega

theorem word16_put_outside {b src : Buffer} {offset n offset' : Nat}
    (h : offset' + 2 ≤ offset ∨ offset + n ≤ offset') :
    word16 (put b offset n src) offset' = word16 b offset' :=
  congrArg (BitVec.ofNat 16) (value_put_outside h)

/-- The sum of the first `n` 16-bit words. -/
def sum16 (b : Buffer) : Nat → BitVec 16
  | 0 => 0#16
  | n + 1 => sum16 b n + word16 b (2 * n)

theorem sum16_congr {b b' : Buffer} : ∀ {n : Nat}, (∀ i < 2 * n, b i = b' i) →
    sum16 b n = sum16 b' n := by
  intro n
  induction n with
  | zero => intro _; rfl
  | succ n ih =>
      intro h
      rw [sum16, sum16, ih fun i hi => h i (by omega),
        word16_congr (h (2 * n) (by omega)) (h (2 * n + 1) (by omega))]

theorem word16_shift (b : Buffer) (k offset : Nat) :
    word16 (fun i => b (k + i)) offset = word16 b (k + offset) := by
  refine congrArg (BitVec.ofNat 16) ?_
  have hshift : ∀ n, value (fun i => b (k + i)) offset n = value b (k + offset) n := by
    intro n
    induction n with
    | zero => rfl
    | succ n ih => rw [value, value, ih, Nat.add_assoc]
  exact hshift 2

/-- The sum of a buffer is the sum of its first words and that of the rest. -/
theorem sum16_add (b : Buffer) (n : Nat) : ∀ k : Nat,
    sum16 b (n + k) = sum16 b n + sum16 (fun i => b (2 * n + i)) k := by
  intro k
  induction k with
  | zero => rw [sum16, BitVec.add_zero, Nat.add_zero]
  | succ k ih =>
      rw [← Nat.add_assoc, sum16, ih, sum16, word16_shift, Nat.mul_add, BitVec.add_assoc]

/-- A word at an even place counts once: clearing it takes it out of the sum. -/
theorem sum16_put_word (b : Buffer) (w : BitVec 16) {k : Nat} : ∀ {n : Nat}, k < n →
    sum16 (put b (2 * k) 2 (bytesOf w.toNat)) n
      = sum16 (put b (2 * k) 2 (bytesOf (0#16).toNat)) n + w := by
  intro n
  induction n with
  | zero => intro hk; exact absurd hk (Nat.not_lt_zero k)
  | succ n ih =>
      intro hk
      rw [sum16, sum16]
      rcases Nat.lt_succ_iff_lt_or_eq.mp hk with hlt | rfl
      · have hother : ∀ src : Buffer, word16 (put b (2 * k) 2 src) (2 * n) = word16 b (2 * n) :=
          fun src => word16_put_outside (Or.inr (by omega))
        rw [ih hlt, hother, hother, BitVec.add_assoc, BitVec.add_assoc,
          BitVec.add_comm w (word16 b (2 * n))]
      · have hbefore : ∀ src : Buffer, sum16 (put b (2 * k) 2 src) k = sum16 b k :=
          fun src => sum16_congr fun i hi => put_outside (Or.inl hi)
        rw [hbefore, hbefore, word16_put, word16_put, BitVec.add_zero]

/-! ## Bit fields -/

theorem masked_le {w : Nat} (v mask : BitVec w) : (v &&& mask).toNat ≤ mask.toNat := by
  rw [BitVec.toNat_and]
  exact Nat.and_le_right

/-- A field that is masked out and shifted down. -/
theorem field_le {w : Nat} (v mask : BitVec w) (shift : Nat) :
    ((v &&& mask) >>> shift).toNat ≤ mask.toNat / 2 ^ shift := by
  rw [BitVec.toNat_ushiftRight, Nat.shiftRight_eq_div_pow]
  exact Nat.div_le_div_right (masked_le v mask)

end LittleEndian
