/-
  MsmnilePkg.Lib.RecordArea

  Records that lie one behind the other in a buffer.

  `Holds b offset l` says that the bytes `l` lie at `offset`.  It splits along
  `++`, so that a record which is a concatenation of fields is read field by
  field, and it follows the copies that build a new buffer out of old ones.
-/

import MsmnilePkg.Lib.LittleEndian

namespace RecordArea

open ByteMem LittleEndian

/-- The `n` low bytes of a value. -/
def field (v n : Nat) : List Byte := (List.range n).map (bytesOf v)

@[simp] theorem field_length (v n : Nat) : (field v n).length = n := by
  rw [field, List.length_map, List.length_range]

/-- The bytes `l` lie at `offset`. -/
def Holds (b : Buffer) (offset : Nat) (l : List Byte) : Prop := slice b offset l.length = l

/-- A buffer that begins with the bytes `l`. -/
def ofList (l : List Byte) : Buffer := fun i => l.getD i 0

/-- What lies `k` bytes further on. -/
def shift (b : Buffer) (k : Nat) : Buffer := fun i => b (k + i)

theorem slice_shift (b : Buffer) (k offset n : Nat) :
    slice (shift b k) offset n = slice b (k + offset) n := by
  refine List.map_congr_left fun i _ => ?_
  rw [shift, Nat.add_assoc]

variable {b b' src : Buffer} {offset n : Nat} {l l' : List Byte}

@[simp] theorem holds_nil (b : Buffer) (offset : Nat) : Holds b offset [] := rfl

/-- Records that follow each other. -/
theorem holds_append :
    Holds b offset (l ++ l') ↔ Holds b offset l ∧ Holds b (offset + l.length) l' := by
  rw [Holds, List.length_append, slice_add]
  exact ⟨fun h => List.append_inj h (slice_length b offset l.length),
    fun h => congrArg₂ (· ++ ·) h.1 h.2⟩

theorem holds_slice (b : Buffer) (offset n : Nat) : Holds b offset (slice b offset n) := by
  rw [Holds, slice_length]

theorem Holds.slice_eq (h : Holds b offset l) (hn : n = l.length) : slice b offset n = l := by
  rw [hn]
  exact h

theorem holds_shift {k : Nat} : Holds (shift b k) offset l ↔ Holds b (k + offset) l := by
  rw [Holds, Holds, slice_shift]

/-- Only the bytes in question matter, wherever they lie. -/
theorem Holds.move {offset' : Nat} (h : Holds b offset l)
    (hsame : ∀ i < l.length, b' (offset' + i) = b (offset + i)) : Holds b' offset' l := by
  have hslice : slice b' offset' l.length = slice b offset l.length :=
    List.map_congr_left fun i hi => hsame i (List.mem_range.mp hi)
  rw [Holds, hslice]
  exact h

theorem slice_getElem {i : Nat} (hi : i < n) :
    (slice b offset n)[i]? = some (b (offset + i)) := by
  rw [slice, List.getElem?_map, List.getElem?_range hi]
  rfl

/-- A field that is held is the value that is read. -/
theorem Holds.value {v : Nat} (h : Holds b offset (field v n)) (hv : v < 256 ^ n) :
    value b offset n = v := by
  rw [← Nat.mod_eq_of_lt hv]
  refine value_bytesOf v offset fun i hi => ?_
  -- Byte `i` of the slice, looked up on both sides.
  have hslice : slice b offset n = field v n := h.slice_eq (field_length v n).symm
  have hbyte := congrArg (fun bytes => bytes[i]?) hslice
  simp only [slice_getElem hi, field, List.getElem?_map, List.getElem?_range hi] at hbyte
  exact Option.some.inj hbyte

theorem value_lt (b : Buffer) (offset n : Nat) : value b offset n < 256 ^ n := by
  induction n with
  | zero => exact Nat.one_pos
  | succ n ih =>
      have hbyte : (b (offset + n)).toNat ≤ 255 := Nat.lt_succ_iff.mp (b (offset + n)).isLt
      have hhigh : (b (offset + n)).toNat * 256 ^ n ≤ 255 * 256 ^ n := Nat.mul_le_mul_right _ hbyte
      rw [value, Nat.pow_succ]
      omega

/-- The bytes that are read as a value are its field. -/
theorem holds_value (b : Buffer) (offset n : Nat) :
    Holds b offset (field (value b offset n) n) := by
  rw [Holds, field_length]
  induction n with
  | zero => rfl
  | succ n ih =>
      have hlt := value_lt b offset n
      have hlow : ∀ i < n, bytesOf (value b offset (n + 1)) i = bytesOf (value b offset n) i := by
        intro i hi
        have hpow : 256 ^ n = 256 ^ i * (256 ^ (n - i - 1) * 256) := by
          rw [← Nat.pow_succ, ← Nat.pow_add]
          exact congrArg (256 ^ ·) (by omega)
        have hterm : (b (offset + n)).toNat * 256 ^ n
            = 256 ^ i * ((b (offset + n)).toNat * 256 ^ (n - i - 1) * 2 ^ 8) := by
          rw [hpow, Nat.mul_left_comm, Nat.mul_assoc]
          rfl
        -- The new byte is a multiple of `256 ^ n`, out of reach of byte `i`.
        apply BitVec.eq_of_toNat_eq
        rw [bytesOf, bytesOf, BitVec.toNat_ofNat, BitVec.toNat_ofNat, value, hterm,
          Nat.add_mul_div_left _ _ (Nat.pow_pos (by omega)), Nat.add_mul_mod_self_right]
      have hhigh : bytesOf (value b offset (n + 1)) n = b (offset + n) := by
        apply BitVec.eq_of_toNat_eq
        rw [bytesOf, BitVec.toNat_ofNat, value, Nat.add_mul_div_right _ _ (Nat.pow_pos (by omega)),
          Nat.div_eq_of_lt hlt, Nat.zero_add]
        exact Nat.mod_eq_of_lt (b (offset + n)).isLt
      rw [slice_add, ih, field, field, List.range_succ, List.map_append,
        List.map_congr_left fun i hi => hlow i (List.mem_range.mp hi)]
      simp [slice, hhigh]

/-- Slices that follow each other make one slice. -/
theorem slices_flatten (b : Buffer) (offset size count : Nat) :
    ((List.range count).map fun k => slice b (offset + k * size) size).flatten
      = slice b offset (count * size) := by
  induction count with
  | zero => rw [Nat.zero_mul]; rfl
  | succ count ih =>
      rw [List.range_succ, List.map_append, List.flatten_append, ih, Nat.succ_mul, slice_add]
      simp

/-! ## Copies -/

/-- A part of what is copied. -/
theorem holds_put_part {o k : Nat} (hsrc : Holds src k l) (hin : k + l.length ≤ n) :
    Holds (put b o n src) (o + k) l := by
  refine hsrc.move fun i hi => ?_
  rw [Nat.add_assoc, put_inside (by omega)]

theorem holds_put (hsrc : Holds src 0 l) (hn : n = l.length) :
    Holds (put b offset n src) offset l :=
  holds_put_part (k := 0) hsrc (by omega)

theorem Holds.put_outside (h : Holds b offset l) {o : Nat}
    (hout : offset + l.length ≤ o ∨ o + n ≤ offset) : Holds (put b o n src) offset l :=
  h.move fun i hi => LittleEndian.put_outside (by omega)

theorem holds_ofList (l : List Byte) : Holds (ofList l) 0 l := by
  refine List.ext_getElem? fun i => ?_
  by_cases hi : i < l.length
  · rw [slice_getElem hi, Nat.zero_add, ofList, List.getD_eq_getElem?_getD,
      List.getElem?_eq_getElem hi, Option.getD_some]
  · rw [List.getElem?_eq_none (by rw [slice_length]; omega),
      List.getElem?_eq_none (Nat.le_of_not_lt hi)]

theorem holds_bytesOf (v n : Nat) : Holds (bytesOf v) 0 (field v n) := by
  rw [Holds, field_length, slice, field]
  simp

theorem field_inj {v w : Nat} (hv : v < 256 ^ n) (hw : w < 256 ^ n)
    (h : field v n = field w n) : v = w := by
  have hheld : Holds (bytesOf v) 0 (field w n) := h ▸ holds_bytesOf v n
  exact ((holds_bytesOf v n).value hv).symm.trans (hheld.value hw)

/-! ## Walking -/

section Walk

variable {ρ σ α : Type*} {bytes : ρ → List Byte}

/-- A loop that goes over one record in a turn goes over all of them: `loop` has fuel, an
    offset and what it accumulates, of which `I` is known after the records `done`. -/
theorem walk_invariant (loop : Nat → Nat → σ → α) (I : List ρ → Nat → σ → Prop)
    (fuel size : Nat) : ∀ {records : List ρ} (done : List ρ) {offset : Nat} (s : σ),
    (∀ r ∈ records, ∀ done o s, I done o s → Holds b o (bytes r) → o + (bytes r).length ≤ size →
      ∃ s', I (done ++ [r]) (o + (bytes r).length) s' ∧
        ∀ fuel, loop (fuel + 1) o s = loop fuel (o + (bytes r).length) s') →
    I done offset s → Holds b offset (records.flatMap bytes) →
    offset + (records.flatMap bytes).length ≤ size →
    ∃ s', I (done ++ records) (offset + (records.flatMap bytes).length) s' ∧
      loop (fuel + records.length) offset s
        = loop fuel (offset + (records.flatMap bytes).length) s' := by
  intro records
  induction records with
  | nil =>
      intro done offset s _ hs _ _
      exact ⟨s, by rwa [List.append_nil], rfl⟩
  | cons r records ih =>
      intro done offset s hturn hs hheld hend
      rw [List.flatMap_cons, holds_append] at hheld
      rw [List.flatMap_cons, List.length_append] at hend ⊢
      obtain ⟨s', hs', hloop⟩ := hturn r List.mem_cons_self done offset s hs hheld.1 (by omega)
      obtain ⟨t, ht, hrest⟩ := ih _ _ (fun r' hr' => hturn r' (List.mem_cons_of_mem r hr')) hs'
        hheld.2 (by omega)
      rw [List.append_assoc, List.singleton_append, Nat.add_assoc] at ht
      refine ⟨t, ht, ?_⟩
      rw [List.length_cons, ← Nat.add_assoc, hloop, hrest, Nat.add_assoc]

/-- The same for a loop that accumulates nothing. -/
theorem walk_records (loop : Nat → Nat → α) (fuel size : Nat) {records : List ρ}
    (hturn : ∀ r ∈ records, ∀ o, Holds b o (bytes r) → o + (bytes r).length ≤ size →
      ∀ fuel, loop (fuel + 1) o = loop fuel (o + (bytes r).length))
    (hheld : Holds b offset (records.flatMap bytes))
    (hend : offset + (records.flatMap bytes).length ≤ size) :
    loop (fuel + records.length) offset
      = loop fuel (offset + (records.flatMap bytes).length) := by
  obtain ⟨_, -, h⟩ := walk_invariant (fun fuel o (_ : Unit) => loop fuel o)
    (fun _ _ _ => True) fuel size [] ()
    (fun r hr _ o s _ hat hle => ⟨s, trivial, hturn r hr o hat hle⟩) trivial hheld hend
  exact h

end Walk

end RecordArea
