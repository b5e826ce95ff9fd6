/-
  MsmnilePkg.Lib.BlockHash

  Hashes that take a message block by block, and keep what does not fill a block.

  `absorb` is the hash of the whole blocks of a message.  `Streamed` says what a context is
  for the message so far: its whole blocks are absorbed, and the rest is kept.
-/

import MsmnilePkg.Lib.LittleEndian
import MsmnilePkg.Lib.Loop

namespace BlockHash

open ByteMem LittleEndian Loop

variable {σ : Type}

/-! ## Whole blocks -/

section Blocks

variable {f : σ → List Byte → σ} {n : Nat} {h h₀ : σ} {xs ys : List Byte}

/-- The whole blocks of `n` bytes, one after the other. -/
def absorb (f : σ → List Byte → σ) (n : Nat) (h : σ) (bs : List Byte) : σ :=
  forTurns (fun i h => f h ((bs.drop (n * i)).take n)) (bs.length / n) h

theorem absorb_append (hn : 0 < n) (hx : n ∣ xs.length) :
    absorb f n h (xs ++ ys) = absorb f n (absorb f n h xs) ys := by
  obtain ⟨k, hk⟩ := hx
  have hblocks : (xs ++ ys).length / n = k + ys.length / n := by
    rw [List.length_append, hk, Nat.mul_add_div hn]
  rw [absorb, hblocks, forTurns_add, absorb, absorb, hk, Nat.mul_div_cancel_left k hn]
  have hfirst : forTurns (fun i h => f h (((xs ++ ys).drop (n * i)).take n)) k h
      = forTurns (fun i h => f h ((xs.drop (n * i)).take n)) k h := by
    refine forTurns_congr h fun i hi => ?_
    -- The block lies within the first part.
    have hin : n * i + n ≤ xs.length := by
      rw [hk, ← Nat.mul_succ]
      exact Nat.mul_le_mul_left n hi
    rw [List.drop_append_of_le_length (by omega),
      List.take_append_of_le_length (by rw [List.length_drop]; omega)]
  rw [hfirst]
  refine forTurns_congr _ fun i _ => ?_
  rw [Nat.mul_add, ← hk, List.drop_append, List.drop_eq_nil_of_le (by omega), List.nil_append,
    Nat.add_sub_cancel_left]

/-- A block. -/
theorem absorb_block (hn : 0 < n) (hx : xs.length = n) : absorb f n h xs = f h xs := by
  rw [absorb, hx, Nat.div_self hn, forTurns, forTurns, Nat.mul_zero, List.drop_zero, ← hx,
    List.take_length]

theorem slice_part (b : Buffer) (offset : Nat) {i n m : Nat} (h : i + n ≤ m) :
    ((slice b offset m).drop i).take n = slice b (offset + i) n := by
  obtain ⟨j, rfl⟩ : ∃ j, m = i + n + j := ⟨m - (i + n), by omega⟩
  rw [slice_add, slice_add, List.append_assoc, List.drop_append_of_le_length (by simp),
    List.drop_eq_nil_of_le (by simp), List.nil_append, List.take_append_of_le_length (by simp)]
  exact List.take_of_length_le (by simp)

/-- The blocks of a buffer. -/
theorem absorb_slice (hn : 0 < n) (b : Buffer) (offset k : Nat) :
    absorb f n h (slice b offset (n * k))
      = forTurns (fun i h => f h (slice b (offset + n * i) n)) k h := by
  rw [absorb, slice_length, Nat.mul_div_cancel_left k hn]
  refine forTurns_congr h fun i hi => ?_
  rw [slice_part b offset (show n * i + n ≤ n * k by
    rw [← Nat.mul_succ]; exact Nat.mul_le_mul_left n hi)]

/-! ## Streams -/

/-- The whole blocks of the message are absorbed into `h`, and `rest` is left. -/
structure Streamed (f : σ → List Byte → σ) (n : Nat) (h₀ : σ) (message : List Byte) (h : σ)
    (rest : List Byte) : Prop where
  short : rest.length < n
  absorbed : ∃ whole, message = whole ++ rest ∧ n ∣ whole.length ∧ h = absorb f n h₀ whole

variable {message rest data first blocks tail : List Byte}

theorem streamed_nil (hn : 0 < n) : Streamed f n h₀ [] h₀ [] :=
  ⟨hn, [], rfl, ⟨0, rfl⟩, by rw [absorb, List.length_nil, Nat.zero_div]; rfl⟩

/-- What does not fill a block is kept. -/
theorem Streamed.keep (hs : Streamed f n h₀ message h rest)
    (hshort : (rest ++ data).length < n) : Streamed f n h₀ (message ++ data) h (rest ++ data) := by
  obtain ⟨-, whole, rfl, hdvd, habsorbed⟩ := hs
  exact ⟨hshort, whole, List.append_assoc .., hdvd, habsorbed⟩

/-- The rest is filled up, the blocks behind it are absorbed, and a new rest is kept. -/
theorem Streamed.fill (hs : Streamed f n h₀ message h rest) (hn : 0 < n)
    (hfirst : (rest ++ first).length = n) (hblocks : n ∣ blocks.length)
    (htail : tail.length < n) :
    Streamed f n h₀ (message ++ (first ++ (blocks ++ tail)))
      (absorb f n (f h (rest ++ first)) blocks) tail := by
  obtain ⟨-, whole, rfl, hdvd, rfl⟩ := hs
  refine ⟨htail, whole ++ (rest ++ first) ++ blocks, ?_, ?_, ?_⟩
  · simp only [List.append_assoc]
  · rw [List.length_append, List.length_append, hfirst]
    exact Nat.dvd_add (Nat.dvd_add hdvd (Nat.dvd_refl n)) hblocks
  · have hfilled : n ∣ (whole ++ (rest ++ first)).length := by
      rw [List.length_append, hfirst]
      exact Nat.dvd_add hdvd (Nat.dvd_refl n)
    rw [absorb_append hn hfilled, absorb_append hn hdvd, absorb_block hn hfirst]

/-- A padding that fills the last blocks. -/
theorem Streamed.finish (hs : Streamed f n h₀ message h rest) (hn : 0 < n) :
    absorb f n h (rest ++ data) = absorb f n h₀ (message ++ data) := by
  obtain ⟨-, whole, rfl, hdvd, rfl⟩ := hs
  rw [List.append_assoc, absorb_append hn hdvd]

end Blocks

end BlockHash
