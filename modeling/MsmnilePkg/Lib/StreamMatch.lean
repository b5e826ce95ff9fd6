/-
  MsmnilePkg.Lib.StreamMatch

  A pattern search that reads every symbol once.

  `hit j p` says that token `j` of the pattern accepts the symbol at position
  `p`.  A search of this kind takes up the pattern from its first token behind
  a symbol that did not fit, and never goes back.  It therefore tries only
  some of the positions (`Tried`), and finds the pattern exactly at the tried
  ones.
-/

import Mathlib.Order.Basic

namespace StreamMatch

variable {hit : Nat → Nat → Bool} {k n s t : Nat}

/-- The `k` tokens accept the symbols from `s` on. -/
def Occurs (hit : Nat → Nat → Bool) (k s : Nat) : Prop := ∀ j < k, hit j (s + j) = true

/-- From `s` on, `m` tokens fit and the next one does not. -/
structure FailsAfter (hit : Nat → Nat → Bool) (s m : Nat) : Prop where
  matched : ∀ j < m, hit j (s + j) = true
  mismatch : hit m (s + m) = false

/-- The positions at which the search begins with the first token: the first one, and the one
    behind the symbol that ends an attempt. -/
inductive Tried (hit : Nat → Nat → Bool) (k : Nat) : Nat → Prop where
  | start : Tried hit k 0
  | next {s m : Nat} : Tried hit k s → m < k → FailsAfter hit s m → Tried hit k (s + m + 1)

/-- The pattern occurs at `s`, among the first `n` symbols. -/
def FoundAt (hit : Nat → Nat → Bool) (k n s : Nat) : Prop := s + k ≤ n ∧ Occurs hit k s

/-- The lowest occurrence among the first `n` symbols. -/
def Lowest (hit : Nat → Nat → Bool) (k n s : Nat) : Prop :=
  FoundAt hit k n s ∧ ∀ t < s, ¬ FoundAt hit k n t

/-- The search over `n` more symbols; `j` tokens have fit since the attempt at `s` began. -/
def stream (hit : Nat → Nat → Bool) (k : Nat) : Nat → Nat → Nat → Option Nat
  | 0, _, _ => none
  | n + 1, s, j =>
      if hit j (s + j) then
        if j + 1 = k then some s else stream hit k n s (j + 1)
      else stream hit k n (s + j + 1) 0

/-! ## What the search does -/

/-- Over symbols that fit the search stays at its attempt. -/
theorem stream_matched : ∀ {m n : Nat}, (∀ j < m, hit j (s + j) = true) → m < k → m ≤ n →
    stream hit k n s 0 = stream hit k (n - m) s m := by
  intro m
  induction m with
  | zero => intro n _ _ _; rfl
  | succ m ih =>
      intro n hfit hm hn
      obtain ⟨r, hr⟩ : ∃ r, n - m = r + 1 := ⟨n - m - 1, by omega⟩
      rw [ih (fun j hj => hfit j (by omega)) (by omega) (by omega), hr, stream,
        if_pos (hfit m (by omega)), if_neg (by omega)]
      congr 1
      omega

/-- The search comes to every position that is tried. -/
theorem Tried.reached (h : Tried hit k s) : ∀ {n : Nat}, s ≤ n →
    stream hit k n 0 0 = stream hit k (n - s) s 0 := by
  induction h with
  | start => intro n _; rfl
  | @next s m _ hm hfail ih =>
      intro n hn
      obtain ⟨r, hr⟩ : ∃ r, n - s - m = r + 1 := ⟨n - s - m - 1, by omega⟩
      rw [ih (by omega), stream_matched hfail.matched hm (by omega), hr, stream,
        if_neg (by rw [hfail.mismatch]; exact Bool.false_ne_true)]
      congr 1
      omega

theorem stream_of_tried (hk : 0 < k) (h : Tried hit k s) (hfound : FoundAt hit k n s) :
    stream hit k n 0 0 = some s := by
  obtain ⟨hin, hoccurs⟩ := hfound
  obtain ⟨r, hr⟩ : ∃ r, n - s - (k - 1) = r + 1 := ⟨n - s - (k - 1) - 1, by omega⟩
  rw [h.reached (by omega), stream_matched (fun j hj => hoccurs j (by omega))
    (Nat.sub_lt hk Nat.one_pos) (by omega), hr, stream, if_pos (hoccurs _ (by omega)),
    if_pos (by omega)]

theorem tried_of_stream : ∀ {n s j : Nat}, Tried hit k s → (∀ i < j, hit i (s + i) = true) →
    j < k → stream hit k n s j = some t → Tried hit k t ∧ FoundAt hit k (s + j + n) t := by
  intro n
  induction n with
  | zero => intro s j _ _ _ h; cases h
  | succ n ih =>
      intro s j htried hfit hj h
      rw [stream] at h
      by_cases hhit : hit j (s + j) = true
      · have hfit' : ∀ i < j + 1, hit i (s + i) = true := by
          intro i hi
          rcases Nat.lt_succ_iff_lt_or_eq.mp hi with hlt | rfl
          · exact hfit i hlt
          · exact hhit
        rw [if_pos hhit] at h
        -- The last token of the pattern: the match is found.
        by_cases hlast : j + 1 = k
        · rw [if_pos hlast] at h
          obtain rfl : s = t := Option.some.inj h
          exact ⟨htried, by omega, fun i hi => hfit' i (by omega)⟩
        · rw [if_neg hlast] at h
          have hrest := ih htried hfit' (by omega) h
          rwa [show s + (j + 1) + n = s + j + (n + 1) by omega] at hrest
      · rw [if_neg hhit] at h
        -- A miss: the next start is behind the place that failed.
        have hfail : FailsAfter hit s j := ⟨hfit, Bool.eq_false_iff.mpr hhit⟩
        have hrest := ih (htried.next hj hfail) (fun i hi => absurd hi (Nat.not_lt_zero i))
          (by omega) h
        rwa [show s + j + 1 + 0 + n = s + j + (n + 1) by omega] at hrest

/-- The search finds the pattern exactly at the positions it tries. -/
theorem stream_eq_some_iff (hk : 0 < k) :
    stream hit k n 0 0 = some s ↔ Tried hit k s ∧ FoundAt hit k n s := by
  constructor
  · intro h
    have hfound := tried_of_stream .start (fun i hi => absurd hi (Nat.not_lt_zero i)) hk h
    rwa [show 0 + 0 + n = n by omega] at hfound
  · rintro ⟨htried, hfound⟩
    exact stream_of_tried hk htried hfound

/-- It tries no position behind an occurrence that it has tried. -/
theorem Tried.unique (hk : 0 < k) (h : Tried hit k s) (hs : FoundAt hit k n s)
    (h' : Tried hit k t) (ht : FoundAt hit k n t) : s = t := by
  have hfirst := stream_of_tried hk h hs
  rw [stream_of_tried hk h' ht] at hfirst
  exact (Option.some.inj hfirst).symm

/-! ## The lowest occurrence -/

theorem Lowest.unique (h : Lowest hit k n s) (h' : Lowest hit k n t) : s = t := by
  rcases Nat.lt_trichotomy s t with hlt | heq | hgt
  · exact absurd h.1 (h'.2 s hlt)
  · exact heq
  · exact absurd h'.1 (h.2 t hgt)

theorem exists_lowest (h : FoundAt hit k n s) : ∃ t, Lowest hit k n t := by
  induction s using Nat.strongRecOn with
  | ind s ih =>
      by_cases hearlier : ∃ t < s, FoundAt hit k n t
      · obtain ⟨t, hlt, ht⟩ := hearlier
        exact ih t hlt ht
      · exact ⟨s, h, fun t hlt ht => hearlier ⟨t, hlt, ht⟩⟩

/-- Nothing is found where nothing is. -/
theorem stream_none (hk : 0 < k) (h : ∀ s, ¬ FoundAt hit k n s) : stream hit k n 0 0 = none := by
  cases hstream : stream hit k n 0 0 with
  | none => rfl
  | some s => exact absurd ((stream_eq_some_iff hk).mp hstream).2 (h s)

end StreamMatch
