/-
  MsmnilePkg.Lib.Loop

  `while` loops with explicit fuel.

  A loop of the source is `whileFuel cond body fuel s`: `none` means that the
  fuel ran out while the guard still held, `some t` that the loop was left in
  state `t`.  The rules below are the ones a proof about a loop needs: an
  invariant of the body is an invariant of the loop, and a loop whose turns go
  down in a well-founded order ends.
-/

import Mathlib.Logic.Basic

namespace Loop

variable {σ : Type*}

/-- `while (cond s) s = body s`, given up after `fuel` tests of the guard. -/
def whileFuel (cond : σ → Bool) (body : σ → σ) : Nat → σ → Option σ
  | 0, _ => none
  | fuel + 1, s => if cond s then whileFuel cond body fuel (body s) else some s

variable {cond : σ → Bool} {body : σ → σ}

theorem whileFuel_of_not {fuel : Nat} {s : σ} (h : cond s = false) :
    whileFuel cond body (fuel + 1) s = some s := by
  simp [whileFuel, h]

theorem whileFuel_of_cond {fuel : Nat} {s : σ} (h : cond s = true) :
    whileFuel cond body (fuel + 1) s = whileFuel cond body fuel (body s) := by
  simp [whileFuel, h]

/-- The invariant rule: what the body preserves under the guard holds when the
    loop is left, and the guard fails there. -/
theorem whileFuel_invariant {I : σ → Prop}
    (hstep : ∀ s, I s → cond s = true → I (body s)) {fuel : Nat} {s t : σ}
    (hs : I s) (h : whileFuel cond body fuel s = some t) : I t ∧ cond t = false := by
  induction fuel generalizing s with
  | zero => simp [whileFuel] at h
  | succ fuel ih =>
      by_cases hc : cond s = true
      · rw [whileFuel_of_cond hc] at h
        exact ih (hstep s hs hc) h
      · rw [Bool.not_eq_true] at hc
        rw [whileFuel_of_not hc, Option.some.injEq] at h
        exact h ▸ ⟨hs, hc⟩

/-- The termination rule for an order of any kind: every turn goes down in it. -/
theorem exists_whileFuel {r : σ → σ → Prop} (hwf : WellFounded r)
    (hstep : ∀ s, cond s = true → r (body s) s) (s : σ) :
    ∃ fuel t, whileFuel cond body fuel s = some t := by
  induction s using hwf.induction with
  | _ s ih =>
      by_cases hc : cond s = true
      · obtain ⟨fuel, t, hrun⟩ := ih (body s) (hstep s hc)
        exact ⟨fuel + 1, t, by rw [whileFuel_of_cond hc, hrun]⟩
      · rw [Bool.not_eq_true] at hc
        exact ⟨1, s, whileFuel_of_not hc⟩

/-! ## Counted loops -/

/-- `for (i = 0; i < n; i++) s = body i s` -/
def forTurns (body : Nat → σ → σ) : Nat → σ → σ
  | 0, s => s
  | n + 1, s => body n (forTurns body n s)

/-- The invariant rule for a counted loop. -/
theorem forTurns_invariant {body : Nat → σ → σ} {I : Nat → σ → Prop} {s : σ} (h0 : I 0 s) :
    ∀ {n : Nat}, (∀ k < n, ∀ t, I k t → I (k + 1) (body k t)) → I n (forTurns body n s) := by
  intro n
  induction n with
  | zero => intro _; exact h0
  | succ n ih =>
      intro hstep
      exact hstep n (Nat.lt_succ_self n) _ (ih fun k hk => hstep k (by omega))

theorem forTurns_add (body : Nat → σ → σ) (k : Nat) (s : σ) : ∀ m : Nat,
    forTurns body (k + m) s = forTurns (fun i => body (k + i)) m (forTurns body k s) := by
  intro m
  induction m with
  | zero => rfl
  | succ m ih => rw [← Nat.add_assoc, forTurns, ih, forTurns]

theorem forTurns_congr {body body' : Nat → σ → σ} {k : Nat} (s : σ)
    (h : ∀ i < k, body i = body' i) : forTurns body k s = forTurns body' k s := by
  induction k with
  | zero => rfl
  | succ k ih =>
      rw [forTurns, forTurns, ih fun i hi => h i (Nat.lt_succ_of_lt hi), h k (Nat.lt_succ_self k)]

/-! ## Loops that may fail -/

/-- What is to be shown of a call when it is known how the call ends: `P` of its result, and
    `Q` when it has none. -/
theorem ends_some {P : σ → Prop} {Q : Prop} {t : σ} (h : P t) :
    (∀ r, some t = some r → P r) ∧ (some t = none → Q) := by
  refine ⟨fun r hr => ?_, fun hr => absurd hr (Option.some_ne_none t)⟩
  rwa [← Option.some.inj hr]

theorem ends_none {P : σ → Prop} {Q : Prop} (h : Q) :
    (∀ r, none = some r → P r) ∧ ((none : Option σ) = none → Q) :=
  ⟨fun r hr => absurd hr.symm (Option.some_ne_none r), fun _ => h⟩

/-- `for (i = 0; i < n; i++) s = body i s`, where a turn may fail. -/
def tryTurns (body : Nat → σ → Option σ) : Nat → σ → Option σ
  | 0, s => some s
  | n + 1, s => (tryTurns body n s).bind (body n)

theorem tryTurns_some {body : Nat → σ → Option σ} {I : Nat → σ → Prop} {s : σ} (h0 : I 0 s) :
    ∀ {n : Nat}, (∀ k < n, ∀ t, I k t → ∃ t', body k t = some t' ∧ I (k + 1) t') →
    ∃ t, tryTurns body n s = some t ∧ I n t := by
  intro n
  induction n with
  | zero => intro _; exact ⟨s, rfl, h0⟩
  | succ n ih =>
      intro hstep
      obtain ⟨t, ht, hI⟩ := ih fun k hk => hstep k (by omega)
      obtain ⟨t', ht', hI'⟩ := hstep n (Nat.lt_succ_self n) t hI
      exact ⟨t', by rw [tryTurns, ht, Option.bind_some, ht'], hI'⟩

/-- A turn that always fails lets the loop fail. -/
theorem tryTurns_none {body : Nat → σ → Option σ} {s : σ} {k n : Nat} (hk : k < n)
    (h : ∀ t, body k t = none) : tryTurns body n s = none := by
  induction n with
  | zero => omega
  | succ n ih =>
      rw [tryTurns]
      by_cases hlast : k = n
      · subst hlast
        cases tryTurns body k s with
        | none => rfl
        | some t => exact h t
      · rw [ih (by omega)]
        rfl

/-- How a turn of an endless loop ends. -/
inductive Turn (σ : Type*) where
  | again (s : σ)
  | leave (s : σ)

/-- The state a turn ends in. -/
def Turn.state : Turn σ → σ
  | .again s => s
  | .leave s => s

/-- `while (1) { … break; … }`, where a turn may fail. -/
def tryLoop (body : σ → Option (Turn σ)) : Nat → σ → Option σ
  | 0, _ => none
  | fuel + 1, s =>
      match body s with
      | none => none
      | some (.again t) => tryLoop body fuel t
      | some (.leave t) => some t

/-- `P` holds before each turn. -/
def EveryTurn (P : σ → Prop) (body : σ → Option (Turn σ)) : Nat → σ → Prop
  | 0, _ => True
  | fuel + 1, s => P s ∧ ∀ t, body s = some (.again t) → EveryTurn P body fuel t

/-- The exactness rule: when a turn keeps `G` exactly if `P` holds before it, the loop
    ends with `G` exactly if `P` holds before each of its turns. -/
theorem tryLoop_iff {body : σ → Option (Turn σ)} {I G P : σ → Prop} (measure : σ → Nat)
    (hfail : ∀ s, I s → body s = none → ¬P s)
    (hturn : ∀ s r, I s → body s = some r → I r.state ∧ (G r.state ↔ G s ∧ P s))
    (hless : ∀ s t, I s → body s = some (.again t) → measure t < measure s)
    {fuel : Nat} {s : σ} (hs : I s) (hfuel : measure s < fuel) :
    (∃ t, tryLoop body fuel s = some t ∧ G t) ↔ G s ∧ EveryTurn P body fuel s := by
  induction fuel generalizing s with
  | zero => omega
  | succ fuel ih =>
      rw [tryLoop, EveryTurn]
      cases hbody : body s with
      | none =>
          have hP := hfail s hs hbody
          simp [hP]
      | some r =>
          obtain ⟨hI, hG⟩ := hturn s r hs hbody
          cases r with
          | again t =>
              -- Another turn: the rest of the loop ends with G if it begins with it.
              have hmeasure := hless s t hs hbody
              rw [Turn.state] at hI hG
              show (∃ u, tryLoop body fuel t = some u ∧ G u) ↔ _
              rw [ih hI (by omega), hG, and_assoc]
              simp
          | leave t =>
              rw [Turn.state] at hG
              show (∃ u, some t = some u ∧ G u) ↔ _
              simpa using hG

theorem tryLoop_invariant {body : σ → Option (Turn σ)} {I : σ → Prop}
    (hturn : ∀ s r, I s → body s = some r → I r.state) {fuel : Nat} {s t : σ}
    (hs : I s) (h : tryLoop body fuel s = some t) : I t := by
  induction fuel generalizing s with
  | zero =>
      rw [tryLoop] at h
      exact absurd h (Option.some_ne_none t).symm
  | succ fuel ih =>
      rw [tryLoop] at h
      cases hbody : body s with
      | none =>
          rw [hbody] at h
          exact absurd h (Option.some_ne_none t).symm
      | some r =>
          have hI := hturn s r hs hbody
          rw [hbody] at h
          cases r with
          | again u => exact ih hI h
          | leave u => exact (Option.some.inj h) ▸ hI

/-- A loop that goes through the states `st 0, st 1, …` and is left in turn `n`. -/
theorem tryLoop_of_turns {body : σ → Option (Turn σ)} (st : Nat → σ) {n : Nat} {t : σ}
    (hagain : ∀ k < n, body (st k) = some (.again (st (k + 1))))
    (hlast : body (st n) = some (.leave t)) {fuel : Nat} (hfuel : n < fuel) :
    tryLoop body fuel (st 0) = some t := by
  induction n generalizing fuel st with
  | zero =>
      obtain ⟨fuel, rfl⟩ : ∃ rest, fuel = rest + 1 := ⟨fuel - 1, by omega⟩
      rw [tryLoop, hlast]
  | succ n ih =>
      obtain ⟨fuel, rfl⟩ : ∃ rest, fuel = rest + 1 := ⟨fuel - 1, by omega⟩
      -- After turn 0 the loop goes through the states from 1 on.
      rw [tryLoop, hagain 0 (Nat.succ_pos n)]
      exact ih (fun k => st (k + 1)) (fun k hk => hagain (k + 1) (by omega)) hlast (by omega)

/-! ## Tries -/

/-- The number of the last try: the first one after which `again` fails, or `limit`. -/
def lastTry (again : Nat → Bool) : Nat → Nat
  | 0 => 0
  | limit + 1 => if again 0 then lastTry (fun k => again (k + 1)) limit + 1 else 0

theorem lastTry_le (again : Nat → Bool) (limit : Nat) : lastTry again limit ≤ limit := by
  induction limit generalizing again with
  | zero => exact Nat.le_refl 0
  | succ limit ih =>
      rw [lastTry]
      split
      · exact Nat.succ_le_succ (ih _)
      · exact Nat.zero_le _

theorem again_of_lt_lastTry (again : Nat → Bool) {limit k : Nat} (hk : k < lastTry again limit) :
    again k = true := by
  induction limit generalizing again k with
  | zero => exact absurd hk (Nat.not_lt_zero k)
  | succ limit ih =>
      rw [lastTry] at hk
      split at hk
      · cases k with
        | zero => assumption
        | succ k => exact ih (fun k => again (k + 1)) (Nat.lt_of_succ_lt_succ hk)
      · exact absurd hk (Nat.not_lt_zero k)

theorem lastTry_settled (again : Nat → Bool) (limit : Nat) :
    lastTry again limit = limit ∨ again (lastTry again limit) = false := by
  induction limit generalizing again with
  | zero => exact .inl rfl
  | succ limit ih =>
      rw [lastTry]
      split
      · rcases ih (fun k => again (k + 1)) with h | h
        · exact .inl (congrArg (· + 1) h)
        · exact .inr h
      · rename_i h
        exact .inr (by simpa using h)

/-- Nothing else is the last try. -/
theorem lastTry_eq {again : Nat → Bool} {limit k : Nat} (hk : k ≤ limit)
    (hagain : ∀ j < k, again j = true) (hlast : again k = false) :
    lastTry again limit = k := by
  rcases Nat.lt_trichotomy (lastTry again limit) k with h | h | h
  · -- An earlier last try would have been followed by another.
    rcases lastTry_settled again limit with hl | hl
    · omega
    · rw [hagain _ h] at hl
      exact absurd hl.symm Bool.false_ne_true
  · exact h
  · rw [again_of_lt_lastTry again h] at hlast
    exact absurd hlast.symm Bool.false_ne_true

/-! ## Sequences of calls -/

variable {ι : Type*}

/-- One call after the other, where a call may fail. -/
def tryCalls (call : ι → σ → Option σ) : List ι → σ → Option σ
  | [], s => some s
  | c :: calls, s => (call c s).bind (tryCalls call calls)

/-- A call that always fails lets the sequence fail. -/
theorem tryCalls_none {call : ι → σ → Option σ} {calls : List ι} {c : ι} (hc : c ∈ calls)
    (h : ∀ t, call c t = none) (s : σ) : tryCalls call calls s = none := by
  induction calls generalizing s with
  | nil => exact absurd hc List.not_mem_nil
  | cons c' calls ih =>
      rw [tryCalls]
      rcases List.mem_cons.mp hc with rfl | hc
      · rw [h s]
        rfl
      · cases call c' s with
        | none => rfl
        | some t => exact ih hc t

/-- `P` holds before each call. -/
def EveryCall (P : ι → σ → Prop) (call : ι → σ → Option σ) : List ι → σ → Prop
  | [], _ => True
  | c :: calls, s => P c s ∧ ∀ t, call c s = some t → EveryCall P call calls t

/-- The exactness rule for a sequence of calls. -/
theorem tryCalls_iff {call : ι → σ → Option σ} {I G : σ → Prop} {P : ι → σ → Prop}
    (hcall : ∀ c s, I s → ((∃ t, call c s = some t ∧ G t) ↔ G s ∧ P c s))
    (hinv : ∀ c s t, I s → call c s = some t → I t) {calls : List ι} {s : σ} (hs : I s) :
    (∃ t, tryCalls call calls s = some t ∧ G t) ↔ G s ∧ EveryCall P call calls s := by
  induction calls generalizing s with
  | nil => simp [tryCalls, EveryCall]
  | cons c calls ih =>
      have hexact := hcall c s hs
      rw [tryCalls, EveryCall]
      cases hrun : call c s with
      | none =>
          rw [hrun] at hexact
          -- A call that fails leaves no result, and the condition fails before it.
          have hbad : ¬(G s ∧ P c s) := fun h => by
            obtain ⟨t, ht, _⟩ := hexact.mpr h
            exact absurd ht (Option.some_ne_none t).symm
          rw [Option.bind_none]
          constructor
          · rintro ⟨t, ht, _⟩
            exact absurd ht (Option.some_ne_none t).symm
          · rintro ⟨hG, hP, _⟩
            exact absurd ⟨hG, hP⟩ hbad
      | some t =>
          rw [hrun] at hexact
          have hG : G t ↔ G s ∧ P c s := by simpa using hexact
          rw [Option.bind_some, ih (hinv c s t hs hrun), hG, and_assoc]
          simp

end Loop
