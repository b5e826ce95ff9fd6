/-
  MsmnilePkg.Lib.Reconcile

  A list that is brought into line with a list of changes.

  `put o` asks for an entry that agrees with `o` in its key, and adds one behind the
  others when there is none.  `drop p` takes the entries out that `p` holds of.
  What an added entry has besides its value, a number say, is left open, so a step
  is a relation.  When no `drop` takes out what a `put` asks for, a second run over
  the same changes finds nothing left to do.
-/

import Mathlib.Data.List.Basic

namespace Reconcile

variable {α β κ : Type*}

inductive Change (β : Type*) where
  | put (o : β)
  | drop (p : β → Bool)

section Definitions

variable (val : α → β) (key : β → κ)

/-- One change to the list of entries. -/
inductive Step : Change β → List α → List α → Prop
  | found {o : β} {l : List α} {e : α} (he : e ∈ l) (hkey : key (val e) = key o) :
      Step (.put o) l l
  | added {o : β} {l : List α} {a : α} (hnew : ∀ e ∈ l, key (val e) ≠ key o) (hval : val a = o) :
      Step (.put o) l (l ++ [a])
  | dropped {p : β → Bool} {l : List α} : Step (.drop p) l (l.filter fun e => !p (val e))

inductive Run : List (Change β) → List α → List α → Prop
  | done {l : List α} : Run [] l l
  | next {c : Change β} {cs : List (Change β)} {l m n : List α} (hstep : Step val key c l m)
      (hrest : Run cs m n) : Run (c :: cs) l n

/-- The list is already in line with the change. -/
def Settled (l : List α) : Change β → Prop
  | .put o => ∃ e ∈ l, key (val e) = key o
  | .drop p => ∀ e ∈ l, p (val e) = false

/-- No `drop` takes out what a `put` asks for. -/
def Separate (cs : List (Change β)) : Prop :=
  ∀ o p, .put o ∈ cs → .drop p ∈ cs → ∀ b, key b = key o → p b = false

end Definitions

/-- The values that are asked for. -/
def puts : List (Change β) → List β
  | [] => []
  | .put o :: cs => o :: puts cs
  | .drop _ :: cs => puts cs

theorem mem_puts {o : β} {cs : List (Change β)} : o ∈ puts cs ↔ .put o ∈ cs := by
  induction cs with
  | nil => simp [puts]
  | cons c cs ih => cases c <;> simp [puts, ih]

variable {val : α → β} {key : β → κ}

theorem Separate.tail {c : Change β} {cs : List (Change β)} (h : Separate key (c :: cs)) :
    Separate key cs :=
  fun o p ho hp => h o p (List.mem_cons_of_mem c ho) (List.mem_cons_of_mem c hp)

/-! ## One step -/

theorem Step.settled {c : Change β} {l m : List α} (h : Step val key c l m) :
    Settled val key m c := by
  cases h with
  | found he hkey => exact ⟨_, he, hkey⟩
  | added hnew hval => exact ⟨_, List.mem_append_right _ (List.mem_singleton_self _), by rw [hval]⟩
  | dropped =>
      intro e he
      simpa using (List.mem_filter.mp he).2

theorem Step.eq_of_settled {c : Change β} {l m : List α} (h : Step val key c l m)
    (hl : Settled val key l c) : m = l := by
  cases h with
  | found => rfl
  | added hnew hval =>
      obtain ⟨e, he, hkey⟩ := hl
      exact absurd hkey (hnew e he)
  | dropped =>
      refine List.filter_eq_self.mpr fun e he => ?_
      rw [hl e he]
      rfl

/-- What has been settled stays so. -/
theorem Step.keeps_settled {c d : Change β} {cs : List (Change β)} {l m : List α}
    (h : Step val key c l m) (hsep : Separate key cs) (hc : c ∈ cs) (hd : d ∈ cs)
    (hl : Settled val key l d) : Settled val key m d := by
  cases h with
  | found => exact hl
  | @added o _ a hnew hval =>
      cases d with
      | put o' =>
          obtain ⟨e, he, hkey⟩ := hl
          exact ⟨e, List.mem_append_left _ he, hkey⟩
      | drop p =>
          intro e he
          -- An entry that is added is one that was asked for.
          rcases List.mem_append.mp he with he | he
          · exact hl e he
          · rw [List.mem_singleton.mp he]
            exact hsep o p hc hd (val a) (by rw [hval])
  | @dropped p =>
      cases d with
      | put o =>
          -- An entry that is asked for is not dropped.
          obtain ⟨e, he, hkey⟩ := hl
          refine ⟨e, List.mem_filter.mpr ⟨he, ?_⟩, hkey⟩
          rw [hsep o p hd hc (val e) hkey]
          rfl
      | drop q => exact fun e he => hl e (List.mem_filter.mp he).1

/-! ## Runs -/

/-- A run settles its own changes, and keeps those that are settled before it. -/
theorem Run.settles {all cs : List (Change β)} {l n : List α} (h : Run val key cs l n)
    (hsep : Separate key all) (hsub : ∀ c ∈ cs, c ∈ all) :
    ∀ d ∈ all, Settled val key l d ∨ d ∈ cs → Settled val key n d := by
  induction h with
  | done =>
      rintro d - (hd | hd)
      · exact hd
      · exact absurd hd List.not_mem_nil
  | @next c cs l m n hstep hrest ih =>
      -- The induction is on the run; `all` is the whole list of which `cs` is a rest.
      have hc : c ∈ all := hsub c List.mem_cons_self
      rintro d hall (hd | hd)
      · exact ih (fun c' hc' => hsub c' (List.mem_cons_of_mem c hc')) d hall
          (.inl (hstep.keeps_settled hsep hc hall hd))
      · apply ih (fun c' hc' => hsub c' (List.mem_cons_of_mem c hc')) d hall
        rcases List.mem_cons.mp hd with rfl | hd
        · exact .inl hstep.settled
        · exact .inr hd

theorem Run.settled {cs : List (Change β)} {l n : List α} (h : Run val key cs l n)
    (hsep : Separate key cs) : ∀ c ∈ cs, Settled val key n c :=
  fun c hc => h.settles hsep (fun _ hc => hc) c hc (.inr hc)

theorem Run.eq_of_settled {cs : List (Change β)} {l n : List α} (h : Run val key cs l n)
    (hl : ∀ c ∈ cs, Settled val key l c) : n = l := by
  induction h with
  | done => rfl
  | @next c cs l m n hstep hrest ih =>
      have hm : m = l := hstep.eq_of_settled (hl c List.mem_cons_self)
      subst hm
      exact ih fun c' hc' => hl c' (List.mem_cons_of_mem c hc')

/-- A second run over the same changes leaves the list as it is. -/
theorem Run.twice {cs : List (Change β)} {l m n : List α} (h : Run val key cs l m)
    (h' : Run val key cs m n) (hsep : Separate key cs) : n = m :=
  h'.eq_of_settled (h.settled hsep)

/-- An entry stays unless it is dropped. -/
theorem Run.keeps {cs : List (Change β)} {l n : List α} (h : Run val key cs l n) {e : α}
    (he : e ∈ l) : e ∈ n ∨ ∃ p, .drop p ∈ cs ∧ p (val e) = true := by
  induction h with
  | done => exact .inl he
  | @next c cs l m n hstep hrest ih =>
      -- Dropped by a later change is dropped by one of all the changes.
      have hlater : (e ∈ n ∨ ∃ p, .drop p ∈ cs ∧ p (val e) = true) →
          e ∈ n ∨ ∃ p, .drop p ∈ c :: cs ∧ p (val e) = true := by
        rintro (hn | ⟨p, hp, hpe⟩)
        · exact .inl hn
        · exact .inr ⟨p, List.mem_cons_of_mem c hp, hpe⟩
      cases hstep with
      | found => exact hlater (ih he)
      | added => exact hlater (ih (List.mem_append_left _ he))
      | @dropped p =>
          by_cases hp : p (val e) = true
          · exact .inr ⟨p, List.mem_cons_self, hp⟩
          · exact hlater (ih (List.mem_filter.mpr ⟨he, by simpa using hp⟩))

/-- The entries that are added stand behind those that stay, at most one for each `put`, and
    none for a `put` whose key was there before. -/
theorem Run.adds {cs : List (Change β)} {l n : List α} (h : Run val key cs l n)
    (hsep : Separate key cs) :
    ∃ kept added, n = kept ++ added ∧ kept.Sublist l ∧ (added.map val).Sublist (puts cs) ∧
      ∀ a ∈ added, ∀ e ∈ l, key (val e) ≠ key (val a) := by
  induction h with
  | @done l =>
      exact ⟨l, [], (List.append_nil l).symm, List.Sublist.refl l, List.Sublist.refl [],
        fun a ha => absurd ha List.not_mem_nil⟩
  | @next c cs l m n hstep hrest ih =>
      obtain ⟨kept, new, rfl, hkept, hnew, hold⟩ := ih hsep.tail
      cases hstep with
      | found => exact ⟨kept, new, rfl, hkept, hnew.cons _, hold⟩
      | @added o _ a hfresh hval =>
          -- The entry added here may be dropped later on.
          obtain ⟨left, right, rfl, hleft, hright⟩ := List.sublist_append_iff.mp hkept
          refine ⟨left, right ++ new, List.append_assoc left right new, hleft, ?_, ?_⟩
          · have hone : (right.map val).Sublist [o] := by
              have hmap := hright.map val
              rwa [List.map_singleton, hval] at hmap
            rw [List.map_append]
            exact hone.append hnew
          · intro b hb e he
            rcases List.mem_append.mp hb with hb | hb
            · rw [List.mem_singleton.mp (hright.subset hb), hval]
              exact hfresh e he
            · exact hold b hb e (List.mem_append_left _ he)
      | @dropped p =>
          refine ⟨kept, new, rfl, hkept.trans List.filter_sublist, hnew, ?_⟩
          intro a ha e he hkey
          -- A dropped entry with the key of one added later would have been asked for.
          have hput : .put (val a) ∈ cs :=
            mem_puts.mp (hnew.subset (List.mem_map_of_mem (f := val) ha))
          have hstays : p (val e) = false := hsep (val a) p (List.mem_cons_of_mem _ hput)
            List.mem_cons_self (val e) hkey
          exact hold a ha e (List.mem_filter.mpr ⟨he, by rw [hstays]; rfl⟩) hkey

end Reconcile
