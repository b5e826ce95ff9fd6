/-
  MsmnilePkg.BootOptions.LoadOptions

  The boot options as the boot manager keeps them.

  The library of the boot manager is not part of the repository.  Its functions are a
  parameter, with what is documented of them: options are found by type, attributes,
  description, device path and optional data, added at the end under a number of their own,
  and deleted by number.  The `BootOrder` and `Boot####` variables behave so.
-/

import MsmnilePkg.Lib.Reconcile

namespace BootOptions

abbrev Guid := BitVec 128

/-- The nodes that the library makes, and any other. -/
inductive Node where
  /-- `MEDIA_FW_VOL_FILEPATH_DEVICE_PATH` -/
  | fvFile (name : Guid)
  /-- `MEDIA_FW_VOL_DEVICE_PATH` -/
  | fvName (name : Guid)
  | other (bytes : List (BitVec 8))
deriving DecidableEq

abbrev DevicePath := List Node

inductive LoadOptionType where
  | driver
  | sysPrep
  | boot
  | platformRecovery
deriving DecidableEq

/-- `EFI_BOOT_MANAGER_LOAD_OPTION`, but for its number. -/
structure LoadOption where
  optionType : LoadOptionType
  attributes : BitVec 32
  description : String
  filePath : DevicePath
  optionalData : List (BitVec 8)
deriving DecidableEq

/-- `LOAD_OPTION_ACTIVE` -/
def loadOptionActive : BitVec 32 := 1#32

/-- `Attributes ^= LOAD_OPTION_ACTIVE` -/
def LoadOption.toggle (o : LoadOption) : LoadOption :=
  { o with attributes := o.attributes ^^^ loadOptionActive }

/-- An option but for the ACTIVE attribute. -/
def LoadOption.key (o : LoadOption) : LoadOption :=
  { o with attributes := o.attributes &&& ~~~loadOptionActive }

theorem loadOptionActive_getLsbD (i : Nat) : loadOptionActive.getLsbD i = decide (i = 0) := by
  rw [loadOptionActive, BitVec.getLsbD_one]
  simp

theorem attributes_key_iff (a b : BitVec 32) :
    a &&& ~~~loadOptionActive = b &&& ~~~loadOptionActive ↔ a = b ∨ a = b ^^^ loadOptionActive := by
  have hbit : ∀ v : BitVec 32, ∀ i, (v &&& ~~~loadOptionActive).getLsbD i =
      (v.getLsbD i && !decide (i = 0)) := by
    intro v i
    rw [BitVec.getLsbD_and, BitVec.getLsbD_not, loadOptionActive_getLsbD]
    by_cases hi : i < 32
    · simp [hi]
    · simp [BitVec.getLsbD_of_ge v i (by omega)]
  have htoggle : ∀ i, (b ^^^ loadOptionActive).getLsbD i = (b.getLsbD i ^^ decide (i = 0)) := by
    intro i
    rw [BitVec.getLsbD_xor, loadOptionActive_getLsbD]
  constructor
  · intro h
    -- The mask leaves every bit but bit 0.
    have hsame : ∀ i, i ≠ 0 → a.getLsbD i = b.getLsbD i := by
      intro i hi
      have hat := congrArg (fun v : BitVec 32 => v.getLsbD i) h
      simpa [hbit, hi] using hat
    -- The two agree in bit 0 as well, or differ there alone.
    by_cases h0 : a.getLsbD 0 = b.getLsbD 0
    · refine .inl (BitVec.eq_of_getLsbD_eq fun i _ => ?_)
      by_cases hi : i = 0
      · rw [hi, h0]
      · exact hsame i hi
    · refine .inr (BitVec.eq_of_getLsbD_eq fun i _ => ?_)
      rw [htoggle]
      by_cases hi : i = 0
      · subst hi
        cases ha : a.getLsbD 0 <;> cases hb : b.getLsbD 0 <;> simp_all
      · simp [hi, hsame i hi]
  · rintro (rfl | rfl)
    · rfl
    · refine BitVec.eq_of_getLsbD_eq fun i _ => ?_
      rw [hbit, hbit, htoggle]
      by_cases hi : i = 0 <;> simp [hi]

/-- What the two probes look for, with the bit as it is and toggled. -/
theorem key_eq_iff (e o : LoadOption) : e.key = o.key ↔ e = o ∨ e = o.toggle := by
  obtain ⟨type, attributes, description, path, data⟩ := e
  obtain ⟨type', attributes', description', path', data'⟩ := o
  simp only [LoadOption.key, LoadOption.toggle, LoadOption.mk.injEq, attributes_key_iff]
  rw [← and_or_left, ← or_and_right]

/-! ## The boot manager -/

/-- A number and the option under it. -/
abbrev Entry := Nat × LoadOption

/-- The functions of the boot manager's library, over the variables that it keeps. -/
structure BootManager (σ : Type*) where
  /-- `EfiBootManagerGetLoadOptions` -/
  getLoadOptions : σ → List Entry
  /-- `EfiBootManagerFindLoadOption`; `none` is the index -1. -/
  findLoadOption : LoadOption → List Entry → Option Nat
  /-- `EfiBootManagerAddLoadOptionVariable` with the position -1, and the number it chooses. -/
  addLoadOptionVariable : LoadOption → σ → Nat × σ
  /-- `EfiBootManagerDeleteLoadOptionVariable` -/
  deleteLoadOptionVariable : Nat → σ → σ

/-- What is documented of these functions. -/
structure BootManager.Documented {σ : Type*} (bm : BootManager σ) : Prop where
  /-- There is one option under a number. -/
  numbered : ∀ s, ∀ e ∈ bm.getLoadOptions s, ∀ e' ∈ bm.getLoadOptions s, e.1 = e'.1 → e = e'
  found : ∀ o options i, bm.findLoadOption o options = some i →
    ∃ e, options[i]? = some e ∧ e.2 = o
  notFound : ∀ o options, bm.findLoadOption o options = none → ∀ e ∈ options, e.2 ≠ o
  added : ∀ o s, bm.getLoadOptions (bm.addLoadOptionVariable o s).2
    = bm.getLoadOptions s ++ [((bm.addLoadOptionVariable o s).1, o)]
  fresh : ∀ o s, ∀ e ∈ bm.getLoadOptions s, e.1 ≠ (bm.addLoadOptionVariable o s).1
  deleted : ∀ n s, bm.getLoadOptions (bm.deleteLoadOptionVariable n s)
    = (bm.getLoadOptions s).filter fun e => e.1 ≠ n

/-- The loop that deletes the entries of a snapshot that `p` holds of. -/
def BootManager.deleteAll {σ : Type*} (bm : BootManager σ) (p : LoadOption → Bool)
    (snapshot : List Entry) (s : σ) : σ :=
  snapshot.foldl (fun s e => if p e.2 then bm.deleteLoadOptionVariable e.1 s else s) s

section DeleteAll

variable {σ : Type*} {bm : BootManager σ}

theorem getLoadOptions_deleteAll (hbm : bm.Documented) (p : LoadOption → Bool)
    (snapshot : List Entry) (s : σ) :
    bm.getLoadOptions (bm.deleteAll p snapshot s) = (bm.getLoadOptions s).filter fun e =>
      decide (∀ x ∈ snapshot, p x.2 = true → e.1 ≠ x.1) := by
  induction snapshot generalizing s with
  | nil => simp [BootManager.deleteAll]
  | cons x snapshot ih =>
      -- The induction is on the snapshot, over the stores that the loop goes through.
      rw [BootManager.deleteAll, List.foldl_cons]
      by_cases hp : p x.2 = true
      · rw [if_pos hp]
        refine (ih _).trans ?_
        rw [hbm.deleted, List.filter_filter]
        apply List.filter_congr
        intro e _
        rw [Bool.eq_iff_iff]
        simp only [Bool.and_eq_true, decide_eq_true_eq, List.forall_mem_cons, hp, forall_const]
        exact and_comm
      · rw [if_neg hp]
        refine (ih _).trans ?_
        apply List.filter_congr
        intro e _
        simp [hp]

/-- With the snapshot taken of the store itself, the loop is a filter. -/
theorem getLoadOptions_deleteAll_self (hbm : bm.Documented) (p : LoadOption → Bool) (s : σ) :
    bm.getLoadOptions (bm.deleteAll p (bm.getLoadOptions s) s)
      = (bm.getLoadOptions s).filter fun e => !p e.2 := by
  rw [getLoadOptions_deleteAll hbm]
  apply List.filter_congr
  intro e he
  cases hp : p e.2 with
  | true =>
      rw [Bool.not_true, decide_eq_false_iff_not]
      -- The entry itself is in the snapshot.
      exact fun h => h e he hp rfl
  | false =>
      simp only [Bool.not_false, decide_eq_true_eq]
      -- An entry of the snapshot under the same number is the same entry.
      rintro x hx hpx hn
      rw [hbm.numbered s e he x hx hn, hpx] at hp
      exact Bool.false_ne_true hp.symm

end DeleteAll

/-! ## The variables -/

/-- `BootOrder`, and the option in each `Boot####`. -/
structure Store where
  order : List Nat
  bootOption : Nat → Option LoadOption

/-- Options are read in the order of `BootOrder`; a number without a variable is passed over. -/
def Store.entries (s : Store) : List Entry :=
  s.order.filterMap fun n => (s.bootOption n).map fun o => (n, o)

/-- How a number is chosen for an option that is added. -/
structure Numbering where
  free : List Nat → Nat
  fresh : ∀ order, free order ∉ order

def Store.add (numbering : Numbering) (o : LoadOption) (s : Store) : Nat × Store :=
  let n := numbering.free s.order
  (n, { order := s.order ++ [n], bootOption := fun m => if m = n then some o else s.bootOption m })

def Store.delete (n : Nat) (s : Store) : Store where
  order := s.order.filter fun m => m ≠ n
  bootOption := fun m => if m = n then none else s.bootOption m

/-- The boot manager over `BootOrder` and the `Boot####` variables. -/
def bootVariables (numbering : Numbering) : BootManager Store where
  getLoadOptions := Store.entries
  findLoadOption o options := options.findIdx? fun e => decide (e.2 = o)
  addLoadOptionVariable := Store.add numbering
  deleteLoadOptionVariable := Store.delete

theorem mem_entries {s : Store} {n : Nat} {o : LoadOption} :
    (n, o) ∈ s.entries ↔ n ∈ s.order ∧ s.bootOption n = some o := by
  simp only [Store.entries, List.mem_filterMap, Option.map_eq_some_iff, Prod.mk.injEq]
  constructor
  · rintro ⟨m, hm, o', ho', rfl, rfl⟩
    exact ⟨hm, ho'⟩
  · rintro ⟨hn, ho⟩
    exact ⟨n, hn, o, ho, rfl, rfl⟩

/-- The option is stored under its number. -/
theorem entries_functional {s : Store} {e e' : Entry} (h : e ∈ s.entries) (h' : e' ∈ s.entries)
    (hn : e.1 = e'.1) : e = e' := by
  have ho := (mem_entries.mp h).2
  rw [hn, (mem_entries.mp h').2, Option.some.injEq] at ho
  exact Prod.ext hn ho.symm

theorem entries_add (numbering : Numbering) (o : LoadOption) (s : Store) :
    (s.add numbering o).2.entries = s.entries ++ [(numbering.free s.order, o)] := by
  have hfresh := numbering.fresh s.order
  rw [Store.add, Store.entries, Store.entries, List.filterMap_append]
  congr 1
  · -- The options under the old numbers stay, since the number is fresh.
    apply List.filterMap_congr
    intro m hm
    have hne : m ≠ numbering.free s.order := by
      rintro rfl
      exact hfresh hm
    show Option.map _ (if m = numbering.free s.order then _ else _) = _
    rw [if_neg hne]
  · simp

theorem entries_delete (n : Nat) (s : Store) :
    (s.delete n).entries = s.entries.filter fun e => e.1 ≠ n := by
  rw [Store.delete, Store.entries, Store.entries, List.filterMap_filter,
    List.filter_filterMap]
  apply List.filterMap_congr
  intro m _
  by_cases hm : m = n
  · cases hv : s.bootOption m <;> simp [hm, Option.filter]
  · cases hv : s.bootOption m <;> simp [hm, hv, Option.filter]

theorem bootVariables_documented (numbering : Numbering) : (bootVariables numbering).Documented where
  numbered _ _ he _ he' hn := entries_functional he he' hn
  found o options i h := by
    obtain ⟨hlt, heq, -⟩ := List.findIdx?_eq_some_iff_getElem.mp h
    exact ⟨options[i], List.getElem?_eq_getElem hlt, of_decide_eq_true heq⟩
  notFound o options h e he heq :=
    Bool.false_ne_true ((List.findIdx?_eq_none_iff.mp h e he).symm.trans (decide_eq_true heq))
  added := entries_add numbering
  fresh _ s e he hn := by
    have hmem : e.1 ∈ s.order := (mem_entries.mp he).1
    rw [hn] at hmem
    exact numbering.fresh s.order hmem
  deleted := entries_delete

end BootOptions
