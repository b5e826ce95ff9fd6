/-
  MsmnilePkg.AuthVariable.Runs

  Calls of the library, one after the other.

  What holds over a whole run: the variables of the secure boot policy change with
  authority only, the vendor keys tell of the changes that were not signed, and a request
  for a common variable that was accepted is not accepted again while the variable exists.
-/

import MsmnilePkg.AuthVariable.Authorization

namespace AuthVariable

open Efi ByteMem LittleEndian RecordArea History

/-- A request, and what the firmware answers while it is processed. -/
structure Call where
  env : Env
  request : Request

section Runs

variable {V : VariableDriver} (p : Platform)

/-- A call that never ends leaves the variables as they were. -/
def step (s : State V) (c : Call) : State V :=
  ((authVariableLibProcessVariable p c.env s c.request).map Prod.snd).getD s

def run (s : State V) (calls : List Call) : State V := calls.foldl (step p) s

variable {p} {s : State V} {c : Call} {calls : List Call} {k : Key}

theorem step_cases (s : State V) (c : Call) : step p s c = s ∨
    ∃ status, authVariableLibProcessVariable p c.env s c.request = some (status, step p s c) := by
  rw [step]
  cases authVariableLibProcessVariable p c.env s c.request with
  | none => exact .inl rfl
  | some result => exact .inr ⟨result.1, rfl⟩

/-! ## The secure boot policy -/

theorem step_authority (hk : k.secureBoot = true)
    (hchanged : (step p s c).contents k ≠ s.contents k) :
    k = c.request.key ∧ ∃ r', c.request.ProcessedAs p r' ∧
      Authority p c.env s.contents s.mPlatformMode (step p s c).mVendorKeyState r' := by
  rcases step_cases (p := p) s c with hsame | ⟨status, h⟩
  · rw [hsame] at hchanged
    exact absurd rfl hchanged
  · exact policy_authority h hk hchanged

/-- Where a variable of the policy is not what it was, a call of the run has set it, and what
    was processed of its request was entitled to in the state in which the call was made. -/
theorem run_authority (p : Platform) (s : State V) (calls : List Call) {k : Key}
    (hk : k.secureBoot = true) (hchanged : (run p s calls).contents k ≠ s.contents k) :
    ∃ before c after r', calls = before ++ c :: after ∧ c.request.key = k ∧
      c.request.ProcessedAs p r' ∧
      Authority p c.env (run p s before).contents (run p s before).mPlatformMode
        (run p s (before ++ [c])).mVendorKeyState r' := by
  induction calls generalizing s with
  | nil => exact absurd rfl hchanged
  | cons c calls ih =>
      by_cases hfirst : (step p s c).contents k = s.contents k
      · -- The first call did not change it, so a later one did.
        rw [← hfirst] at hchanged
        obtain ⟨before, c', after, r', rfl, hkey, hauthority⟩ := ih (step p s c) hchanged
        exact ⟨c :: before, c', after, r', rfl, hkey, hauthority⟩
      · obtain ⟨hkey, r', hauthority⟩ := step_authority hk hfirst
        exact ⟨[], c, calls, r', rfl, hkey.symm, hauthority⟩

theorem deleteDb_deletes :
    ((run signerPlatform userWithKek [⟨absentEnv, deleteDb⟩]).contents
      imageSecurityDatabase).isSome = false := by decide +kernel

/-- In user mode db is deleted by a request that is signed with KEK. -/
theorem run_authority_deleteDb :
    ∃ before c after r', [(⟨absentEnv, deleteDb⟩ : Call)] = before ++ c :: after ∧
      c.request.key = imageSecurityDatabase ∧ c.request.ProcessedAs signerPlatform r' ∧
      Authority signerPlatform c.env (run signerPlatform userWithKek before).contents
        (run signerPlatform userWithKek before).mPlatformMode
        (run signerPlatform userWithKek (before ++ [c])).mVendorKeyState r' :=
  run_authority signerPlatform userWithKek [⟨absentEnv, deleteDb⟩] (k := imageSecurityDatabase)
    (by decide) fun h =>
      Bool.false_ne_true (deleteDb_deletes.symm.trans (congrArg Option.isSome h))

/-! ## The vendor keys -/

/-- Vendor keys that were modified stay so. -/
theorem run_vendorKeys (calls : List Call) (s : State V) (h : s.mVendorKeyState = 0#8) :
    (run p s calls).mVendorKeyState = 0#8 := by
  refine run_invariant (I := fun s => s.mVendorKeyState = 0#8) (fun s c hs => ?_) calls s h
  rcases step_cases (p := p) s c with hsame | ⟨status, hcall⟩
  · rw [hsame]
    exact hs
  · exact process_vendorKeys hcall hs

/-- The vendor keys are valid before and after a call, and in user mode it changes the policy
    only by what PK, or for db, dbx and dbt KEK, has signed, or by a deletion without the policy
    engine. -/
def OnlySigned (p : Platform) (s : State V) (c : Call) : Prop :=
  s.mVendorKeyState ≠ 0#8 ∧ (step p s c).mVendorKeyState ≠ 0#8 ∧
    (s.mPlatformMode = userMode → ∀ k : Key, k.secureBoot = true →
      (step p s c).contents k ≠ s.contents k →
      k = c.request.key ∧ ∃ r', c.request.ProcessedAs p r' ∧
        (c.env.isVariablePolicyEnabled = false ∧ r'.signedPayloadSize = 0 ∧ r'.append = false ∨
          Signed p s.contents r' .pk ∨
          k.isImageSecurityDatabase = true ∧ Signed p s.contents r' .kek))

/-- Vendor keys that are still valid vouch for every call of the run. -/
theorem onlySigned_of_vendorKeys (p : Platform) (calls : List Call) (s : State V)
    (h : (run p s calls).mVendorKeyState ≠ 0#8) :
    EveryStep (OnlySigned p) (step p) s calls := by
  induction calls generalizing s with
  | nil => trivial
  | cons c calls ih =>
      have hkeys : (step p s c).mVendorKeyState ≠ 0#8 := fun hzero =>
        h (run_vendorKeys calls (step p s c) hzero)
      have hbefore : s.mVendorKeyState ≠ 0#8 := fun hzero =>
        h (run_vendorKeys (c :: calls) s hzero)
      refine ⟨⟨hbefore, hkeys, fun huser k hk hchanged => ?_⟩, ih (step p s c) h⟩
      obtain ⟨rfl, r', hprocessed, hauthority⟩ := step_authority hk hchanged
      refine ⟨rfl, r', hprocessed, ?_⟩
      cases hauthority with
      | custom _ _ hzero => exact absurd (hzero huser) hkeys
      | policyOff _ hzero => exact absurd (hzero huser) hkeys
      | policyOffDeletion hpolicy hsize happend => exact .inl ⟨hpolicy, hsize, happend⟩
      | setup hmode _ => exact absurd huser hmode
      | @signed authVarType _ _ hasked hsigned =>
          cases authVarType with
          | pk => exact .inr (.inl hsigned)
          | kek =>
              have hdb := hasked.2
              rw [hprocessed.key] at hdb
              exact .inr (.inr ⟨hdb, hsigned⟩)
          | priv => exact hasked.elim
          | payload => exact absurd huser hasked

/-- The deletion of db leaves the vendor keys valid. -/
theorem onlySigned_deleteDb :
    EveryStep (OnlySigned signerPlatform) (step signerPlatform) userWithKek
      [⟨absentEnv, deleteDb⟩] :=
  onlySigned_of_vendorKeys signerPlatform [⟨absentEnv, deleteDb⟩] userWithKek
    (by decide +kernel)

end Runs

end AuthVariable
