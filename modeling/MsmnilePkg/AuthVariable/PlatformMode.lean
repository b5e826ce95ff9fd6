/-
  MsmnilePkg.AuthVariable.PlatformMode

  The platform mode: user mode is where PK exists.

  The mode is set where PK is enrolled or deleted.  It depends on the size of the payload and
  not on what became of PK, so an append of nothing has to be left out, and an update of
  the vendor keys that fails.
-/

import MsmnilePkg.AuthVariable.Boots

namespace AuthVariable

open Efi ByteMem LittleEndian RecordArea History

/-! ## The invariant -/

def access : Attributes := efiVariableBootserviceAccess ||| efiVariableRuntimeAccess

section Mode

variable {V : VariableDriver} {p : Platform} {e : Env} {s s' s₁ : State V} {r : Request}
  {status : Status} {c : Call}

/-- The mode is that of PK, and `SetupMode` shows it. -/
structure ModeKept (s : State V) : Prop where
  mode : s.mPlatformMode = if (s.contents platformKey).isSome then userMode else setupMode
  access : ∀ x, s.contents platformKey = some x → x.attributes.has access = true
  shown : ∃ x, s.contents setupModeKey = some x ∧ x.value = [s.mPlatformMode.setWidth 8]

theorem ModeKept.congr (h : ModeKept s) (hmode : s'.mPlatformMode = s.mPlatformMode)
    (hpk : s'.contents platformKey = s.contents platformKey)
    (hsetup : s'.contents setupModeKey = s.contents setupModeKey) : ModeKept s' where
  mode := by rw [hmode, hpk, h.mode]
  access := by
    rw [hpk]
    exact h.access
  shown := by
    rw [hsetup, hmode]
    exact h.shown

/-! ## Setting PK -/

/-- The variable driver has checked the sizes of the descriptor. -/
structure Request.WellSized (r : Request) : Prop where
  dwLength : 24 ≤ r.dwLength
  dataSize : 16 + r.dwLength ≤ r.dataSize
  small : r.dataSize < 2 ^ 64

theorem Request.WellSized.payloadSize (h : r.WellSized) : r.signedPayloadSize = r.payloadSize := by
  obtain ⟨hlength, hsize, hsmall⟩ := h
  have hbound : r.dwLength < 256 ^ 4 := value_lt ..
  rw [Request.signedPayloadSize, Request.sigDataSize, Request.payloadSize, Request.authInfo2Size]
  omega

/-- What the caller of a call owes to the mode: `SetupMode` is read-only, and nothing is
    not appended to PK. -/
structure Call.ForMode (s : State V) (c : Call) : Prop where
  setupMode : c.request.key ≠ setupModeKey
  attributes : SameAttributes s c
  sized : c.request.key = platformKey → c.request.WellSized
  payload : c.request.key = platformKey → c.request.payloadSize = 0 → c.request.append = false

theorem access_mask : ~~~efiVariableAppendWrite &&& access = access := by decide

theorem deletes_eq {u : Update} (haccess : u.attributes.has access = true)
    (happend : u.dataSize = 0 → u.attributes.has efiVariableAppendWrite = false) :
    u.deletes = decide (u.dataSize = 0) := by
  rw [Update.deletes, ← access, haccess, Bool.not_true, Bool.false_or]
  by_cases hsize : u.dataSize = 0
  · rw [decide_eq_true hsize, happend hsize]
    rfl
  · rw [decide_eq_false hsize, Bool.false_and]

/-- After an update of PK that is no failure, PK exists unless the payload was empty, and an
    empty payload has deleted it. -/
theorem pk_updated {u : Update} (hkey : u.key = platformKey)
    (haccess : ∀ x, s.contents platformKey = some x → x.attributes.has access = true)
    (hsame : ∀ x, s.contents platformKey = some x →
      u.attributes &&& ~~~efiVariableAppendWrite = x.attributes)
    (happend : u.dataSize = 0 → u.attributes.has efiVariableAppendWrite = false)
    (hok : (update s u).1.isError = false) :
    ((update s u).2.contents platformKey).isSome = !decide (u.dataSize = 0) ∧
      (u.dataSize = 0 → (s.contents platformKey).isSome = true) ∧
      ∀ x, (update s u).2.contents platformKey = some x → x.attributes.has access = true := by
  have hafter : (update s u).2.contents platformKey = stored (s.contents platformKey) u := by
    rw [update_success hok, ← hkey]
    exact Function.update_self ..
  have hstored : ∀ x, stored (s.contents platformKey) u = some x →
      x.attributes.has access = true ∨
        x.attributes = u.attributes &&& ~~~efiVariableAppendWrite := by
    intro x hx
    rcases stored_cases hx with ⟨c, hc, -, rfl⟩ | ⟨-, rfl⟩
    · exact .inl (haccess c hc)
    · exact .inr rfl
  -- Without access the update deletes.
  have hdeletes : u.attributes.has access = false → u.deletes = true := by
    intro h
    rw [Update.deletes, ← access, h]
    rfl
  cases hold : s.contents platformKey with
  | none =>
      -- What does not exist is not deleted.
      have hnot : u.deletes = false := by
        rw [← Bool.not_eq_true]
        intro hdelete
        have hmissing : s.find u.key = none := by
          rw [hkey]
          exact contents_eq_none.mp hold
        exact Bool.false_ne_true (hok.symm.trans (V.delete_missing s.store u hdelete hmissing))
      have hhas : u.attributes.has access = true := by
        rw [← Bool.not_eq_false]
        exact fun h => Bool.false_ne_true (hnot.symm.trans (hdeletes h))
      rw [deletes_eq hhas happend, decide_eq_false_iff_not] at hnot
      rw [hafter]
      refine ⟨?_, fun hsize => absurd hsize hnot, fun x hx => ?_⟩
      · rw [hold]
        unfold stored
        rw [deletes_eq hhas happend, decide_eq_false hnot, if_neg Bool.false_ne_true]
        simp only [if_neg hnot]
        rfl
      · rcases hstored x hx with h | h
        · exact h
        · rw [h, has_of_plain _ access_mask, hhas]
  | some old =>
      have hhas : u.attributes.has access = true := by
        rw [← has_of_plain u.attributes access_mask, hsame old hold]
        exact haccess old hold
      rw [hafter]
      refine ⟨?_, fun _ => rfl, fun x hx => ?_⟩
      · rw [hold]
        unfold stored
        rw [deletes_eq hhas happend]
        by_cases hsize : u.dataSize = 0
        · rw [decide_eq_true hsize, if_pos rfl]
          rfl
        · rw [decide_eq_false hsize, if_neg Bool.false_ne_true]
          simp only
          split <;> rfl
      · rcases hstored x hx with h | h
        · exact h
        · rw [h, has_of_plain _ access_mask, hhas]

/-- What comes before the mode is set: PK is as it was, or exists unless it was deleted. -/
structure PkUpdated (s s' : State V) (status : Status) (del : Bool) : Prop where
  mode : s'.mPlatformMode = s.mPlatformMode
  setupMode : s'.contents setupModeKey = s.contents setupModeKey
  pk : status.isError = true ∧ s'.contents platformKey = s.contents platformKey ∨
    status.isError = false ∧ (s'.contents platformKey).isSome = !del ∧
      (del = true → (s.contents platformKey).isSome = true) ∧
      ∀ x, s'.contents platformKey = some x → x.attributes.has access = true

theorem PkUpdated.refused (s : State V) (h : status.isError = true) {del : Bool} :
    PkUpdated s s status del := ⟨rfl, rfl, .inl ⟨h, rfl⟩⟩

/-- The payload of PK is not filtered. -/
theorem filtered_pk {data : Buffer} {dataSize : Nat} {attributes : Attributes} :
    filtered p s platformKey data dataSize attributes = some (data, dataSize) := by
  rw [filtered]
  split
  · rfl
  · exact if_neg fun h => h.2.elim (by decide) (by decide)

/-- The update with the payload, `del` being TRUE for an empty one. -/
theorem pkUpdated_of_update (hs : ModeKept s) (hkey : c.request.key = platformKey)
    (hc : c.ForMode s) (hprotected : c.request.protectedAttributes = true) {data payload : Buffer}
    (h : updateWithTimeStamp p s c.request.key data c.request.payloadSize c.request.attributes
      c.request.timeStamp = some ((status, payload), s')) :
    PkUpdated s s' status (decide (c.request.payloadSize = 0)) := by
  have hsame : ∀ x, s.contents platformKey = some x →
      c.request.attributes &&& ~~~efiVariableAppendWrite = x.attributes := by
    intro x hx
    refine (hc.attributes x (hkey ▸ hx)).resolve_right fun hzero => ?_
    rw [Request.protectedAttributes, Request.timeBased, hzero] at hprotected
    exact absurd hprotected (by decide)
  rw [hkey] at h
  obtain ⟨new, hnew, -, heq⟩ := updateWithTimeStamp_eq h
  rw [filtered_pk] at hnew
  cases hnew
  generalize hu : (⟨platformKey, data, c.request.payloadSize, c.request.attributes,
    some c.request.timeStamp⟩ : Update) = u at heq
  have hukey : u.key = platformKey := by rw [← hu]
  have husize : u.dataSize = c.request.payloadSize := by rw [← hu]
  have huattributes : u.attributes = c.request.attributes := by rw [← hu]
  rw [← show (update s u).1 = status from congrArg Prod.fst heq,
    ← show (update s u).2 = s' from congrArg Prod.snd heq]
  have hother : (update s u).2.contents setupModeKey = s.contents setupModeKey :=
    (update_changes s u).wrote.frame fun w hw hkey => by
      rw [hw] at hkey
      exact absurd (hukey.symm.trans hkey) (by decide)
  refine ⟨rfl, hother, ?_⟩
  cases hok : (update s u).1.isError with
  | true => exact .inl ⟨rfl, by rw [update_error hok]⟩
  | false =>
      refine .inr ⟨rfl, ?_⟩
      rw [decide_eq_true_eq, ← husize]
      refine pk_updated hukey hs.access (huattributes ▸ hsame) (fun hsize => ?_) hok
      rw [huattributes]
      exact hc.payload hkey (husize ▸ hsize)

/-- Updates of `VendorKeysNv` and `VendorKeys` do not fail. -/
def VendorKeysSet (V : VariableDriver) : Prop :=
  ∀ store u, u.key.vendor = true → u.deletes = false →
    (V.updateVariable store u).1.isError = false

/-- The vendor keys are marked, and PK is not touched. -/
theorem PkUpdated.vendorKeyIsModified (hV : VendorKeysSet V) {del : Bool}
    (h : PkUpdated s s₁ status del) (hstatus : status.isError = false) :
    PkUpdated s (vendorKeyIsModified s₁).2 (vendorKeyIsModified s₁).1 del := by
  obtain ⟨hchanges, -⟩ := vendorKeyIsModified_changes s₁
  have hframe : ∀ k : Key, k.vendor = false →
      (AuthVariable.vendorKeyIsModified s₁).2.contents k = s₁.contents k := by
    intro k hk
    refine hchanges.wrote.frame fun w hw hkey => ?_
    rw [hkey, hk] at hw
    exact Bool.false_ne_true hw
  have hok : (AuthVariable.vendorKeyIsModified s₁).1.isError = false := by
    rw [AuthVariable.vendorKeyIsModified]
    split
    · rfl
    · simp only
      split
      · rename_i herror
        have hset := hV s₁.store (byteUpdate vendorKeysNvKey 0#8 1
          (attributesNvBs ||| efiVariableTimeBasedAuthenticatedWriteAccess)) (by decide) (by decide)
        exact absurd (hset.symm.trans herror) Bool.false_ne_true
      · exact hV _ (byteUpdate vendorKeysKey 0#8 1 attributesBsRt) (by decide) (by decide)
  refine ⟨hchanges.mode.trans h.mode, (hframe _ (by decide)).trans h.setupMode, ?_⟩
  rw [hok, hframe _ (by decide)]
  refine .inr ⟨rfl, (h.pk.resolve_left fun h => ?_).2⟩
  exact Bool.false_ne_true (hstatus.symm.trans h.1)

/-- A verification, and the update after it. -/
theorem pkUpdated_of_verify (hs : ModeKept s) (hkey : c.request.key = platformKey)
    (hc : c.ForMode s) (hprotected : c.request.protectedAttributes = true)
    {authVarType : AuthVarType} (htype : authVarType ≠ .priv) {del : Bool} {r' : Request}
    (h : verifyTimeBasedPayloadAndUpdate p e s c.request authVarType
      = some ((status, del, r'), s')) :
    PkUpdated s s' status del := by
  rw [verifyTimeBasedPayloadAndUpdate] at h
  split at h
  · cases h
    exact .refused s rfl
  · obtain ⟨⟨st, s₁⟩, hverify, h⟩ := Option.bind_eq_some_iff.mp h
    obtain ⟨-, hsame, -⟩ := verifyTimeBasedPayload_changes hverify
    cases hsame htype
    simp only at h
    split at h
    · rename_i herror
      cases h
      exact .refused _ herror
    · obtain ⟨⟨⟨st', payload⟩, s₂⟩, hupdate, h⟩ := Option.bind_eq_some_iff.mp h
      obtain ⟨after, hdelete, heq⟩ := Option.map_eq_some_iff.mp h
      have hafter := (deleteCertsAfter_changes hdelete).2 htype
      cases hafter
      cases heq
      rw [(hc.sized hkey).payloadSize] at hupdate ⊢
      have hupdated := pkUpdated_of_update hs hkey hc hprotected hupdate
      refine ⟨hupdated.mode, hupdated.setupMode, ?_⟩
      rcases hupdated.pk with herror | ⟨hok, hpk, hdel, haccess⟩
      · exact .inl herror
      · -- The variable was there if the payload is empty, and then it is no append.
        have hisDel : ((s.find c.request.key).isSome && decide (c.request.payloadSize = 0) &&
            !c.request.append) = decide (c.request.payloadSize = 0) := by
          by_cases hsize : c.request.payloadSize = 0
          · have hsome := hdel (decide_eq_true hsize)
            rw [State.contents, Option.isSome_map] at hsome
            rw [decide_eq_true hsize, hc.payload hkey hsize, hkey, hsome]
            rfl
          · rw [decide_eq_false hsize, Bool.and_false, Bool.false_and]
        rw [hisDel, hok, Bool.not_false, Bool.and_true]
        exact .inr ⟨rfl, hpk, hdel, haccess⟩

theorem updateWithPk_pk (hV : VendorKeysSet V) (hs : ModeKept s)
    (hkey : c.request.key = platformKey) (hc : c.ForMode s)
    (hprotected : c.request.protectedAttributes = true) {del : Bool} {r' : Request}
    (h : updateWithPk p e s c.request true = some ((status, del, r'), s')) :
    PkUpdated s s' status del := by
  rw [updateWithPk] at h
  split at h
  · -- No signature is needed.
    obtain ⟨⟨⟨st, left⟩, s₁⟩, hupdate, heq⟩ := Option.map_eq_some_iff.mp h
    obtain ⟨checked, -, hupdate⟩ := Option.bind_eq_some_iff.mp hupdate
    have hupdated : PkUpdated s s₁ st (decide (c.request.payloadSize = 0)) := by
      split at hupdate
      · rename_i herror
        cases hupdate
        exact .refused _ herror
      · obtain ⟨⟨⟨st', payload⟩, s₂⟩, hwritten, hleft⟩ := Option.map_eq_some_iff.mp hupdate
        cases hleft
        exact pkUpdated_of_update hs hkey hc hprotected hwritten
    simp only at heq
    split at heq
    · rename_i herror
      cases heq
      refine ⟨hupdated.mode, hupdated.setupMode, .inl ?_⟩
      exact hupdated.pk.resolve_right fun h => Bool.false_ne_true (h.1.symm.trans herror)
    · rename_i hok
      rw [Bool.not_eq_true] at hok
      split at heq
      · cases heq
        exact hupdated.vendorKeyIsModified hV hok
      · cases heq
        exact hupdated
  · split at h
    · exact pkUpdated_of_verify hs hkey hc hprotected (by decide) h
    · split at h
      · -- PK in setup mode, signed or not.
        rename_i hsetup
        obtain ⟨⟨⟨st, payload⟩, s₁⟩, hupdate, heq⟩ := Option.map_eq_some_iff.mp h
        cases heq
        have hupdated := pkUpdated_of_update hs hkey hc hprotected hupdate
        refine ⟨hupdated.mode, hupdated.setupMode, hupdated.pk.imp_right fun hpk => ?_⟩
        obtain ⟨hok, hpk, hdel, haccess⟩ := hpk
        have hsize : decide (c.request.payloadSize = 0) = false := by
          rw [← Bool.not_eq_true]
          intro hempty
          have hmode := hs.mode
          rw [hdel hempty, if_pos rfl, hsetup.2.1] at hmode
          exact absurd hmode (by decide)
        rw [hsize] at hpk
        exact ⟨hok, hpk, fun h => absurd h Bool.false_ne_true, haccess⟩
      · exact pkUpdated_of_verify hs hkey hc hprotected (by decide) h

/-! ## Setting the mode -/

/-- `SetupMode` is set in place, and what follows does not touch it or PK. -/
theorem updatePlatformMode_spec (mode : BitVec 32)
    (hshown : ∃ x byte, s.contents setupModeKey = some x ∧ x.value = [byte]) :
    (updatePlatformMode e s mode).2.mPlatformMode = (mode.setWidth 8).setWidth 32 ∧
      (updatePlatformMode e s mode).2.contents platformKey = s.contents platformKey ∧
      ∃ x, (updatePlatformMode e s mode).2.contents setupModeKey = some x ∧
        x.value = [((mode.setWidth 8).setWidth 32).setWidth 8] := by
  obtain ⟨x, byte, hx, hvalue⟩ := hshown
  obtain ⟨v, hfind, -⟩ := exists_find hx
  have hset : (setMode s mode).mPlatformMode = (mode.setWidth 8).setWidth 32 ∧
      (setMode s mode).contents platformKey = s.contents platformKey ∧
      ∃ x, (setMode s mode).contents setupModeKey = some x ∧
        x.value = [((mode.setWidth 8).setWidth 32).setWidth 8] := by
    refine ⟨rfl, ?_, { x with value := [((mode.setWidth 8).setWidth 32).setWidth 8] }, ?_, rfl⟩
    · rw [setMode_contents]
      exact Contents.write_of_ne _ (show platformKey ≠ setupModeKey by decide)
    · rw [setMode_contents, Contents.write, Function.update_self, hx, Option.map_some, hvalue]
      rfl
  rw [updatePlatformMode, hfind]
  simp only
  split
  · exact hset
  · have hchanges := updateSecureBootMode_changes (setMode s mode)
    have hframe : ∀ k : Key, k.follows = false →
        (updateSecureBootMode (setMode s mode)).2.contents k = (setMode s mode).contents k := by
      intro k hk
      refine hchanges.wrote.frame fun w hw hkey => ?_
      rw [hkey, hk] at hw
      exact Bool.false_ne_true hw
    rw [hchanges.mode, hframe _ (by decide), hframe _ (by decide)]
    exact hset

/-- Enrolling PK leads to user mode, deleting it to setup mode. -/
theorem processPk_mode (hV : VendorKeysSet V) (hs : ModeKept s)
    (hkey : c.request.key = platformKey) (hc : c.ForMode s) {r' : Request}
    (h : processVarWithPk p e s c.request true = some ((status, r'), s')) : ModeKept s' := by
  rw [processVarWithPk] at h
  split at h
  · cases h
    exact hs
  · rename_i hprotected
    rw [Bool.not_eq_false] at hprotected
    obtain ⟨⟨⟨st, del, left⟩, s₁⟩, hupdate, heq⟩ := Option.map_eq_some_iff.mp h
    have heq : (modeAfter e true st del s₁).2 = s' := congrArg Prod.snd heq
    obtain ⟨hmode, hsetup, hpk⟩ := updateWithPk_pk hV hs hkey hc hprotected hupdate
    have hshown : ∃ x byte, s₁.contents setupModeKey = some x ∧ x.value = [byte] := by
      obtain ⟨x, hx, hvalue⟩ := hs.shown
      exact ⟨x, _, hsetup.trans hx, hvalue⟩
    rw [modeAfter] at heq
    rcases hpk with ⟨herror, hsame⟩ | ⟨hok, hpk, hdel, haccess⟩
    · rw [if_neg (fun hok => Bool.false_ne_true (hok.1.symm.trans herror))] at heq
      cases heq
      exact hs.congr hmode hsame hsetup
    · rw [if_pos ⟨hok, rfl⟩] at heq
      have hold := hs.mode
      -- What the mode becomes where it is set.
      have hset : ∀ mode, (mode.setWidth 8).setWidth 32
          = (if (s₁.contents platformKey).isSome then userMode else setupMode) →
          ModeKept (updatePlatformMode e s₁ mode).2 := by
        intro mode hnew
        obtain ⟨hmode', hpk', hshown'⟩ := updatePlatformMode_spec (e := e) mode hshown
        refine ⟨by rw [hmode', hpk', hnew], by rw [hpk']; exact haccess, ?_⟩
        rw [hmode']
        exact hshown'
      cases del with
      | true =>
          rw [hdel rfl, if_pos rfl] at hold
          rw [hold] at hmode
          rw [if_neg (fun h => absurd h.2 (by decide)), if_pos ⟨hmode, rfl⟩] at heq
          rw [← heq]
          refine hset setupMode ?_
          rw [hpk]
          decide
      | false =>
          split at heq
          · rw [← heq]
            refine hset userMode ?_
            rw [hpk]
            decide
          · -- PK was there before.
            rename_i hnot
            rw [if_neg (fun h => absurd h.2 (by decide))] at heq
            cases heq
            have huser : s₁.mPlatformMode = userMode := by
              by_contra hother
              refine hnot ⟨?_, rfl⟩
              rw [hmode, hold] at hother ⊢
              split at hother
              · exact absurd rfl hother
              · rename_i hnone
                rw [if_neg hnone]
            obtain ⟨x, hx, hvalue⟩ := hs.shown
            refine ⟨by rw [huser, hpk]; rfl, haccess, x, hsetup.trans hx, ?_⟩
            rw [hvalue, hmode]

/-! ## Runs -/

theorem step_mode (hV : VendorKeysSet V) (hs : ModeKept s) (hc : c.ForMode s) :
    ModeKept (step p s c) := by
  rcases step_cases (p := p) s c with hsame | ⟨status, h⟩
  · rw [hsame]
    exact hs
  · by_cases hpk : c.request.key = platformKey
    · rw [authVariableLibProcessVariable, if_pos hpk] at h
      obtain ⟨⟨⟨st, left⟩, s₁⟩, hprocess, heq⟩ := Option.map_eq_some_iff.mp h
      have hstate : s₁ = step p s c := congrArg Prod.snd heq
      rw [← hstate]
      exact processPk_mode hV hs hpk hc hprocess
    · cases hsecure : c.request.key.secureBoot with
      | true =>
          -- KEK, db, dbx or dbt.
          obtain ⟨hwrote, hmode⟩ := other_wrote h hsecure hpk
          have hframe : ∀ k : Key, k.vendor = false → c.request.key ≠ k →
              (step p s c).contents k = s.contents k := by
            intro k hk hne
            refine hwrote.frame fun w hw hkey => ?_
            rcases hw with hw | hw
            · rw [hkey, hk] at hw
              exact Bool.false_ne_true hw
            · exact hne ((Write.sets_key hw).symm.trans hkey)
          exact hs.congr hmode (hframe _ (by decide) hpk) (hframe _ (by decide) hc.setupMode)
      | false =>
          have hprocess : processVariable p c.env s c.request = some (status, step p s c) := by
            rw [Key.secureBoot, Bool.or_eq_false_iff, Bool.or_eq_false_iff,
              decide_eq_false_iff_not, decide_eq_false_iff_not] at hsecure
            rwa [authVariableLibProcessVariable, if_neg hsecure.1.1, if_neg hsecure.1.2,
              hsecure.2, if_neg Bool.false_ne_true] at h
          have hchanges := processVariable_changes hprocess
          have hframe : ∀ k : Key, k.isDb = false → c.request.key ≠ k →
              (step p s c).contents k = s.contents k := by
            intro k hk hne
            obtain ⟨hdb, hvolatile⟩ := Key.ne_of_isDb hk
            refine hchanges.wrote.frame fun w hw hkey => ?_
            rcases hw with (hw | hw) | hw
            · exact hdb (hw.symm.trans hkey)
            · exact hvolatile (hw.symm.trans hkey)
            · exact hne (hw.symm.trans hkey)
          exact hs.congr hchanges.mode (hframe _ (by decide) hpk)
            (hframe _ (by decide) hc.setupMode)

theorem run_mode (hV : VendorKeysSet V) (calls : List Call) (hs : ModeKept s)
    (hcalls : EveryStep Call.ForMode (step p) s calls) : ModeKept (run p s calls) := by
  induction calls generalizing s with
  | nil => exact hs
  | cons c calls ih => exact ih (step_mode hV hs hcalls.1) hcalls.2

/-! ## The initialization -/

theorem andThen_ok {updated : Status × State V} {next : State V → Option (Status × State V)}
    (h : andThen updated next = some (status, s')) (hok : status.isError = false) :
    updated.1.isError = false ∧ next updated.2 = some (status, s') :=
  (andThen_cases h).resolve_left fun h => Bool.false_ne_true (hok.symm.trans h.2)

/-- A variable of one byte that is set. -/
theorem byteUpdate_set {k : Key} {byte : Byte} {attributes : Attributes}
    (hattributes : attributes = attributesBsRt ∨ attributes = attributesNvBs)
    (hok : (update s (byteUpdate k byte 1 attributes)).1.isError = false) :
    (update s (byteUpdate k byte 1 attributes)).2.contents k
        = some ⟨[byte], attributes, noTime⟩ ∧
      ∀ k' ≠ k, (update s (byteUpdate k byte 1 attributes)).2.contents k' = s.contents k' := by
  have hplain : attributes.has access = true ∧
      attributes.has efiVariableAppendWrite = false ∧
      attributes &&& ~~~efiVariableAppendWrite = attributes := by
    rcases hattributes with rfl | rfl <;> decide
  obtain ⟨haccess, happend, hsame⟩ := hplain
  have hdeletes : (byteUpdate k byte 1 attributes).deletes = false :=
    (deletes_eq haccess fun _ => happend).trans rfl
  rw [update_success hok]
  refine ⟨?_, fun k' hk' => Contents.write_of_ne _ hk'⟩
  rw [Contents.write]
  refine (Function.update_self ..).trans ((stored_eq _ hdeletes Nat.one_ne_zero happend).trans ?_)
  refine congrArg some ?_
  rw [Content.mk.injEq]
  exact ⟨rfl, hsame, rfl⟩

/-- `SetupMode` is created. -/
theorem initializePlatformMode_ok {next : State V → Option (Status × State V)}
    (h : initializePlatformMode s next = some (status, s')) (hok : status.isError = false) :
    ∃ s₁ : State V, next s₁ = some (status, s') ∧
      s₁.mPlatformMode = (if (s.contents platformKey).isSome then userMode else setupMode) ∧
      s₁.contents setupModeKey
        = some ⟨[s₁.mPlatformMode.setWidth 8], attributesBsRt, noTime⟩ ∧
      ∀ k ≠ setupModeKey, k ≠ signatureSupportKey → s₁.contents k = s.contents k := by
  rw [initializePlatformMode] at h
  have hfound : (s.find platformKey).isSome = (s.contents platformKey).isSome := by
    rw [State.contents, Option.isSome_map]
  rw [hfound] at h
  obtain ⟨hfirst, h⟩ := andThen_ok h hok
  obtain ⟨hset, hother⟩ := byteUpdate_set (.inl rfl) hfirst
  obtain ⟨-, h⟩ := andThen_ok h hok
  have hframe := fun (s₁ : State V) (u : Update) (hu : u.key = signatureSupportKey) k
      (hk : k ≠ signatureSupportKey) => (update_changes s₁ u).wrote.frame (k := k)
    fun w hw hkey => by
      rw [hw] at hkey
      exact hk (hkey.symm.trans hu)
  refine ⟨_, h, rfl, ?_, fun k hk hk' => ?_⟩
  · rw [hframe _ _ rfl _ (by decide), hset]
    rfl
  · rw [hframe _ _ rfl _ hk', hother k hk]
    rfl

/-- `SecureBootEnable` is not there yet, or one of the values that are for it. -/
def SecureBootEnabled (c : Contents) : Prop :=
  ∀ x, c secureBootEnableKey = some x → x.value = [0#8] ∨ x.value = [1#8]

/-- The properties of `SecureBootEnable` only let one byte be set. -/
def OneByte (c : Contents) : Prop :=
  ∀ x, c secureBootEnableKey = some x → ∃ byte : Byte, x.value = [byte]

theorem secureBootEnabled_iff (hbyte : OneByte s.contents) {v : VariableInfo}
    (hv : s.find secureBootEnableKey = some v) :
    SecureBootEnabled s.contents ↔ v.data 0 = 0#8 ∨ v.data 0 = 1#8 := by
  have hstored := contents_of_find hv
  obtain ⟨byte, hvalue⟩ := hbyte _ hstored
  have hdata : v.data 0 = byte := by
    have hsize : v.dataSize = 1 := by
      rw [← slice_length v.data 0 v.dataSize, show slice v.data 0 v.dataSize = [byte] from hvalue]
      rfl
    have hslice : slice v.data 0 v.dataSize = [byte] := hvalue
    rw [hsize] at hslice
    exact List.head_eq_of_cons_eq hslice
  rw [hdata]
  refine ⟨fun h => ?_, fun h x hx => ?_⟩
  · rcases h _ hstored with h | h
    · exact .inl (List.head_eq_of_cons_eq (hvalue.symm.trans h))
    · exact .inr (List.head_eq_of_cons_eq (hvalue.symm.trans h))
  · cases hstored.symm.trans hx
    rcases h with rfl | rfl
    · exact .inl hvalue
    · exact .inr hvalue

/-- `SecureBoot` and `CustomMode` are created. -/
structure SecureBootSet (s s' : State V) : Prop where
  mode : s'.mPlatformMode = s.mPlatformMode
  secureBoot : ∃ byte : Byte,
    s'.contents secureBootModeKey = some ⟨[byte], attributesBsRt, noTime⟩ ∧
      (byte = 0#8 ∨ byte = 1#8) ∧
      (byte = 1#8 ↔ s.mPlatformMode = userMode ∧ SecureBootEnabled s.contents)
  customMode : s'.contents customModeKey = some ⟨[0#8], attributesNvBs, noTime⟩
  frame : ∀ k : Key, k.follows = false → k ≠ customModeKey → s'.contents k = s.contents k

/-- What follows `SecureBootEnable`, once it is known what that is. -/
theorem secureBootSet_of_enable {next : State V → Option (Status × State V)} {enable : Byte}
    (h : andThen (update s₁ (byteUpdate secureBootModeKey
      (if enable = 1#8 ∧ s₁.mPlatformMode = userMode then 1#8 else 0#8) 1 attributesBsRt))
      (fun s => andThen (update s (byteUpdate customModeKey 0#8 1 attributesNvBs)) next)
        = some (status, s')) (hok : status.isError = false)
    (hmode : s₁.mPlatformMode = s.mPlatformMode)
    (hframe : ∀ k : Key, k.follows = false → s₁.contents k = s.contents k)
    (henable : s.mPlatformMode = userMode → (enable = 1#8 ↔ SecureBootEnabled s.contents)) :
    ∃ s₂ : State V, next s₂ = some (status, s') ∧ SecureBootSet s s₂ := by
  obtain ⟨hfirst, h⟩ := andThen_ok h hok
  obtain ⟨hset, hother⟩ := byteUpdate_set (.inl rfl) hfirst
  obtain ⟨hsecond, h⟩ := andThen_ok h hok
  obtain ⟨hset', hother'⟩ := byteUpdate_set (.inr rfl) hsecond
  refine ⟨_, h, hmode, ⟨_, (hother' _ (by decide)).trans hset, ?_, ?_⟩, hset',
    fun k hk hk' => ?_⟩
  · split
    · exact .inr rfl
    · exact .inl rfl
  · rw [hmode]
    by_cases huser : s.mPlatformMode = userMode
    · rw [← henable huser]
      by_cases hone : enable = 1#8
      · rw [if_pos ⟨hone, huser⟩]
        exact iff_of_true rfl ⟨huser, hone⟩
      · rw [if_neg fun h => hone h.1]
        exact iff_of_false (by decide) fun h => hone h.2
    · rw [if_neg fun h => huser h.2]
      exact iff_of_false (by decide) fun h => huser h.1
  · have hne : k ≠ secureBootModeKey := fun hkey => by
      rw [hkey] at hk
      exact absurd hk (by decide)
    rw [hother' k hk', hother k hne, hframe k hk]

theorem initializeSecureBoot_ok {next : State V → Option (Status × State V)}
    (hbyte : OneByte s.contents) (h : initializeSecureBoot s next = some (status, s'))
    (hok : status.isError = false) :
    ∃ s₁ : State V, next s₁ = some (status, s') ∧ SecureBootSet s s₁ := by
  rw [initializeSecureBoot, initializeSecureBootEnable] at h
  dsimp only at h
  split at h
  · rename_i hnone
    split at h
    · obtain ⟨hfirst, h⟩ := andThen_ok h hok
      obtain ⟨-, hother⟩ := byteUpdate_set (.inr rfl) hfirst
      refine secureBootSet_of_enable h hok rfl (fun k hk => hother k ?_)
        (fun _ => iff_of_true rfl fun x hx => ?_)
      · rintro rfl
        exact absurd hk (by decide)
      · exact absurd (hx.symm.trans (contents_eq_none.mpr hnone)) (Option.some_ne_none x)
    · rename_i hsetup
      exact secureBootSet_of_enable h hok rfl (fun _ _ => rfl) fun huser => absurd huser hsetup
  · rename_i v hv
    have henabled := secureBootEnabled_iff hbyte hv
    split at h
    · split at h
      · -- User mode is not overridden.
        rename_i hzero
        obtain ⟨hfirst, h⟩ := andThen_ok h hok
        obtain ⟨-, hother⟩ := byteUpdate_set (.inr rfl) hfirst
        refine secureBootSet_of_enable h hok rfl (fun k hk => hother k ?_)
          fun _ => iff_of_true rfl (henabled.mpr (.inl hzero))
        rintro rfl
        exact absurd hk (by decide)
      · rename_i hnot
        exact secureBootSet_of_enable h hok rfl (fun _ _ => rfl) fun _ =>
          ⟨fun hone => henabled.mpr (.inr hone), fun h => (henabled.mp h).resolve_left hnot⟩
    · rename_i hsetup
      exact secureBootSet_of_enable h hok rfl (fun _ _ => rfl) fun huser => absurd huser hsetup

/-- The databases are created, or cleaned up. -/
theorem CleanTurns.changes (h : CleanTurns p s s') : Changes Write.toDb s s' := by
  induction h with
  | refl => exact .refl _ _
  | turn hturn _ ih =>
      obtain ⟨_, _, _, hdelete⟩ := cleanTurn_inr hturn
      exact (deleteCertsFromDb_changes hdelete).trans ih

theorem emptyDb_changes (s : State V) (attributes : Attributes) :
    Changes Write.toDb s (update s (emptyDbUpdate attributes)).2 :=
  (update_changes s _).mono fun w hw => by
    rw [hw]
    exact dbKey_cases attributes

theorem initializeCertDb_ok {next : State V → Option (Status × State V)}
    (h : initializeCertDb p s next = some (status, s')) (hok : status.isError = false) :
    ∃ s₁ : State V, next s₁ = some (status, s') ∧ Changes Write.toDb s s₁ := by
  rw [initializeCertDb] at h
  split at h
  · exact ⟨_, (andThen_ok h hok).2, emptyDb_changes s _⟩
  · obtain ⟨⟨st, s₁⟩, hclean, h⟩ := Option.bind_eq_some_iff.mp h
    exact ⟨s₁, (andThen_ok h hok).2, (cleanCertsFromDb_turns hclean).1.changes⟩

theorem initializeVendorKeys_frame (h : initializeVendorKeys s = some (status, s')) :
    s'.mPlatformMode = s.mPlatformMode ∧
      ∀ k : Key, k.vendor = false → s'.contents k = s.contents k := by
  have hframe : ∀ (s : State V) (u : Update), u.key.vendor = true → ∀ k : Key, k.vendor = false →
      (update s u).2.contents k = s.contents k := by
    intro s u hu k hk
    refine (update_changes s u).wrote.frame fun w hw hkey => ?_
    rw [hw] at hkey
    rw [← hkey] at hk
    exact Bool.false_ne_true (hk.symm.trans hu)
  have hvendor := fun (s : State V) (byte : Byte) =>
    hframe s (byteUpdate vendorKeysKey byte 1 attributesBsRt)
      (show vendorKeysKey.vendor = true by decide)
  rw [initializeVendorKeys] at h
  simp only at h
  split at h
  · rename_i v _
    rw [← show (update _ _).2 = s' from congrArg Prod.snd (Option.some.inj h)]
    exact ⟨rfl, hvendor { s with mVendorKeyState := v.data 0 } _⟩
  · have hfirst := hframe { s with mVendorKeyState := 1#8 } (byteUpdate vendorKeysNvKey 1#8 1
      (attributesNvBs ||| efiVariableTimeBasedAuthenticatedWriteAccess)) (by decide)
    rcases andThen_cases h with ⟨heq, -⟩ | ⟨-, hnext⟩
    · rw [← show (update _ _).2 = s' from congrArg Prod.snd heq]
      exact ⟨rfl, hfirst⟩
    · rw [← show (update _ _).2 = s' from congrArg Prod.snd (Option.some.inj hnext)]
      exact ⟨rfl, fun k hk => (hvendor _ _ k hk).trans (hfirst k hk)⟩

/-- What the initialization has shown of the keys. -/
structure Initialized (s s' : State V) : Prop where
  mode : s'.mPlatformMode = if (s.contents platformKey).isSome then userMode else setupMode
  pk : s'.contents platformKey = s.contents platformKey
  setupMode : s'.contents setupModeKey
    = some ⟨[s'.mPlatformMode.setWidth 8], attributesBsRt, noTime⟩
  secureBoot : ∃ byte : Byte,
    s'.contents secureBootModeKey = some ⟨[byte], attributesBsRt, noTime⟩ ∧
      (byte = 0#8 ∨ byte = 1#8) ∧
      (byte = 1#8 ↔ (s.contents platformKey).isSome = true ∧ SecureBootEnabled s.contents)
  customMode : s'.contents customModeKey = some ⟨[0#8], attributesNvBs, noTime⟩

theorem userMode_iff (isSome : Bool) :
    (if isSome then userMode else setupMode) = userMode ↔ isSome = true := by
  cases isSome <;> decide

/-- An initialization that succeeds, of whatever was there before. -/
theorem initialize_ok (hbyte : OneByte s.contents) {allocateRuntimePool : Bool}
    (h : authVariableLibInitialize p allocateRuntimePool s = some (status, s'))
    (hok : status.isError = false) : Initialized s s' := by
  rw [authVariableLibInitialize] at h
  split at h
  · cases h
    exact absurd hok (by decide)
  · obtain ⟨s₁, h, hmode, hsetup, hframe⟩ := initializePlatformMode_ok h hok
    have henable := hframe secureBootEnableKey (by decide) (by decide)
    obtain ⟨s₂, h, hset⟩ := initializeSecureBoot_ok
      (fun x hx => hbyte x (henable.symm.trans hx)) h hok
    obtain ⟨s₃, h, hdb⟩ := initializeCertDb_ok h hok
    rw [initializeCertDbVolatile] at h
    obtain ⟨-, h⟩ := andThen_ok h hok
    obtain ⟨hmode', hvendor⟩ := initializeVendorKeys_frame h
    -- Nothing of this is in the databases, or a vendor key.
    have hkept : ∀ k : Key, k.isDb = false → k.vendor = false → s'.contents k = s₂.contents k := by
      intro k hk hk'
      obtain ⟨hcertDb, hvolatile⟩ := Key.ne_of_isDb hk
      have hnot : ∀ w : Write, w.toDb → w.key ≠ k := by
        rintro w (hw | hw) hkey
        · exact hcertDb (hw.symm.trans hkey)
        · exact hvolatile (hw.symm.trans hkey)
      rw [hvendor k hk', (emptyDb_changes s₃ _).wrote.frame hnot, hdb.wrote.frame hnot]
    have hmodes : s'.mPlatformMode = s₁.mPlatformMode :=
      (hmode'.trans ((emptyDb_changes s₃ _).mode.trans hdb.mode)).trans hset.mode
    refine ⟨hmodes.trans hmode, ?_, ?_, ?_, ?_⟩
    · rw [hkept _ (by decide) (by decide), hset.frame _ (by decide) (by decide),
        hframe _ (by decide) (by decide)]
    · rw [hkept _ (by decide) (by decide), hset.frame _ (by decide) (by decide), hsetup, hmodes]
    · obtain ⟨byte, hbyte, hvalues, hiff⟩ := hset.secureBoot
      rw [hmode, userMode_iff] at hiff
      refine ⟨byte, (hkept _ (by decide) (by decide)).trans hbyte, hvalues, hiff.trans ?_⟩
      rw [SecureBootEnabled, henable]
      rfl
    · rw [hkept _ (by decide) (by decide), hset.customMode]

/-- `SecureBoot` after an initialization: it is on where PK exists and `SecureBootEnable` has
    no other value than 0 or 1, which user mode overrides. -/
theorem initialize_secureBoot (hbyte : OneByte s.contents) {allocateRuntimePool : Bool}
    (h : authVariableLibInitialize p allocateRuntimePool s = some (status, s'))
    (hok : status.isError = false) :
    (∃ x, s'.contents secureBootModeKey = some x ∧ (x.value = [0#8] ∨ x.value = [1#8]) ∧
      (x.value = [1#8] ↔
        (s.contents platformKey).isSome = true ∧ SecureBootEnabled s.contents)) ∧
      (∃ x, s'.contents setupModeKey = some x ∧
        x.value = [if (s.contents platformKey).isSome then 0#8 else 1#8]) ∧
      ∃ x, s'.contents customModeKey = some x ∧ x.value = [0#8] := by
  have hinit := initialize_ok hbyte h hok
  obtain ⟨byte, hstored, hvalues, hiff⟩ := hinit.secureBoot
  refine ⟨⟨_, hstored, ?_, ?_⟩, ⟨_, hinit.setupMode, ?_⟩, _, hinit.customMode, rfl⟩
  · rcases hvalues with rfl | rfl
    · exact .inl rfl
    · exact .inr rfl
  · rw [← hiff, List.cons.injEq, eq_self, and_true]
  · rw [hinit.mode]
    cases (s.contents platformKey).isSome <;> rfl

/-- From any initialization on, the system is in user mode where PK exists, and `SetupMode`
    tells it. -/
theorem run_mode_of_boot (hV : VendorKeysSet V) (hbyte : OneByte s.contents)
    (haccess : ∀ x, s.contents platformKey = some x → x.attributes.has access = true)
    {allocateRuntimePool : Bool}
    (h : authVariableLibInitialize p allocateRuntimePool s = some (status, s'))
    (hok : status.isError = false) (calls : List Call)
    (hcalls : EveryStep Call.ForMode (step p) s' calls) :
    (run p s' calls).mPlatformMode
        = (if ((run p s' calls).contents platformKey).isSome then userMode else setupMode) ∧
      ∃ x, (run p s' calls).contents setupModeKey = some x ∧
        x.value = [if ((run p s' calls).contents platformKey).isSome then 0#8 else 1#8] := by
  have hinit := initialize_ok hbyte h hok
  have hkept : ModeKept s' := {
    mode := by rw [hinit.mode, hinit.pk]
    access := by
      rw [hinit.pk]
      exact haccess
    shown := ⟨_, hinit.setupMode, rfl⟩ }
  obtain ⟨hmode, -, x, hx, hvalue⟩ := run_mode hV calls hkept hcalls
  refine ⟨hmode, x, hx, hvalue.trans ?_⟩
  rw [hmode]
  cases ((run p s' calls).contents platformKey).isSome <;> rfl

end Mode

/-! ### PK is deleted -/

/-- A list of one X.509 certificate, that of `signingPlatform`. -/
def pkList : List Byte :=
  Guid.bytes efiCertX509Guid ++ field 45 4 ++ field 0 4 ++ field 17 4 ++ List.replicate 16 0#8 ++
    [0x30]

/-- The variables of a system with PK, before it starts. -/
def ownedState : State plainDriver :=
  { factoryState with
    store := Function.update (fun _ => none) platformKey (some ⟨pkList, 0x27#32, noTime⟩) }

def ownedBoot : State plainDriver :=
  ((authVariableLibInitialize signingPlatform true ownedState).map Prod.snd).getD ownedState

theorem ownedBoot_eq : authVariableLibInitialize signingPlatform true ownedState
    = some (.success, ownedBoot) := rfl

/-- The driver of `ownedState` never fails but to delete. -/
theorem plainDriver_vendorKeys : VendorKeysSet plainDriver := by
  intro store u _ hdeletes
  change (if u.deletes && (store u.key).isNone then _ else _ : Status × Contents).1.isError = false
  rw [hdeletes, Bool.false_and, if_neg Bool.false_ne_true]
  rfl

theorem owned_enable : ownedState.contents secureBootEnableKey = none := by
  rw [plain_contents]
  rfl

theorem owned_pk : ownedState.contents platformKey = some ⟨pkList, 0x27#32, noTime⟩ := by
  rw [plain_contents]
  rfl

theorem initialize_secureBoot_owned :
    ∃ x, ownedBoot.contents secureBootModeKey = some x ∧ x.value = [1#8] := by
  obtain ⟨⟨x, hx, -, hiff⟩, -⟩ := initialize_secureBoot
    (fun x hx => nomatch owned_enable.symm.trans hx) ownedBoot_eq rfl
  exact ⟨x, hx, hiff.mpr ⟨by rw [owned_pk]; rfl, fun x hx => nomatch owned_enable.symm.trans hx⟩⟩

/-- A signed deletion. -/
def deletePk : Request := ⟨platformKey, signedRequest.data, 62, 0x27#32⟩

theorem run_mode_of_boot_deletePk :
    (run signingPlatform ownedBoot [⟨absentEnv, deletePk⟩]).mPlatformMode = setupMode := by
  have hmode := (run_mode_of_boot plainDriver_vendorKeys
    (fun x hx => nomatch owned_enable.symm.trans hx)
    (fun x hx => by
      cases owned_pk.symm.trans hx
      rfl)
    ownedBoot_eq rfl [⟨absentEnv, deletePk⟩] ⟨{
      setupMode := by decide
      attributes := fun x hx => .inl (by
        rw [plain_contents] at hx
        cases (show ownedBoot.store platformKey = some ⟨pkList, 0x27#32, noTime⟩ from
          by decide +kernel).symm.trans hx
        decide)
      sized := fun _ => ⟨by decide, by decide, by decide⟩
      payload := fun _ _ => by decide }, trivial⟩).1
  exact hmode.trans (by decide +kernel)

/-- An append of nothing, by the user. -/
def appendPk : Request := ⟨platformKey, signedRequest.data, 62, 0x67#32⟩

/-- PK stays, and yet the system is in setup mode: where no signature is needed, every empty
    payload counts as a deletion. -/
example : (run signingPlatform ownedBoot [⟨⟨true, false, false, false⟩, appendPk⟩]).mPlatformMode
      = setupMode ∧
    ((run signingPlatform ownedBoot [⟨⟨true, false, false, false⟩, appendPk⟩]).contents
      platformKey).isSome = true := by decide +kernel

end AuthVariable
