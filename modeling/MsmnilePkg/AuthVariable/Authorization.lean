/-
  MsmnilePkg.AuthVariable.Authorization

  Who may change PK, KEK, db, dbx and dbt.

  In user mode they change for a user who is present in custom mode, without the policy
  engine, or for a request that is signed with PK, or for db, dbx and dbt with KEK.  A
  change without a signature in user mode marks the vendor keys as modified.
-/

import MsmnilePkg.AuthVariable.Writes
import MsmnilePkg.Lib.History

namespace AuthVariable

open Efi ByteMem LittleEndian RecordArea

/-- `CustomMode` is CUSTOM_SECURE_BOOT_MODE. -/
def CustomMode (c : Contents) : Prop :=
  ∃ v : VariableInfo, c customModeKey = some v.content ∧ v.data 0 = 1#8

/-- The signature that is asked for. -/
def Asked (mode : BitVec 32) (r : Request) : AuthVarType → Prop
  | .pk => mode = userMode
  | .kek => mode = userMode ∧ r.key.isImageSecurityDatabase = true
  | .priv => False
  | .payload => mode ≠ userMode

/-- What entitles a request to a change; `vendorKeys` is `mVendorKeyState` after it. -/
inductive Authority (p : Platform) (e : Env) (c : Contents) (mode : BitVec 32) (vendorKeys : Byte)
    (r : Request) : Prop where
  | custom : CustomMode c → e.userPhysicalPresent = true →
      (mode = userMode → vendorKeys = 0#8) → Authority p e c mode vendorKeys r
  | policyOff : e.isVariablePolicyEnabled = false →
      (mode = userMode → vendorKeys = 0#8) → Authority p e c mode vendorKeys r
  /-- A deletion that is not verified. -/
  | policyOffDeletion : e.isVariablePolicyEnabled = false → r.signedPayloadSize = 0 →
      r.append = false → Authority p e c mode vendorKeys r
  /-- Not in user mode, where PK may have to be signed by itself. -/
  | setup : mode ≠ userMode →
      ¬(r.key = platformKey ∧ p.pcdRequireSelfSignedPk = true ∧ p.pcdEnforceSelfsignedPk = true) →
      Authority p e c mode vendorKeys r
  /-- Signed, at boot time, and not with a time stamp that is old. -/
  | signed {authVarType : AuthVarType} : e.efiAtRuntime = false →
      r.descriptorOk ((c r.key).map Content.timeStamp) = true → Asked mode r authVarType →
      Signed p c r authVarType → Authority p e c mode vendorKeys r

/-! ## The second try -/

/-- Where the payload of a request begins. -/
def Request.PayloadAt (r : Request) (offset : Nat) : Prop :=
  offset = r.authInfo2Size ∨ offset = 40 + r.sigDataSize

/-- What is processed of a request: for db, dbx and dbt there is a second try, and of an
    append the first one has moved to the front of the payload what the filter has kept. -/
inductive Request.ProcessedAs (p : Platform) (r : Request) : Request → Prop where
  | same : ProcessedAs p r r
  | second {offset size dataSize newSize : Nat} {scratch : Option Buffer} {data payload : Buffer}
      {status : Status} : r.key.isImageSecurityDatabase = true → r.append = true →
      r.PayloadAt offset →
      filterSignatureList p.limit scratch data dataSize (shift r.data offset) size
        = some (status, payload, newSize) → ProcessedAs p r (r.overwrite offset payload)

section SecondTry

variable {V : VariableDriver} {p : Platform} {e : Env} {s s' : State V} {r r' : Request}
  {status : Status} {del : Bool}

theorem Request.ProcessedAs.key (h : r.ProcessedAs p r') : r'.key = r.key := by
  cases h <;> rfl

theorem Request.ProcessedAs.attributes (h : r.ProcessedAs p r') :
    r'.attributes = r.attributes := by
  cases h <;> rfl

theorem Request.overwrite_self (r : Request) (offset : Nat) :
    r.overwrite offset (shift r.data offset) = r := by
  have hdata : (fun i => if i < offset then r.data i else shift r.data offset (i - offset))
      = r.data := by
    funext i
    split
    · rfl
    · rw [shift, Nat.add_sub_cancel' (by omega)]
  rw [Request.overwrite, hdata]

theorem updateWithTimeStamp_processedAs (hdb : r.key.isImageSecurityDatabase = true)
    {offset size : Nat} (hoffset : r.PayloadAt offset) {payload : Buffer}
    (h : updateWithTimeStamp p s r.key (shift r.data offset) size r.attributes r.timeStamp
      = some ((status, payload), s')) : r.ProcessedAs p (r.overwrite offset payload) := by
  obtain ⟨new, hfiltered, rfl, -⟩ := updateWithTimeStamp_eq h
  have hsame : new = (shift r.data offset, size) → r.ProcessedAs p (r.overwrite offset new.1) := by
    rintro rfl
    rw [r.overwrite_self]
    exact .same
  rw [filtered] at hfiltered
  split at hfiltered
  · exact hsame (Option.some.inj hfiltered).symm
  · split at hfiltered
    · rename_i happend
      obtain ⟨⟨st, kept⟩, hfilter, rfl⟩ := Option.map_eq_some_iff.mp hfiltered
      exact .second hdb happend.1 hoffset hfilter
    · exact hsame (Option.some.inj hfiltered).symm

theorem updatePayload_processedAs (hdb : r.key.isImageSecurityDatabase = true)
    (h : updatePayload p s r = some ((status, r'), s')) : r.ProcessedAs p r' := by
  obtain ⟨checked, -, h⟩ := Option.bind_eq_some_iff.mp h
  split at h
  · cases h
    exact .same
  · obtain ⟨⟨⟨st, payload⟩, s₁⟩, hupdate, heq⟩ := Option.map_eq_some_iff.mp h
    cases heq
    exact updateWithTimeStamp_processedAs hdb (.inl rfl) hupdate

theorem Request.signedPayload_eq (r : Request) :
    r.signedPayload = shift r.data (40 + r.sigDataSize) := by
  funext i
  rw [Request.signedPayload, Request.sigData, shift, shift, shift, Nat.add_assoc]

theorem verifyAndUpdate_processedAs (hdb : r.key.isImageSecurityDatabase = true)
    {authVarType : AuthVarType}
    (h : verifyTimeBasedPayloadAndUpdate p e s r authVarType = some ((status, del, r'), s')) :
    r.ProcessedAs p r' := by
  rw [verifyTimeBasedPayloadAndUpdate] at h
  split at h
  · cases h
    exact .same
  · obtain ⟨⟨st, s₁⟩, -, h⟩ := Option.bind_eq_some_iff.mp h
    simp only at h
    split at h
    · cases h
      exact .same
    · obtain ⟨⟨⟨st', payload⟩, s₂⟩, hupdate, h⟩ := Option.bind_eq_some_iff.mp h
      obtain ⟨after, -, heq⟩ := Option.map_eq_some_iff.mp h
      cases heq
      rw [r.signedPayload_eq] at hupdate
      exact updateWithTimeStamp_processedAs hdb (.inr rfl) hupdate

/-- What `ProcessVarWithPk` leaves of the request. -/
theorem processVarWithPk_processedAs (hdb : r.key.isImageSecurityDatabase = true)
    (h : processVarWithPk p e s r false = some ((status, r'), s')) : r.ProcessedAs p r' := by
  rw [processVarWithPk] at h
  split at h
  · cases h
    exact .same
  · obtain ⟨⟨⟨st, del, left⟩, s₁⟩, hupdate, heq⟩ := Option.map_eq_some_iff.mp h
    cases heq
    rw [updateWithPk] at hupdate
    split at hupdate
    · obtain ⟨⟨⟨st', left'⟩, s₂⟩, hpayload, heq⟩ := Option.map_eq_some_iff.mp hupdate
      simp only at heq
      split_ifs at heq <;> cases heq <;> exact updatePayload_processedAs hdb hpayload
    · split at hupdate
      · exact verifyAndUpdate_processedAs hdb hupdate
      · rw [if_neg (fun hpk => absurd hpk.2.2 Bool.false_ne_true)] at hupdate
        exact verifyAndUpdate_processedAs hdb hupdate

/-- What the library does with a variable that is set: there is a second try where the first
    one failed. -/
theorem process_cases (h : authVariableLibProcessVariable p e s r = some (status, s')) :
    (r.key = platformKey ∧ ∃ r', processVarWithPk p e s r true = some ((status, r'), s')) ∨
    (r.key ≠ platformKey ∧ r.key.secureBoot = true ∧
      ∃ r', processVarWithPk p e s r false = some ((status, r'), s')) ∨
    (r.key.isImageSecurityDatabase = true ∧ ∃ st r' s₁,
      processVarWithPk p e s r false = some ((st, r'), s₁) ∧ r.ProcessedAs p r' ∧
        st.isError = true ∧ processVarWithKek p e s₁ r' = some (status, s')) ∨
    (r.key.secureBoot = false ∧ processVariable p e s r = some (status, s')) := by
  rw [authVariableLibProcessVariable] at h
  split_ifs at h with hpk hkek hdb
  · obtain ⟨⟨⟨st, r'⟩, s₁⟩, hprocess, heq⟩ := Option.map_eq_some_iff.mp h
    cases heq
    exact .inl ⟨hpk, r', hprocess⟩
  · obtain ⟨⟨⟨st, r'⟩, s₁⟩, hprocess, heq⟩ := Option.map_eq_some_iff.mp h
    cases heq
    refine .inr (.inl ⟨hpk, ?_, r', hprocess⟩)
    rw [Key.secureBoot, decide_eq_true hkek, Bool.or_true, Bool.true_or]
  · obtain ⟨⟨⟨st, r'⟩, s₁⟩, hprocess, h⟩ := Option.bind_eq_some_iff.mp h
    simp only at h
    split at h
    · rename_i hfailed
      exact .inr (.inr (.inl
        ⟨hdb, st, r', s₁, hprocess, processVarWithPk_processedAs hdb hprocess, hfailed, h⟩))
    · cases h
      refine .inr (.inl ⟨hpk, ?_, r', hprocess⟩)
      rw [Key.secureBoot, hdb, Bool.or_true]
  · refine .inr (.inr (.inr ⟨?_, h⟩))
    rw [Key.secureBoot, decide_eq_false hpk, decide_eq_false hkek, eq_false_of_ne_true hdb]
    rfl

/-- db, dbx and dbt are none of the others. -/
theorem Key.db_ne_pk {k : Key} (h : k.isImageSecurityDatabase = true) : k ≠ platformKey := by
  rintro rfl
  exact absurd h (by decide)

end SecondTry

/-! ## Authority -/

section Authority

variable {V : VariableDriver} {p : Platform} {e : Env} {s s' : State V} {r r' : Request}
  {status : Status} {k : Key} {c c' : Contents} {mode : BitVec 32} {vendorKeys vendorKeys' : Byte}

/-- Only these variables matter. -/
theorem Authority.congr (h : Authority p e c mode vendorKeys r)
    (hpk : c' platformKey = c platformKey) (hkek : c' keyExchangeKey = c keyExchangeKey)
    (hcustom : c' customModeKey = c customModeKey) (hkey : c' r.key = c r.key)
    (hvendor : vendorKeys = 0#8 → vendorKeys' = 0#8) : Authority p e c' mode vendorKeys' r := by
  cases h with
  | custom hmode hpresent hkeys =>
      obtain ⟨v, hv, hbyte⟩ := hmode
      exact .custom ⟨v, hcustom.trans hv, hbyte⟩ hpresent fun h => hvendor (hkeys h)
  | policyOff hpolicy hkeys => exact .policyOff hpolicy fun h => hvendor (hkeys h)
  | policyOffDeletion hpolicy hsize happend => exact .policyOffDeletion hpolicy hsize happend
  | setup hmode hpcd => exact .setup hmode hpcd
  | @signed authVarType hruntime hdescriptor hasked hsigned =>
      refine .signed hruntime (by rwa [hkey]) hasked ?_
      cases authVarType with
      | pk =>
          obtain ⟨x, signers, cert, hx, hcert⟩ := hsigned
          exact ⟨x, signers, cert, hpk.trans hx, hcert⟩
      | kek =>
          obtain ⟨x, cert, hx, hcert⟩ := hsigned
          exact ⟨x, cert, hkek.trans hx, hcert⟩
      | priv => exact hsigned
      | payload => exact hsigned

theorem timeStamp_eq (s : State V) (k : Key) :
    (s.find k).map VariableInfo.timeStamp = (s.contents k).map Content.timeStamp := by
  rw [State.contents, Option.map_map]
  rfl

theorem customMode_of_inCustomMode (h : inCustomMode s = true) : CustomMode s.contents := by
  rw [inCustomMode] at h
  split at h
  · exact absurd h Bool.false_ne_true
  · rename_i v hv
    exact ⟨v, contents_of_find hv, of_decide_eq_true h⟩

/-- What the verification has checked entitles the request. -/
theorem authority_of_verified {authVarType : AuthVarType} (hruntime : e.efiAtRuntime = false)
    (hasked : Asked s.mPlatformMode r authVarType)
    (h : Verified p e s.contents r authVarType ((s.find r.key).map VariableInfo.timeStamp)) :
    Authority p e s.contents s.mPlatformMode vendorKeys r := by
  rcases h.signed with ⟨hpolicy, hsize, happend⟩ | hsigned
  · exact .policyOffDeletion hpolicy hsize happend
  · exact .signed hruntime (by rw [← timeStamp_eq]; exact h.descriptor) hasked hsigned

theorem updatePayload_changes (h : updatePayload p s r = some ((status, r'), s')) :
    Changes (Write.ofRequest r) s s' ∧ (status.isError = true → s'.contents = s.contents) := by
  obtain ⟨checked, -, h⟩ := Option.bind_eq_some_iff.mp h
  split at h
  · cases h
    exact ⟨.refl .., fun _ => rfl⟩
  · obtain ⟨⟨⟨st, payload⟩, s₁⟩, hupdate, heq⟩ := Option.map_eq_some_iff.mp h
    cases heq
    exact updateRequest_changes hupdate

/-- The writes of a change with authority: that of the request, or one of some of the library's
    own variables. -/
def Write.Allowed (q : Key → Bool) (p : Platform) (e : Env) (s : State V) (vendorKeys : Byte)
    (r : Request) (w : Write) : Prop :=
  q w.key = true ∨
    w.ofRequest r ∧ Authority p e s.contents s.mPlatformMode vendorKeys r

/-- A verification, and the update after it. -/
theorem verifyAndUpdate_allowed {authVarType : AuthVarType} {del : Bool} {vendorKeys : Byte}
    (hasked : Asked s.mPlatformMode r authVarType)
    (h : verifyTimeBasedPayloadAndUpdate p e s r authVarType = some ((status, del, r'), s')) :
    Changes (Write.Allowed Key.vendor p e s vendorKeys r) s s' := by
  refine (verifyAndUpdate_changes h).mono fun w hw => ?_
  rcases hw with hdb | ⟨hw, hruntime, hverified⟩
  · rw [hdb.1] at hasked
    exact hasked.elim
  · exact .inr ⟨hw, authority_of_verified hruntime hasked hverified⟩

/-- What makes `ProcessVarWithPk` do without a signature. -/
theorem authority_of_unlocked {isPk : Bool} (hpk : isPk = true ↔ r.key = platformKey)
    (h : unlockedPk p e s isPk = true) (hkeys : s.mPlatformMode = userMode → vendorKeys = 0#8) :
    Authority p e s.contents s.mPlatformMode vendorKeys r := by
  rw [unlockedPk, Bool.or_eq_true, Bool.or_eq_true, Bool.and_eq_true, Bool.and_eq_true,
    Bool.not_eq_true', Bool.not_eq_true', decide_eq_true_eq] at h
  rcases h with (⟨hcustom, hpresent⟩ | hpolicy) | ⟨hmode, hpcd⟩
  · exact .custom (customMode_of_inCustomMode hcustom) hpresent hkeys
  · exact .policyOff hpolicy hkeys
  · refine .setup (by rw [hmode]; decide) ?_
    rintro ⟨hkey, hrequire, -⟩
    rw [hrequire, hpk.mpr hkey] at hpcd
    exact absurd hpcd (by decide)

theorem updateWithPk_allowed {isPk del : Bool} (hpk : isPk = true ↔ r.key = platformKey)
    (h : updateWithPk p e s r isPk = some ((status, del, r'), s')) :
    Changes (Write.Allowed Key.vendor p e s s'.mVendorKeyState r) s s' := by
  rw [updateWithPk] at h
  split at h
  · -- No signature is needed.
    rename_i hunlocked
    obtain ⟨⟨⟨st, left⟩, s₁⟩, hupdate, heq⟩ := Option.map_eq_some_iff.mp h
    obtain ⟨hchanges, hsame⟩ := updatePayload_changes hupdate
    simp only at heq
    split at heq
    · -- The update failed.
      rename_i herror
      cases heq
      exact ⟨hsame herror ▸ .none, hchanges.mode, hchanges.vendorKeys⟩
    · split at heq
      · cases heq
        obtain ⟨hvendor, hzero⟩ := vendorKeyIsModified_changes s₁
        have hauthority := authority_of_unlocked hpk hunlocked fun _ => hzero
        exact (hchanges.mono fun w hw => .inr ⟨hw, hauthority⟩).trans
          (hvendor.mono fun w hw => .inl hw)
      · -- Not in user mode.
        rename_i hsetup
        cases heq
        have hauthority : Authority p e s.contents s.mPlatformMode s'.mVendorKeyState r :=
          authority_of_unlocked hpk hunlocked
            fun hmode => absurd (.inl (by rw [hchanges.mode, hmode]; decide)) hsetup
        exact hchanges.mono fun w hw => .inr ⟨hw, hauthority⟩
  · split at h
    · rename_i hmode
      exact verifyAndUpdate_allowed (show Asked s.mPlatformMode r .pk from hmode) h
    · rename_i hmode
      split at h
      · -- PK in setup mode, signed or not.
        rename_i hpcd
        obtain ⟨⟨⟨st, payload⟩, s₁⟩, hupdate, heq⟩ := Option.map_eq_some_iff.mp h
        cases heq
        refine (updateRequest_changes hupdate).1.mono fun w hw =>
          .inr ⟨hw, .setup hmode ?_⟩
        rintro ⟨-, -, henforce⟩
        exact absurd (hpcd.1.symm.trans henforce) Bool.false_ne_true
      · exact verifyAndUpdate_allowed (show Asked s.mPlatformMode r .payload from hmode) h

/-- What a call has done to the variables, if its writes were allowed. -/
structure Permitted (q : Key → Bool) (p : Platform) (e : Env) (s s' : State V) (r : Request) :
    Prop where
  wrote : Wrote (Write.Allowed q p e s s'.mVendorKeyState r) s.contents s'.contents
  vendorKeys : s.mVendorKeyState = 0#8 → s'.mVendorKeyState = 0#8

theorem Permitted.own (h : Permitted Key.vendor p e s s' r) : Permitted Key.own p e s s' r where
  wrote := h.wrote.mono fun _ hw => hw.imp_left Key.own_of_vendor
  vendorKeys := h.vendorKeys

/-- Writes of the library's own variables follow. -/
theorem Permitted.then {s₁ : State V} (h : Permitted Key.own p e s s₁ r)
    (hwrote : Wrote (fun w => w.key.own = true) s₁.contents s'.contents)
    (hkeys : s₁.mVendorKeyState = 0#8 → s'.mVendorKeyState = 0#8) :
    Permitted Key.own p e s s' r where
  wrote := by
    refine (h.wrote.mono fun w hw => ?_).trans (hwrote.mono fun _ hw => .inl hw)
    exact hw.imp_right fun hw => ⟨hw.1, hw.2.congr rfl rfl rfl rfl hkeys⟩
  vendorKeys := hkeys ∘ h.vendorKeys

/-- PK itself: the platform mode may follow. -/
theorem processPk_permitted (hpk : r.key = platformKey)
    (h : processVarWithPk p e s r true = some ((status, r'), s')) :
    Permitted Key.own p e s s' r := by
  rw [processVarWithPk] at h
  split at h
  · cases h
    exact ⟨.none, id⟩
  · obtain ⟨⟨⟨st, del, left⟩, s₁⟩, hupdate, heq⟩ := Option.map_eq_some_iff.mp h
    have hchanges := updateWithPk_allowed (iff_of_true rfl hpk) hupdate
    have hfirst : Permitted Key.own p e s s₁ r :=
      Permitted.own ⟨hchanges.wrote, hchanges.vendorKeys⟩
    have hmode : ∀ mode, Permitted Key.own p e s (updatePlatformMode e s₁ mode).2 r := fun mode =>
      hfirst.then (updatePlatformMode_wrote s₁ mode).1 (updatePlatformMode_wrote s₁ mode).2
    have hafter : (modeAfter e true st del s₁).2 = s' := congrArg Prod.snd heq
    rw [← hafter]
    unfold modeAfter
    split_ifs
    · exact hmode userMode
    · exact hmode setupMode
    · exact hfirst
    · exact hfirst

theorem modeAfter_other (e : Env) (status : Status) (del : Bool) (s : State V) :
    modeAfter e false status del s = (status, s) := by
  rw [modeAfter, if_neg fun hmode => absurd hmode.2 Bool.false_ne_true]

/-- Other variables leave the platform mode. -/
theorem processOther_permitted (hpk : r.key ≠ platformKey)
    (h : processVarWithPk p e s r false = some ((status, r'), s')) :
    Permitted Key.vendor p e s s' r ∧ s'.mPlatformMode = s.mPlatformMode := by
  rw [processVarWithPk] at h
  split at h
  · cases h
    exact ⟨⟨.none, id⟩, rfl⟩
  · obtain ⟨⟨⟨st, del, left⟩, s₁⟩, hupdate, heq⟩ := Option.map_eq_some_iff.mp h
    simp only [modeAfter_other] at heq
    cases heq
    have hchanges := updateWithPk_allowed (iff_of_false Bool.false_ne_true hpk) hupdate
    exact ⟨⟨hchanges.wrote, hchanges.vendorKeys⟩, hchanges.mode⟩

theorem processVarWithKek_permitted (hkey : r.key.isImageSecurityDatabase = true)
    (h : processVarWithKek p e s r = some (status, s')) :
    Permitted Key.vendor p e s s' r ∧ s'.mPlatformMode = s.mPlatformMode := by
  rw [processVarWithKek] at h
  split at h
  · cases h
    exact ⟨⟨.none, id⟩, rfl⟩
  · split at h
    · rename_i hmode
      obtain ⟨⟨⟨st, del, left⟩, s₁⟩, hverify, heq⟩ := Option.map_eq_some_iff.mp h
      cases heq
      have hchanges : Changes (Write.Allowed Key.vendor p e s s₁.mVendorKeyState r) s s₁ :=
        verifyAndUpdate_allowed (show Asked s.mPlatformMode r .kek from ⟨hmode.1, hkey⟩) hverify
      exact ⟨⟨hchanges.wrote, hchanges.vendorKeys⟩, hchanges.mode⟩
    · rename_i hmode
      obtain ⟨⟨⟨st, left⟩, s₁⟩, hupdate, heq⟩ := Option.map_eq_some_iff.mp h
      obtain ⟨hchanges, hsame⟩ := updatePayload_changes hupdate
      -- Custom mode, or not user mode.
      have hauthority : ∀ vendorKeys, (s.mPlatformMode = userMode → vendorKeys = 0#8) →
          Authority p e s.contents s.mPlatformMode vendorKeys r := by
        intro vendorKeys hkeys
        by_cases huser : s.mPlatformMode = userMode
        · have hcustom : (inCustomMode s && e.userPhysicalPresent) = true := by
            rw [← Bool.not_eq_false]
            exact fun hnot => hmode ⟨huser, hnot⟩
          rw [Bool.and_eq_true] at hcustom
          exact .custom (customMode_of_inCustomMode hcustom.1) hcustom.2 hkeys
        · refine .setup huser ?_
          rintro ⟨hpk, -⟩
          rw [hpk] at hkey
          exact absurd hkey (by decide)
      simp only at heq
      split_ifs at heq with herror hsetup
      · cases heq
        exact ⟨⟨hsame herror ▸ .none, hchanges.vendorKeys⟩, hchanges.mode⟩
      · obtain ⟨hvendor, hzero⟩ := vendorKeyIsModified_changes s₁
        rw [← show (vendorKeyIsModified s₁).2 = s' from congrArg Prod.snd heq]
        exact ⟨⟨(hchanges.wrote.mono fun w hw =>
            .inr ⟨hw, hauthority _ fun _ => hzero⟩).trans
          (hvendor.wrote.mono fun w hw => .inl hw), fun _ => hzero⟩,
          hvendor.mode.trans hchanges.mode⟩
      · cases heq
        refine ⟨⟨hchanges.wrote.mono fun w hw => .inr ⟨hw, ?_⟩,
          hchanges.vendorKeys⟩, hchanges.mode⟩
        refine hauthority _ fun huser => absurd hsetup (not_not_intro ?_)
        rw [hchanges.mode, huser]
        decide

/-- A variable of the secure boot policy that a permitted call changes. -/
theorem Permitted.authority (h : Permitted Key.own p e s s' r) (hk : k.secureBoot = true)
    (hchanged : s'.contents k ≠ s.contents k) :
    k = r.key ∧ Authority p e s.contents s.mPlatformMode s'.mVendorKeyState r := by
  obtain ⟨w, hw, rfl⟩ := h.wrote.exists_write hchanged
  rcases hw with hown | hw
  · rw [Key.secureBoot_not_own hk] at hown
    exact absurd hown Bool.false_ne_true
  · exact ⟨Write.ofRequest_key hw.1, hw.2⟩

/-- The second try for db, dbx and dbt is entitled by what there was before the first one. -/
theorem authority_of_second {s₁ : State V} (hdb : r.key.isImageSecurityDatabase = true)
    (hkey : r'.key = r.key) (hfirst : Permitted Key.own p e s s₁ r)
    (hmode : s₁.mPlatformMode = s.mPlatformMode) (hsame : s₁.contents r.key = s.contents r.key)
    (h : Authority p e s₁.contents s₁.mPlatformMode vendorKeys r') :
    Authority p e s.contents s.mPlatformMode vendorKeys r' := by
  have hframe : ∀ key : Key, key.own = false → key ≠ r.key →
      s.contents key = s₁.contents key := by
    intro key hown hne
    refine (hfirst.wrote.frame fun w hw hkey => ?_).symm
    rcases hw with hw | hw
    · rw [hkey, hown] at hw
      exact Bool.false_ne_true hw
    · exact hne (hkey.symm.trans (Write.ofRequest_key hw.1))
  have hne : ∀ key : Key, key.isImageSecurityDatabase = false → key ≠ r.key := by
    intro key hnot hkey
    rw [hkey, hdb] at hnot
    exact Bool.false_ne_true hnot.symm
  rw [hmode] at h
  refine h.congr (hframe platformKey (by decide) (hne _ (by decide)))
    (hframe keyExchangeKey (by decide) (hne _ (by decide)))
    (hframe customModeKey (by decide) (hne _ (by decide))) ?_ id
  rw [hkey]
  exact hsame.symm

/-- A variable of the secure boot policy changes only with authority, and only if it is the
    one that is set. -/
theorem policy_authority (h : authVariableLibProcessVariable p e s r = some (status, s'))
    (hk : k.secureBoot = true) (hchanged : s'.contents k ≠ s.contents k) :
    k = r.key ∧ ∃ r', r.ProcessedAs p r' ∧
      Authority p e s.contents s.mPlatformMode s'.mVendorKeyState r' := by
  rcases process_cases h with ⟨hpk, left, hprocess⟩ | ⟨hpk, -, left, hprocess⟩ |
    ⟨hdb, st, r', s₁, hfirst, hleft, -, hsecond⟩ | ⟨hother, hprocess⟩
  · obtain ⟨hkey, hauthority⟩ := (processPk_permitted hpk hprocess).authority hk hchanged
    exact ⟨hkey, r, .same, hauthority⟩
  · obtain ⟨hkey, hauthority⟩ := (processOther_permitted hpk hprocess).1.own.authority hk hchanged
    exact ⟨hkey, r, .same, hauthority⟩
  · -- The second try starts from what the first one has left.
    obtain ⟨hpermitted, hmode⟩ := processOther_permitted (Key.db_ne_pk hdb) hfirst
    have hpermitted' := (processVarWithKek_permitted (by rw [hleft.key]; exact hdb) hsecond).1.own
    by_cases hsame : s₁.contents k = s.contents k
    · rw [← hsame] at hchanged
      obtain ⟨hkey, hauthority⟩ := hpermitted'.authority hk hchanged
      rw [hleft.key] at hkey
      subst hkey
      exact ⟨rfl, r', hleft,
        authority_of_second hdb hleft.key hpermitted.own hmode hsame hauthority⟩
    · obtain ⟨hkey, hauthority⟩ := hpermitted.own.authority hk hsame
      exact ⟨hkey, r, .same, hauthority.congr rfl rfl rfl rfl hpermitted'.vendorKeys⟩
  · -- Another variable is set.
    obtain ⟨w, hw, rfl⟩ := (processVariable_changes hprocess).wrote.exists_write hchanged
    rcases hw with hdb | hkey
    · rw [Write.toDb_not_secureBoot hdb] at hk
      exact absurd hk Bool.false_ne_true
    · rw [hkey, hother] at hk
      exact absurd hk Bool.false_ne_true

/-- An update with the key and the attributes of the request. -/
def Write.sets (r : Request) (w : Write) : Prop :=
  ∃ u, w = .update u ∧ u.key = r.key ∧ u.attributes = r.attributes

theorem Write.sets_key {w : Write} (h : w.sets r) : w.key = r.key := by
  obtain ⟨u, rfl, hkey, -⟩ := h
  exact hkey

theorem Write.sets_of_request {w : Write} (h : w.ofRequest r') (hkey : r'.key = r.key)
    (hattributes : r'.attributes = r.attributes) : w.sets r := by
  obtain ⟨data, dataSize, rfl⟩ := h
  exact ⟨_, rfl, hkey, hattributes⟩

/-- A call for a variable of the policy but PK writes that variable, and those of the vendor
    keys. -/
theorem other_wrote (h : authVariableLibProcessVariable p e s r = some (status, s'))
    (hk : r.key.secureBoot = true) (hpk : r.key ≠ platformKey) :
    Wrote (fun w => w.key.vendor = true ∨ w.sets r) s.contents s'.contents ∧
      s'.mPlatformMode = s.mPlatformMode := by
  have hwrote : ∀ {s₁ s₂ : State V} {r' : Request}, r'.key = r.key →
      r'.attributes = r.attributes → Permitted Key.vendor p e s₁ s₂ r' →
      Wrote (fun w => w.key.vendor = true ∨ w.sets r) s₁.contents s₂.contents := by
    intro s₁ s₂ r' hkey hattributes h
    exact h.wrote.mono fun _ hw => hw.imp_right fun hw =>
      Write.sets_of_request hw.1 hkey hattributes
  rcases process_cases h with ⟨hkey, -⟩ | ⟨-, -, left, hprocess⟩ |
    ⟨hdb, st, r', s₁, hfirst, hleft, -, hsecond⟩ | ⟨hother, -⟩
  · exact absurd hkey hpk
  · exact (processOther_permitted hpk hprocess).imp_left (hwrote rfl rfl)
  · obtain ⟨hpermitted, hmode⟩ := processOther_permitted hpk hfirst
    obtain ⟨hpermitted', hmode'⟩ :=
      processVarWithKek_permitted (by rw [hleft.key]; exact hdb) hsecond
    exact ⟨(hwrote rfl rfl hpermitted).trans (hwrote hleft.key hleft.attributes hpermitted'),
      hmode'.trans hmode⟩
  · rw [hk] at hother
    exact absurd hother.symm Bool.false_ne_true

/-- A call for a variable of the policy writes that variable, and the library's own. -/
theorem policy_wrote (h : authVariableLibProcessVariable p e s r = some (status, s'))
    (hk : r.key.secureBoot = true) :
    Wrote (fun w => w.key.own = true ∨ w.sets r) s.contents s'.contents := by
  by_cases hpk : r.key = platformKey
  · rw [authVariableLibProcessVariable, if_pos hpk] at h
    obtain ⟨⟨⟨st, left⟩, s₁⟩, hprocess, heq⟩ := Option.map_eq_some_iff.mp h
    cases heq
    exact (processPk_permitted hpk hprocess).wrote.mono fun _ hw =>
      hw.imp_right fun hw => Write.sets_of_request hw.1 rfl rfl
  · exact (other_wrote h hk hpk).1.mono fun _ hw => hw.imp_left Key.own_of_vendor

/-- Vendor keys that were modified stay so. -/
theorem process_vendorKeys (h : authVariableLibProcessVariable p e s r = some (status, s')) :
    s.mVendorKeyState = 0#8 → s'.mVendorKeyState = 0#8 := by
  rcases process_cases h with ⟨hpk, left, hprocess⟩ | ⟨hpk, -, left, hprocess⟩ |
    ⟨hdb, st, r', s₁, hfirst, hleft, -, hsecond⟩ | ⟨-, hprocess⟩
  · exact (processPk_permitted hpk hprocess).vendorKeys
  · exact (processOther_permitted hpk hprocess).1.vendorKeys
  · have hkeys := (processOther_permitted (Key.db_ne_pk hdb) hfirst).1.vendorKeys
    have hdb' : r'.key.isImageSecurityDatabase = true := by rw [hleft.key]; exact hdb
    exact (processVarWithKek_permitted hdb' hsecond).1.vendorKeys ∘ hkeys
  · exact (processVariable_changes hprocess).vendorKeys

end Authority

/-! ### A deletion in user mode -/

def presentEnv : Env := ⟨true, true, false, false⟩

def absentEnv : Env := ⟨false, true, false, false⟩

/-- A crypto library for which one certificate has signed everything. -/
def signerPlatform : Platform :=
  { barePlatform with
    pkcs7Verify := fun _ cert _ => cert = [0x30]
    pkcs7GetSigners := fun _ => some ([1, 1, 0, 0, 0, 0x30], [0x30]) }

/-- A list of one X.509 certificate of one byte. -/
def x509List (cert : Byte) : SigList where
  sigType := efiCertX509Guid
  header := []
  sigSize := 17
  sigs := [List.replicate 16 0#8 ++ [cert]]
  sized := by
    intro sig hsig
    rw [List.mem_singleton.mp hsig]
    rfl
  pos := by decide
  small := by decide

/-- The signer's certificate is a key exchange key, but not the platform key. -/
def userWithKek : State plainDriver where
  store := fun k =>
    if k = platformKey then some ⟨(x509List 0x31).bytes, 0x27#32, noTime⟩
    else if k = keyExchangeKey then some ⟨(x509List 0x30).bytes, 0x27#32, noTime⟩
    else if k = imageSecurityDatabase then some ⟨(x509List 0x42).bytes, 0x27#32, noTime⟩
    else none
  mPlatformMode := userMode
  mVendorKeyState := 1#8
  mCertDbStore := fun _ => 0#8

/-- A descriptor of the start of 2024, signed with SHA-256. -/
def descriptor2024 : List Byte :=
  [0xe8, 0x07, 1, 1, 0, 0, 0, 0, 0, 0, 0, 0, 0, 0, 0, 0] ++ field 46 4 ++
    [0x00, 0x02, 0xf1, 0x0e] ++ Guid.bytes efiCertPkcs7Guid ++
    [0x30, 0x82, 0, 0, 0, 0, 0, 0, 0, 0, 0, 0, 0] ++ mSha256OidValue

/-- A deletion of db: there is no payload. -/
def deleteDb : Request := ⟨imageSecurityDatabase, ofList descriptor2024, 62, 0x27#32⟩

end AuthVariable
