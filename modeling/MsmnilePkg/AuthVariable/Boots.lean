/-
  MsmnilePkg.AuthVariable.Boots

  Certificates over resets: a time-based authenticated variable always has its certificate.

  A reset leaves the non-volatile variables, and may come at any time: a variable driver
  that fails every update from some point on is one that has lost its power.
-/

import MsmnilePkg.AuthVariable.Initialize
import MsmnilePkg.AuthVariable.CertDbCleaning
import MsmnilePkg.AuthVariable.PrivateRuns

namespace AuthVariable

open Efi ByteMem LittleEndian RecordArea History

/-! ## Invariants -/

/-- What a reset leaves. -/
def Contents.reset (c : Contents) : Contents := fun k => (c k).filter Content.nonVolatile

/-- "certdb" has the certificates of the non-volatile variables, or is not there yet. -/
inductive CertDbKept (p : Platform) (c : Contents) : Prop where
  | absent : c certDbKey = none →
      (∀ k x, k.isPriv = true → c k = some x → x.isTime = true → x.nonVolatile = false) →
      CertDbKept p c
  | present {nodes : List Node} : IsCertDb p c efiVariableNonVolatile nodes →
      (∀ k x, k.isPriv = true → c k = some x → x.isTime = true → x.nonVolatile = true →
        certOf nodes k ≠ none) →
      CertDbKept p c

/-- Of the platform only the size that the database may have matters. -/
theorem CertDbKept.of_size {p p' : Platform} {c : Contents} (h : CertDbKept p c)
    (hsize : p'.mMaxCertDbSize = p.mMaxCertDbSize) : CertDbKept p' c := by
  cases h with
  | absent hnone hvolatile => exact .absent hnone hvolatile
  | present hdb hcerts =>
      exact .present ⟨hdb.stored, hdb.distinct, hdb.size.trans_eq hsize.symm⟩ hcerts

/-- While the system starts there are no volatile variables of a user. -/
structure Starting (p : Platform) (c : Contents) : Prop where
  kept : CertDbKept p c
  nonVolatile : ∀ k x, k.isPriv = true → c k = some x → x.isTime = true → x.nonVolatile = true

/-- Both databases have the certificates of their variables. -/
def CertsKept (p : Platform) (c : Contents) : Prop :=
  ∃ m, Represents p c m ∧
    ∀ k x, k.isPriv = true → c k = some x → x.isTime = true → m x.nonVolatile k ≠ none

section Boots

variable {V : VariableDriver} {p : Platform} {s s' : State V} {c c' : Contents} {status : Status}

theorem reset_eq_some {k : Key} {x : Content} :
    c.reset k = some x ↔ c k = some x ∧ x.nonVolatile = true := by
  rw [Contents.reset, Option.filter_eq_some_iff]

theorem IsCertDb.reset {nodes : List Node} (h : IsCertDb p c efiVariableNonVolatile nodes) :
    IsCertDb p c.reset efiVariableNonVolatile nodes := by
  obtain ⟨⟨timeStamp, hstored⟩, hdistinct, hsize⟩ := h
  exact ⟨⟨timeStamp, reset_eq_some.mpr ⟨hstored, (by decide : Content.nonVolatile
    ⟨dbBytes [], dbAttributes efiVariableNonVolatile, noTime⟩ = true)⟩⟩, hdistinct, hsize⟩

theorem CertDbKept.reset (h : CertDbKept p c) : Starting p c.reset where
  kept := by
    cases h with
    | absent hnone hvolatile =>
        refine .absent (by rw [Contents.reset, hnone]; rfl) fun k x hk hx htime => ?_
        exact hvolatile k x hk (reset_eq_some.mp hx).1 htime
    | present hdb hcerts =>
        exact .present hdb.reset fun k x hk hx => hcerts k x hk (reset_eq_some.mp hx).1
  nonVolatile := fun _ _ _ hx _ => (reset_eq_some.mp hx).2

theorem CertsKept.certDbKept (h : CertsKept p c) : CertDbKept p c := by
  obtain ⟨m, ⟨nodes, hdbs, rfl⟩, hcerts⟩ := h
  have hnv : efiVariableNonVolatile.has efiVariableNonVolatile = true := by decide
  have hdb := hdbs efiVariableNonVolatile
  rw [hnv] at hdb
  refine .present hdb fun k x hk hx htime hnonVolatile => ?_
  have hcert := hcerts k x hk hx htime
  rwa [hnonVolatile] at hcert

/-! ## The initialization -/

/-- An update that leaves no time-based authenticated variable of a user. -/
structure Update.Harmless (u : Update) : Prop where
  key : u.key ≠ certDbKey
  plain : u.key.isPriv = true → u.attributes.has efiVariableAppendWrite = false ∧
    u.attributes.has efiVariableTimeBasedAuthenticatedWriteAccess = false

theorem update_harmless {u : Update} (hu : u.Harmless) {k : Key} {x : Content}
    (hk : k.isPriv = true) (hx : (update s u).2.contents k = some x) (htime : x.isTime = true) :
    s.contents k = some x := by
  cases hstatus : (update s u).1.isError with
  | true => rwa [update_error hstatus] at hx
  | false =>
      rw [update_success hstatus] at hx
      by_cases hkey : k = u.key
      · -- What is stored is not authenticated.
        subst hkey
        obtain ⟨happend, hplain⟩ := hu.plain hk
        have hx := (Function.update_self (f := s.contents) ..).symm.trans hx
        rcases stored_cases hx with ⟨_, -, hnot, -⟩ | ⟨-, rfl⟩
        · exact absurd (happend.symm.trans hnot) Bool.false_ne_true
        · rw [Content.isTime, has_of_plain _ isTime_mask, hplain] at htime
          exact absurd htime Bool.false_ne_true
      · rwa [Contents.write_of_ne (w := .update u) _ hkey] at hx

theorem Starting.update {u : Update} (h : Starting p s.contents) (hu : u.Harmless) :
    Starting p (update s u).2.contents where
  kept := by
    have hframe : (AuthVariable.update s u).2.contents certDbKey = s.contents certDbKey := by
      cases hstatus : (AuthVariable.update s u).1.isError with
      | true => rw [update_error hstatus]
      | false =>
          rw [update_success hstatus]
          exact Contents.write_of_ne _ hu.key.symm
    cases h.kept with
    | absent hnone hvolatile =>
        exact .absent (hframe.trans hnone) fun k x hk hx htime =>
          hvolatile k x hk (update_harmless hu hk hx htime) htime
    | present hdb hcerts =>
        exact .present (hdb.congr hframe) fun k x hk hx htime =>
          hcerts k x hk (update_harmless hu hk hx htime) htime
  nonVolatile := fun k x hk hx htime => h.nonVolatile k x hk (update_harmless hu hk hx htime) htime

theorem andThen_cases {updated : Status × State V} {next : State V → Option (Status × State V)}
    (h : andThen updated next = some (status, s')) :
    updated = (status, s') ∧ status.isError = true ∨
      updated.1.isError = false ∧ next updated.2 = some (status, s') := by
  rw [andThen] at h
  split at h
  · rename_i herror
    cases h
    exact .inl ⟨rfl, herror⟩
  · rename_i hok
    rw [Bool.not_eq_true] at hok
    exact .inr ⟨hok, h⟩

/-- A harmless update, and what follows it. -/
theorem starting_andThen {u : Update} {next : State V → Option (Status × State V)}
    (hu : u.Harmless) (hs : Starting p s.contents)
    (h : andThen (AuthVariable.update s u) next = some (status, s')) :
    status.isError = true ∧ Starting p s'.contents ∨
      ∃ s₁ : State V, Starting p s₁.contents ∧ next s₁ = some (status, s') := by
  rcases andThen_cases h with ⟨heq, herror⟩ | ⟨-, hnext⟩
  · rw [← show (AuthVariable.update s u).2 = s' from congrArg Prod.snd heq]
    exact .inl ⟨herror, hs.update hu⟩
  · exact .inr ⟨_, hs.update hu, hnext⟩

/-- An update of one byte. -/
theorem byteUpdate_harmless {k : Key} (byte : Byte) (n : Nat) {attributes : Attributes}
    (hk : k ≠ certDbKey) (h : k.isPriv = true → attributes = attributesBsRt ∨
      attributes = attributesNvBs) : (byteUpdate k byte n attributes).Harmless where
  key := hk
  plain := fun hpriv => by
    have hplain : attributes.has efiVariableAppendWrite = false ∧
        attributes.has efiVariableTimeBasedAuthenticatedWriteAccess = false := by
      rcases h hpriv with rfl | rfl <;> decide
    exact hplain

theorem initializePlatformMode_starting {next : State V → Option (Status × State V)}
    (hs : Starting p s.contents) (h : initializePlatformMode s next = some (status, s')) :
    status.isError = true ∧ Starting p s'.contents ∨
      ∃ s₁ : State V, Starting p s₁.contents ∧ next s₁ = some (status, s') := by
  rw [initializePlatformMode] at h
  rcases starting_andThen (byteUpdate_harmless _ _ (by decide) fun _ => .inl rfl)
    (show Starting p { s with mPlatformMode := _ }.contents from hs) h with hend | ⟨s₁, hs₁, h⟩
  · exact .inl hend
  · exact starting_andThen ⟨by decide, fun _ => ⟨by decide, by decide⟩⟩ hs₁ h

theorem initializeSecureBoot_starting {next : State V → Option (Status × State V)}
    (hs : Starting p s.contents) (h : initializeSecureBoot s next = some (status, s')) :
    status.isError = true ∧ Starting p s'.contents ∨
      ∃ s₁ : State V, Starting p s₁.contents ∧ next s₁ = some (status, s') := by
  rw [initializeSecureBoot] at h
  -- What follows `SecureBootEnable`, whatever it is.
  have hrest : ∀ {secureBootMode : Byte} {s : State V}, Starting p s.contents →
      andThen (AuthVariable.update s (byteUpdate secureBootModeKey secureBootMode 1 attributesBsRt))
        (fun s => andThen (AuthVariable.update s (byteUpdate customModeKey 0#8 1 attributesNvBs))
          next) = some (status, s') →
      status.isError = true ∧ Starting p s'.contents ∨
        ∃ s₁ : State V, Starting p s₁.contents ∧ next s₁ = some (status, s') := by
    intro secureBootMode s hs h
    rcases starting_andThen (byteUpdate_harmless _ _ (by decide) fun _ => .inl rfl) hs h with
      hend | ⟨s₁, hs₁, h⟩
    · exact .inl hend
    · exact starting_andThen (byteUpdate_harmless _ _ (by decide) fun _ => .inr rfl) hs₁ h
  have henable : ∀ {next' : State V → Option (Status × State V)},
      (∀ {s : State V}, Starting p s.contents → next' s = some (status, s') →
        status.isError = true ∧ Starting p s'.contents ∨
          ∃ s₁ : State V, Starting p s₁.contents ∧ next s₁ = some (status, s')) →
      andThen (AuthVariable.update s (byteUpdate secureBootEnableKey 1#8 1 attributesNvBs)) next'
        = some (status, s') →
      status.isError = true ∧ Starting p s'.contents ∨
        ∃ s₁ : State V, Starting p s₁.contents ∧ next s₁ = some (status, s') := by
    intro next' hnext' h
    rcases starting_andThen (byteUpdate_harmless _ _ (by decide) fun _ => .inr rfl) hs h with
      hend | ⟨s₁, hs₁, h⟩
    · exact .inl hend
    · exact hnext' hs₁ h
  rw [initializeSecureBootEnable] at h
  simp only at h
  split at h
  · split at h
    · exact henable hrest h
    · exact hrest hs h
  · split at h
    · split at h
      · exact henable hrest h
      · exact hrest hs h
    · exact hrest hs h

/-- Cleaning up leaves the certificates that are needed. -/
theorem Starting.cleaned {nodes nodes' : List Node} (hs : Starting p c)
    (hcerts : ∀ k x, k.isPriv = true → c k = some x → x.isTime = true → x.nonVolatile = true →
      certOf nodes k ≠ none)
    (h : Cleaned p c c' nodes nodes') : Starting p c' := by
  have hother : ∀ k : Key, k.isPriv = true → c' k = c k := fun k hk => h.frame k fun hkey => by
    rw [hkey] at hk
    exact absurd hk (by decide)
  refine ⟨.present h.isCertDb fun k x hk hx htime hnv => ?_, fun k x hk hx htime => ?_⟩
  · rw [hother k hk] at hx
    rcases h.kept k with hkept | ⟨-, hnot⟩
    · rw [hkept]
      exact hcerts k x hk hx htime hnv
    · exact absurd ⟨x, hx, htime⟩ hnot
  · rw [hother k hk] at hx
    exact hs.nonVolatile k x hk hx htime

/-- After "certdb" there are the certificates of every variable. -/
structure Cleared (p : Platform) (c : Contents) : Prop where
  starting : Starting p c
  present : c certDbKey ≠ none

theorem Cleared.exists_db (h : Cleared p c) : ∃ nodes, IsCertDb p c efiVariableNonVolatile nodes ∧
    ∀ k x, k.isPriv = true → c k = some x → x.isTime = true → certOf nodes k ≠ none := by
  cases h.starting.kept with
  | absent hnone => exact absurd hnone h.present
  | present hdb hcerts =>
      exact ⟨_, hdb, fun k x hk hx htime =>
        hcerts k x hk hx htime (h.starting.nonVolatile k x hk hx htime)⟩

/-- A database is created. -/
theorem emptyDb_created (hroom : 4 ≤ p.mMaxCertDbSize) {attributes : Attributes}
    (hok : (update s (emptyDbUpdate attributes)).1.isError = false) :
    ChangedDb p s (update s (emptyDbUpdate attributes)).2 attributes [] := by
  have hempty : IsDb (bytesOf 4) 4 [] :=
    ⟨rfl, by decide, show slice (bytesOf 4) 0 4 = dbBytes [] by decide⟩
  -- The update is that of `setDb`, but for the buffer, which is no variable.
  have hset : (setDb s attributes (bytesOf 4, 4)).1.isError = false := hok
  have hdistinct : Distinct [] := ⟨List.Pairwise.nil, fun _ h => absurd h List.not_mem_nil⟩
  have hchanged : _ ∨ (setDb s attributes (bytesOf 4, 4)).1.isError = false ∧
      ChangedDb p s (setDb s attributes (bytesOf 4, 4)).2 attributes [] :=
    changedDb_of_setDb _ _ hempty hdistinct hroom
  rcases hchanged with h | ⟨-, h⟩
  · exact absurd (hset.symm.trans h.1) Bool.false_ne_true
  · exact ⟨h.isCertDb, h.frame⟩

theorem initializeCertDb_cleared (hp : p.Sound) (hroom : 4 ≤ p.mMaxCertDbSize)
    {next : State V → Option (Status × State V)} (hs : Starting p s.contents)
    (h : initializeCertDb p s next = some (status, s')) :
    status.isError = true ∧ Starting p s'.contents ∨
      ∃ s₁ : State V, Cleared p s₁.contents ∧ next s₁ = some (status, s') := by
  rw [initializeCertDb] at h
  split at h
  · -- There was no "certdb", and no variable that needs it.
    rename_i hnone
    rcases andThen_cases h with ⟨heq, herror⟩ | ⟨hok, hnext⟩
    · have hsame : s'.contents = s.contents := by
        rw [← show (update s _).2 = s' from congrArg Prod.snd heq]
        refine update_error ?_
        rw [heq]
        exact herror
      exact .inl ⟨herror, hsame ▸ hs⟩
    · have hcreated := emptyDb_created hroom hok
      have hother : ∀ k : Key, k.isPriv = true →
          (update s (emptyDbUpdate efiVariableNonVolatile)).2.contents k = s.contents k :=
        fun k hk => hcreated.frame k fun hkey => by
          rw [hkey] at hk
          exact absurd hk (by decide)
      refine .inr ⟨_, ⟨⟨.present hcreated.isCertDb fun k x hk hx htime hnv => ?_,
        fun k x hk hx htime => ?_⟩, ?_⟩, hnext⟩
      · cases hs.kept with
        | absent _ hvolatile =>
            rw [hother k hk] at hx
            exact absurd (hnv.symm.trans (hvolatile k x hk hx htime)) (by decide)
        | present hdb =>
            obtain ⟨_, hstored⟩ := hdb.stored
            exact nomatch (contents_eq_none.mpr hnone).symm.trans hstored
      · rw [hother k hk] at hx
        exact hs.nonVolatile k x hk hx htime
      · obtain ⟨_, hstored⟩ := hcreated.isCertDb.stored
        exact fun hnone => nomatch hstored.symm.trans hnone
  · -- The certificates without their variable are taken out.
    rename_i db hfind
    cases hs.kept with
    | absent hnone => exact nomatch (contents_of_find hfind).symm.trans hnone
    | @present nodes hdb hcerts =>
        obtain ⟨⟨st, s₁⟩, hclean, h⟩ := Option.bind_eq_some_iff.mp h
        obtain ⟨nodes', hcleaned, -⟩ := cleanCertsFromDb_spec hp hdb hclean
        have hstarting : Starting p s₁.contents := hs.cleaned hcerts hcleaned
        rcases andThen_cases h with ⟨heq, herror⟩ | ⟨-, hnext⟩
        · cases heq
          exact .inl ⟨herror, hstarting⟩
        · obtain ⟨_, hstored⟩ := hcleaned.isCertDb.stored
          exact .inr ⟨s₁, ⟨hstarting, fun hnone => nomatch hstored.symm.trans hnone⟩, hnext⟩

/-- An update of one of the library's own variables. -/
theorem CertsKept.update_own {u : Update} (h : CertsKept p s.contents) (hu : u.key.own = true) :
    CertsKept p (update s u).2.contents := by
  have hframe : ∀ k : Key, k.own = false → (update s u).2.contents k = s.contents k := by
    intro k hk
    refine (update_changes s u).wrote.frame fun w hw hkey => ?_
    rw [hw] at hkey
    rw [← hkey] at hk
    exact Bool.false_ne_true (hk.symm.trans hu)
  obtain ⟨m, hm, hcerts⟩ := h
  refine ⟨m, hm.congr (hframe _ (by decide)) (hframe _ (by decide)), fun k x hk hx htime => ?_⟩
  rw [hframe k (Key.isPriv_iff.mp hk).2.1] at hx
  exact hcerts k x hk hx htime

/-- Once "certdbv" is there, the databases are complete. -/
theorem Cleared.certsKept (h : Cleared p s.contents) (hdb : ChangedDb p s s' 0#32 []) :
    CertsKept p s'.contents := by
  obtain ⟨nodes, hisDb, hcerts⟩ := h.exists_db
  obtain ⟨⟨timeStamp, hvolatile⟩, hdistinct, hsize⟩ := hdb.isCertDb
  have hframe : s'.contents certDbKey = _ := hdb.frame _ (by decide)
  obtain ⟨⟨timeStamp', hstored⟩, hdistinct', hsize'⟩ := hisDb.congr hframe
  refine ⟨certMap fun nv => if nv then nodes else [], ⟨_, fun attributes => ?_, rfl⟩,
    fun k x hk hx htime => ?_⟩
  · cases hnv : attributes.has efiVariableNonVolatile with
    | true =>
        refine ⟨⟨timeStamp', ?_⟩, hdistinct', hsize'⟩
        rw [dbKey, dbAttributes, hnv]
        exact hstored
    | false =>
        refine ⟨⟨timeStamp, ?_⟩, hdistinct, hsize⟩
        rw [dbKey, dbAttributes, hnv]
        exact hvolatile
  · rw [hdb.frame k fun hkey => by
      rw [hkey] at hk
      exact absurd hk (by decide)] at hx
    rw [certMap, h.starting.nonVolatile k x hk hx htime, if_pos rfl]
    exact hcerts k x hk hx htime

theorem initializeVendorKeys_kept (hs : CertsKept p s.contents)
    (h : initializeVendorKeys s = some (status, s')) : CertsKept p s'.contents := by
  have hvendor : ∀ {s : State V}, CertsKept p s.contents → ∀ byte : Byte,
      CertsKept p (update s (byteUpdate vendorKeysKey byte 1 attributesBsRt)).2.contents :=
    fun hs _ => hs.update_own (show vendorKeysKey.own = true by decide)
  rw [initializeVendorKeys] at h
  simp only at h
  split at h
  · rename_i v _
    rw [← show (update _ _).2 = s' from congrArg Prod.snd (Option.some.inj h)]
    exact hvendor (show CertsKept p { s with mVendorKeyState := v.data 0 }.contents from hs) _
  · have hfirst := CertsKept.update_own (s := { s with mVendorKeyState := 1#8 }) (p := p)
      (u := byteUpdate vendorKeysNvKey 1#8 1
        (attributesNvBs ||| efiVariableTimeBasedAuthenticatedWriteAccess)) hs (by decide)
    rcases andThen_cases h with ⟨heq, -⟩ | ⟨-, hnext⟩
    · rw [← show (update _ _).2 = s' from congrArg Prod.snd heq]
      exact hfirst
    · rw [← show (update _ _).2 = s' from congrArg Prod.snd (Option.some.inj hnext)]
      exact hvendor hfirst _

/-- A boot, up to the end of the initialization. -/
theorem initialize_kept (hp : p.Sound) (hroom : 4 ≤ p.mMaxCertDbSize) {allocateRuntimePool : Bool}
    (hs : Starting p s.contents)
    (h : authVariableLibInitialize p allocateRuntimePool s = some (status, s')) :
    status.isError = true ∧ CertDbKept p s'.contents ∨ CertsKept p s'.contents := by
  rw [authVariableLibInitialize] at h
  split at h
  · cases h
    exact .inl ⟨rfl, hs.kept⟩
  · rcases initializePlatformMode_starting hs h with hend | ⟨s₁, hs₁, h⟩
    · exact .inl ⟨hend.1, hend.2.kept⟩
    rcases initializeSecureBoot_starting hs₁ h with hend | ⟨s₂, hs₂, h⟩
    · exact .inl ⟨hend.1, hend.2.kept⟩
    rcases initializeCertDb_cleared hp hroom hs₂ h with hend | ⟨s₃, hs₃, h⟩
    · exact .inl ⟨hend.1, hend.2.kept⟩
    rw [initializeCertDbVolatile] at h
    rcases andThen_cases h with ⟨heq, herror⟩ | ⟨hok, hnext⟩
    · have hsame : s'.contents = s₃.contents := by
        rw [← show (update s₃ _).2 = s' from congrArg Prod.snd heq]
        refine update_error ?_
        rw [heq]
        exact herror
      exact .inl ⟨herror, hsame ▸ hs₃.starting.kept⟩
    · exact .inr (initializeVendorKeys_kept (hs₃.certsKept (emptyDb_created hroom hok)) hnext)

/-! ## Runs over resets -/

theorem PrivStep.covered {e : Env} {r : Request} {v v' : View} (h : PrivStep p e r v v')
    (hv : ∀ x, v.content = some x → x.isTime = true → v.certs x.nonVolatile ≠ none) :
    ∀ x, v'.content = some x → x.isTime = true → v'.certs x.nonVolatile ≠ none := by
  -- A variable that is stored has the attributes of the request.
  have hattributes : ∀ {x : Content} {u : Update}, u.attributes = r.attributes →
      x = ⟨u.value, u.attributes &&& ~~~efiVariableAppendWrite, u.timeStamp.getD noTime⟩ →
      x.nonVolatile = r.nonVolatile ∧ x.isTime = r.timeBased := by
    rintro x u hu rfl
    refine ⟨?_, ?_⟩
    · rw [Content.nonVolatile, has_of_plain _ nonVolatile_mask, hu, Request.nonVolatile]
    · rw [Content.isTime, has_of_plain _ isTime_mask, hu, Request.timeBased]
  cases h with
  | same => exact hv
  | created _ _ _ _ _ _ hcases =>
      intro x hx _
      rcases hcases with rfl | rfl
      · cases hx
      · change stored none r.update = some x at hx
        rcases stored_cases hx with ⟨_, hnone, -⟩ | ⟨-, hx⟩
        · cases hnone
        · rw [(hattributes (u := r.update) rfl hx).1]
          show Function.update v.certs r.nonVolatile (some _) r.nonVolatile ≠ none
          rw [Function.update_self]
          exact Option.some_ne_none _
  | @changed c cert hc _ _ _ hcert _ =>
      intro x hx htime
      change stored (some c) r.update = some x at hx
      rcases stored_cases hx with ⟨c', heq, -, rfl⟩ | ⟨-, hx⟩
      · cases heq
        exact hv c hc htime
      · rw [(hattributes (u := r.update) rfl hx).1, hcert]
        exact Option.some_ne_none cert
  | deleted =>
      intro x hx
      cases hx
  | plain hnot hplain =>
      intro x hx htime
      change stored v.content r.plainUpdate = some x at hx
      rcases stored_cases hx with ⟨c', heq, -, rfl⟩ | ⟨-, hx⟩
      · exact hv c' heq htime
      · rw [(hattributes (u := r.plainUpdate) rfl hx).2, hnot] at htime
        exact absurd htime Bool.false_ne_true

theorem step_kept (hp : p.Sound) {call : Call} (hcall : call.Allowed)
    (hs : CertsKept p s.contents) : CertsKept p (step p s call).contents := by
  obtain ⟨m, hm, hcerts⟩ := hs
  obtain ⟨m', hm', hview⟩ := step_view hp hm hcall
  refine ⟨m', hm', fun k => ?_⟩
  intro x hk
  have hold : ∀ x, (view s.contents m k).content = some x → x.isTime = true →
      (view s.contents m k).certs x.nonVolatile ≠ none := fun x => hcerts k x hk
  rcases hview k hk with h | ⟨-, hstep⟩
  · rw [← h] at hold
    exact hold x
  · exact hstep.covered hold x

theorem run_kept (hp : p.Sound) (calls : List Call) (hcalls : ∀ call ∈ calls, call.Allowed)
    (hs : CertsKept p s.contents) : CertsKept p (run p s calls).contents := by
  induction calls generalizing s with
  | nil => exact hs
  | cons call calls ih =>
      obtain ⟨hfirst, hrest⟩ := List.forall_mem_cons.mp hcalls
      exact ih hrest (step_kept hp hfirst hs)

end Boots

/-- The variables that there may be: the system is reset after a run, after an initialization
    that may have failed, or while "certdb" is cleaned up.  From boot to boot the platform may be
    another one, with the same size for the database. -/
inductive Reachable (size : Nat) : Contents → Prop where
  | factory : Reachable size fun _ => none
  | run {p : Platform} {V : VariableDriver} {s s' : State V} {c : Contents}
      {allocateRuntimePool : Bool} {status : Status} {calls : List Call} : Reachable size c →
      p.Sound → p.mMaxCertDbSize = size → s.contents = c.reset →
      authVariableLibInitialize p allocateRuntimePool s = some (status, s') →
      status.isError = false → (∀ call ∈ calls, call.Allowed) →
      Reachable size (AuthVariable.run p s' calls).contents
  | failed {p : Platform} {V : VariableDriver} {s s' : State V} {c : Contents}
      {allocateRuntimePool : Bool} {status : Status} : Reachable size c →
      p.Sound → p.mMaxCertDbSize = size → s.contents = c.reset →
      authVariableLibInitialize p allocateRuntimePool s = some (status, s') →
      Reachable size s'.contents
  | cleaning {p : Platform} {V : VariableDriver} {s s₁ s' : State V} {c : Contents}
      {status : Status} : Reachable size c →
      p.Sound → p.mMaxCertDbSize = size → s.contents = c.reset →
      (initializePlatformMode s fun s => initializeSecureBoot s fun s => some (.success, s))
        = some (status, s₁) →
      CleanTurns p s₁ s' → Reachable size s'.contents

section Reachable

theorem reachable_kept {size : Nat} (hroom : 4 ≤ size) {c : Contents} (h : Reachable size c)
    (p : Platform) (hsize : p.mMaxCertDbSize = size) : CertDbKept p c := by
  induction h generalizing p with
  | factory => exact .absent rfl fun k x _ hx => absurd hx.symm (Option.some_ne_none x)
  | @run p' V s s' c _ status calls _ hp hsize' hs hinit hok hcalls ih =>
      have hstart : Starting p' s.contents := hs ▸ (ih p' hsize').reset
      have hkept := (initialize_kept hp (hroom.trans_eq hsize'.symm) hstart hinit).resolve_left
        fun h => Bool.false_ne_true (hok.symm.trans h.1)
      exact (run_kept hp calls hcalls hkept).certDbKept.of_size (hsize.trans hsize'.symm)
  | @failed p' V s s' c _ status _ hp hsize' hs hinit ih =>
      have hstart : Starting p' s.contents := hs ▸ (ih p' hsize').reset
      have hkept : CertDbKept p' s'.contents := by
        rcases initialize_kept hp (hroom.trans_eq hsize'.symm) hstart hinit with h | h
        · exact h.2
        · exact h.certDbKept
      exact hkept.of_size (hsize.trans hsize'.symm)
  | @cleaning p' V s s₁ s' c status _ hp hsize' hs hinit hturns ih =>
      have hstart : Starting p' s.contents := hs ▸ (ih p' hsize').reset
      have hstart₁ : Starting p' s₁.contents := by
        rcases initializePlatformMode_starting hstart hinit with hend | ⟨_, hs₂, h⟩
        · exact hend.2
        rcases initializeSecureBoot_starting hs₂ h with hend | ⟨_, hs₃, h⟩
        · exact hend.2
        · cases h
          exact hs₃
      have hkept : CertDbKept p' s'.contents := by
        cases hstart₁.kept with
        | absent hnone =>
            -- Nothing is cleaned up.
            cases hturns with
            | refl => exact hstart₁.kept
            | turn hturn =>
                rw [cleanTurn, contents_eq_none.mp hnone] at hturn
                cases hturn
        | present hdb hcerts =>
            obtain ⟨_, hcleaned⟩ := hturns.cleaned hp hdb
            exact (hstart₁.cleaned hcerts hcleaned).kept
      exact hkept.of_size (hsize.trans hsize'.symm)

/-- After any resets, and in any run of calls since the last one, the certificate of every
    time-based authenticated variable is found. -/
theorem reachable_certs {p : Platform} (hp : p.Sound) (hroom : 4 ≤ p.mMaxCertDbSize)
    {c : Contents} (hc : Reachable p.mMaxCertDbSize c) {V : VariableDriver} {s s' : State V}
    {allocateRuntimePool : Bool} {status : Status} (hs : s.contents = c.reset)
    (hinit : authVariableLibInitialize p allocateRuntimePool s = some (status, s'))
    (hok : status.isError = false) (calls : List Call) (hcalls : ∀ call ∈ calls, call.Allowed)
    {k : Key} (hk : k.isPriv = true) {x : Content} (hx : (run p s' calls).contents k = some x)
    (htime : x.isTime = true) :
    ∃ cert, getCertsFromDb p (run p s' calls) k x.attributes = some (.ok cert) := by
  have hstart : Starting p s.contents := hs ▸ (reachable_kept hroom hc p rfl).reset
  have hinitialized := (initialize_kept hp hroom hstart hinit).resolve_left fun h =>
    Bool.false_ne_true (hok.symm.trans h.1)
  obtain ⟨m, hm, hcerts⟩ := run_kept hp calls hcalls hinitialized
  obtain ⟨cert, hcert⟩ := Option.ne_none_iff_exists'.mp (hcerts k x hk hx htime)
  refine ⟨cert, (hm.get hp k x.attributes).trans ?_⟩
  rw [← Content.nonVolatile, hcert]
  rfl

end Reachable

/-! ### The first boot -/

def factoryState : State plainDriver where
  store := fun _ => none
  mPlatformMode := 0#32
  mVendorKeyState := 0#8
  mCertDbStore := fun _ => 0#8

/-- The state after the initialization. -/
def firstBoot : State plainDriver :=
  ((authVariableLibInitialize signingPlatform true factoryState).map Prod.snd).getD factoryState

theorem firstBoot_eq : authVariableLibInitialize signingPlatform true factoryState
    = some (.success, firstBoot) := rfl

/-- A variable that is created at the first boot has its certificate. -/
theorem reachable_certs_firstBoot :
    ∃ cert, getCertsFromDb signingPlatform
      (run signingPlatform firstBoot [⟨absentEnv, signedRequest⟩]) vendorKey 0x27#32
        = some (.ok cert) :=
  reachable_certs (x := ⟨[0x42], 0x27#32, signedRequest.timeStamp⟩) signingPlatform_sound
    (by decide) .factory (by rw [plain_contents]; rfl) firstBoot_eq rfl
    [⟨absentEnv, signedRequest⟩]
    (fun c hc => by
      rw [List.mem_singleton.mp hc]
      exact signedRequest_allowed)
    (by decide) (by decide +kernel) (by decide)

end AuthVariable
