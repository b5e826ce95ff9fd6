/-
  MsmnilePkg.AuthVariable.PrivateVariables

  Common authenticated variables, each of which belongs to the one who has signed it first.

  A variable is seen together with the certificates that "certdb" and "certdbv" have for it.
  `PrivStep` says what a call may do to that view; `processVariable_step` connects it to the
  code.
-/

import MsmnilePkg.AuthVariable.CertMap

namespace AuthVariable

open Efi ByteMem LittleEndian RecordArea

/-! ## What a call may do -/

/-- A variable, and its certificates in the two databases. -/
structure View where
  content : Option Content
  certs : Bool → Option (List Byte)

def view (c : Contents) (m : CertMap) (k : Key) : View := ⟨c k, fun nonVolatile => m nonVolatile k⟩

/-- What the databases hold is the map. -/
def Represents (p : Platform) (c : Contents) (m : CertMap) : Prop :=
  ∃ nodes, IsCertDbs p c nodes ∧ certMap nodes = m

/-- "certdb" or "certdbv". -/
def Key.isDb (k : Key) : Bool := k = certDbKey || k = certDbVolatileKey

def Request.nonVolatile (r : Request) : Bool := r.attributes.has efiVariableNonVolatile

/-- The update of a request that is verified. -/
def Request.update (r : Request) : Update :=
  ⟨r.key, r.signedPayload, r.signedPayloadSize, r.attributes, some r.timeStamp⟩

/-- The update of a request that is not authenticated. -/
def Request.plainUpdate (r : Request) : Update :=
  ⟨r.key, r.data, r.dataSize, r.attributes, none⟩

/-- The request is signed by the one of the certificate: its digest, or the whole stack of
    certificates. -/
def SignerOf (p : Platform) (r : Request) (cert : List Byte) : Prop :=
  ∃ signerCerts topLevelCert, p.pkcs7GetSigners r.signedData = some (signerCerts, topLevelCert) ∧
    SignedBy p r topLevelCert ∧
    (calculatePrivAuthVarSignChainSHADigest p (findHashAlgorithmIndex r.sigData r.sigDataSize)
        (slice (ofList signerCerts) 5 (value (ofList signerCerts) 1 4)) topLevelCert = .ok cert ∨
      signerCerts = cert)

/-- What entitles a request to delete a variable. -/
inductive MayDelete (p : Platform) (e : Env) (r : Request) (c : Content)
    (certs : Bool → Option (List Byte)) : Prop where
  /-- By a user who is present, or without the policy engine. -/
  | plain : isDeleteAuthVariable c.attributes r = true →
      e.userPhysicalPresent = true ∨ e.isVariablePolicyEnabled = false → MayDelete p e r c certs
  | policyOff : e.isVariablePolicyEnabled = false → r.signedPayloadSize = 0 → r.append = false →
      MayDelete p e r c certs
  | signed {cert : List Byte} : e.efiAtRuntime = false →
      r.descriptorOk (some c.timeStamp) = true → certs r.nonVolatile = some cert →
      SignerOf p r cert → MayDelete p e r c certs

/-- What a call does to the variable that is set. -/
inductive PrivStep (p : Platform) (e : Env) (r : Request) (v : View) : View → Prop where
  | same : PrivStep p e r v v
  /-- A new variable, of which only the certificate may be there. -/
  | created {cert : List Byte} {content : Option Content} : v.content = none →
      v.certs r.nonVolatile = none → r.timeBased = true → e.efiAtRuntime = false →
      r.descriptorOk none = true → SignerOf p r cert →
      content = none ∨ content = stored none r.update →
      PrivStep p e r v ⟨content, Function.update v.certs r.nonVolatile (some cert)⟩
  | changed {c : Content} {cert : List Byte} : v.content = some c → r.timeBased = true →
      e.efiAtRuntime = false → r.descriptorOk (some c.timeStamp) = true →
      v.certs r.nonVolatile = some cert → SignerOf p r cert →
      PrivStep p e r v ⟨stored (some c) r.update, v.certs⟩
  /-- A variable that is gone, the certificate of which may still be there. -/
  | deleted {c : Content} {certs : Bool → Option (List Byte)} : v.content = some c →
      MayDelete p e r c v.certs →
      certs = v.certs ∨ certs = Function.update v.certs r.nonVolatile none →
      PrivStep p e r v ⟨none, certs⟩
  | plain : r.timeBased = false →
      (∀ c, v.content = some c → c.attributes.has (efiVariableAuthenticatedWriteAccess |||
        efiVariableTimeBasedAuthenticatedWriteAccess) = false) →
      PrivStep p e r v ⟨stored v.content r.plainUpdate, v.certs⟩

/-! ## The verification -/

section Verification

variable {V : VariableDriver} {p : Platform} {e : Env} {s s' : State V} {r : Request}
  {status : Status} {m : CertMap} {c c' : Contents} {k : Key} {org : Option EfiTime}

theorem Represents.congr (h : Represents p c m) (hdb : c' certDbKey = c certDbKey)
    (hvolatile : c' certDbVolatileKey = c certDbVolatileKey) : Represents p c' m := by
  obtain ⟨nodes, hdbs, hm⟩ := h
  refine ⟨nodes, fun attributes => (hdbs attributes).congr ?_, hm⟩
  rcases dbKey_cases attributes with hkey | hkey <;> rw [hkey]
  · exact hdb
  · exact hvolatile

theorem Represents.get (h : Represents p s.contents m) (hp : p.Sound) (k : Key)
    (attributes : Attributes) : getCertsFromDb p s k attributes
      = some ((m (attributes.has efiVariableNonVolatile) k).elim (.error .notFound) .ok) := by
  obtain ⟨nodes, hdbs, rfl⟩ := h
  exact getCertsFromDb_eq hp (hdbs attributes) k

/-- A call of `InsertCertsToDb` or `DeleteCertsFromDb`. -/
theorem Represents.exec (h : Represents p s.contents m) (hp : p.Sound) {call : DbCall}
    (hshort : call.Short) (hexec : call.exec p s = some (status, s')) :
    ∃ m', Represents p s'.contents m' ∧ call.Effect p s m status m' ∧
      ∀ k, k.isDb = false → s'.contents k = s.contents k := by
  obtain ⟨nodes, hdbs, rfl⟩ := h
  obtain ⟨status', s₁, nodes', hexec', hdbs', heffect, hframe⟩ := exec_effect hp hdbs hshort
  cases hexec.symm.trans hexec'
  refine ⟨certMap nodes', ⟨nodes', hdbs', rfl⟩, heffect, fun k hk => ?_⟩
  rw [Key.isDb, Bool.or_eq_false_iff, decide_eq_false_iff_not, decide_eq_false_iff_not] at hk
  exact hframe k hk.1 hk.2

theorem Represents.insert {attributes : Attributes} (h : Represents p s.contents m) (hp : p.Sound)
    (hk : k.Short) {hashAlgId : Nat} {signerCert topLevelCert : List Byte}
    (hinsert : insertCertsToDb p s hashAlgId k attributes signerCert topLevelCert
      = some (status, s')) :
    ∃ m', Represents p s'.contents m' ∧ (∀ k, k.isDb = false → s'.contents k = s.contents k) ∧
      (status.isError = true ∧ m' = m ∨
        status.isError = false ∧ m (attributes.has efiVariableNonVolatile) k = none ∧ ∃ cert,
          calculatePrivAuthVarSignChainSHADigest p hashAlgId signerCert topLevelCert = .ok cert ∧
          m' = Function.update m (attributes.has efiVariableNonVolatile)
            (Function.update (m (attributes.has efiVariableNonVolatile)) k (some cert))) := by
  have hshort : (DbCall.insert hashAlgId k attributes signerCert topLevelCert).Short := hk
  obtain ⟨m', hm', heffect, hframe⟩ := h.exec hp hshort hinsert
  refine ⟨m', hm', hframe, ?_⟩
  cases heffect with
  | insertFailed herror _ => exact .inl ⟨herror, rfl⟩
  | insert hok hnone hdigest => exact .inr ⟨hok, hnone, _, hdigest, rfl⟩

theorem Represents.delete {attributes : Attributes} (h : Represents p s.contents m) (hp : p.Sound)
    (hdelete : deleteCertsFromDb p s k attributes = some (status, s')) :
    ∃ m', Represents p s'.contents m' ∧ (∀ k, k.isDb = false → s'.contents k = s.contents k) ∧
      (m' = m ∨ m' = Function.update m (attributes.has efiVariableNonVolatile)
        (Function.update (m (attributes.has efiVariableNonVolatile)) k none)) := by
  obtain ⟨m', hm', heffect, hframe⟩ :=
    h.exec hp (show (DbCall.delete k attributes).Short from trivial) hdelete
  refine ⟨m', hm', hframe, ?_⟩
  cases heffect with
  | deleteFailed => exact .inl rfl
  | delete => exact .inr rfl

/-- What `verifyPriv` finds, and the certificates after it. -/
inductive PrivVerified (p : Platform) (r : Request) (org : Option EfiTime) (m : CertMap) :
    Bool → CertMap → Prop where
  | failed : PrivVerified p r org m false m
  | known {cert : List Byte} : org.isSome = true → m r.nonVolatile r.key = some cert →
      SignerOf p r cert → PrivVerified p r org m true m
  | empty : org = none → r.signedPayloadSize = 0 → PrivVerified p r org m true m
  | inserted {cert : List Byte} : org = none → m r.nonVolatile r.key = none →
      SignerOf p r cert → PrivVerified p r org m true
        (Function.update m r.nonVolatile (Function.update (m r.nonVolatile) r.key (some cert)))

/-- The certificate that is stored is that of the signer. -/
theorem signersMatch_cert (hp : p.Sound) (h : Represents p s.contents m)
    {signerCerts topLevelCert : List Byte}
    (hmatch : signersMatch p s r signerCerts topLevelCert = some true) :
    ∃ cert, m r.nonVolatile r.key = some cert ∧
      (calculatePrivAuthVarSignChainSHADigest p (findHashAlgorithmIndex r.sigData r.sigDataSize)
          (slice (ofList signerCerts) 5 (value (ofList signerCerts) 1 4)) topLevelCert = .ok cert ∨
        signerCerts = cert) := by
  have hget := h.get hp r.key r.attributes
  cases hcert : m r.nonVolatile r.key with
  | none =>
      rw [← Request.nonVolatile, hcert, Option.elim_none] at hget
      rw [signersMatch, hget] at hmatch
      exact absurd (Option.some.inj hmatch) Bool.false_ne_true
  | some cert =>
      rw [← Request.nonVolatile, hcert, Option.elim_some] at hget
      rw [signersMatch, hget, Option.map_some] at hmatch
      have hsame := Option.some.inj hmatch
      refine ⟨cert, rfl, ?_⟩
      simp only at hsame
      split at hsame
      · -- A digest, of the size of its algorithm.
        rename_i hsize
        obtain ⟨hashInfo, hinfo, hlength⟩ := (Option.any_eq_true ..).mp hsize
        split at hsame
        · exact absurd hsame Bool.false_ne_true
        · rename_i shaDigest hdigest
          obtain ⟨message, hhash⟩ := calculate_ok hdigest
          have hdigestLength := (hp.hashSize hinfo hhash).trans (of_decide_eq_true hlength).symm
          have hslice : slice (ofList shaDigest) 0 cert.length = shaDigest :=
            (holds_ofList shaDigest).slice_eq hdigestLength.symm
          rw [hslice] at hsame
          exact .inl (hdigest.trans (congrArg _ (of_decide_eq_true hsame)))
      · exact .inr (of_decide_eq_true hsame)

theorem verifyPriv_view (hp : p.Sound) (hm : Represents p s.contents m) (hk : r.key.Short)
    {verified : Bool} (h : verifyPriv p s r org = some (verified, s')) :
    ∃ m', Represents p s'.contents m' ∧ PrivVerified p r org m verified m' ∧
      ∀ k, k.isDb = false → s'.contents k = s.contents k := by
  rw [verifyPriv] at h
  split at h
  · cases h
    exact ⟨m, hm, .failed, fun _ _ => rfl⟩
  · rename_i signerCerts topLevelCert hsigners
    obtain ⟨known, hknown, h⟩ := Option.bind_eq_some_iff.mp h
    split_ifs at h with hfailed hsigned hnew
    · cases h
      exact ⟨m, hm, .failed, fun _ _ => rfl⟩
    · cases h
      exact ⟨m, hm, .failed, fun _ _ => rfl⟩
    · -- A new variable, the certificates of which are inserted.
      rw [Bool.not_eq_false] at hsigned
      obtain ⟨⟨status, s₁⟩, hinsert, heq⟩ := Option.map_eq_some_iff.mp h
      cases heq
      obtain ⟨m', hm', hframe, ⟨herror, rfl⟩ | ⟨hok, hnone, cert, hdigest, rfl⟩⟩ :=
        hm.insert hp hk hinsert
      · rw [herror]
        exact ⟨_, hm', .failed, hframe⟩
      · rw [hok]
        exact ⟨_, hm', .inserted hnew.1 hnone
          ⟨signerCerts, topLevelCert, hsigners, hsigned, .inl hdigest⟩, hframe⟩
    · cases h
      rw [Bool.not_eq_false] at hsigned hfailed
      refine ⟨m, hm, ?_, fun _ _ => rfl⟩
      cases org with
      | none =>
          refine .empty rfl ?_
          rw [not_and, not_not] at hnew
          exact hnew rfl
      | some timeStamp =>
          rw [hfailed, if_pos Option.isSome_some] at hknown
          obtain ⟨cert, hcert, hsame⟩ := signersMatch_cert hp hm hknown
          exact .known rfl hcert ⟨signerCerts, topLevelCert, hsigners, hsigned, hsame⟩

/-- The format of a common variable is not checked. -/
theorem verifyExit_common {verified : Bool} (hk : r.key.secureBoot = false) :
    verifyExit p s r verified
      = some (if verified = true then .success else efiSecurityViolation, s) := by
  rw [Key.secureBoot, Bool.or_eq_false_iff, Bool.or_eq_false_iff, decide_eq_false_iff_not,
    decide_eq_false_iff_not] at hk
  obtain ⟨⟨hpk, hkek⟩, hdb⟩ := hk
  have hcheck : checkSignatureListFormat p r.key r.signedPayload r.signedPayloadSize
      = some .success := by
    have hnone : ¬(decide (r.key = keyExchangeKey) || r.key.isImageSecurityDatabase) = true := by
      rw [hdb, Bool.or_false, decide_eq_true_eq]
      exact hkek
    rw [checkSignatureListFormat, if_neg hpk, if_neg hnone]
    split <;> rfl
  cases verified with
  | false => rfl
  | true =>
      rw [verifyExit, if_neg (by decide), hcheck]
      rfl

/-- What a verification that succeeds has found. -/
structure PayloadVerified (p : Platform) (e : Env) (r : Request) (org : Option EfiTime)
    (m m' : CertMap) : Prop where
  descriptor : r.descriptorOk org = true
  verified : e.isVariablePolicyEnabled = false ∧ r.signedPayloadSize = 0 ∧ r.append = false ∧
    m' = m ∨ PrivVerified p r org m true m'

theorem verifyTimeBasedPayload_view (hp : p.Sound) (hm : Represents p s.contents m)
    (hshort : r.key.Short) (hk : r.key.secureBoot = false)
    (h : verifyTimeBasedPayload p e s r .priv org = some (status, s')) :
    ∃ m', Represents p s'.contents m' ∧ (∀ k, k.isDb = false → s'.contents k = s.contents k) ∧
      (status.isError = true ∧ m' = m ∨
        status.isError = false ∧ PayloadVerified p e r org m m') := by
  rw [verifyTimeBasedPayload] at h
  split at h
  · cases h
    exact ⟨m, hm, fun _ _ => rfl, .inl ⟨rfl, rfl⟩⟩
  · rename_i hdescriptor
    rw [Bool.not_eq_false] at hdescriptor
    split at h
    · -- Any variable may be deleted.
      rename_i hdelete
      rw [verifyExit_common hk] at h
      cases h
      exact ⟨m, hm, fun _ _ => rfl,
        .inr ⟨rfl, hdescriptor, .inl ⟨hdelete.2.2, hdelete.1, hdelete.2.1, rfl⟩⟩⟩
    · split at h
      · cases h
        exact ⟨m, hm, fun _ _ => rfl, .inl ⟨rfl, rfl⟩⟩
      · obtain ⟨⟨result, s₁⟩, hsignature, h⟩ := Option.bind_eq_some_iff.mp h
        obtain ⟨⟨verified, s₂⟩, hpriv, heq⟩ := Option.map_eq_some_iff.mp hsignature
        cases heq
        obtain ⟨m', hm', hverified, hframe⟩ := verifyPriv_view hp hm hshort hpriv
        simp only at h
        rw [verifyExit_common hk] at h
        cases h
        refine ⟨m', hm', hframe, ?_⟩
        cases verified with
        | false =>
            cases hverified
            exact .inl ⟨rfl, rfl⟩
        | true => exact .inr ⟨rfl, hdescriptor, .inr hverified⟩

/-! ## The call -/

/-- A call for a common variable: what it does to the view of it, and that it leaves the
    other variables alone. -/
structure CallView (p : Platform) (e : Env) (r : Request) (c : Contents) (m : CertMap)
    (c' : Contents) (m' : CertMap) : Prop where
  represents : Represents p c' m'
  step : PrivStep p e r (view c m r.key) (view c' m' r.key)
  frame : ∀ k ≠ r.key, k.isDb = false → view c' m' k = view c m k

theorem view_eq (hc : c' k = c k) {m' : CertMap}
    (hm : ∀ nonVolatile, m' nonVolatile k = m nonVolatile k) : view c' m' k = view c m k := by
  rw [view, view, hc]
  exact congrArg (View.mk (c k)) (funext hm)

/-- Setting the certificate of one variable. -/
theorem update_map (m : CertMap) (nonVolatile : Bool) (key : Key) (cert : Option (List Byte)) :
    (∀ nv, (Function.update m nonVolatile (Function.update (m nonVolatile) key cert)) nv key
        = Function.update (fun nv => m nv key) nonVolatile cert nv) ∧
      ∀ k ≠ key, ∀ nv,
        (Function.update m nonVolatile (Function.update (m nonVolatile) key cert)) nv k
          = m nv k := by
  refine ⟨fun nv => ?_, fun k hk nv => ?_⟩
  · by_cases hnv : nv = nonVolatile
    · subst hnv
      rw [Function.update_self, Function.update_self, Function.update_self]
    · rw [Function.update_of_ne hnv, Function.update_of_ne hnv]
  · by_cases hnv : nv = nonVolatile
    · subst hnv
      rw [Function.update_self, Function.update_of_ne hk]
    · rw [Function.update_of_ne hnv]

theorem view_update (m : CertMap) (nonVolatile : Bool) (key : Key) (cert : Option (List Byte)) :
    view c (Function.update m nonVolatile (Function.update (m nonVolatile) key cert)) key
      = ⟨c key, Function.update (view c m key).certs nonVolatile cert⟩ :=
  congrArg (View.mk (c key)) (funext (update_map m nonVolatile key cert).1)

theorem stored_deletes {u : Update} (old : Option Content) (h : u.deletes = true) :
    stored old u = none := by
  unfold stored
  rw [h, if_pos rfl]

theorem stored_none_empty {u : Update} (h : u.dataSize = 0) : stored none u = none := by
  unfold stored
  cases u.deletes with
  | true => exact if_pos rfl
  | false => exact (if_neg Bool.false_ne_true).trans (if_pos h)

theorem Request.update_deletes (hsize : r.signedPayloadSize = 0) (happend : r.append = false) :
    r.update.deletes = true := by
  rw [Update.deletes, Request.update]
  simp only
  rw [hsize, ← Request.append, happend]
  simp

/-- What is written of a common variable is the payload. -/
theorem updateWithTimeStamp_common (hk : r.key.secureBoot = false) :
    updateWithTimeStamp p s r.key r.signedPayload r.signedPayloadSize r.attributes r.timeStamp
      = some (((update s r.update).1, r.signedPayload), (update s r.update).2) := by
  rw [Key.secureBoot, Bool.or_eq_false_iff, Bool.or_eq_false_iff, decide_eq_false_iff_not,
    decide_eq_false_iff_not] at hk
  have hfiltered : filtered p s r.key r.signedPayload r.signedPayloadSize r.attributes
      = some (r.signedPayload, r.signedPayloadSize) := by
    rw [filtered]
    split
    · rfl
    · refine if_neg fun h => ?_
      rcases h.2 with h | h
      · exact Bool.false_ne_true (hk.2.symm.trans h)
      · exact hk.1.2 h
  rw [updateWithTimeStamp, hfiltered]
  rfl

theorem Key.ne_of_isDb (h : k.isDb = false) : certDbKey ≠ k ∧ certDbVolatileKey ≠ k := by
  rw [Key.isDb, Bool.or_eq_false_iff, decide_eq_false_iff_not, decide_eq_false_iff_not] at h
  exact ⟨Ne.symm h.1, Ne.symm h.2⟩

/-- An update of another variable than the databases. -/
theorem update_view {u : Update} (hm : Represents p s.contents m) (hu : u.key.isDb = false) :
    (update s u).1.isError = true ∧ (update s u).2.contents = s.contents ∨
      (update s u).1.isError = false ∧ Represents p (update s u).2.contents m ∧
        (update s u).2.contents u.key = stored (s.contents u.key) u ∧
        ∀ k ≠ u.key, (update s u).2.contents k = s.contents k := by
  cases hstatus : (update s u).1.isError with
  | true => exact .inl ⟨rfl, update_error hstatus⟩
  | false =>
      have hother : ∀ k ≠ u.key, (update s u).2.contents k = s.contents k := by
        intro k hne
        rw [update_success hstatus]
        exact Contents.write_of_ne _ hne
      obtain ⟨hdb, hvolatile⟩ := Key.ne_of_isDb hu
      refine .inr ⟨rfl, hm.congr (hother _ hdb) (hother _ hvolatile), ?_, hother⟩
      rw [update_success hstatus]
      exact Function.update_self ..

theorem view_of {x : Option Content} (m : CertMap) (h : c' k = x) :
    view c' m k = ⟨x, (view c m k).certs⟩ := by
  rw [view, h]
  rfl

/-- The update, and the deletion of the certificates after it. -/
theorem updateCommon_view {s₁ : State V} {m₁ : CertMap} {isDel : Bool} (hp : p.Sound)
    (hm : Represents p s₁.contents m₁) (hdb : r.key.isDb = false)
    (h : deleteCertsAfter p .priv isDel r (update s₁ r.update) = some (status, s')) :
    ∃ m', Represents p s'.contents m' ∧
      (∀ k ≠ r.key, k.isDb = false → s'.contents k = s₁.contents k ∧ ∀ nv, m' nv k = m₁ nv k) ∧
      (view s'.contents m' r.key = view s₁.contents m₁ r.key ∨
        (update s₁ r.update).1.isError = false ∧
          (view s'.contents m' r.key
              = ⟨stored (s₁.contents r.key) r.update, (view s₁.contents m₁ r.key).certs⟩ ∨
            isDel = true ∧ view s'.contents m' r.key = ⟨stored (s₁.contents r.key) r.update,
              Function.update (view s₁.contents m₁ r.key).certs r.nonVolatile none⟩)) := by
  rcases update_view hm (u := r.update) hdb with ⟨hstatus, hsame⟩ | ⟨hstatus, hm₂, hthis, hother⟩
  · -- Nothing changes.
    rw [deleteCertsAfter, if_neg (fun hdel => by
      rw [hstatus] at hdel
      exact absurd hdel.2.2 (by decide))] at h
    rw [show (update s₁ r.update).2 = s' from congrArg Prod.snd (Option.some.inj h)] at hsame
    exact ⟨m₁, hsame ▸ hm, fun k _ _ => ⟨by rw [hsame], fun _ => rfl⟩, .inl (by rw [hsame])⟩
  · rw [deleteCertsAfter] at h
    split at h
    · rename_i hdel
      obtain ⟨m', hm', hframe, hmap⟩ := hm₂.delete hp h
      have hthis := (hframe _ hdb).trans hthis
      refine ⟨m', hm', fun k hne hk => ⟨(hframe k hk).trans (hother k hne), fun nv => ?_⟩,
        .inr ⟨hstatus, ?_⟩⟩
      · rcases hmap with rfl | rfl
        · rfl
        · exact (update_map ..).2 k hne nv
      · rcases hmap with rfl | rfl
        · exact .inl (view_of _ hthis)
        · refine .inr ⟨hdel.1, ?_⟩
          rw [view_update]
          exact congrArg (View.mk · _) hthis
    · rw [show (update s₁ r.update).2 = s' from congrArg Prod.snd (Option.some.inj h)] at *
      exact ⟨m₁, hm₂, fun k hne _ => ⟨hother k hne, fun _ => rfl⟩,
        .inr ⟨hstatus, .inl (view_of _ hthis)⟩⟩

/-- Other variables keep their certificates. -/
theorem PayloadVerified.frame {m' : CertMap} (h : PayloadVerified p e r org m m') (hk : k ≠ r.key)
    (nv : Bool) : m' nv k = m nv k := by
  rcases h.verified with ⟨-, -, -, rfl⟩ | hverified
  · rfl
  · cases hverified with
    | known => rfl
    | empty => rfl
    | inserted => exact (update_map ..).2 k hk nv

/-- A variable that is not there. -/
theorem privStep_missing {m₁ : CertMap} {v' : View} {isDel : Bool} (htime : r.timeBased = true)
    (hruntime : e.efiAtRuntime = false) (hnone : c r.key = none) (hdel : isDel = false)
    (h : PayloadVerified p e r none m m₁) {ok : Prop} (hmissing : r.update.deletes = true → ¬ok)
    (hview : v' = view c m₁ r.key ∨ ok ∧
      (v' = ⟨stored (c r.key) r.update, (view c m₁ r.key).certs⟩ ∨ isDel = true ∧
        v' = ⟨stored (c r.key) r.update,
          Function.update (view c m₁ r.key).certs r.nonVolatile none⟩)) :
    PrivStep p e r (view c m r.key) v' := by
  have hview : v' = view c m₁ r.key ∨
      ok ∧ v' = ⟨stored none r.update, (view c m₁ r.key).certs⟩ := by
    rw [hnone, hdel] at hview
    exact hview.imp_right fun hok =>
      ⟨hok.1, hok.2.resolve_right fun hdel => Bool.false_ne_true hdel.1⟩
  rcases h.verified with ⟨-, hsize, happend, rfl⟩ | hverified
  · rcases hview with rfl | ⟨hok, -⟩
    · exact .same
    · exact absurd hok (hmissing (Request.update_deletes hsize happend))
  · cases hverified with
    | known hsome => exact absurd hsome Bool.false_ne_true
    | empty _ hsize =>
        rcases hview with rfl | ⟨-, rfl⟩
        · exact .same
        · rw [stored_none_empty (u := r.update) hsize, ← hnone]
          exact .same
    | @inserted cert _ hcert hsigner =>
        rw [view_update] at hview
        refine (?_ : ∃ content, (content = none ∨ content = stored none r.update) ∧
          v' = ⟨content, Function.update (view c m r.key).certs r.nonVolatile (some cert)⟩).elim ?_
        · rcases hview with rfl | ⟨-, rfl⟩
          · exact ⟨none, .inl rfl, by rw [hnone]⟩
          · exact ⟨_, .inr rfl, rfl⟩
        · rintro content ⟨hcontent, rfl⟩
          exact .created hnone hcert htime hruntime h.descriptor hsigner hcontent

/-- A variable that is there. -/
theorem privStep_present {m₁ : CertMap} {v' : View} {isDel : Bool} {old : Content}
    (htime : r.timeBased = true) (hruntime : e.efiAtRuntime = false) (hold : c r.key = some old)
    (hdel : isDel = true → r.signedPayloadSize = 0 ∧ r.append = false)
    (h : PayloadVerified p e r (some old.timeStamp) m m₁)
    (hview : v' = view c m₁ r.key ∨
      (v' = ⟨stored (c r.key) r.update, (view c m₁ r.key).certs⟩ ∨ isDel = true ∧
        v' = ⟨stored (c r.key) r.update,
          Function.update (view c m₁ r.key).certs r.nonVolatile none⟩)) :
    PrivStep p e r (view c m r.key) v' := by
  rw [hold] at hview
  rcases h.verified with ⟨hpolicy, hsize, happend, rfl⟩ | hverified
  · have hmay : MayDelete p e r old (view c m₁ r.key).certs := .policyOff hpolicy hsize happend
    rw [stored_deletes _ (Request.update_deletes hsize happend)] at hview
    rcases hview with rfl | rfl | ⟨-, rfl⟩
    · exact .same
    · exact .deleted hold hmay (.inl rfl)
    · exact .deleted hold hmay (.inr rfl)
  · cases hverified with
    | known _ hcert hsigner =>
        rcases hview with rfl | rfl | ⟨hisDel, rfl⟩
        · exact .same
        · exact .changed hold htime hruntime h.descriptor hcert hsigner
        · obtain ⟨hsize, happend⟩ := hdel hisDel
          rw [stored_deletes _ (Request.update_deletes hsize happend)]
          exact .deleted hold (.signed hruntime h.descriptor hcert hsigner) (.inr rfl)
    | empty hnone => exact nomatch hnone
    | inserted hnone => exact nomatch hnone

theorem verifyAndUpdate_view (hp : p.Sound) (hm : Represents p s.contents m)
    (hshort : r.key.Short) (hk : r.key.secureBoot = false) (hdb : r.key.isDb = false)
    (htime : r.timeBased = true) {del : Bool} {r' : Request}
    (h : verifyTimeBasedPayloadAndUpdate p e s r .priv = some ((status, del, r'), s')) :
    ∃ m', CallView p e r s.contents m s'.contents m' := by
  rw [verifyTimeBasedPayloadAndUpdate] at h
  split at h
  · cases h
    exact ⟨m, hm, .same, fun _ _ _ => rfl⟩
  · rename_i hruntime
    rw [Bool.not_eq_true] at hruntime
    obtain ⟨⟨st, s₁⟩, hverify, h⟩ := Option.bind_eq_some_iff.mp h
    obtain ⟨m₁, hm₁, hframe₁, hcases⟩ := verifyTimeBasedPayload_view hp hm hshort hk hverify
    simp only at h
    rcases hcases with ⟨herror, rfl⟩ | ⟨hok, hverified⟩
    · rw [herror, if_pos rfl] at h
      cases h
      refine ⟨m₁, hm₁, ?_, fun k _ hk => view_eq (hframe₁ k hk) fun _ => rfl⟩
      rw [view_eq (hframe₁ r.key hdb) fun _ => rfl]
      exact .same
    · rw [hok, if_neg Bool.false_ne_true, updateWithTimeStamp_common hk, Option.bind_some] at h
      obtain ⟨⟨st', s₂⟩, hafter, heq⟩ := Option.map_eq_some_iff.mp h
      cases heq
      obtain ⟨m', hm', hframe, hview⟩ := updateCommon_view hp hm₁ hdb hafter
      rw [view_eq (c := s.contents) (m := m₁) (hframe₁ r.key hdb) fun _ => rfl,
        hframe₁ r.key hdb] at hview
      refine ⟨m', hm', ?_, fun k hne hk => ?_⟩
      · cases hfind : s.find r.key with
        | none =>
            have hnone := contents_eq_none.mpr hfind
            rw [hfind] at hverified hview
            refine privStep_missing htime hruntime hnone rfl hverified (fun hdeletes hok => ?_) hview
            -- What does not exist is not deleted.
            have hmissing : s₁.find r.key = none :=
              contents_eq_none.mp ((hframe₁ r.key hdb).trans hnone)
            have herror := V.delete_missing s₁.store r.update hdeletes hmissing
            exact Bool.false_ne_true (hok.symm.trans herror)
        | some v =>
            rw [hfind] at hverified hview
            refine privStep_present htime hruntime (contents_of_find hfind) (fun hdel => ?_) hverified
              (hview.imp_right And.right)
            simpa using hdel
      · refine view_eq ((hframe k hne hk).1.trans (hframe₁ k hk)) fun nv => ?_
        rw [(hframe k hne hk).2 nv, hverified.frame hne nv]

/-- A call that is refused. -/
theorem CallView.refl (hm : Represents p c m) : CallView p e r c m c m :=
  ⟨hm, .same, fun _ _ _ => rfl⟩

/-- Common variables: a call does to the variable that is set what `PrivStep` says. -/
theorem processVariable_view (hp : p.Sound) (hm : Represents p s.contents m)
    (hshort : r.key.Short) (hk : r.key.secureBoot = false) (hdb : r.key.isDb = false)
    (h : processVariable p e s r = some (status, s')) :
    ∃ m', CallView p e r s.contents m s'.contents m' := by
  rw [processVariable] at h
  simp only at h
  split at h
  · -- A user who is present may delete.
    rename_i hdelete
    rw [Bool.and_eq_true, Option.any_eq_true, Bool.or_eq_true, Bool.not_eq_true'] at hdelete
    obtain ⟨⟨v, hfind, hisDelete⟩, hallowed⟩ := hdelete
    have hmay : ∀ certs, MayDelete p e r v.content certs := fun _ => .plain hisDelete hallowed
    have hold := contents_of_find hfind
    generalize hu : (⟨r.key, fun _ => 0#8, 0, 0#32, none⟩ : Update) = u at h
    have hkey : u.key = r.key := by rw [← hu]
    have hnone : stored (s.contents u.key) u = none := by
      refine stored_deletes _ ?_
      simp [← hu, Update.deletes, Attributes.has]
    have hudb : u.key.isDb = false := hkey ▸ hdb
    rcases update_view hm hudb with ⟨hstatus, hsame⟩ | ⟨hstatus, hm₂, hthis, hother⟩
    · rw [if_neg (fun hok => Bool.false_ne_true (hok.1.symm.trans hstatus))] at h
      rw [show (update s u).2 = s' from congrArg Prod.snd (Option.some.inj h)] at hsame
      rw [hsame]
      exact ⟨m, .refl hm⟩
    · rw [hnone, hkey] at hthis
      rw [hkey] at hother
      split at h
      · obtain ⟨m', hm', hframe, hmap⟩ := hm₂.delete hp h
        have hthis := (hframe _ hdb).trans hthis
        refine ⟨m', hm', ?_, fun k hne hk => view_eq ((hframe k hk).trans (hother k hne)) fun nv => ?_⟩
        · rcases hmap with rfl | rfl
          · rw [view_of _ hthis]
            exact .deleted hold (hmay _) (.inl rfl)
          · rw [view_update, hthis]
            exact .deleted hold (hmay _) (.inr rfl)
        · rcases hmap with rfl | rfl
          · rfl
          · exact (update_map ..).2 k hne nv
      · rw [show (update s u).2 = s' from congrArg Prod.snd (Option.some.inj h)] at hm₂ hother hthis
        refine ⟨m, hm₂, ?_, fun k hne _ => view_eq (hother k hne) fun _ => rfl⟩
        rw [view_of m hthis]
        exact .deleted hold (hmay _) (.inl rfl)
  · split at h
    · cases h
      exact ⟨m, .refl hm⟩
    · split at h
      · cases h
        exact ⟨m, .refl hm⟩
      · split at h
        · rename_i htime
          obtain ⟨⟨⟨st, del, left⟩, s₁⟩, hverify, heq⟩ := Option.map_eq_some_iff.mp h
          cases heq
          exact verifyAndUpdate_view hp hm hshort hk hdb htime hverify
        · rename_i htime
          rw [Bool.not_eq_true] at htime
          split at h
          · cases h
            exact ⟨m, .refl hm⟩
          · -- A variable that is not authenticated.
            rename_i hplain
            rw [Option.any_eq_true] at hplain
            have hstate : (update s r.plainUpdate).2 = s' := congrArg Prod.snd (Option.some.inj h)
            rcases update_view hm (u := r.plainUpdate) hdb with ⟨-, hsame⟩ | ⟨-, hm₂, hthis, hother⟩
            · rw [hstate] at hsame
              rw [hsame]
              exact ⟨m, .refl hm⟩
            · rw [hstate] at hm₂ hthis hother
              refine ⟨m, hm₂, ?_, fun k hne _ => view_eq (hother k hne) fun _ => rfl⟩
              rw [view_of m (k := r.key) hthis]
              refine .plain htime fun c hc => ?_
              obtain ⟨v, hfind, rfl⟩ := exists_find hc
              rw [← Bool.not_eq_true]
              exact fun hattributes => hplain ⟨v, hfind, hattributes⟩

end Verification

end AuthVariable
