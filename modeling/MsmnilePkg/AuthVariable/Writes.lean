/-
  MsmnilePkg.AuthVariable.Writes

  What a call writes, and what it leaves alone.

  `Wrote P c c'` says that the variables go from `c` to `c'` by writes for which `P` holds.
  Every function of the library has its lemma here; the properties of a call are case
  analyses over what it wrote.
-/

import MsmnilePkg.AuthVariable.ProcessVariable

namespace AuthVariable

open Efi ByteMem LittleEndian RecordArea

/-! ## Writes -/

inductive Wrote (P : Write → Prop) (c : Contents) : Contents → Prop where
  | none : Wrote P c c
  | write {c' : Contents} {w : Write} : Wrote P c c' → P w → Wrote P c (c'.write w)

section Wrote

variable {P Q : Write → Prop} {c c' c'' : Contents} {k : Key} {w : Write}

theorem Wrote.trans (h : Wrote P c c') (h' : Wrote P c' c'') : Wrote P c c'' := by
  induction h' with
  | none => exact h
  | write _ hw ih => exact ih.write hw

theorem Wrote.mono (h : Wrote P c c') (hPQ : ∀ w, P w → Q w) : Wrote Q c c' := by
  induction h with
  | none => exact .none
  | write _ hw ih => exact ih.write (hPQ _ hw)

theorem Contents.write_of_ne (c : Contents) (h : k ≠ w.key) : c.write w k = c k := by
  cases w with
  | update u => exact Function.update_of_ne h _ c
  | copyMem key byte => exact Function.update_of_ne h _ c

theorem Contents.write_update_self (c : Contents) (u : Update) :
    c.write (.update u) u.key = stored (c u.key) u := Function.update_self ..

theorem Contents.write_copyMem_self (c : Contents) (key : Key) (byte : Byte) :
    c.write (.copyMem key byte) key
      = (c key).map fun old => { old with value := old.value.set 0 byte } := Function.update_self ..

/-- A variable that is not written stays as it is. -/
theorem Wrote.frame (h : Wrote P c c') (hk : ∀ w, P w → w.key ≠ k) : c' k = c k := by
  induction h with
  | none => rfl
  | write _ hw ih => rw [Contents.write_of_ne _ (hk _ hw).symm, ih]

/-- A variable that changes was written. -/
theorem Wrote.exists_write (h : Wrote P c c') (hk : c' k ≠ c k) : ∃ w, P w ∧ w.key = k := by
  by_contra hnone
  exact hk (h.frame fun w hw hkey => hnone ⟨w, hw, hkey⟩)

end Wrote

/-! ## States -/

section States

variable {V : VariableDriver} {P Q : Write → Prop} {s s' s'' : State V} {k : Key}

/-- The variables change by writes in `P`; the platform mode does not, and the vendor keys
    are not valid again. -/
structure Changes (P : Write → Prop) (s s' : State V) : Prop where
  wrote : Wrote P s.contents s'.contents
  mode : s'.mPlatformMode = s.mPlatformMode
  vendorKeys : s.mVendorKeyState = 0#8 → s'.mVendorKeyState = 0#8

theorem Changes.refl (P : Write → Prop) (s : State V) : Changes P s s := ⟨.none, rfl, id⟩

theorem Changes.trans (h : Changes P s s') (h' : Changes P s' s'') : Changes P s s'' :=
  ⟨h.wrote.trans h'.wrote, h'.mode.trans h.mode, h'.vendorKeys ∘ h.vendorKeys⟩

theorem Changes.mono (h : Changes P s s') (hPQ : ∀ w, P w → Q w) : Changes Q s s' :=
  ⟨h.wrote.mono hPQ, h.mode, h.vendorKeys⟩

theorem contents_eq_none : s.contents k = none ↔ s.find k = none := Option.map_eq_none_iff

theorem contents_of_find {v : VariableInfo} (h : s.find k = some v) :
    s.contents k = some v.content := by
  rw [State.contents, h]
  rfl

theorem exists_find {c : Content} (h : s.contents k = some c) :
    ∃ v, s.find k = some v ∧ v.content = c := Option.map_eq_some_iff.mp h

/-- An update that fails changes nothing. -/
theorem update_error {u : Update} (h : (update s u).1.isError = true) :
    (update s u).2.contents = s.contents := funext fun k => V.update_error s.store u h k

theorem update_success {u : Update} (h : (update s u).1.isError = false) :
    (update s u).2.contents = s.contents.write (.update u) :=
  funext fun k => V.update_success s.store u h k

theorem update_changes (s : State V) (u : Update) :
    Changes (fun w => w = .update u) s (update s u).2 := by
  refine ⟨?_, rfl, id⟩
  cases h : (update s u).1.isError with
  | true =>
      rw [update_error h]
      exact .none
  | false =>
      rw [update_success h]
      exact Wrote.none.write rfl

end States

/-! ## The certificate databases -/

/-- "certdb" and "certdbv". -/
def Write.toDb (w : Write) : Prop := w.key = certDbKey ∨ w.key = certDbVolatileKey

theorem dbKey_cases (attributes : Attributes) :
    dbKey attributes = certDbKey ∨ dbKey attributes = certDbVolatileKey := by
  rw [dbKey]
  split
  · exact .inl rfl
  · exact .inr rfl

section Db

variable {V : VariableDriver} {p : Platform} {s s' : State V} {key : Key}
  {attributes : Attributes} {status : Status}

theorem setDb_changes (s : State V) (attributes : Attributes) (newCertDb : Buffer × Nat) :
    Changes Write.toDb s (setDb s attributes newCertDb).2 := by
  have h := update_changes { s with mCertDbStore := newCertDb.1 } {
    key := dbKey attributes
    data := newCertDb.1
    dataSize := newCertDb.2
    attributes := dbAttributes attributes
    timeStamp := none }
  refine Changes.mono ⟨h.wrote, h.mode, h.vendorKeys⟩ fun w hw => ?_
  subst hw
  exact dbKey_cases attributes

theorem deleteCertsFromDb_changes (h : deleteCertsFromDb p s key attributes = some (status, s')) :
    Changes Write.toDb s s' := by
  rw [deleteCertsFromDb] at h
  split at h
  · cases h
    exact .refl ..
  · split_ifs at h
    · cases h
      exact .refl ..
    · cases h
      exact .refl ..
    · obtain ⟨found, -, heq⟩ := Option.map_eq_some_iff.mp h
      cases found with
      | error st =>
          cases heq
          exact .refl ..
      | ok f =>
          simp only at heq
          split_ifs at heq
          · cases heq
            exact .refl ..
          · rw [← show (setDb s attributes _).2 = s' from congrArg Prod.snd heq]
            exact setDb_changes ..

theorem insertCertsToDb_changes {hashAlgId : Nat} {signerCert topLevelCert : List Byte}
    (h : insertCertsToDb p s hashAlgId key attributes signerCert topLevelCert
      = some (status, s')) : Changes Write.toDb s s' := by
  rw [insertCertsToDb] at h
  split at h
  · cases h
    exact .refl ..
  · split at h
    · cases h
      exact .refl ..
    · split_ifs at h
      · cases h
        exact .refl ..
      · obtain ⟨found, -, heq⟩ := Option.map_eq_some_iff.mp h
        cases found with
        | ok f =>
            cases heq
            exact .refl ..
        | error st =>
            simp only at heq
            split_ifs at heq
            · cases heq
              exact .refl ..
            · split at heq
              · cases heq
                exact .refl ..
              · rw [← show (setDb s attributes _).2 = s' from congrArg Prod.snd heq]
                exact setDb_changes ..

end Db

/-! ## The verification -/

/-- The value is made of these signature lists, and each signature has an owner. -/
structure Content.Lists (x : Content) (lists : List SigList) : Prop where
  value : x.value = listsBytes lists
  small : x.value.length < 2 ^ 32
  owned : ∀ L ∈ lists, 16 ≤ L.sigSize

/-- The certificate of the first signature, where PK is made of lists. -/
def PkCert (x : Content) (cert : List Byte) : Prop :=
  ∀ L lists sig sigs, x.Lists (L :: lists) → L.sigs = sig :: sigs → cert = sig.drop 16

/-- A certificate of one of the X.509 lists, where KEK is made of lists. -/
def KekCert (x : Content) (cert : List Byte) : Prop :=
  ∀ lists, x.Lists lists →
    ∃ L ∈ lists, L.sigType = efiCertX509Guid ∧ ∃ sig ∈ L.sigs, cert = sig.drop 16

/-- The signature of the request is that of the certificate. -/
def SignedBy (p : Platform) (r : Request) (cert : List Byte) : Prop :=
  p.pkcs7Verify r.signedData cert r.newData = true

/-- What a verification that succeeds has checked. -/
def Signed (p : Platform) (c : Contents) (r : Request) : AuthVarType → Prop
  | .pk => ∃ x signers cert, c platformKey = some x ∧ PkCert x cert ∧
      p.pkcs7GetSigners r.signedData = some (signers, cert) ∧ SignedBy p r cert
  | .kek => ∃ x cert, c keyExchangeKey = some x ∧ KekCert x cert ∧ SignedBy p r cert
  | .priv => ∃ signers, p.pkcs7GetSigners r.signedData = some signers ∧ SignedBy p r signers.2
  | .payload => SignedBy p r (certData r.signedPayload 0 0)

section Verification

variable {V : VariableDriver} {p : Platform} {e : Env} {s s' : State V} {r : Request}
  {authVarType : AuthVarType} {org : Option EfiTime} {status : Status}

theorem certData_first (data : Buffer) :
    certData data 0 0 = slice data (firstCert data 0 + 16) (ownedSize data 0) := by
  have hfirst : ∀ x y : Nat, x + 0 * y + 16 = x + 16 := by
    intro x y
    rw [Nat.zero_mul, Nat.add_zero]
  rw [certData, hfirst]

/-- The data of a signature of a list that is well formed. -/
theorem certData_of_listAt {data : Buffer} {list : Nat} {L : SigList} (h : ListAt data list L)
    (howned : 16 ≤ L.sigSize) {k : Nat} (hk : k < L.sigs.length) :
    certData data list k = L.sigs[k].drop 16 := by
  have hsize : ownedSize data list = L.sigSize - 16 := by
    have := L.small
    rw [ownedSize, h.sigSize]
    omega
  have hsplit := slice_add data (firstCert data list + k * L.sigSize) 16 (L.sigSize - 16)
  rw [Nat.add_sub_cancel' howned, h.cert hk] at hsplit
  rw [certData, hsize, h.sigSize, hsplit]
  exact (List.drop_left' (slice_length ..)).symm

/-- The value of a variable that is found, as its lists lie in the data. -/
theorem Content.Lists.held {v : VariableInfo} {lists : List SigList}
    (h : v.content.Lists lists) : Holds v.data 0 (listsBytes lists) ∧
      v.dataSize = (listsBytes lists).length ∧ v.dataSize < 2 ^ 32 := by
  have hvalue : slice v.data 0 v.dataSize = listsBytes lists := h.value
  have hsize : v.dataSize = (listsBytes lists).length := by rw [← hvalue, slice_length]
  have hsmall : (slice v.data 0 v.dataSize).length < 2 ^ 32 := h.small
  rw [slice_length] at hsmall
  exact ⟨hvalue ▸ holds_slice v.data 0 v.dataSize, hsize, hsmall⟩

theorem SigList.size_le_listsBytes (L : SigList) (lists : List SigList) :
    L.size ≤ (listsBytes (L :: lists)).length := by
  rw [listsBytes_cons, List.length_append, L.bytes_length]
  exact Nat.le_add_right _ _

theorem pkCert_first (v : VariableInfo) :
    PkCert v.content (slice v.data (firstCert v.data 0 + 16) (ownedSize v.data 0)) := by
  intro L lists sig sigs hlists hsigs
  obtain ⟨hheld, hsize, hsmall⟩ := hlists.held
  have hL := L.size_le_listsBytes lists
  rw [listsBytes_cons, holds_append] at hheld
  have hat : ListAt v.data 0 L := listAt_of_holds (by omega) hheld.1
  have hk : 0 < L.sigs.length := by rw [hsigs]; exact Nat.succ_pos _
  rw [← certData_first, certData_of_listAt hat (hlists.owned L List.mem_cons_self) hk]
  simp only [hsigs, List.getElem_cons_zero]

theorem verifyPk_signed (h : verifyPk p s r = true) : Signed p s.contents r .pk := by
  rw [verifyPk] at h
  split at h
  · exact absurd h Bool.false_ne_true
  · rename_i signers topLevelCert hsigners
    split at h
    · exact absurd h Bool.false_ne_true
    · rename_i pk hpk
      split at h
      · exact absurd h Bool.false_ne_true
      · -- The top-level certificate is that of PK.
        rename_i hsame
        rw [not_or, not_not, not_not] at hsame
        refine ⟨pk.content, signers, topLevelCert, contents_of_find hpk, ?_, hsigners, h⟩
        rw [← hsame.2, hsame.1]
        exact pkCert_first pk

/-- The loop finds a certificate of a list that it has come to. -/
theorem verifyKekLoop_signed {kek : Buffer} : ∀ {limit list size : Nat},
    verifyKekLoop p r kek limit list size = some true →
    ∃ cert, SignedBy p r cert ∧ ∀ lists, Holds kek list (listsBytes lists) →
      size ≤ (listsBytes lists).length → (listsBytes lists).length < 2 ^ 32 →
      (∀ L ∈ lists, 16 ≤ L.sigSize) →
      ∃ L ∈ lists, L.sigType = efiCertX509Guid ∧ ∃ sig ∈ L.sigs, cert = sig.drop 16 := by
  intro limit
  induction limit with
  | zero => exact fun h => absurd h (by simp [verifyKekLoop])
  | succ limit ih =>
      intro list size h
      rw [verifyKekLoop] at h
      split at h
      · rename_i hin
        -- The list that the loop looks at is the first one.
        have hfirst : ∀ lists, Holds kek list (listsBytes lists) →
            size ≤ (listsBytes lists).length → (listsBytes lists).length < 2 ^ 32 →
            ∃ L rest, lists = L :: rest ∧ L.size < 2 ^ 32 ∧ ListAt kek list L ∧
              Holds kek (list + L.size) (listsBytes rest) := by
          intro lists hheld hsize hsmall
          cases lists with
          | nil =>
              have hnil : (listsBytes []).length = 0 := rfl
              omega
          | cons L rest =>
              have hL := L.size_le_listsBytes rest
              rw [listsBytes_cons, holds_append, L.bytes_length] at hheld
              exact ⟨L, rest, rfl, by omega, listAt_of_holds (by omega) hheld.1, hheld.2⟩
        split at h
        · rename_i hsome
          obtain ⟨index, hindex, hverify⟩ := List.any_eq_true.mp hsome.2
          refine ⟨_, hverify, fun lists hheld hsize hsmall howned => ?_⟩
          obtain ⟨L, rest, rfl, hL, hat, -⟩ := hfirst lists hheld hsize hsmall
          rw [List.mem_range, hat.certCount_eq hL] at hindex
          refine ⟨L, List.mem_cons_self, ?_, L.sigs[index], List.getElem_mem hindex, ?_⟩
          · exact Guid.bytes_inj (hat.sigType.symm.trans hsome.1)
          · exact certData_of_listAt hat (howned L List.mem_cons_self) hindex
        · obtain ⟨cert, hsigned, hcert⟩ := ih h
          refine ⟨cert, hsigned, fun lists hheld hsize hsmall howned => ?_⟩
          obtain ⟨L, rest, rfl, hL, hat, hrest⟩ := hfirst lists hheld hsize hsmall
          have hlength : (listsBytes (L :: rest)).length = L.size + (listsBytes rest).length := by
            rw [listsBytes_cons, List.length_append, L.bytes_length]
          rw [hat.listSize] at hcert
          obtain ⟨O, hO, htype, hsig⟩ := hcert rest hrest (by omega) (by omega)
            fun O hO => howned O (List.mem_cons_of_mem L hO)
          exact ⟨O, List.mem_cons_of_mem L hO, htype, hsig⟩
      · exact absurd h (by simp)

theorem verifyPriv_changes {verified : Bool} (h : verifyPriv p s r org = some (verified, s')) :
    Changes Write.toDb s s' ∧ (verified = true → Signed p s.contents r .priv) := by
  rw [verifyPriv] at h
  split at h
  · cases h
    exact ⟨.refl .., fun h => absurd h Bool.false_ne_true⟩
  · rename_i signerCerts topLevelCert hsigners
    obtain ⟨known, -, h⟩ := Option.bind_eq_some_iff.mp h
    split_ifs at h with hknown hsigned hnew
    · cases h
      exact ⟨.refl .., fun h => absurd h Bool.false_ne_true⟩
    · cases h
      exact ⟨.refl .., fun h => absurd h Bool.false_ne_true⟩
    · -- A new variable: its certificates are inserted.
      obtain ⟨inserted, hinsert, heq⟩ := Option.map_eq_some_iff.mp h
      cases heq
      rw [Bool.not_eq_false] at hsigned
      exact ⟨insertCertsToDb_changes hinsert, fun _ => ⟨_, hsigners, hsigned⟩⟩
    · cases h
      rw [Bool.not_eq_false] at hsigned
      exact ⟨.refl .., fun _ => ⟨_, hsigners, hsigned⟩⟩

theorem verifySignature_changes {verified : Except Status Bool}
    (h : verifySignature p s r authVarType org = some (verified, s')) :
    Changes Write.toDb s s' ∧ (verified = .ok true → Signed p s.contents r authVarType) ∧
      ∀ st, verified = .error st → st.isError = true := by
  cases authVarType with
  | pk =>
      cases h
      exact ⟨.refl .., fun h => verifyPk_signed (Except.ok.inj h), fun _ h => nomatch h⟩
  | kek =>
      rw [verifySignature] at h
      split at h
      · cases h
        exact ⟨.refl .., (fun h => nomatch h), fun _ h => by cases h; rfl⟩
      · rename_i kek hkek
        obtain ⟨b, hloop, heq⟩ := Option.map_eq_some_iff.mp h
        cases heq
        refine ⟨.refl .., fun h => ?_, fun _ h => nomatch h⟩
        rw [Except.ok.inj h] at hloop
        obtain ⟨cert, hsigned, hcert⟩ := verifyKekLoop_signed hloop
        refine ⟨kek.content, cert, contents_of_find hkek, fun lists hlists => ?_, hsigned⟩
        obtain ⟨hheld, hsize, hsmall⟩ := hlists.held
        refine hcert lists hheld ?_ (hsize ▸ hsmall) hlists.owned
        rw [Nat.mod_eq_of_lt hsmall, hsize]
  | priv =>
      obtain ⟨b, hpriv, heq⟩ := Option.map_eq_some_iff.mp h
      cases heq
      obtain ⟨hchanges, hsigned⟩ := verifyPriv_changes hpriv
      exact ⟨hchanges, fun h => hsigned (Except.ok.inj h), fun _ h => nomatch h⟩
  | payload =>
      cases h
      exact ⟨.refl .., fun h => Except.ok.inj h, fun _ h => nomatch h⟩

/-- Only the verification of common variables changes anything. -/
theorem verifySignature_same {verified : Except Status Bool} (hpriv : authVarType ≠ .priv)
    (h : verifySignature p s r authVarType org = some (verified, s')) : s' = s := by
  cases authVarType with
  | pk =>
      cases h
      rfl
  | kek =>
      rw [verifySignature] at h
      split at h
      · cases h
        rfl
      · obtain ⟨b, -, heq⟩ := Option.map_eq_some_iff.mp h
        cases heq
        rfl
  | priv => exact absurd rfl hpriv
  | payload =>
      cases h
      rfl

theorem verifyExit_same {verified : Bool} (h : verifyExit p s r verified = some (status, s')) :
    s' = s ∧ (status.isError = false → verified = true) := by
  rw [verifyExit] at h
  split at h
  · cases h
    exact ⟨rfl, fun h => absurd h (by decide)⟩
  · rename_i hverified
    obtain ⟨_, -, heq⟩ := Option.map_eq_some_iff.mp h
    cases heq
    exact ⟨rfl, fun _ => by simpa using hverified⟩

/-- What a verification has checked when it succeeds. -/
structure Verified (p : Platform) (e : Env) (c : Contents) (r : Request) (authVarType : AuthVarType)
    (org : Option EfiTime) : Prop where
  descriptor : r.descriptorOk org = true
  signed : e.isVariablePolicyEnabled = false ∧ r.signedPayloadSize = 0 ∧ r.append = false ∨
    Signed p c r authVarType

theorem verifyTimeBasedPayload_changes
    (h : verifyTimeBasedPayload p e s r authVarType org = some (status, s')) :
    Changes Write.toDb s s' ∧ (authVarType ≠ .priv → s' = s) ∧
      (status.isError = false → Verified p e s.contents r authVarType org) := by
  rw [verifyTimeBasedPayload] at h
  split at h
  · cases h
    exact ⟨.refl .., fun _ => rfl, fun h => absurd h (by decide)⟩
  · rename_i hdescriptor
    rw [Bool.not_eq_false] at hdescriptor
    split at h
    · -- A deletion without the policy engine.
      rename_i hdelete
      obtain ⟨rfl, -⟩ := verifyExit_same h
      exact ⟨.refl .., fun _ => rfl,
        fun _ => ⟨hdescriptor, .inl ⟨hdelete.2.2, hdelete.1, hdelete.2.1⟩⟩⟩
    · split at h
      · cases h
        exact ⟨.refl .., fun _ => rfl, fun h => absurd h (by decide)⟩
      · obtain ⟨⟨verified, s₁⟩, hsignature, h⟩ := Option.bind_eq_some_iff.mp h
        obtain ⟨hchanges, hsigned, herror⟩ := verifySignature_changes hsignature
        have hsame := fun hpriv => verifySignature_same hpriv hsignature
        cases verified with
        | error st =>
            cases h
            exact ⟨hchanges, hsame,
              fun hok => absurd (hok.symm.trans (herror status rfl)) Bool.false_ne_true⟩
        | ok verified =>
            obtain ⟨rfl, hverified⟩ := verifyExit_same h
            refine ⟨hchanges, hsame, fun hok => ⟨hdescriptor, .inr (hsigned ?_)⟩⟩
            rw [hverified hok]

/-! ## The update -/

/-- The write of a request: its key, its attributes and its time stamp. -/
def Write.ofRequest (r : Request) (w : Write) : Prop :=
  ∃ data dataSize, w = .update ⟨r.key, data, dataSize, r.attributes, some r.timeStamp⟩

theorem Write.ofRequest_key {w : Write} (h : w.ofRequest r) : w.key = r.key := by
  obtain ⟨data, dataSize, rfl⟩ := h
  rfl

theorem updateWithTimeStamp_eq {key : Key} {data payload : Buffer} {dataSize : Nat}
    {attributes : Attributes} {timeStamp : EfiTime}
    (h : updateWithTimeStamp p s key data dataSize attributes timeStamp
      = some ((status, payload), s')) :
    ∃ new, filtered p s key data dataSize attributes = some new ∧ new.1 = payload ∧
      update s ⟨key, new.1, new.2, attributes, some timeStamp⟩ = (status, s') := by
  obtain ⟨new, hfiltered, heq⟩ := Option.map_eq_some_iff.mp h
  cases heq
  exact ⟨new, hfiltered, rfl, rfl⟩

theorem updateRequest_changes {data payload : Buffer} {dataSize : Nat}
    (h : updateWithTimeStamp p s r.key data dataSize r.attributes r.timeStamp
      = some ((status, payload), s')) :
    Changes (Write.ofRequest r) s s' ∧ (status.isError = true → s'.contents = s.contents) := by
  obtain ⟨new, -, -, heq⟩ := updateWithTimeStamp_eq h
  have hstate := congrArg Prod.snd heq
  have hstatus := congrArg Prod.fst heq
  simp only at hstate hstatus
  subst hstate hstatus
  refine ⟨(update_changes ..).mono fun w hw => ⟨new.1, new.2, hw⟩, update_error⟩

theorem deleteCertsAfter_changes {isDel : Bool} {updated : Status × State V}
    (h : deleteCertsAfter p authVarType isDel r updated = some (status, s')) :
    Changes Write.toDb updated.2 s' ∧ (authVarType ≠ .priv → (status, s') = updated) := by
  rw [deleteCertsAfter] at h
  split at h
  · rename_i hdelete
    exact ⟨deleteCertsFromDb_changes h, fun hpriv => absurd hdelete.2.1 hpriv⟩
  · cases h
    exact ⟨.refl .., fun _ => rfl⟩

/-- The writes of `VerifyTimeBasedPayloadAndUpdate`. -/
theorem verifyAndUpdate_changes {del : Bool} {r' : Request}
    (h : verifyTimeBasedPayloadAndUpdate p e s r authVarType = some ((status, del, r'), s')) :
    Changes (fun w => authVarType = .priv ∧ w.toDb ∨ w.ofRequest r ∧ e.efiAtRuntime = false ∧
      Verified p e s.contents r authVarType ((s.find r.key).map VariableInfo.timeStamp)) s s' := by
  rw [verifyTimeBasedPayloadAndUpdate] at h
  split at h
  · cases h
    exact .refl ..
  · rename_i hruntime
    rw [Bool.not_eq_true] at hruntime
    obtain ⟨⟨st, s₁⟩, hverify, h⟩ := Option.bind_eq_some_iff.mp h
    obtain ⟨hchanges, hsame, hverified⟩ := verifyTimeBasedPayload_changes hverify
    have hfirst : Changes (fun w => authVarType = .priv ∧ w.toDb) s s₁ := by
      by_cases hpriv : authVarType = .priv
      · exact hchanges.mono fun _ hw => ⟨hpriv, hw⟩
      · rw [hsame hpriv]
        exact .refl ..
    simp only at h
    split at h
    · cases h
      exact hfirst.mono fun _ hw => .inl hw
    · rename_i hok
      rw [Bool.not_eq_true] at hok
      obtain ⟨⟨⟨st', payload⟩, s₂⟩, hupdate, h⟩ := Option.bind_eq_some_iff.mp h
      obtain ⟨after, hdelete, heq⟩ := Option.map_eq_some_iff.mp h
      cases heq
      have hsecond := (updateRequest_changes hupdate).1
      have hthird : Changes (fun w => authVarType = .priv ∧ w.toDb) s₂ after.2 := by
        obtain ⟨hchanges, hsame⟩ := deleteCertsAfter_changes hdelete
        by_cases hpriv : authVarType = .priv
        · exact hchanges.mono fun _ hw => ⟨hpriv, hw⟩
        · rw [show after.2 = s₂ from congrArg Prod.snd (hsame hpriv)]
          exact .refl ..
      exact ((hfirst.mono fun _ hw => .inl hw).trans
        (hsecond.mono fun w hw => .inr ⟨hw, hruntime, hverified hok⟩)).trans
          (hthird.mono fun _ hw => .inl hw)

end Verification

/-! ## The variables of the library -/

/-- Variables in which the library keeps the state of the vendor keys. -/
def Key.vendor (k : Key) : Bool := k = vendorKeysNvKey || k = vendorKeysKey

/-- Variables that follow the platform mode. -/
def Key.follows (k : Key) : Bool := k = secureBootModeKey || k = secureBootEnableKey

/-- Variables in which the library keeps that state, and the modes. -/
def Key.own (k : Key) : Bool := k.vendor || k = setupModeKey || k.follows

theorem Key.own_of_vendor {k : Key} (h : k.vendor = true) : k.own = true := by
  rw [Key.own, h]
  rfl

theorem Key.own_of_follows {k : Key} (h : k.follows = true) : k.own = true := by
  rw [Key.own, h, Bool.or_true]

/-- PK, KEK, db, dbx and dbt. -/
def Key.secureBoot (k : Key) : Bool :=
  k = platformKey || k = keyExchangeKey || k.isImageSecurityDatabase

theorem Key.secureBoot_cases {k : Key} (h : k.secureBoot = true) :
    k = platformKey ∨ k = keyExchangeKey ∨ k = imageSecurityDatabase ∨
      k = imageSecurityDatabase1 ∨ k = imageSecurityDatabase2 := by
  simp only [Key.secureBoot, Key.isImageSecurityDatabase, Bool.or_eq_true, decide_eq_true_eq] at h
  tauto

theorem Key.secureBoot_not_own {k : Key} (h : k.secureBoot = true) : k.own = false := by
  rcases k.secureBoot_cases h with rfl | rfl | rfl | rfl | rfl <;> decide

theorem Write.toDb_not_secureBoot {w : Write} (h : w.toDb) : w.key.secureBoot = false := by
  rcases h with h | h <;> rw [h] <;> decide

section Library

variable {V : VariableDriver} {p : Platform} {e : Env} {s s' : State V} {r : Request}
  {status : Status}

/-- An update of a variable of the library. -/
theorem update_own {q : Key → Bool} {u : Update} (h : q u.key = true) :
    Changes (fun w => q w.key = true) s (update s u).2 :=
  (update_changes s u).mono fun w hw => by
    subst hw
    exact h

theorem vendorKeyIsModified_changes (s : State V) :
    Changes (fun w => w.key.vendor = true) s (vendorKeyIsModified s).2 ∧
      (vendorKeyIsModified s).2.mVendorKeyState = 0#8 := by
  rw [vendorKeyIsModified]
  split
  · rename_i hmodified
    exact ⟨.refl .., hmodified⟩
  · -- The state is set first, whatever becomes of the two updates.
    have hset : Changes (fun w => w.key.vendor = true) s { s with mVendorKeyState := 0#8 } :=
      ⟨.none, rfl, fun _ => rfl⟩
    have hfirst := hset.trans (update_own (q := Key.vendor) (s := { s with mVendorKeyState := 0#8 })
      (u := byteUpdate vendorKeysNvKey 0#8 1
        (attributesNvBs ||| efiVariableTimeBasedAuthenticatedWriteAccess)) (by decide))
    simp only
    split
    · exact ⟨hfirst, rfl⟩
    · exact ⟨hfirst.trans (update_own (by decide)), rfl⟩

theorem updateSecureBoot_changes (s : State V) (secureBootMode : Byte) :
    Changes (fun w => w.key.follows = true) s (updateSecureBoot s secureBootMode).2 := by
  have hfirst := update_own (q := Key.follows) (s := s)
    (u := byteUpdate secureBootModeKey secureBootMode 1 attributesBsRt)
    (show secureBootModeKey.follows = true by decide)
  rw [updateSecureBoot]
  split
  · exact hfirst
  · refine hfirst.trans ?_
    rw [updateSecureBootEnable]
    split
    · exact update_own (by decide)
    · split
      · exact .refl ..
      · exact update_own (by decide)

theorem updateSecureBootMode_changes (s : State V) :
    Changes (fun w => w.key.follows = true) s (updateSecureBootMode s).2 := by
  rw [updateSecureBootMode]
  split
  · exact updateSecureBoot_changes s 0#8
  · split_ifs
    · exact updateSecureBoot_changes s 1#8
    · exact updateSecureBoot_changes s 0#8
    · exact .refl ..

theorem setMode_contents (s : State V) (mode : BitVec 32) : (setMode s mode).contents
    = s.contents.write (.copyMem setupModeKey (((mode.setWidth 8).setWidth 32).setWidth 8)) :=
  funext fun k => V.copyMem_written s.store setupModeKey _ k

theorem setMode_wrote (s : State V) (mode : BitVec 32) :
    Wrote (fun w => w.key.own = true) s.contents (setMode s mode).contents := by
  rw [setMode_contents]
  exact Wrote.none.write (show setupModeKey.own = true by decide)

theorem updatePlatformMode_wrote (s : State V) (mode : BitVec 32) :
    Wrote (fun w => w.key.own = true) s.contents (updatePlatformMode e s mode).2.contents ∧
      (s.mVendorKeyState = 0#8 → (updatePlatformMode e s mode).2.mVendorKeyState = 0#8) := by
  rw [updatePlatformMode]
  split
  · exact ⟨.none, id⟩
  · split
    · exact ⟨setMode_wrote s mode, id⟩
    · have h := updateSecureBootMode_changes (setMode s mode)
      exact ⟨(setMode_wrote s mode).trans (h.wrote.mono fun _ hw => Key.own_of_follows hw),
        h.vendorKeys⟩

/-- Other variables: the call writes the one that is set, and the certificates. -/
theorem processVariable_changes (h : processVariable p e s r = some (status, s')) :
    Changes (fun w => w.toDb ∨ w.key = r.key) s s' := by
  have hupdate : ∀ u : Update, u.key = r.key →
      Changes (fun w => w.toDb ∨ w.key = r.key) s (update s u).2 := by
    intro u hu
    refine (update_changes s u).mono fun w hw => .inr ?_
    subst hw
    exact hu
  rw [processVariable] at h
  simp only at h
  split at h
  · -- A deletion at physical presence.
    have hdeleted := hupdate ⟨r.key, fun _ => 0#8, 0, 0#32, none⟩ rfl
    split at h
    · exact hdeleted.trans ((deleteCertsFromDb_changes h).mono fun _ hw => .inl hw)
    · rw [← show (update s _).2 = s' from congrArg Prod.snd (Option.some.inj h)]
      exact hdeleted
  · split at h
    · cases h
      exact .refl ..
    · split at h
      · cases h
        exact .refl ..
      · split at h
        · obtain ⟨⟨⟨st, del⟩, s₁⟩, hverify, heq⟩ := Option.map_eq_some_iff.mp h
          cases heq
          refine (verifyAndUpdate_changes hverify).mono fun w hw => ?_
          exact hw.imp And.right fun hw => Write.ofRequest_key hw.1
        · split at h
          · cases h
            exact .refl ..
          · rw [← show (update s _).2 = s' from congrArg Prod.snd (Option.some.inj h)]
            exact hupdate _ rfl

end Library

end AuthVariable
