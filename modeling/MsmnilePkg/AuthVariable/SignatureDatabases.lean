/-
  MsmnilePkg.AuthVariable.SignatureDatabases

  KEK, db, dbx and dbt stay signature lists, and an append adds what is not there.

  Every payload for them is checked before it is stored, or appended behind what the filter
  has left of it.
-/

import MsmnilePkg.AuthVariable.Runs
import MsmnilePkg.AuthVariable.PlatformMode

namespace AuthVariable

open Efi ByteMem LittleEndian RecordArea History

/-! ## Signatures -/

/-- The signatures of lists, each with the type of its list. -/
def certs (lists : List SigList) : List (Guid × List Byte) :=
  lists.flatMap fun L => L.sigs.map fun sig => (L.sigType, sig)

section Certs

variable {lists lists' old new : List SigList} {sigType : Guid} {sig : List Byte}

theorem certs_cons (L : SigList) (lists : List SigList) :
    certs (L :: lists) = L.sigs.map (fun sig => (L.sigType, sig)) ++ certs lists := rfl

theorem certs_append (lists lists' : List SigList) :
    certs (lists ++ lists') = certs lists ++ certs lists' := List.flatMap_append

/-- A signature has the size that its list says. -/
theorem mem_certs {L : SigList} (hsig : sig ∈ L.sigs) :
    (L.sigType, sig) ∈ certs lists ↔ hasCert lists L.sigType L.sigSize sig = true := by
  simp only [certs, hasCert, List.mem_flatMap, List.mem_map, List.any_eq_true, decide_eq_true_eq]
  constructor
  · rintro ⟨O, hO, sig', hmem, heq⟩
    obtain ⟨htype, rfl⟩ := Prod.mk.injEq .. ▸ heq
    exact ⟨O, hO, htype, (O.sized _ hmem).symm.trans (L.sized _ hsig), hmem⟩
  · rintro ⟨O, hO, htype, -, hmem⟩
    exact ⟨O, hO, sig, hmem, by rw [htype]⟩

theorem newLists_cons (old : List SigList) (L : SigList) (new : List SigList) :
    newLists old (L :: new)
      = (if (L.without old).sigs ≠ [] then [L.without old] else []) ++ newLists old new := by
  rw [newLists, List.map_cons, List.filter_cons]
  split
  · rename_i h
    rw [if_pos (of_decide_eq_true h)]
    rfl
  · rename_i h
    rw [if_neg fun hne => h (decide_eq_true hne)]
    rfl

/-- What is left of a list. -/
theorem certs_without (old : List SigList) (L : SigList) :
    (L.without old).sigs.map (fun sig => (L.sigType, sig))
      = (L.sigs.map fun sig => (L.sigType, sig)).filter (· ∉ certs old) := by
  rw [SigList.without, List.filter_map]
  refine congrArg (List.map _) (List.filter_congr fun sig hsig => ?_)
  rw [Function.comp_apply, decide_not]
  refine congrArg (!·) ?_
  rw [Bool.eq_iff_iff, decide_eq_true_eq]
  exact (mem_certs hsig).symm

/-- The filter leaves the signatures that are not there. -/
theorem certs_newLists (old new : List SigList) :
    certs (newLists old new) = (certs new).filter (· ∉ certs old) := by
  induction new with
  | nil => rfl
  | cons L new ih =>
      rw [newLists_cons, certs_append, certs_cons, List.filter_append, ih]
      refine congrArg (· ++ _) ?_
      rw [← certs_without]
      split
      · rw [certs_cons]
        exact List.append_nil _
      · rename_i h
        rw [Decidable.not_not.mp h]
        rfl

end Certs

/-! ## What a request makes of lists -/

/-- The variable has the lists; without it there are none. -/
def HasLists : Option Content → List SigList → Prop
  | none, lists => lists = []
  | some c, lists => c.value = listsBytes lists

/-- Lists before a request with some payload, and after it. -/
structure Grown (payload : List SigList → Prop) (lists lists' : List SigList) : Prop where
  nodup : (∀ new, payload new → (certs new).Nodup) → (certs lists).Nodup → (certs lists').Nodup
  known : ∀ cert ∈ certs lists', cert ∈ certs lists ∨ ∃ new, payload new ∧ cert ∈ certs new

section Grown

variable {payload : List SigList → Prop} {lists lists' lists'' new : List SigList}

theorem Grown.refl (payload : List SigList → Prop) (lists : List SigList) :
    Grown payload lists lists :=
  ⟨fun _ h => h, fun _ h => .inl h⟩

theorem Grown.trans (h : Grown payload lists lists') (h' : Grown payload lists' lists'') :
    Grown payload lists lists'' where
  nodup := fun hnew hold => h'.nodup hnew (h.nodup hnew hold)
  known := fun cert hcert => (h'.known cert hcert).elim (h.known cert) .inr

/-- The lists of the payload, in place of the old ones. -/
theorem grown_replace (hnew : payload new) : Grown payload lists new where
  nodup := fun hnodup _ => hnodup new hnew
  known := fun _ hcert => .inr ⟨new, hnew, hcert⟩

theorem grown_deleted : Grown payload lists [] where
  nodup := fun _ _ => .nil
  known := fun _ hcert => absurd hcert List.not_mem_nil

/-- An append adds what the filter leaves, each signature at most once. -/
theorem grown_append (hnew : payload new) :
    Grown payload lists (lists ++ newLists lists new) where
  nodup := fun hnodup hold => by
    rw [certs_append, certs_newLists]
    refine List.Nodup.append hold ((hnodup new hnew).filter _) fun cert hcert hfresh => ?_
    exact of_decide_eq_true (List.mem_filter.mp hfresh).2 hcert
  known := fun cert hcert => by
    rw [certs_append, certs_newLists, List.mem_append] at hcert
    exact hcert.imp_right fun h => ⟨new, hnew, (List.mem_filter.mp h).1⟩

end Grown

/-! ## The update -/

/-- KEK, db, dbx and dbt. -/
def Key.signatureDb (k : Key) : Bool := k = keyExchangeKey || k.isImageSecurityDatabase

/-- The variable driver has a limit for the size of a variable, and its scratch buffer is as
    large as that. -/
structure Bounded (V : VariableDriver) (limit : Nat) : Prop where
  small : limit ≤ 2 ^ 32
  dataSize : ∀ store k v, V.findVariable store k = some v → v.dataSize < limit
  scratch : ∀ store size, size < limit → (V.getScratchBuffer store size).isSome = true

/-- The payload of a request: the variable driver has checked the sizes, and no list in it
    has a size field below the size of its header. -/
structure Request.ForLists (limit : Nat) (r : Request) : Prop where
  sized : r.WellSized
  small : r.payloadSize < limit
  plain : ∀ list < r.payloadSize, Boundary r.payload list → 28 ≤ signatureListSize r.payload list

def Request.HasPayload (r : Request) (new : List SigList) : Prop :=
  IsLists r.payload r.payloadSize new

section Update

variable {V : VariableDriver} {p : Platform} {e : Env} {s s' s₁ : State V} {r : Request}
  {status : Status} {lists new : List SigList}

theorem Request.WellSized.payload_eq (h : r.WellSized) : r.signedPayload = r.payload := by
  have hbound : r.dwLength < 256 ^ 4 := value_lt ..
  have hlength := h.dwLength
  have hsize : 40 + r.sigDataSize = r.authInfo2Size := by
    rw [Request.sigDataSize, Request.authInfo2Size]
    omega
  funext i
  rw [Request.signedPayload, Request.payload, Request.sigData, shift, shift, shift, ← hsize,
    Nat.add_assoc]

/-- What the check lets through are lists. -/
theorem exists_payload (hV : Bounded V p.limit) (hr : r.ForLists p.limit)
    (hkey : r.key.signatureDb = true)
    (h : checkSignatureListFormat p r.key r.payload r.payloadSize = some status)
    (hok : status.isError = false) : ∃ new, r.HasPayload new := by
  have hpk : r.key ≠ platformKey := fun hpk => by
    rw [hpk] at hkey
    exact absurd hkey (by decide)
  rw [checkSignatureListFormat, if_neg hpk, if_pos (show (decide (r.key = keyExchangeKey) ||
    r.key.isImageSecurityDatabase) = true from hkey)] at h
  have hsmall := hr.small
  have hlimit := hV.small
  split at h
  · rename_i hempty
    exact ⟨[], hempty, by omega, holds_nil _ _⟩
  · have hstatus : status = .success := by
      rw [checkLists] at h
      obtain ⟨result, hloop, heq⟩ := Option.map_eq_some_iff.mp h
      subst heq
      cases result with
      | error st =>
          rw [checkListsLoop_error hloop] at hok
          exact absurd (show true = false from hok) (by decide)
      | ok result =>
          simp only at hok ⊢
          split_ifs at hok ⊢
          · exact absurd hok (by decide)
          · exact absurd hok (by decide)
          · rfl
    rw [hstatus] at h
    obtain ⟨sigCount, hloop, -⟩ := checkLists_success.mp h
    obtain ⟨lists, hheld, hlength, -, -⟩ := exists_lists_of_checkListsLoop hr.plain .first
      (Nat.zero_add r.payloadSize) (by omega) hloop
    exact ⟨lists, hlength.symm, by omega, hheld⟩

theorem length_le_listsBytes (lists : List SigList) :
    lists.length ≤ (listsBytes lists).length := by
  induction lists with
  | nil => exact Nat.le_refl 0
  | cons L lists ih =>
      rw [listsBytes_cons, List.length_append, L.bytes_length, SigList.size, List.length_cons]
      omega

/-- The lists of a variable, as they lie in its data. -/
theorem isLists_of_find (hV : Bounded V p.limit) {k : Key} {v : VariableInfo}
    (hv : s.find k = some v) (hlists : HasLists (s.contents k) lists) :
    IsLists v.data v.dataSize lists := by
  rw [contents_of_find hv] at hlists
  have hvalue : slice v.data 0 v.dataSize = listsBytes lists := hlists
  have hsize : v.dataSize = (listsBytes lists).length := by
    rw [← hvalue, slice_length]
  refine ⟨hsize, Nat.lt_of_lt_of_le (hV.dataSize s.store k v hv) hV.small, ?_⟩
  rw [Holds, ← hsize, hvalue]

theorem filtered_some {k : Key} (hkey : k.signatureDb = true) {v : VariableInfo}
    (hv : s.find k = some v) {data : Buffer} {dataSize : Nat} {attributes : Attributes} :
    filtered p s k data dataSize attributes
      = if attributes.has efiVariableAppendWrite then
          (filterSignatureList p.limit (V.getScratchBuffer s.store dataSize) v.data v.dataSize
            data dataSize).map fun r => r.2
        else some (data, dataSize) := by
  have hdb : k.isImageSecurityDatabase = true ∨ k = keyExchangeKey := by
    rw [Key.signatureDb, Bool.or_eq_true, decide_eq_true_eq] at hkey
    exact hkey.symm
  rw [filtered, hv]
  simp only [hdb, and_true]

/-- What is left of an append of lists: those of its lists that are new. -/
theorem filtered_append (hV : Bounded V p.limit) (hr : r.ForLists p.limit)
    (hkey : r.key.signatureDb = true) (hnew : r.HasPayload new)
    (happend : r.attributes.has efiVariableAppendWrite = true) {v : VariableInfo}
    (hfind : s.find r.key = some v) (hlists : HasLists (s.contents r.key) lists)
    {filteredData : Buffer × Nat}
    (h : filtered p s r.key r.payload r.payloadSize r.attributes = some filteredData) :
    slice filteredData.1 0 filteredData.2 = listsBytes (newLists lists new) := by
  have hold := isLists_of_find hV hfind hlists
  have hsmall := hr.small
  have hdataSize := hV.dataSize s.store r.key v hfind
  obtain ⟨scratch, hscratch⟩ := Option.isSome_iff_exists.mp
    (hV.scratch s.store r.payloadSize hr.small)
  -- There are no more lists than bytes, so the loops over both have turns enough.
  have hlimitOld : lists.length < p.limit := by
    have := length_le_listsBytes lists
    have := hold.size
    omega
  have hlimitNew : new.length < p.limit := by
    have := length_le_listsBytes new
    have := hnew.size
    omega
  obtain ⟨kept, hresult, hheld⟩ := filterSignatureList_eq scratch hold hnew hlimitOld hlimitNew
  rw [filtered_some hkey hfind, if_pos happend, hscratch, hresult] at h
  rw [← Option.some.inj h]
  exact hheld.slice_eq rfl

/-- An update with a payload of lists. -/
theorem updateWithTimeStamp_grown (hV : Bounded V p.limit) (hr : r.ForLists p.limit)
    (hkey : r.key.signatureDb = true) (hnew : r.HasPayload new)
    {payload : Buffer}
    (h : updateWithTimeStamp p s r.key r.payload r.payloadSize r.attributes r.timeStamp
      = some ((status, payload), s')) (hlists : HasLists (s.contents r.key) lists) :
    ∃ lists', HasLists (s'.contents r.key) lists' ∧ Grown r.HasPayload lists lists' := by
  obtain ⟨filteredData, hfilter, -, heq⟩ := updateWithTimeStamp_eq h
  generalize hu : (⟨r.key, filteredData.1, filteredData.2, r.attributes,
    some r.timeStamp⟩ : Update) = u at heq
  have hukey : u.key = r.key := by rw [← hu]
  have huvalue : u.value = slice filteredData.1 0 filteredData.2 := by rw [← hu]; rfl
  have husize : u.dataSize = filteredData.2 := by rw [← hu]
  have huattributes : u.attributes = r.attributes := by rw [← hu]
  rw [← show (update s u).2 = s' from congrArg Prod.snd heq]
  cases hok : (update s u).1.isError with
  | true =>
      rw [update_error hok]
      exact ⟨lists, hlists, .refl ..⟩
  | false =>
      have hafter : (update s u).2.contents r.key = stored (s.contents r.key) u := by
        rw [update_success hok, ← hukey]
        exact Function.update_self ..
      rw [hafter]
      unfold stored
      cases hdeletes : u.deletes with
      | true =>
          rw [if_pos rfl]
          exact ⟨[], rfl, grown_deleted⟩
      | false =>
          rw [if_neg Bool.false_ne_true]
          have hplain : filteredData = (r.payload, r.payloadSize) →
              u.value = listsBytes new := by
            rintro rfl
            rw [huvalue]
            exact hnew.held.slice_eq hnew.size
          cases hfind : s.find r.key with
          | none =>
              -- Lists that are new are not filtered.
              rw [contents_eq_none.mpr hfind] at hlists ⊢
              obtain rfl : lists = [] := hlists
              rw [filtered, hfind] at hfilter
              simp only
              split
              · exact ⟨[], rfl, .refl ..⟩
              · exact ⟨new, hplain (Option.some.inj hfilter).symm, grown_replace hnew⟩
          | some v =>
              have hbefore := hlists
              rw [contents_of_find hfind] at hbefore ⊢
              simp only [huattributes]
              by_cases happend : r.attributes.has efiVariableAppendWrite = true
              · -- What is left goes behind what is there.
                rw [if_pos happend]
                refine ⟨lists ++ newLists lists new, ?_, grown_append hnew⟩
                rw [HasLists, huvalue, listsBytes_append,
                  filtered_append hV hr hkey hnew happend hfind hlists hfilter]
                exact congrArg (· ++ _) hbefore
              · rw [filtered_some hkey hfind, if_neg happend] at hfilter
                rw [if_neg happend]
                exact ⟨new, hplain (Option.some.inj hfilter).symm, grown_replace hnew⟩

/-! ## Calls -/

/-- What a call for one of the variables makes of its lists. -/
def ListsGrown (r : Request) (x x' : Option Content) : Prop :=
  ∀ lists, HasLists x lists → ∃ lists', HasLists x' lists' ∧ Grown r.HasPayload lists lists'

theorem ListsGrown.of_eq {x x' : Option Content} (h : x' = x) : ListsGrown r x x' :=
  fun lists hlists => ⟨lists, h ▸ hlists, .refl ..⟩

theorem ListsGrown.trans {x x' x'' : Option Content} (h : ListsGrown r x x')
    (h' : ListsGrown r x' x'') : ListsGrown r x x'' := by
  intro lists hlists
  obtain ⟨lists', hlists', hgrown⟩ := h lists hlists
  obtain ⟨lists'', hlists'', hgrown'⟩ := h' lists' hlists'
  exact ⟨lists'', hlists'', hgrown.trans hgrown'⟩

/-- The vendor keys are not one of the variables. -/
theorem ListsGrown.vendorKeyIsModified (hkey : r.key.signatureDb = true)
    (h : ListsGrown r (s.contents r.key) (s₁.contents r.key)) :
    ListsGrown r (s.contents r.key) ((AuthVariable.vendorKeyIsModified s₁).2.contents r.key) := by
  refine h.trans (.of_eq ?_)
  refine (vendorKeyIsModified_changes s₁).1.wrote.frame fun w hw hw' => ?_
  have hown := Key.secureBoot_not_own (k := r.key) (by
    rw [Key.secureBoot, Bool.or_assoc, show (decide (r.key = keyExchangeKey) ||
      r.key.isImageSecurityDatabase) = true from hkey, Bool.or_true])
  rw [hw'] at hw
  exact Bool.false_ne_true (hown.symm.trans (Key.own_of_vendor hw))

theorem updatePayload_grown (hV : Bounded V p.limit) (hr : r.ForLists p.limit)
    (hkey : r.key.signatureDb = true) {r' : Request}
    (h : updatePayload p s r = some ((status, r'), s')) :
    ListsGrown r (s.contents r.key) (s'.contents r.key) := by
  obtain ⟨checked, hcheck, h⟩ := Option.bind_eq_some_iff.mp h
  split at h
  · cases h
    exact .of_eq rfl
  · rename_i hok
    rw [Bool.not_eq_true] at hok
    obtain ⟨new, hnew⟩ := exists_payload hV hr hkey hcheck hok
    obtain ⟨⟨⟨st, payload⟩, s₁⟩, hupdate, heq⟩ := Option.map_eq_some_iff.mp h
    cases heq
    exact fun lists hlists => updateWithTimeStamp_grown hV hr hkey hnew hupdate hlists

theorem verifySignature_error {authVarType : AuthVarType} {orgTimeStamp : Option EfiTime}
    (h : verifySignature p s r authVarType orgTimeStamp = some (.error status, s')) :
    status.isError = true := by
  cases authVarType with
  | pk => cases h
  | kek =>
      rw [verifySignature] at h
      split at h
      · cases h
        rfl
      · obtain ⟨_, -, heq⟩ := Option.map_eq_some_iff.mp h
        cases heq
  | priv =>
      obtain ⟨_, -, heq⟩ := Option.map_eq_some_iff.mp h
      cases heq
  | payload => cases h

/-- What is verified has been checked as well. -/
theorem verify_payload (hV : Bounded V p.limit) (hr : r.ForLists p.limit)
    (hkey : r.key.signatureDb = true) {authVarType : AuthVarType} {orgTimeStamp : Option EfiTime}
    (h : verifyTimeBasedPayload p e s r authVarType orgTimeStamp = some (status, s'))
    (hok : status.isError = false) : ∃ new, r.HasPayload new := by
  have hexit : ∀ {s₁ : State V} {verified : Bool},
      verifyExit p s₁ r verified = some (status, s') → ∃ new, r.HasPayload new := by
    intro s₁ verified h
    rw [verifyExit] at h
    split at h
    · cases h
      exact absurd hok (by decide)
    · obtain ⟨checked, hcheck, heq⟩ := Option.map_eq_some_iff.mp h
      cases heq
      rw [hr.sized.payload_eq, hr.sized.payloadSize] at hcheck
      exact exists_payload hV hr hkey hcheck hok
  rw [verifyTimeBasedPayload] at h
  split at h
  · cases h
    exact absurd hok (by decide)
  · split at h
    · exact hexit h
    · split at h
      · cases h
        exact absurd hok (by decide)
      · obtain ⟨⟨verified, s₁⟩, hverify, h⟩ := Option.bind_eq_some_iff.mp h
        cases verified with
        | ok => exact hexit h
        | error st =>
            cases h
            exact absurd (hok.symm.trans (verifySignature_error hverify)) Bool.false_ne_true

theorem verifyAndUpdate_grown (hV : Bounded V p.limit) (hr : r.ForLists p.limit)
    (hkey : r.key.signatureDb = true) {authVarType : AuthVarType} (htype : authVarType ≠ .priv)
    {del : Bool} {r' : Request}
    (h : verifyTimeBasedPayloadAndUpdate p e s r authVarType = some ((status, del, r'), s')) :
    ListsGrown r (s.contents r.key) (s'.contents r.key) := by
  rw [verifyTimeBasedPayloadAndUpdate] at h
  split at h
  · cases h
    exact .of_eq rfl
  · obtain ⟨⟨st, s₁⟩, hverify, h⟩ := Option.bind_eq_some_iff.mp h
    obtain ⟨-, hsame, -⟩ := verifyTimeBasedPayload_changes hverify
    cases hsame htype
    simp only at h
    split at h
    · cases h
      exact .of_eq rfl
    · rename_i hok
      rw [Bool.not_eq_true] at hok
      obtain ⟨new, hnew⟩ := verify_payload hV hr hkey hverify hok
      obtain ⟨⟨⟨st', payload⟩, s₂⟩, hupdate, h⟩ := Option.bind_eq_some_iff.mp h
      obtain ⟨after, hdelete, heq⟩ := Option.map_eq_some_iff.mp h
      have hafter := (deleteCertsAfter_changes hdelete).2 htype
      cases hafter
      cases heq
      rw [hr.sized.payload_eq, hr.sized.payloadSize] at hupdate
      exact fun lists hlists => updateWithTimeStamp_grown hV hr hkey hnew hupdate hlists

/-- `ProcessVarWithPk` for KEK and the others. -/
theorem processOther_grown (hV : Bounded V p.limit) (hr : r.ForLists p.limit)
    (hkey : r.key.signatureDb = true) {r' : Request}
    (h : processVarWithPk p e s r false = some ((status, r'), s')) :
    ListsGrown r (s.contents r.key) (s'.contents r.key) := by
  rw [processVarWithPk] at h
  split at h
  · cases h
    exact .of_eq rfl
  · obtain ⟨⟨⟨st, del, left⟩, s₁⟩, hupdate, heq⟩ := Option.map_eq_some_iff.mp h
    simp only [modeAfter_other] at heq
    cases heq
    rw [updateWithPk] at hupdate
    split at hupdate
    · obtain ⟨⟨⟨st', left'⟩, s₂⟩, hpayload, heq⟩ := Option.map_eq_some_iff.mp hupdate
      have hgrown := updatePayload_grown hV hr hkey hpayload
      simp only at heq
      split_ifs at heq
      · cases heq
        exact hgrown
      · cases heq
        exact hgrown.vendorKeyIsModified hkey
      · cases heq
        exact hgrown
    · split at hupdate
      · exact verifyAndUpdate_grown hV hr hkey (by decide) hupdate
      · rw [if_neg (fun hpk => absurd hpk.2.2 Bool.false_ne_true)] at hupdate
        exact verifyAndUpdate_grown hV hr hkey (by decide) hupdate

theorem processVarWithKek_grown (hV : Bounded V p.limit) (hr : r.ForLists p.limit)
    (hkey : r.key.signatureDb = true) (h : processVarWithKek p e s r = some (status, s')) :
    ListsGrown r (s.contents r.key) (s'.contents r.key) := by
  rw [processVarWithKek] at h
  split at h
  · cases h
    exact .of_eq rfl
  · split at h
    · obtain ⟨⟨⟨st, del, left⟩, s₁⟩, hverify, heq⟩ := Option.map_eq_some_iff.mp h
      cases heq
      exact verifyAndUpdate_grown hV hr hkey (by decide) hverify
    · obtain ⟨⟨⟨st, left⟩, s₁⟩, hpayload, heq⟩ := Option.map_eq_some_iff.mp h
      have hgrown := updatePayload_grown hV hr hkey hpayload
      simp only at heq
      split_ifs at heq
      · cases heq
        exact hgrown
      · rw [← show (AuthVariable.vendorKeyIsModified s₁).2 = s' from congrArg Prod.snd heq]
        exact hgrown.vendorKeyIsModified hkey
      · cases heq
        exact hgrown

theorem Key.secureBoot_of_signatureDb {k : Key} (h : k.signatureDb = true) :
    k.secureBoot = true := by
  rw [Key.secureBoot, Bool.or_assoc, show (decide (k = keyExchangeKey) ||
    k.isImageSecurityDatabase) = true from h, Bool.or_true]

/-- A call that sets another variable. -/
theorem step_frame {k : Key} (hk : k.secureBoot = true) {c : Call} (hkey : c.request.key ≠ k) :
    (step p s c).contents k = s.contents k := by
  by_contra hchanged
  exact hkey (step_authority hk hchanged).1.symm

/-- For db, dbx and dbt: where the first try fails, it has not overwritten the payload for the
    second one. -/
def PayloadKept (p : Platform) (s : State V) (c : Call) : Prop :=
  c.request.key.isImageSecurityDatabase = true → ∀ st r' s₁,
    processVarWithPk p c.env s c.request false = some ((st, r'), s₁) → st.isError = true →
      r' = c.request

theorem step_grown (hV : Bounded V p.limit) {k : Key} (hk : k.signatureDb = true) {c : Call}
    (hc : c.request.key = k → c.request.ForLists p.limit)
    (hkept : c.request.key = k → PayloadKept p s c) :
    (step p s c).contents k = s.contents k ∨
      c.request.key = k ∧ ListsGrown c.request (s.contents k) ((step p s c).contents k) := by
  by_cases hkey : c.request.key = k
  · rcases step_cases (p := p) s c with hsame | ⟨status, h⟩
    · exact .inl (by rw [hsame])
    · subst hkey
      refine .inr ⟨rfl, ?_⟩
      have hr := hc rfl
      rcases process_cases h with ⟨hpk, -⟩ | ⟨-, -, left, hprocess⟩ |
        ⟨hdb, st, r', s₁, hfirst, -, hfailed, hsecond⟩ | ⟨hother, -⟩
      · rw [hpk] at hk
        exact absurd hk (by decide)
      · exact processOther_grown hV hr hk hprocess
      · -- The second try has the same payload.
        obtain rfl := hkept rfl hdb st r' s₁ hfirst hfailed
        exact (processOther_grown hV hr hk hfirst).trans (processVarWithKek_grown hV hr hk hsecond)
      · rw [Key.secureBoot_of_signatureDb hk] at hother
        exact absurd hother.symm Bool.false_ne_true
  · exact .inl (step_frame (Key.secureBoot_of_signatureDb hk) hkey)

/-! ## Runs -/

/-- The signatures that come with the calls. -/
def Brought (k : Key) (calls : List Call) (cert : Guid × List Byte) : Prop :=
  ∃ c ∈ calls, c.request.key = k ∧ ∃ new, c.request.HasPayload new ∧ cert ∈ certs new

/-- After any run the variable has lists, in which no signature is twice, and none that was
    not there before and did not come with a request for it. -/
theorem run_lists (hV : Bounded V p.limit) {k : Key} (hk : k.signatureDb = true)
    (calls : List Call) (hcalls : ∀ c ∈ calls, c.request.key = k → c.request.ForLists p.limit)
    (hkept : EveryStep (fun s c => c.request.key = k → PayloadKept p s c) (step p) s calls)
    (hnodup : ∀ c ∈ calls, c.request.key = k → ∀ new, c.request.HasPayload new →
      (certs new).Nodup)
    (hlists : HasLists (s.contents k) lists) (hold : (certs lists).Nodup) :
    ∃ lists', HasLists ((run p s calls).contents k) lists' ∧ (certs lists').Nodup ∧
      ∀ cert ∈ certs lists', cert ∈ certs lists ∨ Brought k calls cert := by
  induction calls generalizing s lists with
  | nil => exact ⟨lists, hlists, hold, fun _ h => .inl h⟩
  | cons c calls ih =>
      obtain ⟨hc, hcalls⟩ := List.forall_mem_cons.mp hcalls
      obtain ⟨hfresh, hnodup⟩ := List.forall_mem_cons.mp hnodup
      have hlater : ∀ {cert : Guid × List Byte}, Brought k calls cert →
          Brought k (c :: calls) cert := by
        rintro cert ⟨c', hc', h⟩
        exact ⟨c', List.mem_cons_of_mem _ hc', h⟩
      rcases step_grown hV hk hc hkept.1 (s := s) with hsame | ⟨hkey, hgrown⟩
      · obtain ⟨lists', hlists', hnodup', hknown⟩ :=
          ih hcalls hkept.2 hnodup (hsame ▸ hlists) hold
        exact ⟨lists', hlists', hnodup', fun cert hcert => (hknown cert hcert).imp_right hlater⟩
      · obtain ⟨lists₁, hlists₁, hfirst⟩ := hgrown lists hlists
        obtain ⟨lists', hlists', hnodup', hknown⟩ :=
          ih hcalls hkept.2 hnodup hlists₁ (hfirst.nodup (hfresh hkey) hold)
        refine ⟨lists', hlists', hnodup', fun cert hcert => ?_⟩
        rcases hknown cert hcert with h | h
        · exact (hfirst.known cert h).imp_right fun h => ⟨c, List.mem_cons_self, hkey, h⟩
        · exact .inr (hlater h)

/-! ## Appends -/

/-- An append that does not delete. -/
def Request.keeps (r : Request) : Bool := r.append && r.attributes.has access

/-- The value begins with what it was, and the attributes are the same. -/
structure Content.Extends (x x' : Content) : Prop where
  value : x.value <+: x'.value
  attributes : x'.attributes = x.attributes

theorem Content.Extends.trans {x x' x'' : Content} (h : x.Extends x') (h' : x'.Extends x'') :
    x.Extends x'' :=
  ⟨h.value.trans h'.value, h'.attributes.trans h.attributes⟩

theorem stored_extends {u : Update} (hu : u.attributes = r.attributes) (hkeeps : r.keeps = true)
    (x : Content) : ∃ x', stored (some x) u = some x' ∧ x.Extends x' := by
  rw [Request.keeps, Bool.and_eq_true, Request.append, ← hu] at hkeeps
  have hdeletes : u.deletes = false := by
    rw [Update.deletes, ← access, hkeeps.1, hkeeps.2, Bool.not_true, Bool.and_false,
      Bool.or_false]
  unfold stored
  rw [hdeletes, if_neg Bool.false_ne_true]
  simp only
  rw [if_pos hkeeps.1]
  exact ⟨_, rfl, List.prefix_append .., rfl⟩

/-- Writes of appends, and of other variables. -/
theorem Wrote.extends {P : Write → Prop} {c c' : Contents} (h : Wrote P c c') {k : Key}
    (hP : ∀ w, P w → w.key = k → w.sets r) (hkeeps : r.keeps = true) {x : Content}
    (hx : c k = some x) : ∃ x', c' k = some x' ∧ x.Extends x' := by
  induction h with
  | none => exact ⟨x, hx, List.prefix_rfl, rfl⟩
  | @write c' w _ hw ih =>
      obtain ⟨x', hx', hextends⟩ := ih
      by_cases hkey : w.key = k
      · obtain ⟨u, rfl, -, hattributes⟩ := hP w hw hkey
        obtain ⟨x'', hx'', hextends'⟩ := stored_extends hattributes hkeeps x'
        refine ⟨x'', ?_, hextends.trans hextends'⟩
        obtain rfl : u.key = k := hkey
        rw [Contents.write_update_self, hx', hx'']
      · exact ⟨x', by rw [Contents.write_of_ne _ (Ne.symm hkey), hx'], hextends⟩

theorem step_extends {k : Key} (hk : k.secureBoot = true) {c : Call}
    (hkeeps : c.request.key = k → c.request.keeps = true) {x : Content}
    (hx : s.contents k = some x) : ∃ x', (step p s c).contents k = some x' ∧ x.Extends x' := by
  by_cases hkey : c.request.key = k
  · rcases step_cases (p := p) s c with hsame | ⟨status, h⟩
    · exact ⟨x, by rw [hsame, hx], List.prefix_rfl, rfl⟩
    · refine (policy_wrote h (by rw [hkey, hk])).extends (fun w hw hwkey => ?_) (hkeeps hkey) hx
      refine hw.resolve_left fun hown => ?_
      rw [hwkey, Key.secureBoot_not_own hk] at hown
      exact Bool.false_ne_true hown
  · exact ⟨x, by rw [step_frame hk hkey, hx], List.prefix_rfl, rfl⟩

/-- Where a variable of the policy is only appended to, nothing of it is lost, or moved. -/
theorem run_appendOnly (p : Platform) (calls : List Call) {k : Key} (hk : k.secureBoot = true)
    (hkeeps : ∀ c ∈ calls, c.request.key = k → c.request.keeps = true) {x : Content}
    (hx : s.contents k = some x) :
    ∃ x', (run p s calls).contents k = some x' ∧ x.Extends x' := by
  induction calls generalizing s x with
  | nil => exact ⟨x, hx, List.prefix_rfl, rfl⟩
  | cons c calls ih =>
      obtain ⟨hc, hcalls⟩ := List.forall_mem_cons.mp hkeeps
      obtain ⟨x₁, hx₁, hfirst⟩ := step_extends (p := p) hk hc hx
      obtain ⟨x', hx', hrest⟩ := ih hcalls hx₁
      exact ⟨x', hx', hfirst.trans hrest⟩

end Update

/-! ### An append to dbx -/

/-- A driver for variables of less than `limit` bytes. -/
def boundedDriver (limit : Nat) : VariableDriver where
  Store := {c : Contents // ∀ k x, c k = some x → x.value.length < limit}
  findVariable s k := plainDriver.findVariable s.val k
  updateVariable s u :=
    if u.deletes && (s.val u.key).isNone then (.notFound, s)
    else if h : ∀ x ∈ stored (s.val u.key) u, x.value.length < limit then
      (.success, ⟨s.val.write (.update u), fun k x hx => by
        by_cases hkey : k = u.key
        · subst hkey
          exact h x ((s.val.write_update_self u).symm.trans hx)
        · exact s.property k x ((Contents.write_of_ne s.val (w := .update u) hkey).symm.trans hx)⟩)
    else (.outOfResources, s)
  copyMem s key byte := ⟨s.val.write (.copyMem key byte), fun k x hx => by
    by_cases hkey : k = key
    · subst hkey
      obtain ⟨old, hold, rfl⟩ :=
        Option.map_eq_some_iff.mp ((s.val.write_copyMem_self k byte).symm.trans hx)
      exact (List.length_set ..).trans_lt (s.property k old hold)
    · exact s.property k x ((Contents.write_of_ne s.val (w := .copyMem key byte) hkey).symm.trans hx)⟩
  getScratchBuffer _ _ := some fun _ => 0#8
  update_error s u h k := by
    split at h
    · rename_i hmissing
      rw [if_pos hmissing]
    · rename_i hpresent
      rw [if_neg hpresent]
      split at h
      · exact absurd h Bool.false_ne_true
      · rename_i hlarge
        rw [dif_neg hlarge]
  update_success s u h k := by
    split at h
    · exact absurd h.symm Bool.false_ne_true
    · rename_i hpresent
      rw [if_neg hpresent]
      split at h
      · rename_i hsmall
        rw [dif_pos hsmall]
        simp only [plainDriver, Option.map_map, Function.comp_def, content_ofList, Option.map_id']
      · exact absurd h.symm Bool.false_ne_true
  delete_missing s u hdelete hnone := by
    have hmissing : s.val u.key = none := Option.map_eq_none_iff.mp hnone
    rw [if_pos (by rw [hdelete, hmissing]; rfl)]
    rfl
  copyMem_written s key byte k := by
    simp only [plainDriver, Option.map_map, Function.comp_def, content_ofList, Option.map_id']

theorem boundedDriver_bounded {limit : Nat} (h : limit ≤ 2 ^ 32) :
    Bounded (boundedDriver limit) limit where
  small := h
  dataSize := fun store k v hv => by
    obtain ⟨x, hx, rfl⟩ := Option.map_eq_some_iff.mp hv
    exact store.property k x hx
  scratch := fun _ _ _ => rfl

/-- dbx with the hash of `hashList`, in setup mode. -/
def setupWithDbx : State (boundedDriver 4096) where
  store := ⟨Function.update (fun _ => none) imageSecurityDatabase1
    (some ⟨hashList, 0x27#32, noTime⟩), fun k x hx => by
      by_cases hkey : k = imageSecurityDatabase1
      · subst hkey
        cases (Function.update_self ..).symm.trans hx
        decide
      · exact nomatch (Function.update_of_ne hkey ..).symm.trans hx⟩
  mPlatformMode := setupMode
  mVendorKeyState := 1#8
  mCertDbStore := fun _ => 0#8

/-- That hash and another one. -/
def hashes : SigList where
  sigType := efiCertSha256Guid
  header := []
  sigSize := 48
  sigs := [List.replicate 48 0x11, List.replicate 48 0x22]
  sized := by decide
  pos := by decide
  small := by decide

/-- An append to dbx, with a descriptor of 24 bytes. -/
def appendDbx : Request where
  key := imageSecurityDatabase1
  data := ofList (List.replicate 16 0#8 ++ field 24 4 ++ List.replicate 20 0#8 ++ hashes.bytes)
  dataSize := 164
  attributes := 0x67#32

theorem appendDbx_payload : appendDbx.HasPayload [hashes] := by
  refine ⟨by decide +kernel, by decide, ?_⟩
  rw [Holds]
  decide +kernel

theorem appendDbx_boundary {list : Nat} (h : Boundary appendDbx.payload list) :
    list = 0 ∨ list = 124 := by
  induction h with
  | first => exact .inl rfl
  | next _ ih =>
      rcases ih with rfl | rfl
      · exact .inr (by decide +kernel)
      · exact .inr (by decide +kernel)

theorem appendDbx_forLists : appendDbx.ForLists 4096 where
  sized := ⟨by decide +kernel, by decide +kernel, by decide⟩
  small := by decide +kernel
  plain := fun list hlt h => by
    rcases appendDbx_boundary h with rfl | rfl
    · decide +kernel
    · exact absurd hlt (by decide +kernel)

def oneHash : SigList where
  sigType := efiCertSha256Guid
  header := []
  sigSize := 48
  sigs := [List.replicate 48 0x11]
  sized := by decide
  pos := by decide
  small := by decide

theorem setupWithDbx_stored :
    setupWithDbx.contents imageSecurityDatabase1 = some ⟨hashList, 0x27#32, noTime⟩ :=
  congrArg some (content_ofList _)

theorem setupWithDbx_lists :
    HasLists (setupWithDbx.contents imageSecurityDatabase1) [oneHash] := by
  rw [setupWithDbx_stored]
  exact (by decide +kernel : hashList = listsBytes [oneHash])

/-- The first try succeeds. -/
theorem appendDbx_kept :
    PayloadKept signingPlatform setupWithDbx ⟨absentEnv, appendDbx⟩ := by
  intro _ st r' s₁ h herror
  have hok : (processVarWithPk signingPlatform absentEnv setupWithDbx appendDbx false).map
      (fun result => result.1.1.isError) = some false := by decide +kernel
  rw [h, Option.map_some, herror] at hok
  exact absurd (Option.some.inj hok).symm Bool.false_ne_true

theorem run_lists_appendDbx :
    ∃ lists', HasLists ((run signingPlatform setupWithDbx [⟨absentEnv, appendDbx⟩]).contents
        imageSecurityDatabase1) lists' ∧ (certs lists').Nodup ∧
      ∀ cert ∈ certs lists', cert ∈ certs [oneHash] ∨
        Brought imageSecurityDatabase1 [⟨absentEnv, appendDbx⟩] cert :=
  run_lists (boundedDriver_bounded (by decide)) (by decide) [⟨absentEnv, appendDbx⟩]
    (fun c hc _ => by
      rw [List.mem_singleton.mp hc]
      exact appendDbx_forLists)
    ⟨fun _ => appendDbx_kept, trivial⟩
    (fun c hc _ new hnew => by
      rw [List.mem_singleton.mp hc] at hnew
      rw [hnew.unique appendDbx_payload]
      decide +kernel)
    setupWithDbx_lists (by decide +kernel)

theorem run_appendOnly_appendDbx :
    ∃ x', (run signingPlatform setupWithDbx [⟨absentEnv, appendDbx⟩]).contents
        imageSecurityDatabase1 = some x' ∧
      Content.Extends ⟨hashList, 0x27#32, noTime⟩ x' :=
  run_appendOnly signingPlatform [⟨absentEnv, appendDbx⟩] (by decide)
    (fun c hc _ => by
      rw [List.mem_singleton.mp hc]
      decide)
    setupWithDbx_stored

/-- The hash that is there already is not appended again. -/
example : ((run signingPlatform setupWithDbx [⟨absentEnv, appendDbx⟩]).contents
    imageSecurityDatabase1).map (fun x => x.value.length) = some 152 := by decide +kernel

/-! ### A second try -/

/-- A driver of which the first update may fail. -/
def onceFailing (V : VariableDriver) : VariableDriver where
  Store := V.Store × Bool
  findVariable s k := V.findVariable s.1 k
  updateVariable s u :=
    if s.2 then (.outOfResources, (s.1, false))
    else ((V.updateVariable s.1 u).1, ((V.updateVariable s.1 u).2, false))
  copyMem s key byte := (V.copyMem s.1 key byte, s.2)
  getScratchBuffer s size := V.getScratchBuffer s.1 size
  update_error s u h k := by
    split at h
    · rename_i hfails
      rw [if_pos hfails]
    · rename_i hworks
      rw [if_neg hworks]
      exact V.update_error s.1 u h k
  update_success s u h k := by
    split at h
    · exact absurd h.symm Bool.false_ne_true
    · rename_i hworks
      rw [if_neg hworks]
      exact V.update_success s.1 u h k
  delete_missing s u hdelete hnone := by
    split
    · rfl
    · exact V.delete_missing s.1 u hdelete hnone
  copyMem_written s key byte k := V.copyMem_written s.1 key byte k

/-- dbx with one hash, and a driver that fails once. -/
def setupWithFailure : State (onceFailing plainDriver) where
  store := (Function.update (fun _ => none) imageSecurityDatabase1
    (some ⟨oneHash.bytes, 0x27#32, noTime⟩), true)
  mPlatformMode := setupMode
  mVendorKeyState := 1#8
  mCertDbStore := fun _ => 0#8

def otherHash : SigList := { oneHash with
  sigs := [List.replicate 48 0x22]
  sized := by decide }

/-- An append of both hashes, in two lists. -/
def appendBoth : Request where
  key := imageSecurityDatabase1
  data := ofList (List.replicate 16 0#8 ++ field 24 4 ++ List.replicate 20 0#8 ++ oneHash.bytes ++
    otherHash.bytes)
  dataSize := 192
  attributes := 0x67#32

/-- The first try moves the new list over the old one, and the second one appends it twice. -/
example : ((run signingPlatform setupWithFailure [⟨absentEnv, appendBoth⟩]).contents
    imageSecurityDatabase1).map Content.value
      = some (oneHash.bytes ++ otherHash.bytes ++ otherHash.bytes) := by decide +kernel

end AuthVariable
