/-
  MsmnilePkg.AuthVariable.PrivateRuns

  Runs of calls, seen from one common authenticated variable.

  While the variable exists, only its first signer changes it, and a request that is not
  later than what was accepted is refused.
-/

import MsmnilePkg.AuthVariable.PrivateVariables
import MsmnilePkg.AuthVariable.Runs

namespace AuthVariable

open Efi ByteMem LittleEndian RecordArea History

/-! ## What is stored -/

section Stored

variable {old : Option Content} {u : Update} {x : Content}

/-- What an update leaves: the old content with something behind it, or the new one. -/
theorem stored_cases (h : stored old u = some x) :
    (∃ c, old = some c ∧ u.attributes.has efiVariableAppendWrite = true ∧
      x = ⟨c.value ++ u.value, c.attributes,
        (u.timeStamp.map (laterTime c.timeStamp)).getD c.timeStamp⟩) ∨
      (old = none ∨ u.attributes.has efiVariableAppendWrite = false) ∧
        x = ⟨u.value, u.attributes &&& ~~~efiVariableAppendWrite, u.timeStamp.getD noTime⟩ := by
  unfold stored at h
  split at h
  · exact nomatch h
  · cases old with
    | none =>
        simp only at h
        split at h
        · exact nomatch h
        · exact .inr ⟨.inl rfl, (Option.some.inj h).symm⟩
    | some c =>
        simp only at h
        split at h
        · rename_i happend
          exact .inl ⟨c, rfl, happend, (Option.some.inj h).symm⟩
        · rename_i happend
          rw [Bool.not_eq_true] at happend
          exact .inr ⟨.inr happend, (Option.some.inj h).symm⟩

/-- The other attributes do not depend on that of an append. -/
theorem has_of_plain (attributes : Attributes) {mask : Attributes}
    (hmask : ~~~efiVariableAppendWrite &&& mask = mask) :
    (attributes &&& ~~~efiVariableAppendWrite).has mask = attributes.has mask := by
  rw [Attributes.has, Attributes.has, BitVec.and_assoc, hmask]

theorem laterTime_stamp (t t' : EfiTime) :
    (laterTime t t').stamp = max t.stamp t'.stamp := by
  rw [laterTime]
  split
  · rename_i h
    rw [compareTimeStamp_iff] at h
    exact (Nat.max_eq_right h).symm
  · rename_i h
    rw [compareTimeStamp_iff] at h
    exact (Nat.max_eq_left (Nat.le_of_not_le h)).symm

end Stored

/-! ## One call -/

/-- A common variable: not one of the secure boot policy, and none of the library's own. -/
def Key.isPriv (k : Key) : Bool := !k.secureBoot && !k.own && !k.isDb

/-- "certdb" and "certdbv" are read-only for callers, and a name fits into a variable. -/
structure Call.Allowed (c : Call) : Prop where
  notDb : c.request.key.isDb = false
  short : c.request.key.Short

section Step

variable {V : VariableDriver} {p : Platform} {e : Env} {s : State V} {r : Request} {m : CertMap}
  {v v' : View} {k : Key} {c : Call}

theorem Key.isPriv_iff :
    k.isPriv = true ↔ k.secureBoot = false ∧ k.own = false ∧ k.isDb = false := by
  rw [Key.isPriv, Bool.and_eq_true, Bool.and_eq_true, Bool.not_eq_true', Bool.not_eq_true',
    Bool.not_eq_true', and_assoc]

/-- What a call does to a common variable. -/
theorem step_view (hp : p.Sound) (hm : Represents p s.contents m) (hc : c.Allowed) :
    ∃ m', Represents p (step p s c).contents m' ∧ ∀ k : Key, k.isPriv = true →
      view (step p s c).contents m' k = view s.contents m k ∨
        k = c.request.key ∧
          PrivStep p c.env c.request (view s.contents m k) (view (step p s c).contents m' k) := by
  rcases step_cases (p := p) s c with hsame | ⟨status, h⟩
  · rw [hsame]
    exact ⟨m, hm, fun _ _ => .inl rfl⟩
  · cases hpolicy : c.request.key.secureBoot with
    | true =>
        -- Neither the databases nor a common variable are written.
        have hframe : ∀ k : Key, k.secureBoot = false → k.own = false →
            (step p s c).contents k = s.contents k := by
          intro k hk hown
          refine (policy_wrote h hpolicy).frame fun w hw hkey => ?_
          rcases hw with hw | hw
          · rw [hkey, hown] at hw
            exact Bool.false_ne_true hw
          · rw [← hkey, Write.sets_key hw, hpolicy] at hk
            exact Bool.false_ne_true hk.symm
        refine ⟨m, hm.congr (hframe _ (by decide) (by decide)) (hframe _ (by decide) (by decide)),
          fun k hk => .inl ?_⟩
        obtain ⟨hsecure, hown, -⟩ := Key.isPriv_iff.mp hk
        exact view_eq (hframe k hsecure hown) fun _ => rfl
    | false =>
        have hprocess : processVariable p c.env s c.request = some (status, step p s c) := by
          rw [Key.secureBoot, Bool.or_eq_false_iff, Bool.or_eq_false_iff, decide_eq_false_iff_not,
            decide_eq_false_iff_not] at hpolicy
          rwa [authVariableLibProcessVariable, if_neg hpolicy.1.1, if_neg hpolicy.1.2, hpolicy.2,
            if_neg Bool.false_ne_true] at h
        obtain ⟨m', hview⟩ := processVariable_view hp hm hc.short hpolicy hc.notDb hprocess
        refine ⟨m', hview.represents, fun k hk => ?_⟩
        by_cases hkey : k = c.request.key
        · subst hkey
          exact .inr ⟨rfl, hview.step⟩
        · exact .inl (hview.frame k hkey (Key.isPriv_iff.mp hk).2.2)

theorem isTime_mask : ~~~efiVariableAppendWrite &&& efiVariableTimeBasedAuthenticatedWriteAccess
    = efiVariableTimeBasedAuthenticatedWriteAccess := by decide

theorem nonVolatile_mask :
    ~~~efiVariableAppendWrite &&& efiVariableNonVolatile = efiVariableNonVolatile := by decide

/-- What a request that was accepted has made of a variable. -/
structure Accepted (p : Platform) (e : Env) (r : Request) (v v' : View) (x x' : Content) :
    Prop where
  timeBased : r.timeBased = true
  runtime : e.efiAtRuntime = false
  descriptor : r.descriptorOk (some x.timeStamp) = true
  signer : ∃ cert, v.certs r.nonVolatile = some cert ∧ SignerOf p r cert
  stored : stored (some x) r.update = some x'
  certs : v'.certs = v.certs

/-- An authenticated variable that stays is changed by an accepted request only. -/
theorem PrivStep.accepted {x x' : Content} (h : PrivStep p e r v v') (hx : v.content = some x)
    (htime : x.isTime = true) (hx' : v'.content = some x') :
    v' = v ∨ Accepted p e r v v' x x' := by
  cases h with
  | same => exact .inl rfl
  | created hnone => exact nomatch hnone.symm.trans hx
  | @changed c cert hc hr hruntime hdescriptor hcert hsigner =>
      cases hc.symm.trans hx
      exact .inr ⟨hr, hruntime, hdescriptor, ⟨cert, hcert, hsigner⟩, hx', rfl⟩
  | deleted => exact nomatch hx'
  | plain _ hplain =>
      -- The variable is authenticated.
      have hnot := hplain x hx
      rw [Content.isTime, Attributes.has, bne_iff_ne] at htime
      rw [Attributes.has, bne_eq_false_iff_eq] at hnot
      refine absurd ?_ htime
      have hmask : (efiVariableAuthenticatedWriteAccess |||
          efiVariableTimeBasedAuthenticatedWriteAccess) &&&
            efiVariableTimeBasedAuthenticatedWriteAccess
          = efiVariableTimeBasedAuthenticatedWriteAccess := by decide
      rw [← hmask, ← BitVec.and_assoc, hnot, BitVec.zero_and]

/-- Without an append, the request is later than the variable. -/
theorem Accepted.later {x x' : Content} (h : Accepted p e r v v' x x') :
    r.append = true ∨ x.timeStamp.stamp < r.timeStamp.stamp := by
  have hdescriptor := h.descriptor
  simp only [Request.descriptorOk, Bool.and_eq_true, Option.any_some] at hdescriptor
  have hreplay := hdescriptor.1.1.1.2
  rw [Bool.not_eq_true', Bool.and_eq_false_iff, Bool.not_eq_false'] at hreplay
  rcases hreplay with hreplay | happend
  · refine .inr (Nat.lt_of_not_le fun hle => ?_)
    rw [(compareTimeStamp_iff ..).mpr hle] at hreplay
    exact Bool.false_ne_true hreplay.symm
  · exact .inl happend

/-- The time stamp does not go back, and is that of the request unless it is appended. -/
theorem Accepted.stamps {x x' : Content} (h : Accepted p e r v v' x x') (htime : x.isTime = true) :
    x'.isTime = true ∧ x.timeStamp.stamp ≤ x'.timeStamp.stamp ∧
      (r.append = false → x'.timeStamp = r.timeStamp) := by
  rcases stored_cases h.stored with ⟨c, hc, happend, rfl⟩ | ⟨hplain, rfl⟩
  · cases hc
    refine ⟨htime, ?_, fun hnot => absurd (hnot.symm.trans happend) Bool.false_ne_true⟩
    simp only [Request.update, Option.map_some, Option.getD_some, laterTime_stamp]
    exact Nat.le_max_left ..
  · have happend : r.append = false := hplain.resolve_left (Option.some_ne_none x)
    refine ⟨(has_of_plain _ isTime_mask).trans h.timeBased, ?_, fun _ => rfl⟩
    rcases h.later with hnot | hlater
    · exact absurd (happend.symm.trans hnot) Bool.false_ne_true
    · exact Nat.le_of_lt hlater

/-- The attributes of the request, where the caller gives those that the variable has. -/
theorem Accepted.attributes {x x' : Content} (h : Accepted p e r v v' x x')
    (hsame : r.attributes &&& ~~~efiVariableAppendWrite = x.attributes) :
    x'.attributes = x.attributes ∧ r.nonVolatile = x.nonVolatile := by
  refine ⟨?_, ?_⟩
  · rcases stored_cases h.stored with ⟨c, hc, -, rfl⟩ | ⟨-, rfl⟩
    · cases hc
      rfl
    · exact hsame
  · rw [Request.nonVolatile, Content.nonVolatile, ← hsame, has_of_plain _ nonVolatile_mask]

end Step

/-! ## Runs -/

section Runs

variable {V : VariableDriver} {p : Platform} {s : State V} {m : CertMap} {k : Key}

/-- The variable exists after the call. -/
def Stays (p : Platform) (k : Key) (s : State V) (c : Call) : Prop :=
  (step p s c).contents k ≠ none

/-- The variable driver only passes on the attributes that a variable has, but for an append. -/
def SameAttributes (s : State V) (c : Call) : Prop :=
  ∀ x, s.contents c.request.key = some x →
    c.request.attributes &&& ~~~efiVariableAppendWrite = x.attributes ∨ c.request.attributes = 0#32

/-- A change is made by a request that the signer of the certificate has signed. -/
def OnlySigner (p : Platform) (k : Key) (cert : List Byte) (s : State V) (c : Call) : Prop :=
  (step p s c).contents k ≠ s.contents k →
    c.request.key = k ∧ c.env.efiAtRuntime = false ∧ SignerOf p c.request cert

/-- One call, while the variable exists. -/
theorem step_signer (hp : p.Sound) (hm : Represents p s.contents m) (hk : k.isPriv = true)
    {x : Content} (hx : s.contents k = some x) (htime : x.isTime = true) {cert : List Byte}
    (hcert : m x.nonVolatile k = some cert) {c : Call} (hc : c.Allowed)
    (hattributes : SameAttributes s c) (hstays : Stays p k s c) :
    OnlySigner p k cert s c ∧ ∃ m' x', Represents p (step p s c).contents m' ∧
      (step p s c).contents k = some x' ∧ x'.attributes = x.attributes ∧
      x.timeStamp.stamp ≤ x'.timeStamp.stamp ∧ m' x'.nonVolatile k = some cert := by
  obtain ⟨x', hx'⟩ := Option.ne_none_iff_exists'.mp hstays
  obtain ⟨m', hm', hview⟩ := step_view hp hm hc
  -- Nothing happens to the variable.
  have hsame : view (step p s c).contents m' k = view s.contents m k →
      OnlySigner p k cert s c ∧ ∃ m' x', Represents p (step p s c).contents m' ∧
        (step p s c).contents k = some x' ∧ x'.attributes = x.attributes ∧
        x.timeStamp.stamp ≤ x'.timeStamp.stamp ∧ m' x'.nonVolatile k = some cert := by
    intro h
    have hcontent : (step p s c).contents k = s.contents k := congrArg View.content h
    have hcerts : (fun nv => m' nv k) = fun nv => m nv k := congrArg View.certs h
    cases hx'.symm.trans (hcontent.trans hx)
    exact ⟨fun hchanged => absurd hcontent hchanged, m', _, hm', hx', rfl, Nat.le_refl _,
      (congrFun hcerts _).trans hcert⟩
  rcases hview k hk with h | ⟨hkey, hstep⟩
  · exact hsame h
  · rcases hstep.accepted hx htime hx' with h | haccepted
    · exact hsame h
    · subst hkey
      have hattributes : c.request.attributes &&& ~~~efiVariableAppendWrite = x.attributes := by
        refine (hattributes x hx).resolve_right fun hzero => ?_
        have htimeBased := haccepted.timeBased
        rw [Request.timeBased, hzero] at htimeBased
        exact absurd htimeBased (by decide)
      obtain ⟨hattr, hnv⟩ := haccepted.attributes hattributes
      obtain ⟨cert', hcert', hsigner⟩ := haccepted.signer
      rw [hnv] at hcert'
      cases hcert'.symm.trans hcert
      refine ⟨fun _ => ⟨rfl, haccepted.runtime, hsigner⟩, m', x', hm', hx', hattr,
        (haccepted.stamps htime).2.1, ?_⟩
      rw [Content.nonVolatile, hattr, ← Content.nonVolatile]
      exact (congrFun haccepted.certs _).trans hcert

/-- For as long as a variable exists, its certificate stays, its time stamp does not go back,
    and only the signer of the certificate changes it, in whatever order other variables are
    set and whichever updates fail. -/
theorem run_signer (hp : p.Sound) (hm : Represents p s.contents m) (hk : k.isPriv = true)
    {x : Content} (hx : s.contents k = some x) (htime : x.isTime = true) {cert : List Byte}
    (hcert : m x.nonVolatile k = some cert) (calls : List Call) (hcalls : ∀ c ∈ calls, c.Allowed)
    (hattributes : EveryStep SameAttributes (step p) s calls)
    (hstays : EveryStep (Stays p k) (step p) s calls) :
    EveryStep (OnlySigner p k cert) (step p) s calls ∧
      ∃ x', (run p s calls).contents k = some x' ∧ x.timeStamp.stamp ≤ x'.timeStamp.stamp ∧
        getCertsFromDb p (run p s calls) k x'.attributes = some (.ok cert) := by
  induction calls generalizing s m x with
  | nil =>
      refine ⟨trivial, x, hx, Nat.le_refl _, (hm.get hp k x.attributes).trans ?_⟩
      rw [← Content.nonVolatile, hcert]
      rfl
  | cons c calls ih =>
      obtain ⟨hc, hcalls⟩ := List.forall_mem_cons.mp hcalls
      obtain ⟨honly, m', x', hm', hx', hattr, hle, hcert'⟩ :=
        step_signer hp hm hk hx htime hcert hc hattributes.1 hstays.1
      have htime' : x'.isTime = true := by rwa [Content.isTime, hattr]
      obtain ⟨hevery, x'', hx'', hle', hget⟩ :=
        ih hm' hx' htime' hcert' hcalls hattributes.2 hstays.2
      exact ⟨⟨honly, hevery⟩, x'', hx'', Nat.le_trans hle hle', hget⟩

/-! ## Replays -/

/-- The variable exists, and its time stamp is at least this one. -/
def NotBefore (p : Platform) (k : Key) (stamp : Nat) (s : State V) : Prop :=
  ∃ m x, Represents p s.contents m ∧ s.contents k = some x ∧ x.isTime = true ∧
    stamp ≤ x.timeStamp.stamp

theorem step_notBefore (hp : p.Sound) (hk : k.isPriv = true) {stamp : Nat} {c : Call}
    (hc : c.Allowed) (hstays : Stays p k s c) (h : NotBefore p k stamp s) :
    NotBefore p k stamp (step p s c) := by
  obtain ⟨m, x, hm, hx, htime, hstamp⟩ := h
  obtain ⟨x', hx'⟩ := Option.ne_none_iff_exists'.mp hstays
  obtain ⟨m', hm', hview⟩ := step_view hp hm hc
  have hsame : view (step p s c).contents m' k = view s.contents m k →
      NotBefore p k stamp (step p s c) := fun h =>
    ⟨m', x, hm', (congrArg View.content h).trans hx, htime, hstamp⟩
  rcases hview k hk with h | ⟨hkey, hstep⟩
  · exact hsame h
  · rcases hstep.accepted hx htime hx' with h | haccepted
    · exact hsame h
    · obtain ⟨htime', hle, -⟩ := haccepted.stamps htime
      exact ⟨m', x', hm', hx', htime', Nat.le_trans hstamp hle⟩

theorem run_notBefore (hp : p.Sound) (hk : k.isPriv = true) {stamp : Nat} (calls : List Call)
    (hcalls : ∀ c ∈ calls, c.Allowed) (hstays : EveryStep (Stays p k) (step p) s calls)
    (h : NotBefore p k stamp s) : NotBefore p k stamp (run p s calls) := by
  induction calls generalizing s with
  | nil => exact h
  | cons c calls ih =>
      obtain ⟨hc, hcalls⟩ := List.forall_mem_cons.mp hcalls
      exact ih hcalls hstays.2 (step_notBefore hp hk hc hstays.1 h)

/-- A request that takes effect, and is not an append, leaves its time stamp. -/
theorem notBefore_of_changed (hp : p.Sound) (hm : Represents p s.contents m) {c : Call}
    (hk : c.request.key.isPriv = true) (hc : c.Allowed) (htime : c.request.timeBased = true)
    (happend : c.request.append = false) (hstays : Stays p c.request.key s c)
    (hchanged : (step p s c).contents c.request.key ≠ s.contents c.request.key) :
    NotBefore p c.request.key c.request.timeStamp.stamp (step p s c) := by
  obtain ⟨m', hm', hview⟩ := step_view hp hm hc
  obtain ⟨x', hx'⟩ := Option.ne_none_iff_exists'.mp hstays
  have hstep := ((hview _ hk).resolve_left fun h => hchanged (congrArg View.content h)).2
  -- Either way the payload is stored with the time stamp of the request.
  have hstored : ∀ old, stored old c.request.update = some x' →
      NotBefore p c.request.key c.request.timeStamp.stamp (step p s c) := by
    intro old h
    rcases stored_cases h with ⟨-, -, hnot, -⟩ | ⟨-, rfl⟩
    · exact absurd (happend.symm.trans hnot) Bool.false_ne_true
    · exact ⟨m', _, hm', hx', (has_of_plain _ isTime_mask).trans htime, Nat.le_refl _⟩
  generalize hv' : view (step p s c).contents m' c.request.key = v' at hstep
  have hcontent : v'.content = some x' := by
    rw [← hv']
    exact hx'
  cases hstep with
  | same => exact absurd (congrArg View.content hv') hchanged
  | created _ _ _ _ _ _ hcases =>
      rcases hcases with hnone | hnew
      · exact nomatch hnone.symm.trans hcontent
      · exact hstored none (hnew.symm.trans hcontent)
  | @changed old => exact hstored (some old) hcontent
  | deleted => exact nomatch hcontent
  | plain hnot => exact absurd (hnot.symm.trans htime) Bool.false_ne_true

/-- A request that is not later than the variable is refused, and changes nothing. -/
theorem refused_of_notBefore {stamp : Nat} {r : Request} (hk : k.isPriv = true) (hkey : r.key = k)
    (htime : r.timeBased = true) (happend : r.append = false) (hsize : r.payloadSize ≠ 0)
    (hstamp : r.timeStamp.stamp ≤ stamp) (h : NotBefore p k stamp s) (e : Env) :
    ∃ status, authVariableLibProcessVariable p e s r = some (status, s) ∧
      status.isError = true := by
  subst hkey
  obtain ⟨m, x, -, hx, -, hle⟩ := h
  obtain ⟨v, hfind, rfl⟩ := exists_find hx
  obtain ⟨hsecure, -, -⟩ := Key.isPriv_iff.mp hk
  rw [Key.secureBoot, Bool.or_eq_false_iff, Bool.or_eq_false_iff, decide_eq_false_iff_not,
    decide_eq_false_iff_not] at hsecure
  have hdelete : isDeleteAuthVariable v.attributes r = false := by
    rw [isDeleteAuthVariable, htime, if_pos rfl, decide_eq_false hsize, Bool.and_false]
  have hdescriptor : r.descriptorOk (some v.timeStamp) = false := by
    have hreplay : authServiceInternalCompareTimeStamp r.timeStamp v.timeStamp = true :=
      (compareTimeStamp_iff ..).mpr (Nat.le_trans hstamp hle)
    simp only [Request.descriptorOk, Option.any_some, hreplay, happend, Bool.not_false,
      Bool.and_true, Bool.not_true, Bool.and_false, Bool.false_and]
  rw [authVariableLibProcessVariable, if_neg hsecure.1.1, if_neg hsecure.1.2, hsecure.2,
    if_neg Bool.false_ne_true, processVariable]
  simp only [hfind, Option.any_some, hdelete, Bool.false_and]
  rw [if_neg Bool.false_ne_true]
  split
  · exact ⟨_, rfl, rfl⟩
  · split
    · exact ⟨_, rfl, rfl⟩
    · rw [verifyTimeBasedPayloadAndUpdate]
      split
      · exact ⟨_, rfl, rfl⟩
      · simp only [hfind, Option.map_some]
        rw [verifyTimeBasedPayload, if_pos hdescriptor]
        exact ⟨efiSecurityViolation, rfl, rfl⟩

/-- A request that was accepted, or one that is not later, is refused for as long as the
    variable exists, whatever is called in between. -/
theorem run_replay (hp : p.Sound) (hm : Represents p s.contents m) {c : Call}
    (hk : c.request.key.isPriv = true) (htime : c.request.timeBased = true)
    (happend : c.request.append = false)
    (hchanged : (step p s c).contents c.request.key ≠ s.contents c.request.key)
    (calls : List Call) (hcalls : ∀ c' ∈ c :: calls, c'.Allowed)
    (hstays : EveryStep (Stays p c.request.key) (step p) s (c :: calls)) (e : Env) {r : Request}
    (hkey : r.key = c.request.key) (hr : r.timeBased = true) (hplain : r.append = false)
    (hsize : r.payloadSize ≠ 0) (hstamp : r.timeStamp.stamp ≤ c.request.timeStamp.stamp) :
    ∃ status, authVariableLibProcessVariable p e (run p s (c :: calls)) r
        = some (status, run p s (c :: calls)) ∧ status.isError = true := by
  obtain ⟨hc, hcalls⟩ := List.forall_mem_cons.mp hcalls
  have hfirst := notBefore_of_changed hp hm hk hc htime happend hstays.1 hchanged
  have hlast := run_notBefore hp hk calls hcalls hstays.2 hfirst
  exact refused_of_notBefore hk hkey hr hplain hsize hstamp hlast e

end Runs

/-! ### A variable that is created and set again -/

/-- A variable of one byte, signed with SHA-256 at the start of 2024. -/
def signedRequest : Request where
  key := vendorKey
  data := ofList (descriptor2024 ++ [0x42])
  dataSize := 63
  attributes := 0x27#32

theorem signedRequest_allowed : (⟨absentEnv, signedRequest⟩ : Call).Allowed where
  notDb := by decide
  short := (by decide : 1 < 2 ^ 29)

/-- The same a month later. -/
def laterRequest : Request :=
  { signedRequest with data := fun i => if i = 2 then 2#8 else signedRequest.data i }

theorem laterRequest_allowed : (⟨absentEnv, laterRequest⟩ : Call).Allowed where
  notDb := by decide
  short := (by decide : 1 < 2 ^ 29)

/-- The first request creates the variable, the second one sets it, and then the first one is
    refused when it comes again. -/
theorem run_replay_signedRequest :
    ∃ status, authVariableLibProcessVariable signingPlatform presentEnv
        (run signingPlatform setupWithDbs
          [⟨absentEnv, signedRequest⟩, ⟨absentEnv, laterRequest⟩]) signedRequest
        = some (status, run signingPlatform setupWithDbs
          [⟨absentEnv, signedRequest⟩, ⟨absentEnv, laterRequest⟩]) ∧
      status.isError = true :=
  have hcreated : ((step signingPlatform setupWithDbs ⟨absentEnv, signedRequest⟩).contents
      vendorKey).isSome = true := by decide +kernel
  have hset : ((run signingPlatform setupWithDbs [⟨absentEnv, signedRequest⟩,
      ⟨absentEnv, laterRequest⟩]).contents vendorKey).isSome = true := by decide +kernel
  run_replay (c := ⟨absentEnv, signedRequest⟩) signingPlatform_sound
    ⟨fun _ => [], emptyDbs_isCertDbs (by decide), rfl⟩ (by decide) (by decide) (by decide)
    (fun hsame => Bool.false_ne_true ((congrArg Option.isSome hsame).symm.trans hcreated))
    [⟨absentEnv, laterRequest⟩]
    (fun c hc => by
      rcases List.mem_cons.mp hc with rfl | hc
      · exact signedRequest_allowed
      · rw [List.mem_singleton.mp hc]
        exact laterRequest_allowed)
    ⟨Option.isSome_iff_ne_none.mp hcreated, Option.isSome_iff_ne_none.mp hset, trivial⟩
    presentEnv rfl (by decide) (by decide) (by decide) (Nat.le_refl _)

/-- The databases when the variable has been there for some time. -/
def vendorCert : List Byte := List.replicate 32 0x5a

def vendorContents : Contents := fun k =>
  if k = certDbKey then
    some ⟨dbBytes [vendorKey.node vendorCert], dbAttributes efiVariableNonVolatile, noTime⟩
  else if k = certDbVolatileKey then some ⟨dbBytes [], dbAttributes 0#32, noTime⟩
  else if k = vendorKey then some ⟨[0x41], 0x27#32, noTime⟩
  else none

def setupWithVendor : State plainDriver where
  store := vendorContents
  mPlatformMode := setupMode
  mVendorKeyState := 1#8
  mCertDbStore := fun _ => 0#8

def vendorNodes (nonVolatile : Bool) : List Node :=
  if nonVolatile then [vendorKey.node vendorCert] else []

theorem vendor_represents :
    Represents signingPlatform setupWithVendor.contents (certMap vendorNodes) := by
  refine ⟨vendorNodes, ?_, rfl⟩
  rw [plain_contents]
  intro attributes
  rw [vendorNodes]
  cases h : attributes.has efiVariableNonVolatile with
  | true =>
      refine ⟨⟨noTime, ?_⟩, ⟨List.pairwise_singleton .., fun n hn => ?_⟩, (by decide : 66 ≤ 4096)⟩
      · rw [dbKey, dbAttributes, h]
        rfl
      · rw [List.mem_singleton.mp hn]
        exact vendorKey.terminated
  | false =>
      refine ⟨⟨noTime, ?_⟩, ⟨List.Pairwise.nil, fun _ hn => absurd hn List.not_mem_nil⟩,
        (by decide : 4 ≤ 4096)⟩
      rw [dbKey, dbAttributes, h]
      rfl

/-- The variable is set again by its signer. -/
theorem run_signer_signedRequest :
    EveryStep (OnlySigner signingPlatform vendorKey vendorCert) (step signingPlatform)
        setupWithVendor [⟨absentEnv, signedRequest⟩] ∧
      ∃ x', (run signingPlatform setupWithVendor [⟨absentEnv, signedRequest⟩]).contents vendorKey
          = some x' ∧ noTime.stamp ≤ x'.timeStamp.stamp ∧
        getCertsFromDb signingPlatform
            (run signingPlatform setupWithVendor [⟨absentEnv, signedRequest⟩]) vendorKey
            x'.attributes = some (.ok vendorCert) :=
  run_signer (x := ⟨[0x41], 0x27#32, noTime⟩) signingPlatform_sound vendor_represents (by decide)
    (by rw [plain_contents]; rfl) (by decide) (by decide) [⟨absentEnv, signedRequest⟩]
    (fun c hc => by
      rw [List.mem_singleton.mp hc]
      exact signedRequest_allowed)
    ⟨fun x hx => by
      rw [plain_contents] at hx
      exact .inl (congrArg Content.attributes (Option.some.inj hx)), trivial⟩
    ⟨Option.isSome_iff_ne_none.mp (by decide +kernel), trivial⟩

end AuthVariable
