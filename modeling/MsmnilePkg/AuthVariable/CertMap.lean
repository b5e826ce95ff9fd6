/-
  MsmnilePkg.AuthVariable.CertMap

  "certdb" and "certdbv" as maps from variables to certificates.

  `IsCertDb` says which nodes a database has.  Looking up, inserting and deleting are then
  what they are for a map; an update that fails leaves the map as it was.
-/

import MsmnilePkg.AuthVariable.Writes

namespace AuthVariable

open Efi ByteMem LittleEndian RecordArea

/-! ## Maps -/

/-- The certificate that the nodes have for a variable. -/
def certOf (nodes : List Node) (k : Key) : Option (List Byte) :=
  (nodes.find? (Node.IsFor k.variableName k.vendorGuid)).map Node.certData

/-- The node that is inserted for a variable. -/
def Key.node (k : Key) (cert : List Byte) : Node := ⟨k.vendorGuid, k.variableName, cert⟩

/-- Nodes that are those of variables, and of no variable twice. -/
structure Distinct (nodes : List Node) : Prop where
  unique : nodes.Pairwise fun n m =>
    ¬(n.vendorGuid = m.vendorGuid ∧ n.variableName = m.variableName)
  terminated : ∀ n ∈ nodes, 0#16 ∉ n.variableName

section Maps

variable {nodes before after : List Node} {n : Node} {k k' : Key} {cert : List Byte}

theorem node_isFor : (k.node cert).IsFor k'.variableName k'.vendorGuid = true ↔ k = k' := by
  rw [Node.isFor_iff, Key.node]
  constructor
  · rintro ⟨hguid, hname⟩
    obtain ⟨name, guid, _⟩ := k
    obtain ⟨name', guid', _⟩ := k'
    simp only at hguid hname
    subst hguid hname
    rfl
  · rintro rfl
    exact ⟨rfl, rfl⟩

theorem certOf_eq_none :
    certOf nodes k = none ↔ ∀ n ∈ nodes, n.IsFor k.variableName k.vendorGuid = false := by
  simp only [certOf, Option.map_eq_none_iff, List.find?_eq_none, Bool.not_eq_true]

theorem exists_of_certOf (h : certOf nodes k = some cert) : ∃ before n after,
    nodes = before ++ n :: after ∧ (∀ m ∈ before, m.IsFor k.variableName k.vendorGuid = false) ∧
      n.IsFor k.variableName k.vendorGuid = true ∧ n.certData = cert := by
  obtain ⟨n, hfind, hcert⟩ := Option.map_eq_some_iff.mp h
  obtain ⟨hthis, before, after, hnodes, hbefore⟩ := List.find?_eq_some_iff_append.mp hfind
  refine ⟨before, n, after, hnodes, fun m hm => ?_, hthis, hcert⟩
  rw [← Bool.not_eq_true']
  exact hbefore m hm

theorem certOf_append (nodes : List Node) (k k' : Key) (cert : List Byte) :
    certOf (nodes ++ [k.node cert]) k'
      = (certOf nodes k').or (if k = k' then some cert else none) := by
  rw [certOf, List.find?_append, Option.map_or, ← certOf, List.find?_singleton]
  by_cases hk : k = k'
  · rw [if_pos (node_isFor.mpr hk), if_pos hk]
    rfl
  · rw [if_neg (mt node_isFor.mp hk), if_neg hk]
    rfl

/-- Inserting adds one variable to the map. -/
theorem certOf_insert (hnone : certOf nodes k = none) :
    certOf (nodes ++ [k.node cert]) = Function.update (certOf nodes) k (some cert) := by
  funext k'
  rw [certOf_append]
  by_cases hk : k = k'
  · subst hk
    rw [if_pos rfl, hnone, Function.update_self, Option.none_or]
  · rw [if_neg hk, Function.update_of_ne (Ne.symm hk), Option.or_none]

theorem distinct_insert (h : Distinct nodes) (hnone : certOf nodes k = none) :
    Distinct (nodes ++ [k.node cert]) where
  unique := by
    rw [List.pairwise_append]
    refine ⟨h.unique, List.pairwise_singleton .., fun n hn m hm hsame => ?_⟩
    rw [List.mem_singleton.mp hm] at hsame
    have hother := certOf_eq_none.mp hnone n hn
    exact Bool.false_ne_true (hother.symm.trans (Node.isFor_iff.mpr hsame))
  terminated := by
    intro n hn
    rcases List.mem_append.mp hn with hn | hn
    · exact h.terminated n hn
    · rw [List.mem_singleton.mp hn]
      exact k.terminated

/-- Deleting takes one variable out of the map. -/
theorem certOf_delete (h : Distinct (before ++ n :: after))
    (hthis : n.IsFor k.variableName k.vendorGuid = true) :
    certOf (before ++ after) = Function.update (certOf (before ++ n :: after)) k none := by
  obtain ⟨hguid, hname⟩ := Node.isFor_iff.mp hthis
  funext k'
  by_cases hk : k' = k
  · subst hk
    rw [Function.update_self, certOf_eq_none]
    -- The node was the only one of the variable.
    obtain ⟨-, hafter, hbefore⟩ := List.pairwise_append.mp h.unique
    intro m hm
    rw [← Bool.not_eq_true, Node.isFor_iff, ← hguid, ← hname]
    rcases List.mem_append.mp hm with hm | hm
    · exact hbefore m hm n List.mem_cons_self
    · rintro ⟨hg, hn⟩
      exact (List.pairwise_cons.mp hafter).1 m hm ⟨hg.symm, hn.symm⟩
  · rw [Function.update_of_ne hk]
    have hother : n.IsFor k'.variableName k'.vendorGuid = false := by
      rw [← Bool.not_eq_true]
      intro hthis'
      obtain ⟨hguid', hname'⟩ := Node.isFor_iff.mp hthis'
      have hnode : (k'.node []).IsFor k.variableName k.vendorGuid = true :=
        Node.isFor_iff.mpr ⟨hguid'.symm.trans hguid, hname'.symm.trans hname⟩
      exact hk (node_isFor.mp hnode)
    rw [certOf, certOf, List.find?_append, List.find?_append, List.find?_cons, hother]

theorem distinct_delete (h : Distinct (before ++ n :: after)) : Distinct (before ++ after) where
  unique := h.unique.sublist (List.Sublist.append_left (List.sublist_cons_self n after) before)
  terminated := by
    intro m hm
    refine h.terminated m ?_
    rcases List.mem_append.mp hm with hm | hm
    · exact List.mem_append_left _ hm
    · exact List.mem_append_right _ (List.mem_cons_of_mem n hm)

theorem length_le_areaSize (nodes : List Node) : nodes.length ≤ areaSize nodes := by
  induction nodes with
  | nil => exact Nat.le_refl 0
  | cons n nodes ih =>
      have hsize : n.size = 28 + n.certData.length + 2 * n.variableName.length := rfl
      rw [List.length_cons, areaSize_cons]
      omega

end Maps

/-! ## Databases -/

/-- What the calls rely on: turns for every node that there is room for, digests of the size
    that their algorithm has, and sizes that do not wrap. -/
structure Platform.Sound (p : Platform) : Prop where
  turns : p.mMaxCertDbSize ≤ p.limit
  small : p.mMaxCertDbSize < 2 ^ 31
  hashSize : ∀ {i info m digest}, mHashInfo[i]? = some info → p.hash i m = some digest →
    digest.length = info.hashSize

/-- A name that fits into a variable. -/
def Key.Short (k : Key) : Prop := k.variableName.length < 2 ^ 29

/-- The nodes of the database in which the certificates of variables with these attributes
    are. -/
structure IsCertDb (p : Platform) (c : Contents) (attributes : Attributes) (nodes : List Node) :
    Prop where
  stored : ∃ timeStamp, c (dbKey attributes)
    = some ⟨dbBytes nodes, dbAttributes attributes, timeStamp⟩
  distinct : Distinct nodes
  size : 4 + areaSize nodes ≤ p.mMaxCertDbSize

section Db

variable {V : VariableDriver} {p : Platform} {s s' : State V} {k : Key} {status : Status}
  {attributes : Attributes} {nodes before after : List Node} {n : Node} {c c' : Contents}

theorem IsCertDb.congr (h : IsCertDb p c attributes nodes)
    (hsame : c' (dbKey attributes) = c (dbKey attributes)) : IsCertDb p c' attributes nodes where
  stored := by
    rw [hsame]
    exact h.stored
  distinct := h.distinct
  size := h.size

/-- The database, as it is found. -/
theorem IsCertDb.exists_db (h : IsCertDb p s.contents attributes nodes) (hp : p.Sound) :
    ∃ db, s.find (dbKey attributes) = some db ∧ IsDb db.data db.dataSize nodes ∧
      nodes.length < p.limit := by
  obtain ⟨timeStamp, hstored⟩ := h.stored
  obtain ⟨db, hfind, hcontent⟩ := exists_find hstored
  have hvalue : slice db.data 0 db.dataSize = dbBytes nodes := congrArg Content.value hcontent
  have hsize : db.dataSize = 4 + areaSize nodes := by
    have hlength := congrArg List.length hvalue
    rwa [slice_length, dbBytes_length] at hlength
  have hmax := h.size
  have hsmall := hp.small
  have hturns := hp.turns
  have hnodes := length_le_areaSize nodes
  refine ⟨db, hfind, ⟨hsize, by omega, ?_⟩, by omega⟩
  rw [Holds, dbBytes_length, ← hsize, hvalue]

/-- The certificate of a node, where it is found. -/
theorem IsDb.slice_cert {data : Buffer} {dataSize : Nat}
    (h : IsDb data dataSize (before ++ n :: after)) :
    slice data (foundAt (4 + areaSize before) n).certOffset
      (foundAt (4 + areaSize before) n).certDataSize = n.certData := by
  have hsize := h.size
  have hsmall := h.small
  rw [areaSize_append, areaSize_cons] at hsize
  have harea := h.area
  rw [areaBytes_append, holds_append, areaBytes_length, areaBytes, areaBytes, List.flatMap_cons,
    holds_append] at harea
  exact (nodeAt_of_holds (by omega) harea.2.1).cert

/-- Looking up is looking up in the map. -/
theorem getCertsFromDb_eq (hp : p.Sound) (h : IsCertDb p s.contents attributes nodes) (k : Key) :
    getCertsFromDb p s k attributes = some ((certOf nodes k).elim (.error .notFound) .ok) := by
  obtain ⟨db, hfind, hdb, hlimit⟩ := h.exists_db hp
  have hsize := hdb.size
  rw [getCertsFromDb, hfind]
  simp only
  rw [if_neg (by omega)]
  cases hcert : certOf nodes k with
  | none =>
      rw [hdb.find_none hlimit (certOf_eq_none.mp hcert)]
      rfl
  | some cert =>
      obtain ⟨before, n, after, rfl, hbefore, hthis, rfl⟩ := exists_of_certOf hcert
      rw [hdb.find_some hlimit hbefore hthis, Option.map_some]
      simp only [hdb.slice_cert, Option.elim_some]

/-- What is stored does not depend on what there was, unless it is appended. -/
theorem stored_eq {u : Update} (old : Option Content) (hdeletes : u.deletes = false)
    (hsize : u.dataSize ≠ 0) (happend : u.attributes.has efiVariableAppendWrite = false) :
    stored old u
      = some ⟨u.value, u.attributes &&& ~~~efiVariableAppendWrite, u.timeStamp.getD noTime⟩ := by
  unfold stored
  rw [hdeletes, if_neg Bool.false_ne_true]
  cases old with
  | none => exact if_neg hsize
  | some c =>
      simp only [happend]
      exact if_neg Bool.false_ne_true

theorem dbAttributes_plain (attributes : Attributes) :
    (dbAttributes attributes).has efiVariableAppendWrite = false ∧
      (dbAttributes attributes).has (efiVariableBootserviceAccess ||| efiVariableRuntimeAccess)
        = true ∧
      dbAttributes attributes &&& ~~~efiVariableAppendWrite = dbAttributes attributes := by
  rw [dbAttributes]
  split <;> decide

/-- The variable driver cannot set the database. -/
def UpdateFails (V : VariableDriver) (attributes : Attributes) : Prop :=
  ∃ store u, u.key = dbKey attributes ∧ u.deletes = false ∧
    (V.updateVariable store u).1.isError = true

/-- The variable driver does not set the database to one that has these certificates. -/
def UpdateRefused (s : State V) (attributes : Attributes) (m : Key → Option (List Byte)) : Prop :=
  ∃ nodes u, Distinct nodes ∧ certOf nodes = m ∧ u.key = dbKey attributes ∧
    u.value = dbBytes nodes ∧ u.deletes = false ∧ (V.updateVariable s.store u).1.isError = true

theorem UpdateRefused.fails {m : Key → Option (List Byte)} (h : UpdateRefused s attributes m) :
    UpdateFails V attributes := by
  obtain ⟨_, u, -, -, hkey, -, hdeletes, herror⟩ := h
  exact ⟨s.store, u, hkey, hdeletes, herror⟩

/-- A new database is set, or nothing changes. -/
theorem setDb_spec (s : State V) (attributes : Attributes) {newCertDb : Buffer × Nat}
    (hnew : IsDb newCertDb.1 newCertDb.2 nodes) (hdistinct : Distinct nodes) :
    (setDb s attributes newCertDb).1.isError = true ∧
        (setDb s attributes newCertDb).2.contents = s.contents ∧
        UpdateRefused s attributes (certOf nodes) ∨
      (setDb s attributes newCertDb).1.isError = false ∧
        (setDb s attributes newCertDb).2.contents = Function.update s.contents (dbKey attributes)
          (some ⟨dbBytes nodes, dbAttributes attributes, noTime⟩) := by
  obtain ⟨happend, haccess, hattributes⟩ := dbAttributes_plain attributes
  have hsize := hnew.size
  have hvalue : slice newCertDb.1 0 newCertDb.2 = dbBytes nodes :=
    hnew.held.slice_eq (hsize.trans (dbBytes_length nodes).symm)
  have hdeletes : Update.deletes ⟨dbKey attributes, newCertDb.1, newCertDb.2,
      dbAttributes attributes, none⟩ = false := by
    simp [Update.deletes, haccess]
    omega
  cases hstatus : (setDb s attributes newCertDb).1.isError with
  | true =>
      exact .inl ⟨rfl, update_error hstatus, nodes, ⟨dbKey attributes, newCertDb.1, newCertDb.2,
        dbAttributes attributes, none⟩, hdistinct, rfl, rfl, hvalue, hdeletes, hstatus⟩
  | false =>
      refine .inr ⟨rfl, (update_success hstatus).trans ?_⟩
      refine congrArg (Function.update s.contents (dbKey attributes)) ?_
      rw [stored_eq _ hdeletes (by simp only; omega) happend]
      simp only [Update.value, hvalue, hattributes, Option.getD_none]

/-- What a call that changes the database leaves: an error and nothing changed, or the new
    nodes. -/
structure ChangedDb (p : Platform) (s s' : State V) (attributes : Attributes)
    (nodes : List Node) : Prop where
  isCertDb : IsCertDb p s'.contents attributes nodes
  frame : ∀ k ≠ dbKey attributes, s'.contents k = s.contents k

theorem changedDb_of_setDb (s : State V) (attributes : Attributes) {newCertDb : Buffer × Nat}
    (hnew : IsDb newCertDb.1 newCertDb.2 nodes) (hdistinct : Distinct nodes)
    (hsize : 4 + areaSize nodes ≤ p.mMaxCertDbSize) :
    (setDb s attributes newCertDb).1.isError = true ∧
        (setDb s attributes newCertDb).2.contents = s.contents ∧
        UpdateRefused s attributes (certOf nodes) ∨
      (setDb s attributes newCertDb).1.isError = false ∧
        ChangedDb p s (setDb s attributes newCertDb).2 attributes nodes := by
  refine (setDb_spec s attributes hnew hdistinct).imp_right fun h =>
    ⟨h.1, ⟨⟨noTime, ?_⟩, hdistinct, hsize⟩, ?_⟩
  · rw [h.2, Function.update_self]
  · intro k hk
    rw [h.2, Function.update_of_ne hk]

/-- Deleting takes the variable out of the map. -/
theorem deleteCertsFromDb_spec (hp : p.Sound) (h : IsCertDb p s.contents attributes nodes)
    (k : Key) :
    ∃ status s', deleteCertsFromDb p s k attributes = some (status, s') ∧
      (s'.contents = s.contents ∧ (status.isError = false → nodes = []) ∧
          (certOf nodes k = none ∨
            UpdateRefused s attributes (Function.update (certOf nodes) k none)) ∨
        status.isError = false ∧ ∃ nodes', ChangedDb p s s' attributes nodes' ∧
          certOf nodes' = Function.update (certOf nodes) k none ∧
          nodes'.length < nodes.length) := by
  obtain ⟨db, hfind, hdb, hlimit⟩ := h.exists_db hp
  have hsize := hdb.size
  have hsmall := hdb.small
  have hmax := h.size
  rw [deleteCertsFromDb, hfind]
  simp only
  rw [if_neg (by omega)]
  split_ifs with hempty
  · -- There are no nodes.
    have hnodes := length_le_areaSize nodes
    have hnil : nodes = [] := List.eq_nil_of_length_eq_zero (by omega)
    exact ⟨_, _, rfl, .inl ⟨rfl, fun _ => hnil, .inl (by rw [hnil]; rfl)⟩⟩
  · cases hcert : certOf nodes k with
    | none =>
        rw [hdb.find_none hlimit (certOf_eq_none.mp hcert)]
        exact ⟨_, _, rfl, .inl ⟨rfl, fun h => absurd h (by decide), .inl rfl⟩⟩
    | some cert =>
        obtain ⟨before, n, after, rfl, hbefore, hthis, rfl⟩ := exists_of_certOf hcert
        rw [areaSize_append, areaSize_cons] at hsize hmax
        have hend : ¬db.dataSize < ((foundAt (4 + areaSize before) n).certNodeOffset
            + (foundAt (4 + areaSize before) n).certNodeSize) % 2 ^ 32 := by
          simp only [foundAt]
          omega
        rw [hdb.find_some hlimit hbefore hthis, Option.map_some]
        simp only
        rw [if_neg hend]
        have hmap := certOf_delete h.distinct hthis
        rw [← hmap]
        refine ⟨_, _, rfl, (changedDb_of_setDb _ _ (isDb_withoutNode s.mCertDbStore hdb)
          (distinct_delete h.distinct) ?_).imp (fun h => ⟨h.2.1, fun hok => ?_, .inr h.2.2⟩)
          fun hset => ⟨hset.1, _, hset.2, rfl, ?_⟩⟩
        · rw [areaSize_append]
          omega
        · exact absurd (hok.symm.trans h.1) Bool.false_ne_true
        · rw [List.length_append, List.length_append, List.length_cons]
          omega

theorem hashSize_le {i : Nat} {hashInfo : HashInfo} (h : mHashInfo[i]? = some hashInfo) :
    hashInfo.hashSize ≤ 64 :=
  (by decide : ∀ info ∈ mHashInfo, info.hashSize ≤ 64) hashInfo (List.mem_of_getElem? h)

theorem calculate_error {hashAlgId : Nat} {signerCert topLevelCert : List Byte}
    (h : calculatePrivAuthVarSignChainSHADigest p hashAlgId signerCert topLevelCert
      = .error status) : status.isError = true := by
  rw [calculatePrivAuthVarSignChainSHADigest] at h
  split at h
  · cases h
    rfl
  · split at h
    · cases h
      rfl
    · split at h
      · cases h
        rfl
      · split at h <;> cases h
        rfl

theorem calculate_ok {hashAlgId : Nat} {signerCert topLevelCert cert : List Byte}
    (h : calculatePrivAuthVarSignChainSHADigest p hashAlgId signerCert topLevelCert = .ok cert) :
    ∃ m, p.hash hashAlgId m = some cert := by
  rw [calculatePrivAuthVarSignChainSHADigest] at h
  split at h
  · cases h
  · split at h
    · cases h
    · split at h
      · cases h
      · split at h
        · cases h
        · rename_i shaDigest hhash
          cases h
          exact ⟨_, hhash⟩

/-- There is no room for the certificate of a variable behind those that there are. -/
def NoRoom (p : Platform) (m : Key → Option (List Byte)) (k : Key) (hashAlgId : Nat) : Prop :=
  ∃ nodes cert, Distinct nodes ∧ certOf nodes = m ∧
    mHashInfo[hashAlgId]?.map HashInfo.hashSize = some cert.length ∧
    p.mMaxCertDbSize < 4 + areaSize nodes + (k.node cert).size

/-- What keeps a certificate from being inserted. -/
inductive InsertRefused (p : Platform) (s : State V) (attributes : Attributes)
    (m : Key → Option (List Byte)) (k : Key) (hashAlgId : Nat)
    (signerCert topLevelCert : List Byte) : Prop where
  | present {cert : List Byte} : m k = some cert →
      InsertRefused p s attributes m k hashAlgId signerCert topLevelCert
  | noRoom : NoRoom p m k hashAlgId →
      InsertRefused p s attributes m k hashAlgId signerCert topLevelCert
  | noDigest {status : Status} :
      calculatePrivAuthVarSignChainSHADigest p hashAlgId signerCert topLevelCert = .error status →
      InsertRefused p s attributes m k hashAlgId signerCert topLevelCert
  | update {cert : List Byte} :
      calculatePrivAuthVarSignChainSHADigest p hashAlgId signerCert topLevelCert = .ok cert →
      UpdateRefused s attributes (Function.update m k (some cert)) →
      InsertRefused p s attributes m k hashAlgId signerCert topLevelCert

theorem calculate_unknown {hashAlgId : Nat} (h : mHashInfo[hashAlgId]? = none)
    (signerCert topLevelCert : List Byte) :
    calculatePrivAuthVarSignChainSHADigest p hashAlgId signerCert topLevelCert
      = .error efiAborted := by
  rw [calculatePrivAuthVarSignChainSHADigest, if_pos (List.getElem?_eq_none_iff.mp h)]

theorem insertedNodeSize_eq (hk : k.Short) {certDataSize : Nat} (hsize : certDataSize ≤ 64) :
    insertedNodeSize k.variableName certDataSize
      = 28 + certDataSize + 2 * k.variableName.length := by
  have hshort : k.variableName.length < 2 ^ 29 := hk
  rw [insertedNodeSize, Nat.mod_eq_of_lt (a := k.variableName.length) (by omega)]
  omega

/-- The database with a node for one more variable is set, or nothing changes. -/
theorem setDb_inserted (s : State V) (attributes : Attributes) (hp : p.Sound)
    (hdistinct : Distinct nodes) (hcert : certOf nodes k = none) {data : Buffer} {dataSize : Nat} (hdb : IsDb data dataSize nodes)
    (hroom : 4 + areaSize nodes + (k.node cert).size ≤ p.mMaxCertDbSize) :
    let newCertDb := withNode s.mCertDbStore data dataSize k.variableName k.vendorGuid cert
    (setDb s attributes newCertDb).1.isError = true ∧
        (setDb s attributes newCertDb).2.contents = s.contents ∧
        UpdateRefused s attributes (Function.update (certOf nodes) k (some cert)) ∨
      (setDb s attributes newCertDb).1.isError = false ∧
        ∃ nodes', ChangedDb p s (setDb s attributes newCertDb).2 attributes nodes' ∧
          certOf nodes' = Function.update (certOf nodes) k (some cert) := by
  intro newCertDb
  have hsmall := hp.small
  have hsize := hdb.size
  have hmap : certOf (nodes ++ [k.node cert])
      = Function.update (certOf nodes) k (some cert) := certOf_insert hcert
  have hnew : IsDb newCertDb.1 newCertDb.2 (nodes ++ [k.node cert]) :=
    isDb_withNode s.mCertDbStore (n := k.node cert) hdb (by omega)
  have hfits : 4 + areaSize (nodes ++ [k.node cert]) ≤ p.mMaxCertDbSize := by
    rw [areaSize_append, areaSize_cons, ← Nat.add_assoc]
    exact hroom
  have hset := changedDb_of_setDb s attributes hnew (distinct_insert hdistinct hcert) hfits
  rw [hmap] at hset
  exact hset.imp_right fun h => ⟨h.1, _, h.2, hmap⟩

/-- Inserting adds a variable to the map that it does not have. -/
theorem insertCertsToDb_spec (hp : p.Sound) (h : IsCertDb p s.contents attributes nodes)
    (hk : k.Short) (hashAlgId : Nat) (signerCert topLevelCert : List Byte) :
    ∃ status s', insertCertsToDb p s hashAlgId k attributes signerCert topLevelCert
        = some (status, s') ∧
      (status.isError = true ∧ s'.contents = s.contents ∧
          InsertRefused p s attributes (certOf nodes) k hashAlgId signerCert topLevelCert ∨
        status.isError = false ∧ certOf nodes k = none ∧ ∃ nodes' cert,
          calculatePrivAuthVarSignChainSHADigest p hashAlgId signerCert topLevelCert = .ok cert ∧
          ChangedDb p s s' attributes nodes' ∧
          certOf nodes' = Function.update (certOf nodes) k (some cert)) := by
  obtain ⟨db, hfind, hdb, hlimit⟩ := h.exists_db hp
  have hsize := hdb.size
  rw [insertCertsToDb]
  cases hinfo : mHashInfo[hashAlgId]? with
  | none =>
      have hunknown := calculate_unknown (p := p) hinfo signerCert topLevelCert
      exact ⟨_, _, rfl, .inl ⟨rfl, rfl, .noDigest hunknown⟩⟩
  | some hashInfo =>
      simp only [hfind]
      rw [if_neg (by omega)]
      cases hcert : certOf nodes k with
      | some cert =>
          obtain ⟨before, n, after, rfl, hbefore, hthis, rfl⟩ := exists_of_certOf hcert
          rw [hdb.find_some hlimit hbefore hthis]
          exact ⟨_, _, rfl, .inl ⟨rfl, rfl, .present hcert⟩⟩
      | none =>
          have hsmall := hp.small
          have hmax := h.size
          have hshort : k.variableName.length < 2 ^ 29 := hk
          have hdigestSize : hashInfo.hashSize ≤ 64 := hashSize_le hinfo
          have hn : ∀ cert : List Byte, cert.length = hashInfo.hashSize →
              (k.node cert).size = 28 + hashInfo.hashSize + 2 * k.variableName.length := by
            rintro cert hlength
            rw [← hlength]
            rfl
          -- The size of the database with the node does not wrap.
          have hfits : (db.dataSize + (28 + hashInfo.hashSize + 2 * k.variableName.length)) % 2 ^ 32
              = 4 + areaSize nodes + (28 + hashInfo.hashSize + 2 * k.variableName.length) := by
            rw [hsize]
            exact Nat.mod_eq_of_lt (by omega)
          rw [hdb.find_none hlimit (certOf_eq_none.mp hcert), Option.map_some]
          simp only
          rw [insertedNodeSize_eq hk hdigestSize, hfits]
          split
          · rename_i hroom
            refine ⟨_, _, rfl, .inl ⟨rfl, rfl, .noRoom ⟨nodes, List.replicate hashInfo.hashSize 0#8,
              h.distinct, rfl, ?_, ?_⟩⟩⟩
            · rw [hinfo, Option.map_some, List.length_replicate]
            · rw [hn _ List.length_replicate]
              exact hroom
          · rename_i hroom
            rw [Nat.not_lt] at hroom
            cases hdigest : calculatePrivAuthVarSignChainSHADigest p hashAlgId signerCert
              topLevelCert with
            | error status =>
                exact ⟨_, _, rfl, .inl ⟨calculate_error hdigest, rfl, .noDigest hdigest⟩⟩
            | ok cert =>
                obtain ⟨m, hhash⟩ := calculate_ok hdigest
                have hlength := hp.hashSize hinfo hhash
                rw [← hn cert hlength] at hroom
                have hset := setDb_inserted s attributes hp h.distinct hcert hdb hroom
                refine ⟨_, _, rfl, ?_⟩
                rcases hset with ⟨herror, hsame, hrefused⟩ | ⟨hok, nodes', hchanged, hmap⟩
                · exact .inl ⟨herror, hsame, .update hdigest hrefused⟩
                · exact .inr ⟨hok, trivial, nodes', cert, rfl, hchanged, hmap⟩

/-! ## Runs -/

/-- Both databases. -/
def IsCertDbs (p : Platform) (c : Contents) (nodes : Bool → List Node) : Prop :=
  ∀ attributes, IsCertDb p c attributes (nodes (attributes.has efiVariableNonVolatile))

/-- For each of the two databases, the certificate of a variable. -/
abbrev CertMap := Bool → Key → Option (List Byte)

def certMap (nodes : Bool → List Node) : CertMap := fun nonVolatile => certOf (nodes nonVolatile)

theorem dbKey_inj {attributes attributes' : Attributes} :
    dbKey attributes' = dbKey attributes
      ↔ attributes'.has efiVariableNonVolatile = attributes.has efiVariableNonVolatile := by
  rw [dbKey, dbKey]
  cases attributes.has efiVariableNonVolatile <;>
    cases attributes'.has efiVariableNonVolatile <;> decide

/-- A call that changes one database changes one of the maps. -/
theorem ChangedDb.isCertDbs {nodes : Bool → List Node} {nodes' : List Node}
    (h : ChangedDb p s s' attributes nodes') (hdbs : IsCertDbs p s.contents nodes) :
    IsCertDbs p s'.contents
      (Function.update nodes (attributes.has efiVariableNonVolatile) nodes') := by
  intro attributes'
  by_cases hsame : attributes'.has efiVariableNonVolatile = attributes.has efiVariableNonVolatile
  · have hattributes : dbAttributes attributes' = dbAttributes attributes := by
      rw [dbAttributes, dbAttributes, hsame]
    obtain ⟨⟨timeStamp, hstored⟩, hdistinct, hsize⟩ := h.isCertDb
    rw [hsame, Function.update_self]
    refine ⟨⟨timeStamp, ?_⟩, hdistinct, hsize⟩
    rw [dbKey_inj.mpr hsame, hattributes, hstored]
  · rw [Function.update_of_ne hsame]
    exact (hdbs attributes').congr (h.frame _ (mt dbKey_inj.mp hsame))

theorem certMap_update (nodes : Bool → List Node) (nonVolatile : Bool) {nodes' : List Node}
    {m : Key → Option (List Byte)} (h : certOf nodes' = m) :
    certMap (Function.update nodes nonVolatile nodes')
      = Function.update (certMap nodes) nonVolatile m := by
  funext nv
  rw [certMap, ← h]
  by_cases hnv : nv = nonVolatile
  · subst hnv
    rw [Function.update_self, Function.update_self]
  · rw [Function.update_of_ne hnv, Function.update_of_ne hnv, certMap]

/-- The calls that change the databases. -/
inductive DbCall where
  | insert (hashAlgId : Nat) (key : Key) (attributes : Attributes)
      (signerCert topLevelCert : List Byte)
  | delete (key : Key) (attributes : Attributes)

def DbCall.Short : DbCall → Prop
  | .insert _ key _ _ _ => key.Short
  | .delete _ _ => True

def DbCall.exec (p : Platform) (s : State V) : DbCall → Option (Status × State V)
  | .insert hashAlgId key attributes signerCert topLevelCert =>
      insertCertsToDb p s hashAlgId key attributes signerCert topLevelCert
  | .delete key attributes => deleteCertsFromDb p s key attributes

/-- What a call is for: it sets the certificate of the variable, or takes it away.  It fails,
    and changes nothing, only for one of the reasons that there are. -/
inductive DbCall.Effect (p : Platform) (s : State V) (m : CertMap) :
    DbCall → Status → CertMap → Prop where
  | insert {hashAlgId : Nat} {key : Key} {attributes : Attributes}
      {signerCert topLevelCert cert : List Byte} {status : Status} :
      status.isError = false → m (attributes.has efiVariableNonVolatile) key = none →
      calculatePrivAuthVarSignChainSHADigest p hashAlgId signerCert topLevelCert = .ok cert →
      Effect p s m (.insert hashAlgId key attributes signerCert topLevelCert) status
        (Function.update m (attributes.has efiVariableNonVolatile)
          (Function.update (m (attributes.has efiVariableNonVolatile)) key (some cert)))
  | insertFailed {hashAlgId : Nat} {key : Key} {attributes : Attributes}
      {signerCert topLevelCert : List Byte} {status : Status} : status.isError = true →
      InsertRefused p s attributes (m (attributes.has efiVariableNonVolatile)) key hashAlgId
        signerCert topLevelCert →
      Effect p s m (.insert hashAlgId key attributes signerCert topLevelCert) status m
  | delete {key : Key} {attributes : Attributes} {status : Status} : status.isError = false →
      Effect p s m (.delete key attributes) status
        (Function.update m (attributes.has efiVariableNonVolatile)
          (Function.update (m (attributes.has efiVariableNonVolatile)) key none))
  | deleteFailed {key : Key} {attributes : Attributes} {status : Status} :
      status.isError = true →
      (m (attributes.has efiVariableNonVolatile) key = none ∨ UpdateRefused s attributes
        (Function.update (m (attributes.has efiVariableNonVolatile)) key none)) →
      Effect p s m (.delete key attributes) status m

/-- One call does to the maps what it is for. -/
theorem exec_effect (hp : p.Sound) {nodes : Bool → List Node}
    (hdbs : IsCertDbs p s.contents nodes) {call : DbCall} (hshort : call.Short) :
    ∃ status s' nodes', call.exec p s = some (status, s') ∧ IsCertDbs p s'.contents nodes' ∧
      call.Effect p s (certMap nodes) status (certMap nodes') ∧
      ∀ k, k ≠ certDbKey → k ≠ certDbVolatileKey → s'.contents k = s.contents k := by
  cases call with
  | insert hashAlgId key attributes signerCert topLevelCert =>
      obtain ⟨status, s', hexec, hcases⟩ :=
        insertCertsToDb_spec hp (hdbs attributes) hshort hashAlgId signerCert topLevelCert
      obtain ⟨herror, hsame, hrefused⟩ | ⟨hok, hnone, nodes', cert, hcert, hdb, hmap⟩ := hcases
      · exact ⟨status, s', nodes, hexec, hsame ▸ hdbs, .insertFailed herror hrefused,
          fun k _ _ => by rw [hsame]⟩
      · refine ⟨status, s', _, hexec, hdb.isCertDbs hdbs, ?_, fun k hk hk' => hdb.frame k ?_⟩
        · rw [certMap_update nodes _ hmap]
          exact .insert hok hnone hcert
        · exact fun hkey => (dbKey_cases attributes).elim (fun h => hk (hkey.trans h))
            fun h => hk' (hkey.trans h)
  | delete key attributes =>
      obtain ⟨status, s', hexec, ⟨hsame, hempty, hrefused⟩ |
          ⟨hok, nodes', hdb, hmap, -⟩⟩ :=
        deleteCertsFromDb_spec hp (hdbs attributes) key
      · refine ⟨status, s', nodes, hexec, hsame ▸ hdbs, ?_, fun k _ _ => by rw [hsame]⟩
        cases hstatus : status.isError with
        | true => exact .deleteFailed hstatus hrefused
        | false =>
            -- There was nothing to delete.
            have hnone : Function.update (certMap nodes) (attributes.has efiVariableNonVolatile)
                (Function.update (certMap nodes (attributes.has efiVariableNonVolatile)) key none)
                = certMap nodes := by
              rw [Function.update_eq_self_iff, Function.update_eq_self_iff, certMap,
                hempty hstatus]
              rfl
            have heffect : DbCall.Effect p s (certMap nodes) (.delete key attributes) status _ :=
              .delete hstatus
            rwa [hnone] at heffect
      · refine ⟨status, s', _, hexec, hdb.isCertDbs hdbs, ?_, fun k hk hk' => hdb.frame k ?_⟩
        · rw [certMap_update nodes _ hmap]
          exact .delete hok
        · exact fun hkey => (dbKey_cases attributes).elim (fun h => hk (hkey.trans h))
            fun h => hk' (hkey.trans h)

/-- The calls one after the other, with the status of each. -/
def runDb (p : Platform) (s : State V) : List DbCall → Option (List Status × State V)
  | [] => some ([], s)
  | call :: calls =>
      (call.exec p s).bind fun (status, s) =>
        (runDb p s calls).map fun (statuses, s) => (status :: statuses, s)

/-- The effects one after the other, each in the state that the calls before it have left. -/
inductive Effects (p : Platform) :
    State V → CertMap → List DbCall → List Status → CertMap → Prop where
  | nil {s : State V} {m : CertMap} : Effects p s m [] [] m
  | cons {s s' : State V} {m m' m'' : CertMap} {call : DbCall} {calls : List DbCall}
      {status : Status} {statuses : List Status} : call.exec p s = some (status, s') →
      call.Effect p s m status m' → Effects p s' m' calls statuses m'' →
      Effects p s m (call :: calls) (status :: statuses) m''

/-- Any calls end, each does what it is for unless there is a reason that it fails, and
    afterwards looking up finds in the two variables what a map holds. -/
theorem runDb_refines (hp : p.Sound) {nodes : Bool → List Node}
    (hdbs : IsCertDbs p s.contents nodes) (calls : List DbCall)
    (hshort : ∀ call ∈ calls, call.Short) :
    ∃ statuses s' m, runDb p s calls = some (statuses, s') ∧
      Effects p s (certMap nodes) calls statuses m ∧
      (∀ k attributes, getCertsFromDb p s' k attributes
        = some ((m (attributes.has efiVariableNonVolatile) k).elim (.error .notFound) .ok)) ∧
      ∀ k, k ≠ certDbKey → k ≠ certDbVolatileKey → s'.contents k = s.contents k := by
  induction calls generalizing s nodes with
  | nil =>
      exact ⟨[], s, certMap nodes, rfl, .nil,
        fun k attributes => getCertsFromDb_eq hp (hdbs attributes) k, fun _ _ _ => rfl⟩
  | cons call calls ih =>
      obtain ⟨hfirst, hrest⟩ := List.forall_mem_cons.mp hshort
      obtain ⟨status, s₁, nodes₁, hexec, hdbs₁, heffect, hframe₁⟩ := exec_effect hp hdbs hfirst
      obtain ⟨statuses, s', m, hrun, heffects, hget, hframe⟩ := ih hdbs₁ hrest
      refine ⟨status :: statuses, s', m, ?_, .cons hexec heffect heffects, hget,
        fun k hk hk' => (hframe k hk hk').trans (hframe₁ k hk hk')⟩
      rw [runDb, hexec, Option.bind_some]
      simp only [hrun, Option.map_some]

end Db

/-! ### One certificate -/

theorem barePlatform_sound : barePlatform.Sound where
  turns := Nat.le_refl 4096
  small := by decide
  hashSize := fun _ h => nomatch h

/-- A common variable. -/
def vendorKey : Key := ⟨name ['V'], gEfiVendorKeysNvGuid, by decide⟩

/-- Two databases without nodes. -/
def emptyDbs : Contents := fun k =>
  if k = certDbKey then some ⟨dbBytes [], dbAttributes efiVariableNonVolatile, noTime⟩
  else if k = certDbVolatileKey then some ⟨dbBytes [], dbAttributes 0#32, noTime⟩
  else none

def setupWithDbs : State plainDriver where
  store := emptyDbs
  mPlatformMode := setupMode
  mVendorKeyState := 1#8
  mCertDbStore := fun _ => 0#8

theorem emptyDbs_isCertDbs {p : Platform} (hroom : 4 ≤ p.mMaxCertDbSize) :
    IsCertDbs p setupWithDbs.contents fun _ => [] := by
  rw [plain_contents]
  intro attributes
  refine ⟨⟨noTime, ?_⟩, ⟨List.Pairwise.nil, fun _ h => absurd h List.not_mem_nil⟩, hroom⟩
  rw [dbKey, dbAttributes]
  cases attributes.has efiVariableNonVolatile <;> rfl

/-- A crypto library for which every signature is good and has one signer. -/
def signingPlatform : Platform :=
  { barePlatform with
    pkcs7Verify := fun _ _ _ => true
    pkcs7GetSigners := fun _ => some ([1, 1, 0, 0, 0, 0x30], [0x30])
    x509GetCommonName := fun _ => some [0x41]
    x509GetTBSCert := fun _ => some [0x30]
    hash := fun i _ => mHashInfo[i]?.map fun hashInfo => List.replicate hashInfo.hashSize 0x5a }

theorem signingPlatform_sound : signingPlatform.Sound where
  turns := Nat.le_refl 4096
  small := by decide
  hashSize := by
    intro i hashInfo message digest hinfo hhash
    change mHashInfo[i]?.map _ = some digest at hhash
    rw [hinfo] at hhash
    rw [← Option.some.inj hhash]
    exact List.length_replicate

/-- An insertion, the same once more, and a deletion. -/
def vendorCalls : List DbCall :=
  [.insert 0 vendorKey 0x27#32 [0x30] [0x30], .insert 0 vendorKey 0x27#32 [0x30] [0x30],
    .delete vendorKey 0x27#32]

theorem runDb_refines_vendorCalls : ∃ statuses s' m,
    runDb signingPlatform setupWithDbs vendorCalls = some (statuses, s') ∧
      Effects signingPlatform setupWithDbs (certMap fun _ => []) vendorCalls statuses m ∧
      (∀ k attributes, getCertsFromDb signingPlatform s' k attributes
        = some ((m (attributes.has efiVariableNonVolatile) k).elim (.error .notFound) .ok)) ∧
      ∀ k, k ≠ certDbKey → k ≠ certDbVolatileKey →
        s'.contents k = setupWithDbs.contents k :=
  runDb_refines signingPlatform_sound (emptyDbs_isCertDbs (by decide)) vendorCalls
  fun call hcall => by
    rcases List.mem_cons.mp hcall with rfl | hcall
    · exact (by decide : 1 < 2 ^ 29)
    · rcases List.mem_cons.mp hcall with rfl | hcall
      · exact (by decide : 1 < 2 ^ 29)
      · rw [List.mem_singleton.mp hcall]
        trivial

/-- What is there is not inserted again, and is deleted. -/
example : (runDb signingPlatform setupWithDbs vendorCalls).map Prod.fst
    = some [.success, efiAccessDenied, .success] := by decide +kernel

end AuthVariable
