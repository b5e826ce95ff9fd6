/-
  MsmnilePkg.AuthVariable.CertDb

  AuthService.c: the bytes of "certdb" and "certdbv".

  The database is its own size followed by nodes, one for each variable.  The offsets and
  sizes are `UINT32` and wrap as such; a loop is given fuel, as a node of size 0 would keep
  it where it is.  Left out are the `NULL` checks of the parameters.
-/

import MsmnilePkg.AuthVariable.Format

namespace AuthVariable

open Efi ByteMem LittleEndian RecordArea

/-! ## The functions -/

/-- The results of `FindCertsFromDb`. -/
structure Found where
  certOffset : Nat
  certDataSize : Nat
  certNodeOffset : Nat
  certNodeSize : Nat
deriving DecidableEq

/-- The loop of `FindCertsFromDb`. -/
def findCertsLoop (variableName : Name) (vendorGuid : Guid) (data : Buffer) (dataSize : Nat) :
    Nat → Nat → Option (Except Status Found)
  | 0, _ => none
  | fuel + 1, offset =>
      if offset < dataSize % 2 ^ 32 then
        let nodeSize := value data (offset + 16) 4
        let nameSize := value data (offset + 20) 4
        let certSize := value data (offset + 24) 4
        if slice data offset 16 = Guid.bytes vendorGuid then
          if nodeSize ≠ 28 + certSize + 2 * nameSize then some (.error .invalidParameter)
          else
            let nameOffset := (offset + 28) % 2 ^ 32
            if nameSize = variableName.length ∧
                slice data nameOffset (2 * nameSize) = Name.bytes variableName then
              some (.ok ⟨(nameOffset + 2 * nameSize) % 2 ^ 32, certSize, offset, nodeSize⟩)
            else
              findCertsLoop variableName vendorGuid data dataSize fuel
                ((nameOffset + 2 * nameSize + certSize) % 2 ^ 32)
        -- The sizes of a node with another GUID are not compared.
        else
          findCertsLoop variableName vendorGuid data dataSize fuel ((offset + nodeSize) % 2 ^ 32)
      else some (.error .notFound)

/-- `FindCertsFromDb` -/
def findCertsFromDb (fuel : Nat) (variableName : Name) (vendorGuid : Guid) (data : Buffer)
    (dataSize : Nat) : Option (Except Status Found) :=
  if dataSize < 4 then some (.error .invalidParameter)
  else if value data 0 4 ≠ dataSize % 2 ^ 32 then some (.error .invalidParameter)
  else findCertsLoop variableName vendorGuid data dataSize fuel 4

/-- The new content that `DeleteCertsFromDb` builds in `mCertDbStore`, and its size. -/
def withoutNode (mCertDbStore data : Buffer) (dataSize : Nat) (f : Found) : Buffer × Nat :=
  let newCertDbSize := (dataSize + (2 ^ 32 - f.certNodeSize)) % 2 ^ 32
  let nodeEnd := (f.certNodeOffset + f.certNodeSize) % 2 ^ 32
  let newCertDb := put mCertDbStore 0 f.certNodeOffset data
  let newCertDb := put newCertDb 0 4 (bytesOf newCertDbSize)
  let newCertDb :=
    if nodeEnd < dataSize then
      put newCertDb f.certNodeOffset (dataSize - f.certNodeOffset - f.certNodeSize)
        (shift data nodeEnd)
    else newCertDb
  (newCertDb, newCertDbSize)

/-- `CertNodeSize` of `InsertCertsToDb`. -/
def insertedNodeSize (variableName : Name) (certDataSize : Nat) : Nat :=
  (28 + certDataSize + variableName.length % 2 ^ 32 * 2) % 2 ^ 32

/-- The new content that `InsertCertsToDb` builds in `mCertDbStore`, and its size. -/
def withNode (mCertDbStore data : Buffer) (dataSize : Nat) (variableName : Name)
    (vendorGuid : Guid) (shaDigest : List Byte) : Buffer × Nat :=
  let nameSize := variableName.length % 2 ^ 32
  let certDataSize := shaDigest.length
  let certNodeSize := insertedNodeSize variableName certDataSize
  let newCertDbSize := (dataSize + certNodeSize) % 2 ^ 32
  let newCertDb := put mCertDbStore 0 dataSize data
  let newCertDb := put newCertDb 0 4 (bytesOf newCertDbSize)
  let newCertDb := put newCertDb dataSize 16 (bytesOf vendorGuid.toNat)
  let newCertDb := put newCertDb (dataSize + 16) 4 (bytesOf certNodeSize)
  let newCertDb := put newCertDb (dataSize + 20) 4 (bytesOf nameSize)
  let newCertDb := put newCertDb (dataSize + 24) 4 (bytesOf certDataSize)
  let newCertDb := put newCertDb (dataSize + 28) (2 * nameSize) (ofList (Name.bytes variableName))
  let newCertDb := put newCertDb (dataSize + 28 + 2 * nameSize) certDataSize (ofList shaDigest)
  (newCertDb, newCertDbSize)

/-! ## Nodes -/

/-- `AUTH_CERT_DB_DATA`, with the name and the certificate data behind it. -/
structure Node where
  vendorGuid : Guid
  variableName : Name
  certData : List Byte
deriving DecidableEq

def Node.size (n : Node) : Nat := 28 + n.certData.length + 2 * n.variableName.length

def Node.bytes (n : Node) : List Byte :=
  Guid.bytes n.vendorGuid ++ (field n.size 4 ++ (field n.variableName.length 4 ++
    (field n.certData.length 4 ++ (Name.bytes n.variableName ++ n.certData))))

@[simp] theorem Node.bytes_length (n : Node) : n.bytes.length = n.size := by
  simp only [Node.bytes, Node.size, List.length_append, Guid.bytes_length, field_length,
    Name.bytes_length]
  omega

def areaSize (nodes : List Node) : Nat := (nodes.map Node.size).sum

def areaBytes (nodes : List Node) : List Byte := nodes.flatMap Node.bytes

@[simp] theorem areaBytes_length (nodes : List Node) :
    (areaBytes nodes).length = areaSize nodes := by
  induction nodes with
  | nil => rfl
  | cons n nodes ih =>
      rw [areaBytes, List.flatMap_cons, List.length_append, ← areaBytes, ih, Node.bytes_length]
      rfl

@[simp] theorem areaSize_cons (n : Node) (nodes : List Node) :
    areaSize (n :: nodes) = n.size + areaSize nodes := rfl

@[simp] theorem areaSize_append (nodes nodes' : List Node) :
    areaSize (nodes ++ nodes') = areaSize nodes + areaSize nodes' := by
  rw [areaSize, List.map_append, List.sum_append]
  rfl

theorem areaBytes_append (nodes nodes' : List Node) :
    areaBytes (nodes ++ nodes') = areaBytes nodes ++ areaBytes nodes' := List.flatMap_append

/-- The database with the given nodes. -/
def dbBytes (nodes : List Node) : List Byte := field (4 + areaSize nodes) 4 ++ areaBytes nodes

theorem dbBytes_length (nodes : List Node) : (dbBytes nodes).length = 4 + areaSize nodes := by
  rw [dbBytes, List.length_append, field_length, areaBytes_length]

/-- The node is the one of the variable. -/
def Node.IsFor (variableName : Name) (vendorGuid : Guid) (n : Node) : Bool :=
  n.vendorGuid = vendorGuid ∧ n.variableName = variableName

/-- A buffer with the database of `nodes`. -/
structure IsDb (data : Buffer) (dataSize : Nat) (nodes : List Node) : Prop where
  size : dataSize = 4 + areaSize nodes
  small : dataSize < 2 ^ 32
  held : Holds data 0 (dbBytes nodes)

/-! ## Looking up -/

section Find

variable {data : Buffer} {dataSize offset fuel : Nat} {n : Node} {nodes before after : List Node}
  {variableName : Name} {vendorGuid : Guid}

/-- What is read of a node. -/
structure NodeAt (data : Buffer) (offset : Nat) (n : Node) : Prop where
  guid : slice data offset 16 = Guid.bytes n.vendorGuid
  nodeSize : value data (offset + 16) 4 = n.size
  nameSize : value data (offset + 20) 4 = n.variableName.length
  certDataSize : value data (offset + 24) 4 = n.certData.length
  name : slice data (offset + 28) (2 * n.variableName.length) = Name.bytes n.variableName
  cert : slice data (offset + 28 + 2 * n.variableName.length) n.certData.length = n.certData

theorem nodeAt_of_holds (hsmall : n.size < 2 ^ 32) (h : Holds data offset n.bytes) :
    NodeAt data offset n := by
  have hsize : n.size = 28 + n.certData.length + 2 * n.variableName.length := rfl
  rw [Node.bytes, holds_append, Guid.bytes_length, holds_append, field_length, holds_append,
    field_length, holds_append, field_length, holds_append, Name.bytes_length] at h
  obtain ⟨hguid, hnode, hname, hcert, hchars, hdata⟩ := h
  exact {
    guid := hguid.slice_eq (Guid.bytes_length n.vendorGuid).symm
    nodeSize := hnode.value hsmall
    nameSize := hname.value (by omega)
    certDataSize := hcert.value (by omega)
    name := hchars.slice_eq (Name.bytes_length n.variableName).symm
    cert := hdata.slice_eq rfl }

theorem Node.isFor_iff :
    n.IsFor variableName vendorGuid = true
      ↔ n.vendorGuid = vendorGuid ∧ n.variableName = variableName := decide_eq_true_iff

/-- The comparison of the names, once the sizes are known. -/
theorem NodeAt.name_iff (h : NodeAt data offset n) :
    (value data (offset + 20) 4 = variableName.length ∧
      slice data (offset + 28) (2 * value data (offset + 20) 4) = Name.bytes variableName)
      ↔ n.variableName = variableName := by
  rw [h.nameSize, h.name]
  constructor
  · exact fun hname => Name.bytes_inj hname.2
  · intro hname
    rw [hname]
    exact ⟨rfl, rfl⟩

theorem NodeAt.guid_iff (h : NodeAt data offset n) :
    slice data offset 16 = Guid.bytes vendorGuid ↔ n.vendorGuid = vendorGuid := by
  rw [h.guid]
  exact ⟨Guid.bytes_inj, congrArg Guid.bytes⟩

/-- A turn of the loop at the node of another variable. -/
theorem findCertsLoop_skip (h : NodeAt data offset n) (hend : offset + n.size ≤ dataSize)
    (hsmall : dataSize < 2 ^ 32) (hother : n.IsFor variableName vendorGuid = false) :
    findCertsLoop variableName vendorGuid data dataSize (fuel + 1) offset
      = findCertsLoop variableName vendorGuid data dataSize fuel (offset + n.size) := by
  have hsize : n.size = 28 + n.certData.length + 2 * n.variableName.length := rfl
  have hname : (offset + 28) % 2 ^ 32 = offset + 28 := Nat.mod_eq_of_lt (by omega)
  have hwrap : (offset + n.size) % 2 ^ 32 = offset + n.size := Nat.mod_eq_of_lt (by omega)
  have hnext : offset + 28 + 2 * n.variableName.length + n.certData.length = offset + n.size := by
    omega
  rw [findCertsLoop, Nat.mod_eq_of_lt hsmall, if_pos (by omega)]
  simp only [h.guid_iff, hname]
  by_cases hguid : n.vendorGuid = vendorGuid
  · -- The same GUID: the sizes agree, and the names differ.
    have hnot : ¬n.variableName = variableName := fun hsame => by
      rw [Node.isFor_iff.mpr ⟨hguid, hsame⟩] at hother
      exact absurd hother.symm Bool.false_ne_true
    have hsum : ¬n.size ≠ 28 + n.certData.length + 2 * n.variableName.length := not_not_intro hsize
    rw [if_pos hguid, if_neg (by rwa [h.nodeSize, h.certDataSize, h.nameSize]),
      if_neg (mt h.name_iff.mp hnot), h.nameSize, h.certDataSize, hnext, hwrap]
  · rw [if_neg hguid, h.nodeSize, hwrap]

/-- What is found of a node. -/
def foundAt (offset : Nat) (n : Node) : Found :=
  ⟨offset + 28 + 2 * n.variableName.length, n.certData.length, offset, n.size⟩

/-- A turn of the loop at the node that is looked for. -/
theorem findCertsLoop_match (h : NodeAt data offset n) (hend : offset + n.size ≤ dataSize)
    (hsmall : dataSize < 2 ^ 32) (hthis : n.IsFor variableName vendorGuid = true) :
    findCertsLoop variableName vendorGuid data dataSize (fuel + 1) offset
      = some (.ok (foundAt offset n)) := by
  have hsize : n.size = 28 + n.certData.length + 2 * n.variableName.length := rfl
  have hname : (offset + 28) % 2 ^ 32 = offset + 28 := Nat.mod_eq_of_lt (by omega)
  have hcert : (offset + 28 + 2 * n.variableName.length) % 2 ^ 32
      = offset + 28 + 2 * n.variableName.length := Nat.mod_eq_of_lt (by omega)
  obtain ⟨hguid, hsame⟩ := Node.isFor_iff.mp hthis
  have hsum : ¬n.size ≠ 28 + n.certData.length + 2 * n.variableName.length := not_not_intro hsize
  rw [findCertsLoop, Nat.mod_eq_of_lt hsmall, if_pos (by omega)]
  simp only [h.guid_iff, hname]
  rw [if_pos hguid, if_neg (by rwa [h.nodeSize, h.certDataSize, h.nameSize]),
    if_pos (h.name_iff.mpr hsame), h.nameSize, h.certDataSize, h.nodeSize, hcert, foundAt]

/-- The loop walks over nodes of other variables. -/
theorem findCertsLoop_walk (hsmall : dataSize < 2 ^ 32)
    (hheld : Holds data offset (areaBytes before)) (hend : offset + areaSize before ≤ dataSize)
    (hother : ∀ n ∈ before, n.IsFor variableName vendorGuid = false) :
    findCertsLoop variableName vendorGuid data dataSize (fuel + before.length) offset
      = findCertsLoop variableName vendorGuid data dataSize fuel (offset + areaSize before) := by
  rw [← areaBytes_length] at hend ⊢
  refine walk_records (findCertsLoop variableName vendorGuid data dataSize) fuel dataSize
    (fun n hn o hat hle turns => ?_) hheld hend
  rw [Node.bytes_length] at hle ⊢
  exact findCertsLoop_skip (nodeAt_of_holds (by omega) hat) hle hsmall (hother n hn)

end Find

/-! ### In a database -/

section Database

variable {data : Buffer} {dataSize fuel : Nat} {n : Node} {nodes before after : List Node}
  {variableName : Name} {vendorGuid : Guid}

theorem IsDb.area (h : IsDb data dataSize nodes) : Holds data 4 (areaBytes nodes) := by
  have hheld := (holds_append.mp h.held).2
  rwa [field_length] at hheld

/-- The checks before the loop pass. -/
theorem IsDb.find_eq (h : IsDb data dataSize nodes) :
    findCertsFromDb fuel variableName vendorGuid data dataSize
      = findCertsLoop variableName vendorGuid data dataSize fuel 4 := by
  have hsize := h.size
  have hfirst : value data 0 4 = 4 + areaSize nodes :=
    (holds_append.mp h.held).1.value (by have := h.small; omega)
  have hwhole : ¬(value data 0 4 ≠ dataSize % 2 ^ 32) := by
    rw [hfirst, ← hsize, Nat.mod_eq_of_lt h.small]
    exact not_not_intro rfl
  rw [findCertsFromDb, if_neg (by omega), if_neg hwhole]

theorem IsDb.find_none (h : IsDb data dataSize nodes) (hfuel : nodes.length < fuel)
    (hother : ∀ n ∈ nodes, n.IsFor variableName vendorGuid = false) :
    findCertsFromDb fuel variableName vendorGuid data dataSize = some (.error .notFound) := by
  obtain ⟨rest, rfl⟩ := Nat.exists_eq_add_of_lt hfuel
  have hsize := h.size
  have hturns : nodes.length + rest + 1 = (rest + 1) + nodes.length := by omega
  rw [h.find_eq, hturns, findCertsLoop_walk h.small h.area (by omega) hother, findCertsLoop,
    Nat.mod_eq_of_lt h.small, if_neg (by omega)]

theorem IsDb.find_some (h : IsDb data dataSize (before ++ n :: after))
    (hfuel : (before ++ n :: after).length < fuel)
    (hother : ∀ m ∈ before, m.IsFor variableName vendorGuid = false)
    (hthis : n.IsFor variableName vendorGuid = true) :
    findCertsFromDb fuel variableName vendorGuid data dataSize
      = some (.ok (foundAt (4 + areaSize before) n)) := by
  have hsize := h.size
  have hsmall := h.small
  rw [areaSize_append, areaSize_cons] at hsize
  rw [List.length_append, List.length_cons] at hfuel
  obtain ⟨rest, hrest⟩ : ∃ rest, fuel = (rest + 1) + before.length :=
    ⟨fuel - before.length - 1, by omega⟩
  have harea := h.area
  rw [areaBytes_append, holds_append, areaBytes_length, areaBytes, areaBytes, List.flatMap_cons,
    holds_append, ← areaBytes] at harea
  have hnode : NodeAt data (4 + areaSize before) n := nodeAt_of_holds (by omega) harea.2.1
  rw [h.find_eq, hrest, findCertsLoop_walk hsmall harea.1 (by omega) hother,
    findCertsLoop_match hnode (by omega) hsmall hthis]

/-! ## Deleting and inserting -/

/-- Two areas behind the size are a database. -/
theorem isDb_of_parts {b : Buffer} {size : Nat} (hsize : size = 4 + areaSize nodes)
    (hsmall : size < 2 ^ 32) (hfirst : Holds b 0 (field size 4))
    (harea : Holds b 4 (areaBytes nodes)) : IsDb b size nodes where
  size := hsize
  small := hsmall
  held := by
    rw [dbBytes, holds_append, field_length, ← hsize]
    exact ⟨hfirst, harea⟩

/-- The node is gone, and the others are as before. -/
theorem isDb_withoutNode (mCertDbStore : Buffer) (h : IsDb data dataSize (before ++ n :: after)) :
    IsDb (withoutNode mCertDbStore data dataSize (foundAt (4 + areaSize before) n)).1
      (withoutNode mCertDbStore data dataSize (foundAt (4 + areaSize before) n)).2
      (before ++ after) := by
  have hsmall := h.small
  have hsize := h.size
  rw [areaSize_append, areaSize_cons] at hsize
  have harea := h.area
  rw [areaBytes_append, holds_append, areaBytes_length, areaBytes, areaBytes, List.flatMap_cons,
    holds_append, Node.bytes_length, ← areaBytes, ← areaBytes] at harea
  obtain ⟨hbefore, -, hafter⟩ := harea
  have hnew : (dataSize + (2 ^ 32 - n.size)) % 2 ^ 32 = 4 + areaSize (before ++ after) := by
    rw [areaSize_append]
    omega
  have hend : (4 + areaSize before + n.size) % 2 ^ 32 = 4 + areaSize before + n.size :=
    Nat.mod_eq_of_lt (by omega)
  simp only [withoutNode, foundAt, hnew, hend]
  -- The nodes before, with the new size in front of them.
  have hsizes : (4 + areaSize (before ++ after)) = 4 + areaSize before + areaSize after := by
    rw [areaSize_append, Nat.add_assoc]
  have hfirst : ∀ b, Holds (put b 0 4 (bytesOf (4 + areaSize (before ++ after)))) 0
      (field (4 + areaSize (before ++ after)) 4) :=
    fun b => holds_put (holds_bytesOf _ 4) (field_length ..).symm
  have hold : Holds (put (put mCertDbStore 0 (4 + areaSize before) data) 0 4
      (bytesOf (4 + areaSize (before ++ after)))) 4 (areaBytes before) := by
    have hcopy := holds_put_part (b := mCertDbStore) (o := 0) (n := 4 + areaSize before) hbefore
      (by rw [areaBytes_length])
    rw [Nat.zero_add] at hcopy
    exact hcopy.put_outside (.inr (Nat.le_refl 4))
  split
  · -- Nodes behind it move down.
    refine isDb_of_parts rfl (by omega) ((hfirst _).put_outside (.inl ?_)) ?_
    · rw [field_length]
      omega
    · rw [areaBytes_append, holds_append, areaBytes_length]
      refine ⟨hold.put_outside (.inl (by rw [areaBytes_length])), ?_⟩
      exact holds_put (holds_shift.mpr hafter) (by rw [areaBytes_length]; omega)
  · -- It was the last node.
    have hnone : areaSize after = 0 := by omega
    refine isDb_of_parts rfl (by omega) (hfirst _) ?_
    rw [areaBytes_append, holds_append]
    refine ⟨hold, ?_⟩
    rw [List.eq_nil_of_length_eq_zero ((areaBytes_length after).trans hnone)]
    exact holds_nil _ _

/-- The fields of a node, stored one after the other from `p` on. -/
def putNode (b : Buffer) (p : Nat) (n : Node) : Buffer :=
  put (put (put (put (put (put b p 16 (bytesOf n.vendorGuid.toNat))
    (p + 16) 4 (bytesOf n.size))
    (p + 20) 4 (bytesOf n.variableName.length))
    (p + 24) 4 (bytesOf n.certData.length))
    (p + 28) (2 * n.variableName.length) (ofList (Name.bytes n.variableName)))
    (p + 28 + 2 * n.variableName.length) n.certData.length (ofList n.certData)

theorem holds_putNode (b : Buffer) (p : Nat) (n : Node) : Holds (putNode b p n) p n.bytes := by
  have hfield : ∀ b offset n v, Holds (put b offset n (bytesOf v)) offset (field v n) :=
    fun b offset n v => holds_put (holds_bytesOf v n) (field_length ..).symm
  have hguid := fun b => hfield b p 16 n.vendorGuid.toNat
  have hsize := fun b => hfield b (p + 16) 4 n.size
  have hname := fun b => hfield b (p + 20) 4 n.variableName.length
  have hcert := fun b => hfield b (p + 24) 4 n.certData.length
  have hchars : ∀ b, Holds (put b (p + 28) _ (ofList (Name.bytes n.variableName))) (p + 28) _ :=
    fun b => holds_put (holds_ofList (Name.bytes n.variableName))
      (Name.bytes_length n.variableName).symm
  rw [Node.bytes, holds_append, Guid.bytes_length, holds_append, field_length, holds_append,
    field_length, holds_append, field_length, holds_append, Name.bytes_length]
  -- Every field is followed by stores behind it only.
  have hin : ∀ {v k o o' : Nat}, o + k ≤ o' → o + (field v k).length ≤ o' := by
    intro v k o o' hle
    rwa [field_length]
  refine ⟨?_, ?_, ?_, ?_, ?_, ?_⟩
  · exact (((((hguid _).put_outside (.inl (hin (by omega)))).put_outside
      (.inl (hin (by omega)))).put_outside (.inl (hin (by omega)))).put_outside
      (.inl (hin (by omega)))).put_outside (.inl (hin (by omega)))
  · exact ((((hsize _).put_outside (.inl (hin (by omega)))).put_outside
      (.inl (hin (by omega)))).put_outside (.inl (hin (by omega)))).put_outside
      (.inl (hin (by omega)))
  · exact (((hname _).put_outside (.inl (hin (by omega)))).put_outside
      (.inl (hin (by omega)))).put_outside (.inl (hin (by omega)))
  · exact ((hcert _).put_outside (.inl (hin (by omega)))).put_outside (.inl (hin (by omega)))
  · exact (hchars _).put_outside (.inl (by rw [Name.bytes_length]))
  · exact holds_put (holds_ofList n.certData) rfl

theorem holds_putNode_below {b : Buffer} {offset p : Nat} {l : List Byte} (h : Holds b offset l)
    (hbelow : offset + l.length ≤ p) (n : Node) : Holds (putNode b p n) offset l :=
  (((((h.put_outside (.inl hbelow)).put_outside (.inl (by omega))).put_outside
    (.inl (by omega))).put_outside (.inl (by omega))).put_outside (.inl (by omega))).put_outside
    (.inl (by omega))

/-- The node is added behind the others. -/
theorem isDb_withNode (mCertDbStore : Buffer) (h : IsDb data dataSize nodes)
    (hsmall : dataSize + n.size < 2 ^ 32) :
    IsDb (withNode mCertDbStore data dataSize n.variableName n.vendorGuid n.certData).1
      (withNode mCertDbStore data dataSize n.variableName n.vendorGuid n.certData).2
      (nodes ++ [n]) := by
  have hsize := h.size
  have hn : n.size = 28 + n.certData.length + 2 * n.variableName.length := rfl
  have hname : n.variableName.length % 2 ^ 32 = n.variableName.length :=
    Nat.mod_eq_of_lt (by omega)
  have hnode : insertedNodeSize n.variableName n.certData.length = n.size := by
    rw [insertedNodeSize, hname]
    omega
  have hsizes : areaSize (nodes ++ [n]) = areaSize nodes + n.size := areaSize_append nodes [n]
  have hnew : (dataSize + n.size) % 2 ^ 32 = 4 + areaSize (nodes ++ [n]) := by
    rw [hsizes, Nat.mod_eq_of_lt hsmall]
    omega
  simp only [withNode, hnode, hname, hnew]
  have hcopy := holds_put_part (b := mCertDbStore) (o := 0) (n := dataSize) h.area
    (by rw [areaBytes_length]; omega)
  rw [Nat.zero_add] at hcopy
  have hfirst : Holds (put (put mCertDbStore 0 dataSize data) 0 4
      (bytesOf (4 + areaSize (nodes ++ [n])))) 0 (field (4 + areaSize (nodes ++ [n])) 4) :=
    holds_put (holds_bytesOf _ 4) (field_length ..).symm
  refine isDb_of_parts rfl (by omega) (holds_putNode_below hfirst ?_ n) ?_
  · rw [field_length]
    omega
  · rw [areaBytes_append, holds_append, areaBytes_length]
    refine ⟨holds_putNode_below (hcopy.put_outside (.inr (Nat.le_refl 4))) ?_ n, ?_⟩
    · rw [areaBytes_length]
      omega
    · rw [← hsize, areaBytes, List.flatMap_cons, List.flatMap_nil, List.append_nil]
      exact holds_putNode _ dataSize n

end Database

end AuthVariable
