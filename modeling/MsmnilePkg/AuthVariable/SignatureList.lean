/-
  MsmnilePkg.AuthVariable.SignatureList

  AuthService.c: the signature lists of PK, KEK, db, dbx and dbt.

  A variable of these is `EFI_SIGNATURE_LIST`s, one behind the other, as their size fields
  say.  The sizes are read from the data, and the arithmetic on them is that of `UINTN`:
  `SignatureListSize - sizeof (EFI_SIGNATURE_LIST) - SignatureHeaderSize` wraps when a list
  is smaller than its header.  Every loop has at most `limit` turns.
-/

import MsmnilePkg.AuthVariable.Format
import MsmnilePkg.Lib.Loop

namespace AuthVariable

open Efi ByteMem LittleEndian RecordArea Loop

/-! ## The fields of a list -/

section Fields

variable (data : Buffer) (list : Nat)

/-- `SignatureType` -/
def signatureType : List Byte := slice data list 16

def signatureListSize : Nat := value data (list + 16) 4

def signatureHeaderSize : Nat := value data (list + 20) 4

def signatureSize : Nat := value data (list + 24) 4

/-- `SignatureListSize - sizeof (EFI_SIGNATURE_LIST) - SignatureHeaderSize` -/
def signaturesSize : Nat :=
  (signatureListSize data list + (2 ^ 64 - 28) + (2 ^ 64 - signatureHeaderSize data list)) % 2 ^ 64

/-- `CertCount`; a division by zero gives zero, as `UDIV` does. -/
def certCount : Nat := signaturesSize data list / signatureSize data list

/-- The first `EFI_SIGNATURE_DATA` of the list. -/
def firstCert : Nat := list + 28 + signatureHeaderSize data list

end Fields

/-! ## Checking the format -/

/-- `EFI_SIGNATURE_ITEM`; `none` stands for `((UINT32) ~0)`. -/
structure SignatureItem where
  sigType : Guid
  sigHeaderSize : Option Nat
  sigDataSize : Option Nat

def efiCertSha256Guid : Guid :=
  guid 0xc1c41626#32 0x504c#16 0x4092#16 0xac 0xa9 0x41 0xf9 0x36 0x93 0x43 0x28

def efiCertRsa2048Guid : Guid :=
  guid 0x3c5766e8#32 0x269c#16 0x4e34#16 0xaa 0x14 0xed 0x77 0x6e 0x85 0xb3 0xb6

def efiCertRsa2048Sha256Guid : Guid :=
  guid 0xe2b36190#32 0x879b#16 0x4a3d#16 0xad 0x8d 0xf2 0xe7 0xbb 0xa3 0x27 0x84

def efiCertSha1Guid : Guid :=
  guid 0x826ca512#32 0xcf10#16 0x4ac9#16 0xb1 0x87 0xbe 0x01 0x49 0x66 0x31 0xbd

def efiCertRsa2048Sha1Guid : Guid :=
  guid 0x67f8444f#32 0x8743#16 0x48f1#16 0xa3 0x28 0x1e 0xaa 0xb8 0x73 0x60 0x80

def efiCertX509Guid : Guid :=
  guid 0xa5c059a1#32 0x94e4#16 0x4aa7#16 0x87 0xb5 0xab 0x15 0x5c 0x2b 0xf0 0x72

def efiCertSha224Guid : Guid :=
  guid 0x0b6e5233#32 0xa65c#16 0x44c9#16 0x94 0x07 0xd9 0xab 0x83 0xbf 0xc8 0xbd

def efiCertSha384Guid : Guid :=
  guid 0xff3e5307#32 0x9fd0#16 0x48c9#16 0x85 0xf1 0x8a 0xd5 0x6c 0x70 0x1e 0x01

def efiCertSha512Guid : Guid :=
  guid 0x093e0fae#32 0xa6c4#16 0x4f50#16 0x9f 0x1b 0xd4 0x1e 0x2b 0x89 0xc1 0x9a

def efiCertX509Sha256Guid : Guid :=
  guid 0x3bd2a492#32 0x96c0#16 0x4079#16 0xb4 0x20 0xfc 0xf9 0x8e 0xf1 0x03 0xed

def efiCertX509Sha384Guid : Guid :=
  guid 0x7076876e#32 0x80c2#16 0x4ee6#16 0xaa 0xd2 0x28 0xb3 0x49 0xa6 0x86 0x5b

def efiCertX509Sha512Guid : Guid :=
  guid 0x446dbf63#32 0x2502#16 0x4cda#16 0xbc 0xfa 0x24 0x65 0xd2 0xb0 0xfe 0x9d

def mSupportSigItem : List SignatureItem := [
  ⟨efiCertSha256Guid, some 0, some 32⟩,
  ⟨efiCertRsa2048Guid, some 0, some 256⟩,
  ⟨efiCertRsa2048Sha256Guid, some 0, some 256⟩,
  ⟨efiCertSha1Guid, some 0, some 20⟩,
  ⟨efiCertRsa2048Sha1Guid, some 0, some 256⟩,
  ⟨efiCertX509Guid, some 0, none⟩,
  ⟨efiCertSha224Guid, some 0, some 28⟩,
  ⟨efiCertSha384Guid, some 0, some 48⟩,
  ⟨efiCertSha512Guid, some 0, some 64⟩,
  ⟨efiCertX509Sha256Guid, some 0, some 48⟩,
  ⟨efiCertX509Sha384Guid, some 0, some 64⟩,
  ⟨efiCertX509Sha512Guid, some 0, some 80⟩]

/-- What the check needs of the crypto library. -/
structure X509 where
  /-- `RsaNew` does not return `NULL`. -/
  rsaNew : Bool
  /-- `RsaGetPublicKeyFromX509`, which refuses a certificate larger than `INT_MAX`. -/
  rsaGetPublicKeyFromX509 : List Byte → Bool
  size_le : ∀ cert, rsaGetPublicKeyFromX509 cert = true → cert.length ≤ 2 ^ 31 - 1

/-- `SignatureSize - sizeof (EFI_GUID)` -/
def ownedSize (data : Buffer) (list : Nat) : Nat :=
  (signatureSize data list + (2 ^ 64 - 16)) % 2 ^ 64

/-- The checks of one list in `CheckSignatureListFormat`. -/
def listAccepted (x509 : X509) (data : Buffer) (list : Nat) : Bool :=
  match mSupportSigItem.find? fun item => signatureType data list = Guid.bytes item.sigType with
  -- Undefined signature type.
  | none => false
  | some item =>
      if item.sigDataSize.any (ownedSize data list ≠ ·) then false
      else if item.sigHeaderSize.any (signatureHeaderSize data list ≠ ·) then false
      else if signatureType data list = Guid.bytes efiCertX509Guid ∧
          (x509.rsaNew = false ∨ x509.rsaGetPublicKeyFromX509
            (slice data (firstCert data list + 16) (ownedSize data list)) = false) then false
      else signaturesSize data list % signatureSize data list = 0

/-- The loop of `CheckSignatureListFormat`: how far it gets, and `SigCount`. -/
def checkListsLoop (x509 : X509) (data : Buffer) :
    Nat → Nat → Nat × Nat → Option (Except Status (Nat × Nat))
  | 0, _, _ => none
  | limit + 1, list, (sigDataSize, sigCount) =>
      if 0 < sigDataSize ∧ signatureListSize data list ≤ sigDataSize then
        if listAccepted x509 data list then
          checkListsLoop x509 data limit (list + signatureListSize data list)
            (sigDataSize - signatureListSize data list, (sigCount + certCount data list) % 2 ^ 32)
        else some (.error .invalidParameter)
      else some (.ok (list, sigCount))

/-- What `CheckSignatureListFormat` does for PK, and for KEK, db, dbx and dbt. -/
def checkLists (limit : Nat) (x509 : X509) (isPk : Bool) (data : Buffer) (dataSize : Nat) :
    Option Status :=
  (checkListsLoop x509 data limit 0 (dataSize, 0)).map fun
    | .error status => status
    | .ok (list, sigCount) =>
        if list ≠ dataSize then .invalidParameter
        else if isPk ∧ 1 < sigCount then .invalidParameter
        else .success

/-! ## Filtering what is appended -/

/-- `IsNewCert`: the signature at `newCert` is in none of the lists of `data`. -/
def isNewCert (data newData : Buffer) (newCertList newCert : Nat) :
    Nat → Nat → Nat → Option Bool
  | 0, _, _ => none
  | limit + 1, list, size =>
      if 0 < size ∧ signatureListSize data list ≤ size then
        if signatureType data list = signatureType newData newCertList ∧
            signatureSize data list = signatureSize newData newCertList ∧
            (List.range (certCount data list)).any (fun k =>
              slice newData newCert (signatureSize data list)
                = slice data (firstCert data list + k * signatureSize data list)
                    (signatureSize data list)) then
          some false
        else
          isNewCert data newData newCertList newCert limit (list + signatureListSize data list)
            (size - signatureListSize data list)
      else some true

/-- `TempData`, `Tail` and `CopiedCount`. -/
structure Filtered where
  tempData : Buffer
  tail : Nat
  copiedCount : Nat

/-- A signature that is kept; the header of its list is copied before the first one. -/
def keepCert (newData : Buffer) (newCertList newCert : Nat) (f : Filtered) : Filtered :=
  let headerSize := 28 + signatureHeaderSize newData newCertList
  let f := if f.copiedCount = 0 then
      { f with
        tempData := put f.tempData f.tail headerSize (shift newData newCertList)
        tail := f.tail + headerSize }
    else f
  { tempData := put f.tempData f.tail (signatureSize newData newCertList) (shift newData newCert)
    tail := f.tail + signatureSize newData newCertList
    copiedCount := f.copiedCount + 1 }

/-- The turn of the loop over the signatures of a list. -/
def filterCert (limit : Nat) (data : Buffer) (dataSize : Nat) (newData : Buffer)
    (newCertList index : Nat) (f : Filtered) : Option Filtered :=
  let newCert := firstCert newData newCertList + index * signatureSize newData newCertList
  (isNewCert data newData newCertList newCert limit 0 dataSize).map fun isNew =>
    if isNew then keepCert newData newCertList newCert f else f

/-- `SignatureListSize` of the list that is kept is updated. -/
def updateListSize (newData : Buffer) (newCertList : Nat) (f : Filtered) : Filtered :=
  if f.copiedCount ≠ 0 then
    let size := 28 + signatureHeaderSize newData newCertList
      + f.copiedCount * signatureSize newData newCertList
    { f with tempData := put f.tempData (f.tail - size + 16) 4 (bytesOf size) }
  else f

/-- The loop over the lists of the new data. -/
def filterLists (limit : Nat) (data : Buffer) (dataSize : Nat) (newData : Buffer) :
    Nat → Nat → Nat × Buffer × Nat → Option (Buffer × Nat)
  | 0, _, _ => none
  | turns + 1, list, (newDataSize, tempData, tail) =>
      if 0 < newDataSize ∧ signatureListSize newData list ≤ newDataSize then
        (tryTurns (filterCert limit data dataSize newData list) (certCount newData list)
          ⟨tempData, tail, 0⟩).bind fun f =>
          let f := updateListSize newData list f
          filterLists limit data dataSize newData turns (list + signatureListSize newData list)
            (newDataSize - signatureListSize newData list, f.tempData, f.tail)
      else some (tempData, tail)

/-- `FilterSignatureList`; `scratch` is what `GetScratchBuffer` gives. -/
def filterSignatureList (limit : Nat) (scratch : Option Buffer) (data : Buffer) (dataSize : Nat)
    (newData : Buffer) (newDataSize : Nat) : Option (Status × Buffer × Nat) :=
  if newDataSize = 0 then some (.success, newData, newDataSize)
  else
    match scratch with
    | none => some (.outOfResources, newData, newDataSize)
    | some tempData =>
        (filterLists limit data dataSize newData limit 0 (newDataSize, tempData, 0)).map
          fun (tempData, tempDataSize) =>
            (.success, put newData 0 tempDataSize tempData, tempDataSize)

/-! ## Lists that are well formed -/

/-- `EFI_SIGNATURE_LIST`, with its header and its signatures behind it. -/
structure SigList where
  sigType : Guid
  header : List Byte
  sigSize : Nat
  sigs : List (List Byte)
  sized : ∀ sig ∈ sigs, sig.length = sigSize
  pos : 0 < sigSize
  small : sigSize < 2 ^ 32

def SigList.size (L : SigList) : Nat := 28 + L.header.length + L.sigs.length * L.sigSize

/-- What comes before the signatures, for a list of the given size. -/
def SigList.head (L : SigList) (size : Nat) : List Byte :=
  Guid.bytes L.sigType ++ (field size 4 ++ (field L.header.length 4 ++
    (field L.sigSize 4 ++ L.header)))

def SigList.bytes (L : SigList) : List Byte := L.head L.size ++ L.sigs.flatten

@[simp] theorem SigList.head_length (L : SigList) (size : Nat) :
    (L.head size).length = 28 + L.header.length := by
  simp only [SigList.head, List.length_append, Guid.bytes_length, field_length]
  omega

theorem flatten_length {sigs : List (List Byte)} {size : Nat}
    (hsized : ∀ sig ∈ sigs, sig.length = size) : sigs.flatten.length = sigs.length * size := by
  induction sigs with
  | nil => rw [List.flatten_nil, List.length_nil, List.length_nil, Nat.zero_mul]
  | cons sig sigs ih =>
      rw [List.flatten_cons, List.length_append, hsized sig List.mem_cons_self,
        ih fun s hs => hsized s (List.mem_cons_of_mem sig hs), List.length_cons, Nat.succ_mul,
        Nat.add_comm]

@[simp] theorem SigList.bytes_length (L : SigList) : L.bytes.length = L.size := by
  rw [SigList.bytes, List.length_append, SigList.head_length, flatten_length L.sized, SigList.size]

/-- Signature `k` of signatures that lie one behind the other. -/
theorem slice_of_flatten {b : Buffer} {size : Nat} : ∀ {sigs : List (List Byte)} {offset : Nat},
    Holds b offset sigs.flatten → (∀ sig ∈ sigs, sig.length = size) →
    ∀ {k : Nat} (hk : k < sigs.length), slice b (offset + k * size) size = sigs[k] := by
  intro sigs
  induction sigs with
  | nil => exact fun _ _ _ hk => absurd hk (Nat.not_lt_zero _)
  | cons sig sigs ih =>
      intro offset hheld hsized k hk
      rw [List.flatten_cons, holds_append] at hheld
      have hsig := hsized sig List.mem_cons_self
      cases k with
      | zero =>
          rw [Nat.zero_mul, List.getElem_cons_zero]
          exact hheld.1.slice_eq hsig.symm
      | succ k =>
          have hrest := ih hheld.2 (fun s hs => hsized s (List.mem_cons_of_mem sig hs))
            (Nat.lt_of_succ_lt_succ hk)
          rw [hsig, Nat.add_assoc, Nat.add_comm size, ← Nat.succ_mul] at hrest
          rwa [List.getElem_cons_succ]

/-- What is read of a list. -/
structure ListAt (data : Buffer) (list : Nat) (L : SigList) : Prop where
  sigType : signatureType data list = Guid.bytes L.sigType
  listSize : signatureListSize data list = L.size
  headerSize : signatureHeaderSize data list = L.header.length
  sigSize : signatureSize data list = L.sigSize
  head : Holds data list (L.head L.size)
  cert : ∀ {k : Nat} (hk : k < L.sigs.length),
    slice data (firstCert data list + k * L.sigSize) L.sigSize = L.sigs[k]

theorem listAt_of_holds {data : Buffer} {list : Nat} {L : SigList} (hsmall : L.size < 2 ^ 32)
    (h : Holds data list L.bytes) : ListAt data list L := by
  have hsize : L.size = 28 + L.header.length + L.sigs.length * L.sigSize := rfl
  rw [SigList.bytes, holds_append, SigList.head_length] at h
  obtain ⟨hhead, hsigs⟩ := h
  have hparts := hhead
  rw [SigList.head, holds_append, Guid.bytes_length, holds_append, field_length, holds_append,
    field_length, holds_append, field_length] at hparts
  obtain ⟨htype, hlist, hheader, hsig, -⟩ := hparts
  have hheaderSize : signatureHeaderSize data list = L.header.length := hheader.value (by omega)
  exact {
    sigType := htype.slice_eq (Guid.bytes_length L.sigType).symm
    listSize := hlist.value hsmall
    headerSize := hheaderSize
    sigSize := hsig.value L.small
    head := hhead
    cert := by
      intro k hk
      rw [firstCert, hheaderSize, Nat.add_assoc list]
      exact slice_of_flatten hsigs L.sized hk }

section ListAt

variable {data : Buffer} {list : Nat} {L : SigList}

/-- There is no wrap in a list that is well formed. -/
theorem ListAt.signaturesSize_eq (h : ListAt data list L) (hsmall : L.size < 2 ^ 32) :
    signaturesSize data list = L.sigs.length * L.sigSize := by
  have hsize : L.size = 28 + L.header.length + L.sigs.length * L.sigSize := rfl
  rw [signaturesSize, h.listSize, h.headerSize]
  omega

theorem ListAt.certCount_eq (h : ListAt data list L) (hsmall : L.size < 2 ^ 32) :
    certCount data list = L.sigs.length := by
  rw [certCount, h.signaturesSize_eq hsmall, h.sigSize, Nat.mul_div_cancel _ L.pos]

end ListAt

def listsBytes (lists : List SigList) : List Byte := lists.flatMap SigList.bytes

theorem listsBytes_cons (L : SigList) (lists : List SigList) :
    listsBytes (L :: lists) = L.bytes ++ listsBytes lists := rfl

theorem listsBytes_append (lists lists' : List SigList) :
    listsBytes (lists ++ lists') = listsBytes lists ++ listsBytes lists' := List.flatMap_append

/-- A buffer with the given lists. -/
structure IsLists (data : Buffer) (dataSize : Nat) (lists : List SigList) : Prop where
  size : dataSize = (listsBytes lists).length
  small : dataSize < 2 ^ 32
  held : Holds data 0 (listsBytes lists)

/-- The fields of a list are found in its bytes, whatever follows. -/
theorem SigList.bytes_inj {L L' : SigList} {rest rest' : List Byte} (hL : L.size < 2 ^ 32)
    (hL' : L'.size < 2 ^ 32) (h : L.bytes ++ rest = L'.bytes ++ rest') :
    L = L' ∧ rest = rest' := by
  have hheader : L.header.length < 2 ^ 32 := by rw [SigList.size] at hL; omega
  have hheader' : L'.header.length < 2 ^ 32 := by rw [SigList.size] at hL'; omega
  simp only [SigList.bytes, SigList.head, List.append_assoc] at h
  -- The fields of the header one by one.
  obtain ⟨htype, h⟩ := List.append_inj h (by simp)
  obtain ⟨hsize, h⟩ := List.append_inj h (by simp)
  obtain ⟨hlength, h⟩ := List.append_inj h (by simp)
  obtain ⟨hsigSize, h⟩ := List.append_inj h (by simp)
  replace hsize := field_inj hL hL' hsize
  replace hlength := field_inj hheader hheader' hlength
  replace hsigSize := field_inj L.small L'.small hsigSize
  obtain ⟨hheaders, h⟩ := List.append_inj h hlength
  -- So many signatures, of that size.
  have hcount : L.sigs.length = L'.sigs.length := by
    rw [SigList.size, SigList.size, hlength, hsigSize] at hsize
    exact Nat.eq_of_mul_eq_mul_right L'.pos (by omega)
  have hflatten := List.append_inj h (by
    rw [flatten_length L.sized, flatten_length L'.sized, hcount, hsigSize])
  have hsigs : L.sigs = L'.sigs := by
    refine List.eq_iff_flatten_eq.mpr ⟨hflatten.1, ?_⟩
    rw [List.map_eq_replicate_iff.mpr L.sized, List.map_eq_replicate_iff.mpr L'.sized, hcount,
      hsigSize]
  refine ⟨?_, hflatten.2⟩
  obtain ⟨_, _, _, _, _, _, _⟩ := L
  obtain ⟨_, _, _, _, _, _, _⟩ := L'
  cases Guid.bytes_inj htype
  cases hheaders
  cases hsigSize
  cases hsigs
  rfl

theorem listsBytes_inj : ∀ {lists lists' : List SigList}, (listsBytes lists).length < 2 ^ 32 →
    listsBytes lists = listsBytes lists' → lists = lists' := by
  intro lists
  induction lists with
  | nil =>
      intro lists' _ h
      cases lists' with
      | nil => rfl
      | cons L' lists' =>
          have hlength := congrArg List.length h
          rw [listsBytes_cons, List.length_append, L'.bytes_length, SigList.size] at hlength
          have hnil : (listsBytes []).length = 0 := rfl
          omega
  | cons L lists ih =>
      intro lists' hsmall h
      have hlength := congrArg List.length h
      cases lists' with
      | nil =>
          rw [listsBytes_cons, List.length_append, L.bytes_length, SigList.size] at hlength
          have hnil : (listsBytes []).length = 0 := rfl
          omega
      | cons L' lists' =>
          rw [hlength] at hsmall
          rw [listsBytes_cons, listsBytes_cons] at h
          rw [listsBytes_cons, listsBytes_cons, List.length_append, List.length_append,
            L.bytes_length, L'.bytes_length] at hlength
          rw [listsBytes_cons, List.length_append, L'.bytes_length] at hsmall
          obtain ⟨rfl, hrest⟩ := SigList.bytes_inj (by omega) (by omega) h
          rw [ih (by omega) hrest]

/-- There is one way to read the lists of a buffer. -/
theorem IsLists.unique {data : Buffer} {dataSize : Nat} {lists lists' : List SigList}
    (h : IsLists data dataSize lists) (h' : IsLists data dataSize lists') : lists = lists' := by
  refine listsBytes_inj (h.size ▸ h.small) ?_
  rw [← h.held.slice_eq h.size, ← h'.held.slice_eq h'.size]

/-! ## What the filter keeps -/

/-- The signature is in one of the lists. -/
def hasCert (lists : List SigList) (sigType : Guid) (sigSize : Nat) (sig : List Byte) : Bool :=
  lists.any fun L => L.sigType = sigType ∧ L.sigSize = sigSize ∧ sig ∈ L.sigs

/-- The list without the signatures that are in `old`. -/
def SigList.without (old : List SigList) (L : SigList) : SigList :=
  { L with
    sigs := L.sigs.filter fun sig => !hasCert old L.sigType L.sigSize sig
    sized := fun sig hsig => L.sized sig (List.mem_filter.mp hsig).1 }

/-- The new lists without those signatures, and without the lists that become empty. -/
def newLists (old new : List SigList) : List SigList :=
  (new.map (SigList.without old)).filter fun L => L.sigs ≠ []

section Search

variable {data newData : Buffer} {newCertList newCert : Nat} {L : SigList} {sig : List Byte}

/-- The comparison with one list. -/
theorem cert_any_iff {list : Nat} {O : SigList} (h : ListAt data list O)
    (hsmall : O.size < 2 ^ 32) (hnew : ListAt newData newCertList L)
    (hsig : slice newData newCert L.sigSize = sig) :
    (signatureType data list = signatureType newData newCertList ∧
      signatureSize data list = signatureSize newData newCertList ∧
      (List.range (certCount data list)).any (fun k =>
        slice newData newCert (signatureSize data list)
          = slice data (firstCert data list + k * signatureSize data list)
              (signatureSize data list)) = true)
      ↔ (O.sigType = L.sigType ∧ O.sigSize = L.sigSize ∧ sig ∈ O.sigs) := by
  rw [h.sigType, hnew.sigType, h.sigSize, hnew.sigSize, h.certCount_eq hsmall]
  refine and_congr ⟨Guid.bytes_inj, congrArg Guid.bytes⟩ (and_congr_right fun hsize => ?_)
  rw [hsize, hsig, List.any_eq_true, List.mem_iff_getElem]
  constructor
  · rintro ⟨k, hk, hsame⟩
    have hlt := List.mem_range.mp hk
    rw [decide_eq_true_eq, ← hsize, h.cert hlt] at hsame
    exact ⟨k, hlt, hsame.symm⟩
  · rintro ⟨k, hlt, hsame⟩
    refine ⟨k, List.mem_range.mpr hlt, ?_⟩
    rw [decide_eq_true_eq, ← hsize, h.cert hlt, hsame]

/-- The search goes over all lists of the old data, unless it finds the signature. -/
theorem isNewCert_eq (hnew : ListAt newData newCertList L)
    (hsig : slice newData newCert L.sigSize = sig) :
    ∀ {old : List SigList} {list limit : Nat}, Holds data list (listsBytes old) →
    (listsBytes old).length < 2 ^ 32 → old.length < limit →
    isNewCert data newData newCertList newCert limit list (listsBytes old).length
      = some (!hasCert old L.sigType L.sigSize sig) := by
  intro old
  induction old with
  | nil =>
      intro list limit _ _ hlimit
      cases limit with
      | zero => exact absurd hlimit (Nat.not_lt_zero _)
      | succ limit => rfl
  | cons O old ih =>
      intro list limit hheld hsmall hlimit
      rw [listsBytes_cons, holds_append, O.bytes_length] at hheld
      rw [listsBytes_cons, List.length_append, O.bytes_length] at hsmall ⊢
      have hpos : 28 ≤ O.size := by
        rw [SigList.size]
        omega
      have hO : ListAt data list O := listAt_of_holds (by omega) hheld.1
      cases limit with
      | zero => exact absurd hlimit (Nat.not_lt_zero _)
      | succ limit =>
          have hmatch := cert_any_iff hO (by omega) hnew hsig
          rw [isNewCert, if_pos (by rw [hO.listSize]; omega), hasCert, List.any_cons, ← hasCert]
          by_cases hfound : O.sigType = L.sigType ∧ O.sigSize = L.sigSize ∧ sig ∈ O.sigs
          · rw [if_pos (hmatch.mpr hfound), decide_eq_true hfound, Bool.true_or]
            rfl
          · rw [if_neg (mt hmatch.mp hfound), decide_eq_false hfound, Bool.false_or, hO.listSize,
              Nat.add_sub_cancel_left]
            exact ih hheld.2 (by omega) (Nat.lt_of_succ_lt_succ hlimit)

end Search

/-! ### The signatures of one list -/

/-- The temporary buffer after some signatures of a list, of which `kept` are kept. -/
structure Kept (initial : Buffer) (base : Nat) (L : SigList) (size : Nat)
    (kept : List (List Byte)) (f : Filtered) : Prop where
  count : f.copiedCount = kept.length
  below : ∀ i < base, f.tempData i = initial i
  empty : kept = [] → f.tail = base
  nonempty : kept ≠ [] → f.tail = base + (28 + L.header.length + kept.length * L.sigSize) ∧
    Holds f.tempData base (L.head size ++ kept.flatten)

section Keep

variable {data newData initial : Buffer} {dataSize newCertList newCert base limit : Nat}
  {L : SigList} {sig : List Byte} {kept : List (List Byte)} {f : Filtered}

theorem kept_keepCert (hnew : ListAt newData newCertList L)
    (hkept : ∀ s ∈ kept, s.length = L.sigSize) (hlength : sig.length = L.sigSize)
    (hsig : slice newData newCert L.sigSize = sig) (h : Kept initial base L L.size kept f) :
    Kept initial base L L.size (kept ++ [sig]) (keepCert newData newCertList newCert f) := by
  have hheld : Holds (shift newData newCert) 0 sig := by
    rw [holds_shift, Nat.add_zero, Holds, hlength]
    exact hsig
  have hhead : Holds (shift newData newCertList) 0 (L.head L.size) :=
    holds_shift.mpr hnew.head
  have hlen : (kept ++ [sig]).length = kept.length + 1 := by
    rw [List.length_append, List.length_singleton]
  have hflat : (kept ++ [sig]).flatten = kept.flatten ++ sig := by
    rw [List.flatten_append, List.flatten_singleton]
  by_cases hfirst : kept = []
  · -- The header is copied first.
    subst hfirst
    have hcount : f.copiedCount = 0 := h.count
    have htail := h.empty rfl
    simp only [keepCert, hcount, hnew.headerSize, hnew.sigSize, if_pos, htail]
    refine ⟨rfl, fun i hi => ?_, fun hnil => absurd hnil (by simp), fun _ => ⟨?_, ?_⟩⟩
    · show put (put f.tempData _ _ _) _ _ _ i = initial i
      rw [put_outside (by omega), put_outside (by omega)]
      exact h.below i hi
    · show base + (28 + L.header.length) + L.sigSize = _
      rw [hlen, List.length_nil, Nat.zero_add, Nat.one_mul]
      omega
    · rw [hflat, List.flatten_nil, List.nil_append, holds_append, L.head_length]
      refine ⟨(holds_put hhead (L.head_length _).symm).put_outside (.inl ?_),
        holds_put hheld hlength.symm⟩
      rw [L.head_length]
  · have hcount : f.copiedCount ≠ 0 := by
      rw [h.count]
      exact fun hzero => hfirst (List.eq_nil_of_length_eq_zero hzero)
    obtain ⟨htail, hbefore⟩ := h.nonempty hfirst
    have hbytes : (L.head L.size ++ kept.flatten).length
        = 28 + L.header.length + kept.length * L.sigSize := by
      rw [List.length_append, L.head_length, flatten_length hkept]
    simp only [keepCert, if_neg hcount, hnew.sigSize]
    refine ⟨?_, fun i hi => ?_, fun hnil => absurd hnil (by simp), fun _ => ⟨?_, ?_⟩⟩
    · rw [hlen, h.count]
    · show put f.tempData _ _ _ i = initial i
      rw [put_outside (by omega)]
      exact h.below i hi
    · show f.tail + L.sigSize = _
      rw [hlen, htail, Nat.succ_mul]
      omega
    · rw [hflat, ← List.append_assoc, holds_append, hbytes, ← htail]
      exact ⟨hbefore.put_outside (.inl (by rw [hbytes, htail])), holds_put hheld hlength.symm⟩

/-- The loop over the signatures keeps those that are not in the old lists. -/
theorem exists_filterCert {old : List SigList} (hold : IsLists data dataSize old)
    (hnew : ListAt newData newCertList L) (hlimit : old.length < limit) :
    ∃ f, tryTurns (filterCert limit data dataSize newData newCertList) L.sigs.length
        ⟨initial, base, 0⟩ = some f ∧ Kept initial base L L.size (L.without old).sigs f := by
  have hstart : Kept initial base L L.size [] ⟨initial, base, 0⟩ :=
    ⟨rfl, fun _ _ => rfl, fun _ => rfl, fun h => absurd rfl h⟩
  -- After `k` turns the first `k` signatures have been looked up.
  have hturn : ∀ k < L.sigs.length, ∀ f, Kept initial base L L.size
        ((L.sigs.take k).filter fun sig => !hasCert old L.sigType L.sigSize sig) f →
      ∃ f', filterCert limit data dataSize newData newCertList k f = some f' ∧
        Kept initial base L L.size
          ((L.sigs.take (k + 1)).filter fun sig => !hasCert old L.sigType L.sigSize sig) f' := by
    intro k hk f hkept
    have hsig : slice newData (firstCert newData newCertList
        + k * signatureSize newData newCertList) L.sigSize = L.sigs[k] := by
      rw [hnew.sigSize]
      exact hnew.cert hk
    have hfound := isNewCert_eq hnew hsig hold.held (by rw [← hold.size]; exact hold.small) hlimit
    rw [← hold.size] at hfound
    rw [filterCert, hfound]
    refine ⟨_, rfl, ?_⟩
    rw [List.take_succ_eq_append_getElem hk, List.filter_append]
    cases hhas : hasCert old L.sigType L.sigSize L.sigs[k] with
    | true =>
        rw [List.filter_singleton, hhas]
        simpa using hkept
    | false =>
        rw [List.filter_singleton, hhas]
        refine kept_keepCert hnew (fun s hs => ?_) (L.sized _ (List.getElem_mem hk)) hsig hkept
        exact L.sized s (List.mem_of_mem_take (List.mem_filter.mp hs).1)
  obtain ⟨f, hf, hkept⟩ := tryTurns_some (I := fun k f => Kept initial base L L.size
    ((L.sigs.take k).filter fun sig => !hasCert old L.sigType L.sigSize sig) f) hstart hturn
  rw [List.take_length] at hkept
  exact ⟨f, hf, hkept⟩

/-- The size field of the list that is kept is that of what is kept. -/
theorem kept_updateListSize (hnew : ListAt newData newCertList L)
    (h : Kept initial base L L.size kept f) :
    Kept initial base L (28 + L.header.length + kept.length * L.sigSize) kept
      (updateListSize newData newCertList f) := by
  by_cases hempty : kept = []
  · have hcount : f.copiedCount = 0 := by
      rw [h.count, hempty, List.length_nil]
    rw [updateListSize, if_neg (not_not_intro hcount)]
    exact ⟨h.count, h.below, h.empty, fun hne => absurd hempty hne⟩
  · have hcount : f.copiedCount ≠ 0 := by
      rw [h.count]
      exact fun hzero => hempty (List.eq_nil_of_length_eq_zero hzero)
    obtain ⟨htail, hheld⟩ := h.nonempty hempty
    have hfield : f.tail - (28 + L.header.length + kept.length * L.sigSize) + 16 = base + 16 := by
      omega
    rw [updateListSize, if_pos hcount]
    simp only [hnew.headerSize, hnew.sigSize, h.count, hfield]
    refine ⟨rfl, fun i hi => ?_, fun hnil => absurd hnil hempty, fun _ => ⟨htail, ?_⟩⟩
    · show put f.tempData _ _ _ i = initial i
      rw [put_outside (by omega)]
      exact h.below i hi
    · -- The fields around it stay.
      rw [SigList.head, List.append_assoc, holds_append, Guid.bytes_length, List.append_assoc,
        holds_append, field_length] at hheld ⊢
      refine ⟨hheld.1.put_outside (.inl ?_), holds_put (holds_bytesOf _ 4) (field_length ..).symm,
        hheld.2.2.put_outside (.inr ?_)⟩
      · rw [Guid.bytes_length]
      · omega

end Keep

/-! ### All lists -/

section Lists

variable {data newData scratch : Buffer} {dataSize newDataSize limit : Nat}
  {old new : List SigList}

theorem newLists_append (old new new' : List SigList) :
    newLists old (new ++ new') = newLists old new ++ newLists old new' := by
  rw [newLists, List.map_append, List.filter_append]
  rfl

/-- What is known after the lists `done`, at the offset behind them. -/
structure FilteredLists (old : List SigList) (newDataSize : Nat) (done : List SigList)
    (offset : Nat) (s : Nat × Buffer × Nat) : Prop where
  rest : s.1 = newDataSize - offset
  held : Holds s.2.1 0 (listsBytes (newLists old done))
  tail : s.2.2 = (listsBytes (newLists old done)).length

/-- What was filtered so far, with the list that is kept behind it. -/
theorem filteredLists_add {L : SigList} {done : List SigList} {offset rest tail : Nat}
    {tempData : Buffer} {f : Filtered} (hs : FilteredLists old newDataSize done offset
      (rest, tempData, tail))
    (h : Kept tempData tail L (28 + L.header.length + (L.without old).sigs.length * L.sigSize)
      (L.without old).sigs f) :
    FilteredLists old newDataSize (done ++ [L]) (offset + L.size)
      (rest - L.size, f.tempData, f.tail) := by
  obtain ⟨hrest, hout, htail⟩ := hs
  simp only at hrest hout htail
  have hbelow : Holds f.tempData 0 (listsBytes (newLists old done)) := by
    refine hout.move fun i hi => ?_
    rw [Nat.zero_add]
    exact h.below i (by omega)
  have hsplit := newLists_append old done [L]
  by_cases hempty : (L.without old).sigs = []
  · -- Nothing of the list is kept.
    have hlast : newLists old [L] = [] := by simp [newLists, hempty]
    rw [hlast, List.append_nil] at hsplit
    refine ⟨by simp only; omega, ?_, ?_⟩
    · rw [hsplit]
      exact hbelow
    · rw [hsplit, ← htail]
      exact h.empty hempty
  · have hlast : newLists old [L] = [L.without old] := by simp [newLists, hempty]
    obtain ⟨hend, hheld⟩ := h.nonempty hempty
    have hbytes : listsBytes [L.without old]
        = L.head (28 + L.header.length + (L.without old).sigs.length * L.sigSize)
          ++ (L.without old).sigs.flatten := List.append_nil _
    rw [hlast] at hsplit
    refine ⟨by simp only; omega, ?_, ?_⟩
    · rw [hsplit, listsBytes_append, holds_append, Nat.zero_add, ← htail, hbytes]
      exact ⟨hbelow, hheld⟩
    · rw [hsplit, listsBytes_append, List.length_append, ← htail, hbytes, List.length_append,
        L.head_length, flatten_length (L.without old).sized, hend]
      rfl

/-- A turn of the loop over the new lists. -/
theorem filterLists_turn (hold : IsLists data dataSize old) (hlimit : old.length < limit)
    {L : SigList} {done : List SigList} {offset : Nat} {s : Nat × Buffer × Nat}
    (hsmall : L.size < 2 ^ 32) (hs : FilteredLists old newDataSize done offset s)
    (hheld : Holds newData offset L.bytes) (hend : offset + L.bytes.length ≤ newDataSize) :
    ∃ s', FilteredLists old newDataSize (done ++ [L]) (offset + L.bytes.length) s' ∧
      ∀ turns, filterLists limit data dataSize newData (turns + 1) offset s
        = filterLists limit data dataSize newData turns (offset + L.bytes.length) s' := by
  obtain ⟨rest, tempData, tail⟩ := s
  obtain ⟨hrest, hout, htail⟩ := hs
  simp only at hrest hout htail
  rw [L.bytes_length] at hend ⊢
  have hpos : 28 ≤ L.size := by
    rw [SigList.size]
    omega
  have hnew : ListAt newData offset L := listAt_of_holds hsmall hheld
  obtain ⟨f, hf, hkept⟩ := exists_filterCert hold hnew hlimit
  have hupdated := kept_updateListSize hnew hkept
  refine ⟨(rest - L.size, (updateListSize newData offset f).tempData,
    (updateListSize newData offset f).tail), filteredLists_add ⟨hrest, hout, htail⟩ hupdated,
    fun turns => ?_⟩
  rw [filterLists, if_pos (by rw [hnew.listSize]; omega), hnew.certCount_eq hsmall, hf,
    Option.bind_some, hnew.listSize]

theorem listsBytes_length_pos {lists : List SigList} (h : lists ≠ []) :
    0 < (listsBytes lists).length := by
  cases lists with
  | nil => exact absurd rfl h
  | cons L lists =>
      rw [listsBytes_cons, List.length_append, L.bytes_length, SigList.size]
      omega

/-- The filter keeps of the new lists what is not in the old ones, as lists again. -/
theorem filterSignatureList_eq (scratch : Buffer) (hold : IsLists data dataSize old)
    (hnew : IsLists newData newDataSize new) (holds : old.length < limit)
    (hlimit : new.length < limit) :
    ∃ kept, filterSignatureList limit (some scratch) data dataSize newData newDataSize
        = some (.success, kept, (listsBytes (newLists old new)).length) ∧
      Holds kept 0 (listsBytes (newLists old new)) := by
  by_cases hempty : newDataSize = 0
  · -- No data: there are no lists.
    have hnone : new = [] := by
      by_contra hsome
      have hpos := listsBytes_length_pos hsome
      rw [← hnew.size, hempty] at hpos
      exact absurd hpos (Nat.lt_irrefl 0)
    subst hnone
    refine ⟨newData, ?_, holds_nil _ _⟩
    rw [filterSignatureList, if_pos hempty, hempty]
    rfl
  · obtain ⟨turns, hturns⟩ : ∃ turns, limit = (turns + 1) + new.length :=
      ⟨limit - new.length - 1, by omega⟩
    have hstart : FilteredLists old newDataSize [] 0 (newDataSize, scratch, 0) :=
      ⟨rfl, holds_nil _ _, rfl⟩
    have hsize := hnew.size
    have hsmall := hnew.small
    obtain ⟨s, hs, hloop⟩ := walk_invariant (filterLists limit data dataSize newData)
      (FilteredLists old newDataSize) (turns + 1) newDataSize [] _
      (fun L _ done o s hs hheld hend =>
        filterLists_turn hold holds (by rw [L.bytes_length] at hend; omega) hs hheld hend) hstart
      hnew.held (by rw [← listsBytes, ← hsize, Nat.zero_add])
    obtain ⟨rest, tempData, tail⟩ := s
    obtain ⟨hrest, hheld, htail⟩ := hs
    rw [List.nil_append] at hheld htail
    rw [← listsBytes, ← hsize, Nat.zero_add] at hrest hloop
    simp only at hrest hheld htail
    -- Behind the last list there is nothing left.
    have hleave : filterLists limit data dataSize newData limit 0 (newDataSize, scratch, 0)
        = some (tempData, tail) := by
      rw [← hturns] at hloop
      rw [hloop, filterLists, if_neg (by omega)]
    refine ⟨put newData 0 tail tempData, ?_, holds_put hheld htail⟩
    rw [filterSignatureList, if_neg hempty]
    simp only [hleave, Option.map_some, htail]

end Lists

/-! ## What the check accepts -/

/-- A list of a type that is known, with the sizes that go with it, the first certificate
    of which is `cert`. -/
structure Supported (x509 : X509) (L : SigList) (cert : List Byte) : Prop where
  item : ∃ item ∈ mSupportSigItem, item.sigType = L.sigType ∧
    ∀ n, item.sigDataSize = some n → L.sigSize = n + 16
  header : L.header = []
  size : 16 ≤ L.sigSize
  x509 : L.sigType = efiCertX509Guid →
    x509.rsaNew = true ∧ x509.rsaGetPublicKeyFromX509 cert = true

/-- Lists that lie at `list`, all of them supported. -/
def AllSupported (x509 : X509) (data : Buffer) : Nat → List SigList → Prop
  | _, [] => True
  | list, L :: lists =>
      Supported x509 L (slice data (list + 28 + 16) (L.sigSize - 16)) ∧
        AllSupported x509 data (list + L.size) lists

/-- A place where the loop may look for a list. -/
inductive Boundary (data : Buffer) : Nat → Prop where
  | first : Boundary data 0
  | next {list : Nat} : Boundary data list → Boundary data (list + signatureListSize data list)

section Check

variable {x509 : X509} {data : Buffer} {list : Nat} {L : SigList}

theorem sigType_inj : (mSupportSigItem.map SignatureItem.sigType).Nodup := by decide

theorem sigHeaderSize_eq : ∀ item ∈ mSupportSigItem, item.sigHeaderSize = some 0 := by
  intro item hitem
  simp only [mSupportSigItem, List.mem_cons, List.not_mem_nil, or_false] at hitem
  rcases hitem with rfl | rfl | rfl | rfl | rfl | rfl | rfl | rfl | rfl | rfl | rfl | rfl <;> rfl

/-- Only the size of an X.509 certificate is open. -/
theorem sigDataSize_or_x509 : ∀ item ∈ mSupportSigItem,
    (∃ n, item.sigDataSize = some n ∧ n < 2 ^ 32) ∨ item.sigType = efiCertX509Guid := by
  intro item hitem
  simp only [mSupportSigItem, List.mem_cons, List.not_mem_nil, or_false] at hitem
  rcases hitem with rfl | rfl | rfl | rfl | rfl | rfl | rfl | rfl | rfl | rfl | rfl | rfl <;>
    first | exact Or.inr rfl | exact Or.inl ⟨_, rfl, by decide⟩

/-- The checks that follow once the item is known, none of which may fail. -/
theorem checks_iff (wanted : Option Nat) (owned header rest : Nat) (isX509 : Prop)
    [Decidable isX509] (new parsed : Bool) :
    (if wanted.any (owned ≠ ·) then false
      else if (some 0).any (header ≠ ·) then false
      else if isX509 ∧ (new = false ∨ parsed = false) then false
      else decide (rest = 0)) = true ↔
    (∀ n, wanted = some n → owned = n) ∧ header = 0 ∧
      (isX509 → new = true ∧ parsed = true) ∧ rest = 0 := by
  cases wanted <;> cases new <;> cases parsed <;> simp

/-- The checks of one list pass for one item of the table. -/
theorem listAccepted_iff : listAccepted x509 data list = true ↔
    ∃ item ∈ mSupportSigItem, signatureType data list = Guid.bytes item.sigType ∧
      (∀ n, item.sigDataSize = some n → ownedSize data list = n) ∧
      signatureHeaderSize data list = 0 ∧
      (signatureType data list = Guid.bytes efiCertX509Guid → x509.rsaNew = true ∧
        x509.rsaGetPublicKeyFromX509
          (slice data (firstCert data list + 16) (ownedSize data list)) = true) ∧
      signaturesSize data list % signatureSize data list = 0 := by
  rw [listAccepted]
  cases hfind : mSupportSigItem.find?
      fun item => signatureType data list = Guid.bytes item.sigType with
  | none =>
      refine ⟨fun h => absurd h Bool.false_ne_true, ?_⟩
      rintro ⟨item, hmem, htype, -⟩
      have hnone := List.find?_eq_none.mp hfind item hmem
      exact absurd (decide_eq_true htype) hnone
  | some item =>
      have hmem := List.mem_of_find?_eq_some hfind
      have htype : signatureType data list = Guid.bytes item.sigType := by
        have hprop := List.find?_some hfind
        simpa only [decide_eq_true_eq] using hprop
      simp only [sigHeaderSize_eq item hmem]
      refine (checks_iff ..).trans ⟨fun h => ⟨item, hmem, htype, h⟩, ?_⟩
      rintro ⟨item', hmem', htype', h⟩
      -- No two items have the same type.
      have hsame : item' = item := List.inj_on_of_nodup_map sigType_inj hmem' hmem
        (Guid.bytes_inj (htype'.symm.trans htype))
      exact hsame ▸ h

/-- A supported list passes. -/
theorem listAccepted_of_supported (h : ListAt data list L) (hsmall : L.size < 2 ^ 32)
    (hL : Supported x509 L (slice data (list + 28 + 16) (L.sigSize - 16))) :
    listAccepted x509 data list = true := by
  obtain ⟨item, hmem, htype, hdata⟩ := hL.item
  have hlt := L.small
  have hle := hL.size
  have howned : ownedSize data list = L.sigSize - 16 := by
    rw [ownedSize, h.sigSize]
    omega
  have hheader : signatureHeaderSize data list = 0 := by
    rw [h.headerSize, hL.header, List.length_nil]
  refine listAccepted_iff.mpr ⟨item, hmem, ?_, fun n hn => ?_, hheader, fun hx509 => ?_, ?_⟩
  · rw [h.sigType, htype]
  · rw [howned, hdata n hn, Nat.add_sub_cancel]
  · rw [h.sigType] at hx509
    rw [firstCert, hheader, howned, Nat.add_zero]
    exact hL.x509 (Guid.bytes_inj hx509)
  · rw [h.signaturesSize_eq hsmall, h.sigSize, Nat.mul_mod_left]

/-- A list that passes is one, when its size is not below that of the header. -/
theorem exists_list_of_accepted (h : listAccepted x509 data list = true)
    (hplain : 28 ≤ signatureListSize data list) :
    ∃ L : SigList, Holds data list L.bytes ∧ L.size = signatureListSize data list ∧
      L.sigs.length = certCount data list ∧
      Supported x509 L (slice data (list + 28 + 16) (L.sigSize - 16)) := by
  obtain ⟨item, hmem, htype, hdata, hheader, hx509, hrest⟩ := listAccepted_iff.mp h
  have hlistlt : signatureListSize data list < 2 ^ 32 := value_lt data (list + 16) 4
  have hsiglt : signatureSize data list < 2 ^ 32 := value_lt data (list + 24) 4
  have hsize : signaturesSize data list = signatureListSize data list - 28 := by
    rw [signaturesSize, hheader]
    omega
  -- The size of the signature data does not wrap below zero.
  have howned : 16 ≤ signatureSize data list := by
    by_contra hsmall
    have hwrap : ownedSize data list = signatureSize data list + (2 ^ 64 - 16) :=
      Nat.mod_eq_of_lt (by omega)
    rcases sigDataSize_or_x509 item hmem with ⟨n, hn, hlt⟩ | hguid
    · have hn := hdata n hn
      omega
    · have hlength := x509.size_le _ (hx509 (by rw [htype, hguid])).2
      rw [slice_length] at hlength
      omega
  have hdataSize : ownedSize data list = signatureSize data list - 16 := by
    rw [ownedSize]
    omega
  have hcount : certCount data list * signatureSize data list
      = signatureListSize data list - 28 := by
    rw [certCount, Nat.div_mul_cancel (Nat.dvd_of_mod_eq_zero hrest), hsize]
  let L : SigList := {
    sigType := item.sigType
    header := []
    sigSize := signatureSize data list
    sigs := (List.range (certCount data list)).map fun k =>
      slice data (list + 28 + k * signatureSize data list) (signatureSize data list)
    sized := by
      intro sig hsig
      obtain ⟨k, -, rfl⟩ := List.mem_map.mp hsig
      exact slice_length ..
    pos := by omega
    small := hsiglt }
  have hsigs : L.sigs.length = certCount data list := by
    rw [List.length_map, List.length_range]
  have hLsize : L.size = signatureListSize data list := by
    rw [SigList.size, hsigs, List.length_nil, hcount]
    omega
  refine ⟨L, ?_, hLsize, hsigs, ⟨item, hmem, rfl, fun n hn => ?_⟩, rfl, howned, fun hguid => ?_⟩
  · -- The fields are the bytes that were read.
    rw [SigList.bytes, hLsize, holds_append, SigList.head, holds_append, holds_append, holds_append,
      holds_append, Guid.bytes_length, field_length, field_length, field_length]
    refine ⟨⟨?_, holds_value data (list + 16) 4, ?_, holds_value data (list + 24) 4,
      holds_nil _ _⟩, ?_⟩
    · rw [Holds, Guid.bytes_length, ← htype]
      rfl
    · have hfield := holds_value data (list + 20) 4
      rwa [show value data (list + 20) 4 = 0 from hheader] at hfield
    · rw [List.length_append, List.length_append, List.length_append, List.length_append,
        Guid.bytes_length, field_length, field_length, field_length, List.length_nil,
        show L.sigs.flatten = slice data (list + 28)
          (certCount data list * signatureSize data list) from slices_flatten ..]
      exact holds_slice ..
  · show signatureSize data list = n + 16
    rw [← hdata n hn, hdataSize]
    omega
  · have hcert := hx509 (by rw [htype]; exact congrArg Guid.bytes hguid)
    rwa [hdataSize, firstCert, hheader, Nat.add_zero] at hcert

/-- The signatures of all lists. -/
def certsOf (lists : List SigList) : Nat := (lists.map fun L => L.sigs.length).sum

theorem certsOf_le (lists : List SigList) : certsOf lists ≤ (listsBytes lists).length := by
  induction lists with
  | nil => exact Nat.le_refl 0
  | cons L lists ih =>
      have hsigs : L.sigs.length ≤ L.sigs.length * L.sigSize := Nat.le_mul_of_pos_right _ L.pos
      rw [listsBytes_cons, List.length_append, L.bytes_length, SigList.size]
      show L.sigs.length + certsOf lists ≤ _
      omega

/-- The loop goes through lists that are supported. -/
theorem checkListsLoop_of_supported : ∀ {lists : List SigList} {list limit count : Nat},
    Holds data list (listsBytes lists) → (listsBytes lists).length < 2 ^ 32 →
    AllSupported x509 data list lists → count + certsOf lists < 2 ^ 32 → lists.length < limit →
    checkListsLoop x509 data limit list ((listsBytes lists).length, count)
      = some (.ok (list + (listsBytes lists).length, count + certsOf lists)) := by
  intro lists
  induction lists with
  | nil =>
      intro list limit count _ _ _ _ hlimit
      obtain ⟨turns, rfl⟩ := Nat.exists_eq_succ_of_ne_zero (Nat.pos_iff_ne_zero.mp hlimit)
      rfl
  | cons L lists ih =>
      intro list limit count hheld hsmall hall hcount hlimit
      obtain ⟨turns, rfl⟩ := Nat.exists_eq_succ_of_ne_zero (Nat.ne_zero_of_lt hlimit)
      obtain ⟨hL, hrest⟩ := hall
      rw [listsBytes_cons, holds_append, L.bytes_length] at hheld
      rw [listsBytes_cons, List.length_append, L.bytes_length] at hsmall ⊢
      have hcerts : certsOf (L :: lists) = L.sigs.length + certsOf lists := rfl
      have hat : ListAt data list L := listAt_of_holds (by omega) hheld.1
      have hpos : 28 ≤ L.size := by
        rw [SigList.size]
        omega
      rw [checkListsLoop, if_pos (by rw [hat.listSize]; omega),
        if_pos (listAccepted_of_supported hat (by omega) hL), hat.listSize,
        hat.certCount_eq (by omega), Nat.add_sub_cancel_left, Nat.mod_eq_of_lt (by omega),
        ih hheld.2 (by omega) hrest (by omega) (Nat.lt_of_succ_lt_succ hlimit), hcerts,
        Nat.add_assoc, Nat.add_assoc]

/-- What the loop has gone through to the end of the data is lists. -/
theorem exists_lists_of_checkListsLoop {dataSize : Nat}
    (hplain : ∀ list < dataSize, Boundary data list → 28 ≤ signatureListSize data list) :
    ∀ {limit list rest count sigCount : Nat}, Boundary data list → list + rest = dataSize →
    count < 2 ^ 32 →
    checkListsLoop x509 data limit list (rest, count) = some (.ok (dataSize, sigCount)) →
    ∃ lists, Holds data list (listsBytes lists) ∧ (listsBytes lists).length = rest ∧
      AllSupported x509 data list lists ∧ sigCount = (count + certsOf lists) % 2 ^ 32 := by
  intro limit
  induction limit with
  | zero =>
      intro list rest count sigCount _ _ _ h
      exact absurd h (by simp [checkListsLoop])
  | succ limit ih =>
      intro list rest count sigCount hboundary hsum hlt h
      rw [checkListsLoop] at h
      split at h
      · rename_i hturn
        split at h
        · -- One more list, and those that follow it.
          rename_i haccepted
          have hsize := hplain list (by omega) hboundary
          obtain ⟨L, hL, hLsize, hcount, hsupported⟩ := exists_list_of_accepted haccepted hsize
          obtain ⟨lists, hheld, hlength, hall, hsig⟩ := ih hboundary.next (by omega)
            (Nat.mod_lt _ (by omega)) h
          refine ⟨L :: lists, ?_, ?_, ⟨hsupported, ?_⟩, ?_⟩
          · rw [listsBytes_cons, holds_append, L.bytes_length, hLsize]
            exact ⟨hL, hheld⟩
          · rw [listsBytes_cons, List.length_append, L.bytes_length, hLsize, hlength]
            omega
          · rw [hLsize]
            exact hall
          · rw [hsig, Nat.mod_add_mod, ← hcount, Nat.add_assoc]
            rfl
        · exact absurd h (by simp)
      · -- The loop ends here, so this is the end of the data.
        simp only [Option.some.injEq, Except.ok.injEq, Prod.mk.injEq] at h
        refine ⟨[], holds_nil _ _, ?_, trivial, ?_⟩
        · show 0 = rest
          omega
        · rw [← h.2]
          exact (Nat.mod_eq_of_lt hlt).symm

theorem checkListsLoop_error {status : Status} : ∀ {limit list : Nat} {s : Nat × Nat},
    checkListsLoop x509 data limit list s = some (.error status) →
    status = .invalidParameter := by
  intro limit
  induction limit with
  | zero => exact fun h => absurd h (by simp [checkListsLoop])
  | succ limit ih =>
      intro list s h
      rw [checkListsLoop] at h
      split at h
      · split at h
        · exact ih h
        · simpa using h.symm
      · exact absurd h (by simp)

/-- The check succeeds when the loop gets to the end of the data. -/
theorem checkLists_success {isPk : Bool} {limit dataSize : Nat} :
    checkLists limit x509 isPk data dataSize = some .success ↔
      ∃ sigCount, checkListsLoop x509 data limit 0 (dataSize, 0) = some (.ok (dataSize, sigCount)) ∧
        (isPk = true → sigCount ≤ 1) := by
  rw [checkLists]
  cases hloop : checkListsLoop x509 data limit 0 (dataSize, 0) with
  | none => simp
  | some result =>
      cases result with
      | error status =>
          have hstatus := checkListsLoop_error hloop
          simp [hstatus]
      | ok result =>
          obtain ⟨list, sigCount⟩ := result
          by_cases hend : list = dataSize
          · subst hend
            cases isPk with
            | false => simp
            | true =>
                by_cases hmany : 1 < sigCount
                · simp [hmany]
                · simp [hmany, Nat.le_of_not_lt hmany]
          · simp [hend]

end Check

/-- The check accepts the data of lists that are supported, for PK at most one signature, and
    nothing else, unless it comes to a list with a size field below the size of its header. -/
theorem checkLists_iff (x509 : X509) (isPk : Bool) (data : Buffer) {dataSize : Nat}
    (hsmall : dataSize < 2 ^ 32)
    (hplain : ∀ list < dataSize, Boundary data list → 28 ≤ signatureListSize data list) :
    (∃ limit, checkLists limit x509 isPk data dataSize = some .success) ↔
      ∃ lists, IsLists data dataSize lists ∧ AllSupported x509 data 0 lists ∧
        (isPk = true → certsOf lists ≤ 1) := by
  constructor
  · rintro ⟨limit, h⟩
    obtain ⟨sigCount, hloop, hpk⟩ := checkLists_success.mp h
    obtain ⟨lists, hheld, hlength, hall, hcount⟩ := exists_lists_of_checkListsLoop hplain .first
      (Nat.zero_add dataSize) (by omega) hloop
    have hcerts := certsOf_le lists
    rw [Nat.zero_add, Nat.mod_eq_of_lt (by omega)] at hcount
    exact ⟨lists, ⟨hlength.symm, hsmall, hheld⟩, hall, fun h => hcount ▸ hpk h⟩
  · rintro ⟨lists, hlists, hall, hpk⟩
    have hcerts := certsOf_le lists
    have hsize := hlists.size
    have hloop := checkListsLoop_of_supported hlists.held (by omega) hall
      (show 0 + certsOf lists < 2 ^ 32 by omega) (Nat.lt_succ_self _)
    rw [Nat.zero_add, ← hsize, Nat.zero_add] at hloop
    exact ⟨lists.length + 1, checkLists_success.mpr ⟨certsOf lists, hloop, hpk⟩⟩

/-! ### A list of one hash -/

/-- No certificate is needed. -/
def noX509 : X509 := ⟨false, fun _ => false, fun _ h => absurd h Bool.false_ne_true⟩

def hashList : List Byte :=
  Guid.bytes efiCertSha256Guid ++ field 76 4 ++ field 0 4 ++ field 48 4 ++ List.replicate 48 0x11

theorem hashList_boundary {list : Nat} (h : Boundary (ofList hashList) list) :
    list = 0 ∨ list = 76 := by
  induction h with
  | first => exact .inl rfl
  | next _ ih =>
      rcases ih with rfl | rfl
      · exact .inr (by decide)
      · exact .inr (by decide)

theorem checkLists_iff_hashList :
    ∃ lists, IsLists (ofList hashList) 76 lists ∧ AllSupported noX509 (ofList hashList) 0 lists ∧
      (false = true → certsOf lists ≤ 1) :=
  (checkLists_iff noX509 false (ofList hashList) (by decide) fun list hlt h => by
    rcases hashList_boundary h with rfl | rfl
    · decide
    · exact absurd hlt (Nat.lt_irrefl 76)).mp ⟨2, by decide +kernel⟩

/-- A size field below the size of the header: the size of the signatures wraps. -/
example : checkLists 2 noX509 false
    (ofList (Guid.bytes efiCertSha256Guid ++ field 12 4 ++ field 0 4 ++ field 48 4)) 12
      = some .success := by decide +kernel

end AuthVariable
