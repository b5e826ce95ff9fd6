/-
  MsmnilePkg.AuthVariable.CertDbCalls

  AuthService.c: the certificates of common authenticated variables, in the variables
  "certdb" and "certdbv".

  A certificate is the digest of the signer's common name and of the top-level certificate.
  It is inserted before its variable is created and deleted after it, and `CleanCertsFromDb`
  takes out what is left over when the system breaks down in between.
-/

import MsmnilePkg.AuthVariable.CertDb
import MsmnilePkg.AuthVariable.Services
import Mathlib.Data.List.TakeWhile

namespace AuthVariable

open Efi ByteMem LittleEndian RecordArea

/-- `EFI_HASH_INFO` -/
structure HashInfo where
  hashSize : Nat
  oidValue : List Byte

def mSha256OidValue : List Byte := [0x60, 0x86, 0x48, 0x01, 0x65, 0x03, 0x04, 0x02, 0x01]
def mSha384OidValue : List Byte := [0x60, 0x86, 0x48, 0x01, 0x65, 0x03, 0x04, 0x02, 0x02]
def mSha512OidValue : List Byte := [0x60, 0x86, 0x48, 0x01, 0x65, 0x03, 0x04, 0x02, 0x03]

def mHashInfo : List HashInfo :=
  [⟨32, mSha256OidValue⟩, ⟨48, mSha384OidValue⟩, ⟨64, mSha512OidValue⟩]

section Calls

variable {V : VariableDriver} (p : Platform)

/-- `CalculatePrivAuthVarSignChainSHADigest` -/
def calculatePrivAuthVarSignChainSHADigest (hashAlgId : Nat) (signerCert topLevelCert : List Byte) :
    Except Status (List Byte) :=
  if mHashInfo.length ≤ hashAlgId then .error efiAborted
  else
    match p.x509GetCommonName signerCert with
    | none => .error efiAborted
    | some certCommonName =>
        match p.x509GetTBSCert topLevelCert with
        | none => .error efiAborted
        | some tbsCert =>
            match p.hash hashAlgId (certCommonName ++ tbsCert) with
            | none => .error efiAborted
            | some shaDigest => .ok shaDigest

/-- `DbName` -/
def dbKey (attributes : Attributes) : Key :=
  if attributes.has efiVariableNonVolatile then certDbKey else certDbVolatileKey

/-- `VarAttr` -/
def dbAttributes (attributes : Attributes) : Attributes :=
  if attributes.has efiVariableNonVolatile then
    efiVariableNonVolatile ||| efiVariableRuntimeAccess ||| efiVariableBootserviceAccess |||
      efiVariableTimeBasedAuthenticatedWriteAccess
  else
    efiVariableRuntimeAccess ||| efiVariableBootserviceAccess |||
      efiVariableTimeBasedAuthenticatedWriteAccess

/-- `GetCertsFromDb` -/
def getCertsFromDb (s : State V) (key : Key) (attributes : Attributes) :
    Option (Except Status (List Byte)) :=
  match s.find (dbKey attributes) with
  | none => some (.error .notFound)
  | some db =>
      if db.dataSize = 0 then some (.error .notFound)
      else
        (findCertsFromDb p.limit key.variableName key.vendorGuid db.data db.dataSize).map fun
          | .error status => .error status
          | .ok f => .ok (slice db.data f.certOffset f.certDataSize)

/-- The new database, from `mCertDbStore`, is set. -/
def setDb (s : State V) (attributes : Attributes) (newCertDb : Buffer × Nat) : Status × State V :=
  update { s with mCertDbStore := newCertDb.1 } {
    key := dbKey attributes
    data := newCertDb.1
    dataSize := newCertDb.2
    attributes := dbAttributes attributes
    timeStamp := none }

/-- `DeleteCertsFromDb` -/
def deleteCertsFromDb (s : State V) (key : Key) (attributes : Attributes) :
    Option (Status × State V) :=
  match s.find (dbKey attributes) with
  | none => some (.notFound, s)
  | some db =>
      if db.dataSize = 0 then some (.notFound, s)
      -- There is no certs in "certdb" or "certdbv".
      else if db.dataSize = 4 then some (.success, s)
      else
        (findCertsFromDb p.limit key.variableName key.vendorGuid db.data db.dataSize).map fun
          | .error status => (status, s)
          | .ok f =>
              if db.dataSize < (f.certNodeOffset + f.certNodeSize) % 2 ^ 32 then (.notFound, s)
              else setDb s attributes (withoutNode s.mCertDbStore db.data db.dataSize f)

/-- `InsertCertsToDb` -/
def insertCertsToDb (s : State V) (hashAlgId : Nat) (key : Key) (attributes : Attributes)
    (signerCert topLevelCert : List Byte) : Option (Status × State V) :=
  match mHashInfo[hashAlgId]? with
  | none => some (.invalidParameter, s)
  | some hashInfo =>
      match s.find (dbKey attributes) with
      | none => some (.notFound, s)
      | some db =>
          if db.dataSize = 0 then some (.notFound, s)
          else
            (findCertsFromDb p.limit key.variableName key.vendorGuid db.data db.dataSize).map fun
              | .ok _ => (efiAccessDenied, s)
              -- Any error counts as a certificate that is not there.
              | .error _ =>
                  let certNodeSize := insertedNodeSize key.variableName hashInfo.hashSize
                  if p.mMaxCertDbSize < (db.dataSize + certNodeSize) % 2 ^ 32 then
                    (.outOfResources, s)
                  else
                    match calculatePrivAuthVarSignChainSHADigest p hashAlgId signerCert
                      topLevelCert with
                    | .error status => (status, s)
                    | .ok shaDigest =>
                        setDb s attributes (withNode s.mCertDbStore db.data db.dataSize
                          key.variableName key.vendorGuid shaDigest)

/-! ## Cleaning up -/

/-- The key of the node at `offset`; the name ends at its first zero. -/
def keyAt (data : Buffer) (offset : Nat) : Key where
  variableName := ((List.range (value data (offset + 20) 4)).map fun i =>
    BitVec.ofNat 16 (value data (offset + 28 + 2 * i) 2)).takeWhile (· ≠ 0#16)
  vendorGuid := BitVec.ofNat 128 (value data offset 16)
  terminated := by
    intro hzero
    have hne := List.mem_takeWhile_imp hzero
    exact absurd rfl (of_decide_eq_true hne)

/-- The loop of `CleanCertsFromDb` over the nodes: the first one without its time-based
    authenticated variable, if there is one. -/
def findOrphan (s : State V) (data : Buffer) (dataSize : Nat) :
    Nat → Nat → Option (Except Status (Option (Key × Attributes)))
  | 0, _ => none
  | limit + 1, offset =>
      if offset < dataSize % 2 ^ 32 then
        if p.allocateZeroPool ((value data (offset + 20) 4 + 1) % 2 ^ 32 * 2) = false then
          some (.error .outOfResources)
        else
          let next := (offset + value data (offset + 16) 4) % 2 ^ 32
          match s.find (keyAt data offset) with
          | none => some (.ok (some (keyAt data offset, 0#32)))
          | some v =>
              if v.attributes.has efiVariableTimeBasedAuthenticatedWriteAccess = false then
                some (.ok (some (keyAt data offset, v.attributes)))
              else findOrphan s data dataSize limit next
      else some (.ok none)

/-- A turn of the outer loop of `CleanCertsFromDb`: the status that is returned, or the state
    for the next turn.  The status of a deletion is overwritten there. -/
def cleanTurn (s : State V) : Option (Status ⊕ State V) :=
  match s.find certDbKey with
  | none => some (.inl .notFound)
  | some db =>
      if db.dataSize = 0 then some (.inl .notFound)
      else
        (findOrphan p s db.data db.dataSize p.limit 4).bind fun
          | .error status => some (.inl status)
          | .ok none => some (.inl .success)
          | .ok (some (key, attributes)) =>
              (deleteCertsFromDb p s key (attributes ||| efiVariableNonVolatile)).map
                fun (_, s) => .inr s

/-- `CleanCertsFromDb` -/
def cleanCertsFromDb : Nat → State V → Option (Status × State V)
  | 0, _ => none
  | limit + 1, s =>
      (cleanTurn p s).bind fun
        | .inl status => some (status, s)
        | .inr s => cleanCertsFromDb limit s

end Calls

end AuthVariable
