/-
  MsmnilePkg.AuthVariable.Verify

  AuthService.c: the verification of what is to be written, and the update after it.

  The data of a request begins with `EFI_VARIABLE_AUTHENTICATION_2`: the time stamp, 16
  bytes, and a certificate of `dwLength` bytes, from the bytes 40 of which on there is the
  signed data of the signature.  The payload follows.  The sizes that are subtracted wrap.
-/

import MsmnilePkg.AuthVariable.CertDbCalls

namespace AuthVariable

open Efi ByteMem LittleEndian RecordArea

/-! ## Requests -/

/-- The parameters of `AuthVariableLibProcessVariable`. -/
structure Request where
  key : Key
  data : Buffer
  dataSize : Nat
  attributes : Attributes

/-- `TimeStamp` -/
def Request.timeStamp (r : Request) : EfiTime where
  year := BitVec.ofNat 16 (value r.data 0 2)
  month := r.data 2
  day := r.data 3
  hour := r.data 4
  minute := r.data 5
  second := r.data 6
  pad1 := r.data 7
  nanosecond := BitVec.ofNat 32 (value r.data 8 4)
  timeZone := BitVec.ofNat 16 (value r.data 12 2)
  daylight := r.data 14
  pad2 := r.data 15

/-- `AuthInfo.Hdr.dwLength` -/
def Request.dwLength (r : Request) : Nat := value r.data 16 4

/-- `AUTHINFO2_SIZE` -/
def Request.authInfo2Size (r : Request) : Nat := 16 + r.dwLength

/-- The payload, and its size, where nothing is verified. -/
def Request.payload (r : Request) : Buffer := shift r.data r.authInfo2Size

def Request.payloadSize (r : Request) : Nat := (r.dataSize + (2 ^ 64 - r.authInfo2Size)) % 2 ^ 64

def Request.sigData (r : Request) : Buffer := shift r.data 40

def Request.sigDataSize (r : Request) : Nat := (r.dwLength + (2 ^ 32 - 24)) % 2 ^ 32

/-- The signed data, as the crypto library gets it. -/
def Request.signedData (r : Request) : List Byte := slice r.sigData 0 r.sigDataSize

/-- The payload, and its size, in `VerifyTimeBasedPayload`. -/
def Request.signedPayload (r : Request) : Buffer := shift r.sigData r.sigDataSize

def Request.signedPayloadSize (r : Request) : Nat :=
  (r.dataSize + (2 ^ 64 - 40) + (2 ^ 64 - r.sigDataSize)) % 2 ^ 64

/-- The request, with what a buffer holds in place of its data from `offset` on. -/
def Request.overwrite (r : Request) (offset : Nat) (payload : Buffer) : Request :=
  { r with data := fun i => if i < offset then r.data i else payload (i - offset) }

def Request.append (r : Request) : Bool := r.attributes.has efiVariableAppendWrite

def Request.timeBased (r : Request) : Bool :=
  r.attributes.has efiVariableTimeBasedAuthenticatedWriteAccess

/-- What was signed: name, GUID, attributes, time stamp and payload. -/
def Request.newData (r : Request) : List Byte :=
  Name.bytes r.key.variableName ++ Guid.bytes r.key.vendorGuid ++ field r.attributes.toNat 4 ++
    slice r.data 0 16 ++ slice r.signedPayload 0 r.signedPayloadSize

inductive AuthVarType where
  | pk
  | kek
  | priv
  | payload
deriving DecidableEq

/-! ## The format and the update -/

section Verify

variable {V : VariableDriver} (p : Platform) (e : Env)

/-- `CheckSignatureListFormat` -/
def checkSignatureListFormat (key : Key) (data : Buffer) (dataSize : Nat) : Option Status :=
  if dataSize = 0 then some .success
  else if key = platformKey then checkLists p.limit p.x509 true data dataSize
  else if key = keyExchangeKey || key.isImageSecurityDatabase then
    checkLists p.limit p.x509 false data dataSize
  else some .success

/-- The data is filtered when it is appended to KEK, db, dbx or dbt, and what is kept of it is
    moved to the front of the same buffer.  The status of `FilterSignatureList` is not looked
    at. -/
def filtered (s : State V) (key : Key) (data : Buffer) (dataSize : Nat) (attributes : Attributes) :
    Option (Buffer × Nat) :=
  match s.find key with
  | none => some (data, dataSize)
  | some org =>
      if attributes.has efiVariableAppendWrite ∧
          (key.isImageSecurityDatabase = true ∨ key = keyExchangeKey) then
        (filterSignatureList p.limit (V.getScratchBuffer s.store dataSize) org.data org.dataSize
          data dataSize).map fun r => r.2
      else some (data, dataSize)

/-- `AuthServiceInternalUpdateVariableWithTimeStamp`: the status, and what the caller's buffer
    holds after it. -/
def updateWithTimeStamp (s : State V) (key : Key) (data : Buffer) (dataSize : Nat)
    (attributes : Attributes) (timeStamp : EfiTime) : Option ((Status × Buffer) × State V) :=
  (filtered p s key data dataSize attributes).map fun new =>
    let updated := update s ⟨key, new.1, new.2, attributes, some timeStamp⟩
    ((updated.1, new.1), updated.2)

/-! ## Verifying -/

/-- `FindHashAlgorithmIndex` -/
def findHashAlgorithmIndex (sigData : Buffer) (sigDataSize : Nat) : Nat :=
  mHashInfo.findIdx fun hashInfo =>
    13 + hashInfo.oidValue.length ≤ sigDataSize && sigData 1 &&& 0x82 == 0x82 &&
        slice sigData 13 hashInfo.oidValue.length == hashInfo.oidValue ||
      32 + hashInfo.oidValue.length ≤ sigDataSize && sigData 20 &&& 0x82 == 0x82 &&
        slice sigData 32 hashInfo.oidValue.length == hashInfo.oidValue

def efiCertPkcs7Guid : Guid :=
  guid 0x4aafd29d#32 0x68df#16 0x49ee#16 0x8a 0xa9 0x34 0x7d 0x37 0x56 0x65 0xa7

/-- The fields of the time stamp that must be zero are. -/
def EfiTime.plain (t : EfiTime) : Bool :=
  t.pad1 = 0 && t.nanosecond = 0 && t.timeZone = 0 && t.daylight = 0 && t.pad2 = 0

/-- The checks of the descriptor. -/
def Request.descriptorOk (r : Request) (orgTimeStamp : Option EfiTime) : Bool :=
  r.timeStamp.plain &&
    -- A time stamp that is not later is a suspicious replay.
    !(orgTimeStamp.any (authServiceInternalCompareTimeStamp r.timeStamp) && !r.append) &&
    value r.data 22 2 = 0x0ef1 && slice r.data 24 16 = Guid.bytes efiCertPkcs7Guid &&
    !(r.timeBased && mHashInfo.length ≤ findHashAlgorithmIndex r.sigData r.sigDataSize)

/-- A trusted certificate in a signature list: the data of its signature `k`. -/
def certData (data : Buffer) (list k : Nat) : List Byte :=
  slice data (firstCert data list + k * signatureSize data list + 16) (ownedSize data list)

/-- The verification with the platform key. -/
def verifyPk (s : State V) (r : Request) : Bool :=
  match p.pkcs7GetSigners r.signedData with
  | none => false
  | some (_, topLevelCert) =>
      match s.find platformKey with
      | none => false
      | some pk =>
          if topLevelCert.length ≠ ownedSize pk.data 0 ∨
              slice pk.data (firstCert pk.data 0 + 16) topLevelCert.length ≠ topLevelCert then
            false
          else p.pkcs7Verify r.signedData topLevelCert r.newData

/-- The loop over the key exchange keys. -/
def verifyKekLoop (r : Request) (kek : Buffer) : Nat → Nat → Nat → Option Bool
  | 0, _, _ => none
  | limit + 1, list, kekDataSize =>
      if 0 < kekDataSize ∧ signatureListSize kek list ≤ kekDataSize then
        if signatureType kek list = Guid.bytes efiCertX509Guid ∧
            (List.range (certCount kek list)).any (fun index =>
              p.pkcs7Verify r.signedData (certData kek list index) r.newData) then
          some true
        else
          verifyKekLoop r kek limit (list + signatureListSize kek list)
            (kekDataSize - signatureListSize kek list)
      else some false

/-- The signer's certificates are those that are stored for the variable. -/
def signersMatch (s : State V) (r : Request) (signerCerts topLevelCert : List Byte) :
    Option Bool :=
  (getCertsFromDb p s r.key r.attributes).map fun
    | .error _ => false
    | .ok certsInCertDb =>
        let hashAlgId := findHashAlgorithmIndex r.sigData r.sigDataSize
        let signerCert := slice (ofList signerCerts) 5 (value (ofList signerCerts) 1 4)
        if (mHashInfo[hashAlgId]?).any (fun hashInfo =>
            certsInCertDb.length = hashInfo.hashSize) then
          match calculatePrivAuthVarSignChainSHADigest p hashAlgId signerCert topLevelCert with
          | .error _ => false
          | .ok shaDigest => slice (ofList shaDigest) 0 certsInCertDb.length = certsInCertDb
        -- The whole stack of certificates may have been saved.
        else signerCerts = certsInCertDb

/-- The verification of a common authenticated variable, the certificates of which are
    inserted when it is new. -/
def verifyPriv (s : State V) (r : Request) (orgTimeStamp : Option EfiTime) :
    Option (Bool × State V) :=
  match p.pkcs7GetSigners r.signedData with
  | none => some (false, s)
  | some (signerCerts, topLevelCert) =>
      (if orgTimeStamp.isSome then signersMatch p s r signerCerts topLevelCert
        else some true).bind fun known =>
        if known = false then some (false, s)
        else if p.pkcs7Verify r.signedData topLevelCert r.newData = false then some (false, s)
        else if orgTimeStamp = none ∧ r.signedPayloadSize ≠ 0 then
          (insertCertsToDb p s (findHashAlgorithmIndex r.sigData r.sigDataSize) r.key r.attributes
            (slice (ofList signerCerts) 5 (value (ofList signerCerts) 1 4)) topLevelCert).map
            fun inserted => (!inserted.1.isError, inserted.2)
        else some (true, s)

/-- `VerifyStatus`, or the status that is returned where there is no KEK. -/
def verifySignature (s : State V) (r : Request) (authVarType : AuthVarType)
    (orgTimeStamp : Option EfiTime) : Option (Except Status Bool × State V) :=
  match authVarType with
  | .pk => some (.ok (verifyPk p s r), s)
  | .kek =>
      match s.find keyExchangeKey with
      | none => some (.error .notFound, s)
      | some kek =>
          (verifyKekLoop p r kek.data p.limit 0 (kek.dataSize % 2 ^ 32)).map fun verified =>
            (.ok verified, s)
  | .priv => (verifyPriv p s r orgTimeStamp).map fun verified => (.ok verified.1, verified.2)
  | .payload =>
      some (.ok (p.pkcs7Verify r.signedData (certData r.signedPayload 0 0) r.newData), s)

/-- The end of `VerifyTimeBasedPayload`, from `Exit` on. -/
def verifyExit (s : State V) (r : Request) (verifyStatus : Bool) : Option (Status × State V) :=
  if verifyStatus = false then some (efiSecurityViolation, s)
  else
    (checkSignatureListFormat p r.key r.signedPayload r.signedPayloadSize).map fun status =>
      (status, s)

/-- `VerifyTimeBasedPayload` -/
def verifyTimeBasedPayload (s : State V) (r : Request) (authVarType : AuthVarType)
    (orgTimeStamp : Option EfiTime) : Option (Status × State V) :=
  if r.descriptorOk orgTimeStamp = false then some (efiSecurityViolation, s)
  -- Without the policy engine, any variable may be deleted.
  else if r.signedPayloadSize = 0 ∧ r.append = false ∧ e.isVariablePolicyEnabled = false then
    verifyExit p s r true
  else if (V.getScratchBuffer s.store
      ((r.signedPayloadSize + 36 + 2 * r.key.variableName.length) % 2 ^ 64)).isNone then
    some (.outOfResources, s)
  else
    (verifySignature p s r authVarType orgTimeStamp).bind fun
      | (.error status, s) => some (status, s)
      | (.ok verifyStatus, s) => verifyExit p s r verifyStatus

/-- What follows the update: the certificates of a common variable that was deleted go. -/
def deleteCertsAfter (authVarType : AuthVarType) (isDel : Bool) (r : Request)
    (updated : Status × State V) : Option (Status × State V) :=
  if isDel = true ∧ authVarType = .priv ∧ updated.1.isError = false then
    deleteCertsFromDb p updated.2 r.key r.attributes
  else some updated

/-- `VerifyTimeBasedPayloadAndUpdate`: the status, `VarDel`, which is FALSE before, and what is
    left of the request. -/
def verifyTimeBasedPayloadAndUpdate (s : State V) (r : Request) (authVarType : AuthVarType) :
    Option ((Status × Bool × Request) × State V) :=
  if e.efiAtRuntime then some ((efiWriteProtected, false, r), s)
  else
    let org := s.find r.key
    (verifyTimeBasedPayload p e s r authVarType (org.map VariableInfo.timeStamp)).bind fun
      | (status, s) =>
          if status.isError then some ((status, false, r), s)
          else
            let isDel := org.isSome && r.signedPayloadSize = 0 && !r.append
            (updateWithTimeStamp p s r.key r.signedPayload r.signedPayloadSize r.attributes
              r.timeStamp).bind fun ((status, payload), s) =>
              (deleteCertsAfter p authVarType isDel r (status, s)).map fun (status, s) =>
                ((status, isDel && !status.isError,
                  r.overwrite (40 + r.sigDataSize) payload), s)

end Verify

end AuthVariable
