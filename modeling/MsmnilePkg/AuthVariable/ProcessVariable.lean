/-
  MsmnilePkg.AuthVariable.ProcessVariable

  AuthService.c and AuthVariableLib.c: how a variable that is set is processed, and the
  platform mode.

  The answers of the firmware, as `Env`, are the same during one call.  A call that has no
  result ran out of turns in one of its loops.
-/

import MsmnilePkg.AuthVariable.Verify

namespace AuthVariable

open Efi ByteMem LittleEndian RecordArea

section Process

variable {V : VariableDriver} (p : Platform) (e : Env)

/-- `NeedPhysicallyPresent` -/
def needPhysicallyPresent (key : Key) : Bool :=
  e.isVariablePolicyEnabled && (key = secureBootEnableKey || key = customModeKey)

/-- `InCustomMode` -/
def inCustomMode (s : State V) : Bool :=
  match s.find customModeKey with
  | none => false
  | some v => v.data 0 = 1#8

/-! ## The platform mode -/

/-- A variable of one byte, as the library sets it. -/
def byteUpdate (key : Key) (byte : Byte) (dataSize : Nat) (attributes : Attributes) : Update :=
  ⟨key, fun _ => byte, dataSize, attributes, none⟩

def attributesBsRt : Attributes := efiVariableRuntimeAccess ||| efiVariableBootserviceAccess

def attributesNvBs : Attributes := efiVariableNonVolatile ||| efiVariableBootserviceAccess

/-- The end of `UpdatePlatformMode`: `SecureBootEnable` is created, or deleted. -/
def updateSecureBootEnable (s : State V) (secureBootMode : Byte) : Status × State V :=
  if secureBootMode = 1#8 then
    update s (byteUpdate secureBootEnableKey 1#8 1 attributesNvBs)
  else
    match s.find secureBootEnableKey with
    | none => (.success, s)
    | some _ => update s (byteUpdate secureBootEnableKey 0#8 0 attributesNvBs)

/-- `UpdatePlatformMode` from where `SecureBootMode` is known. -/
def updateSecureBoot (s : State V) (secureBootMode : Byte) : Status × State V :=
  let updated := update s (byteUpdate secureBootModeKey secureBootMode 1 attributesBsRt)
  if updated.1.isError then updated
  else updateSecureBootEnable updated.2 secureBootMode

/-- `UpdatePlatformMode` after `SetupMode`, where the system is not at runtime. -/
def updateSecureBootMode (s : State V) : Status × State V :=
  match s.find secureBootModeKey with
  | none => updateSecureBoot s 0#8
  | some _ =>
      if s.mPlatformMode = userMode then updateSecureBoot s 1#8
      else if s.mPlatformMode = setupMode then updateSecureBoot s 0#8
      else (.notFound, s)

/-- `mPlatformMode`, and `SetupMode` in place, to avoid a reclaim at runtime. -/
def setMode (s : State V) (mode : BitVec 32) : State V :=
  let mode := (mode.setWidth 8).setWidth 32
  { s with mPlatformMode := mode, store := V.copyMem s.store setupModeKey (mode.setWidth 8) }

/-- `UpdatePlatformMode` -/
def updatePlatformMode (s : State V) (mode : BitVec 32) : Status × State V :=
  match s.find setupModeKey with
  | none => (.notFound, s)
  | some _ =>
      -- `SecureBoot` tells how the system was booted, and stays at runtime.
      if e.atRuntime then (.success, setMode s mode)
      else updateSecureBootMode (setMode s mode)

/-- `VendorKeyIsModified` -/
def vendorKeyIsModified (s : State V) : Status × State V :=
  if s.mVendorKeyState = 0#8 then (.success, s)
  else
    let s := { s with mVendorKeyState := 0#8 }
    let updated := update s (byteUpdate vendorKeysNvKey 0#8 1
      (attributesNvBs ||| efiVariableTimeBasedAuthenticatedWriteAccess))
    if updated.1.isError then updated
    else update updated.2 (byteUpdate vendorKeysKey 0#8 1 attributesBsRt)

/-! ## Variables of the secure boot policy -/

/-- The payload is taken as it is, if its format is that of signature lists; with the status
    there comes what is left of the request. -/
def updatePayload (s : State V) (r : Request) : Option ((Status × Request) × State V) :=
  (checkSignatureListFormat p r.key r.payload r.payloadSize).bind fun status =>
    if status.isError then some ((status, r), s)
    else
      (updateWithTimeStamp p s r.key r.payload r.payloadSize r.attributes r.timeStamp).map
        fun ((status, payload), s) => ((status, r.overwrite r.authInfo2Size payload), s)

/-- PK, KEK, db, dbx and dbt are non-volatile, and time-based authenticated. -/
def Request.protectedAttributes (r : Request) : Bool :=
  r.attributes.has efiVariableNonVolatile && r.timeBased

/-- No authentication is needed in `ProcessVarWithPk`. -/
def unlockedPk (s : State V) (isPk : Bool) : Bool :=
  (inCustomMode s && e.userPhysicalPresent || !e.isVariablePolicyEnabled) ||
    (s.mPlatformMode = setupMode && !(p.pcdRequireSelfSignedPk && isPk))

/-- `ProcessVarWithPk` up to where the platform mode is updated: the status, `Del`, and what is
    left of the request. -/
def updateWithPk (s : State V) (r : Request) (isPk : Bool) :
    Option ((Status × Bool × Request) × State V) :=
  if unlockedPk p e s isPk then
    (updatePayload p s r).map fun ((status, r'), s) =>
      let del := r.payloadSize = 0
      if status.isError then ((status, false, r'), s)
      else if s.mPlatformMode ≠ setupMode ∨ (p.pcdRequireSelfSignedPk && isPk) = true then
        let modified := vendorKeyIsModified s
        ((modified.1, del, r'), modified.2)
      else ((status, del, r'), s)
  else if s.mPlatformMode = userMode then verifyTimeBasedPayloadAndUpdate p e s r .pk
  else if p.pcdEnforceSelfsignedPk = false ∧ s.mPlatformMode = setupMode ∧ isPk = true then
    (updateWithTimeStamp p s r.key r.payload r.payloadSize r.attributes r.timeStamp).map
      fun ((status, payload), s) => ((status, false, r.overwrite r.authInfo2Size payload), s)
  else verifyTimeBasedPayloadAndUpdate p e s r .payload

/-- The end of `ProcessVarWithPk`: enrolling and deleting PK change the mode. -/
def modeAfter (isPk : Bool) (status : Status) (del : Bool) (s : State V) : Status × State V :=
  if status.isError = false ∧ isPk = true then
    if s.mPlatformMode = setupMode ∧ del = false then updatePlatformMode e s userMode
    else if s.mPlatformMode = userMode ∧ del = true then updatePlatformMode e s setupMode
    else (status, s)
  else (status, s)

/-- `ProcessVarWithPk`: the status, and what is left of the request. -/
def processVarWithPk (s : State V) (r : Request) (isPk : Bool) :
    Option ((Status × Request) × State V) :=
  if r.protectedAttributes = false then some ((.invalidParameter, r), s)
  else
    (updateWithPk p e s r isPk).map fun ((status, del, r'), s) =>
      let after := modeAfter e isPk status del s
      ((after.1, r'), after.2)

/-- `ProcessVarWithKek` -/
def processVarWithKek (s : State V) (r : Request) : Option (Status × State V) :=
  if r.protectedAttributes = false then some (.invalidParameter, s)
  else if s.mPlatformMode = userMode ∧ (inCustomMode s && e.userPhysicalPresent) = false then
    (verifyTimeBasedPayloadAndUpdate p e s r .kek).map fun updated => (updated.1.1, updated.2)
  else
    (updatePayload p s r).map fun ((status, _), s) =>
      if status.isError then (status, s)
      else if s.mPlatformMode ≠ setupMode then vendorKeyIsModified s
      else (status, s)

/-! ## Other variables -/

/-- `IsDeleteAuthVariable`; `AUTHINFO_SIZE` is 560. -/
def isDeleteAuthVariable (orgAttributes : Attributes) (r : Request) : Bool :=
  r.attributes = orgAttributes &&
    if r.timeBased then r.payloadSize = 0
    else r.attributes.has efiVariableAuthenticatedWriteAccess &&
      (r.dataSize + (2 ^ 64 - 560)) % 2 ^ 64 = 0

/-- `ProcessVariable` -/
def processVariable (s : State V) (r : Request) : Option (Status × State V) :=
  let org := s.find r.key
  if org.any (fun v => isDeleteAuthVariable v.attributes r) &&
      (e.userPhysicalPresent || !e.isVariablePolicyEnabled) then
    let deleted := update s ⟨r.key, fun _ => 0#8, 0, 0#32, none⟩
    if deleted.1.isError = false ∧ r.timeBased = true then
      deleteCertsFromDb p deleted.2 r.key r.attributes
    else some deleted
  else if needPhysicallyPresent e r.key && !e.userPhysicalPresent then
    some (efiSecurityViolation, s)
  else if r.attributes.has efiVariableAuthenticatedWriteAccess then some (efiUnsupported, s)
  else if r.timeBased then
    (verifyTimeBasedPayloadAndUpdate p e s r .priv).map fun updated => (updated.1.1, updated.2)
  else if org.any fun v => v.attributes.has
      (efiVariableAuthenticatedWriteAccess ||| efiVariableTimeBasedAuthenticatedWriteAccess) then
    some (efiWriteProtected, s)
  else some (update s ⟨r.key, r.data, r.dataSize, r.attributes, none⟩)

/-- `AuthVariableLibProcessVariable` -/
def authVariableLibProcessVariable (s : State V) (r : Request) : Option (Status × State V) :=
  if r.key = platformKey then
    (processVarWithPk p e s r true).map fun ((status, _), s) => (status, s)
  else if r.key = keyExchangeKey then
    (processVarWithPk p e s r false).map fun ((status, _), s) => (status, s)
  else if r.key.isImageSecurityDatabase then
    -- The second try reads the data that the first one has left.
    (processVarWithPk p e s r false).bind fun ((status, r'), s) =>
      if status.isError then processVarWithKek p e s r' else some (status, s)
  else processVariable p e s r

end Process

end AuthVariable
