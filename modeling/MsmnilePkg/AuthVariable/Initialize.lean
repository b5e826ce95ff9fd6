/-
  MsmnilePkg.AuthVariable.Initialize

  AuthVariableLib.c: the initialization of the library, when the system starts.

  The volatile variables are gone by then.  Each update that fails ends the initialization
  with its status.
-/

import MsmnilePkg.AuthVariable.ProcessVariable

namespace AuthVariable

open Efi ByteMem LittleEndian RecordArea

section Initialize

variable {V : VariableDriver} (p : Platform)

/-- What follows an update that has not failed. -/
def andThen (updated : Status × State V) (next : State V → Option (Status × State V)) :
    Option (Status × State V) :=
  if updated.1.isError then some updated else next updated.2

def mSignatureSupport : List Guid :=
  [efiCertSha1Guid, efiCertSha256Guid, efiCertSha384Guid, efiCertSha512Guid, efiCertRsa2048Guid,
    efiCertX509Guid]

/-- `SetupMode` and `SignatureSupport`; without PK the system is in setup mode. -/
def initializePlatformMode (s : State V) (next : State V → Option (Status × State V)) :
    Option (Status × State V) :=
  let mode := if (s.find platformKey).isSome then userMode else setupMode
  let s := { s with mPlatformMode := mode }
  andThen (update s (byteUpdate setupModeKey (mode.setWidth 8) 1 attributesBsRt)) fun s =>
    andThen (update s {
      key := signatureSupportKey
      data := ofList (mSignatureSupport.flatMap Guid.bytes)
      dataSize := 16 * mSignatureSupport.length
      attributes := attributesBsRt
      timeStamp := none }) next

/-- `SecureBootEnable`, which cannot override user mode with a zero. -/
def initializeSecureBootEnable (s : State V) (next : Byte → State V → Option (Status × State V)) :
    Option (Status × State V) :=
  let enable := andThen (update s (byteUpdate secureBootEnableKey 1#8 1 attributesNvBs)) (next 1#8)
  match s.find secureBootEnableKey with
  | none => if s.mPlatformMode = userMode then enable else next 0#8 s
  | some v =>
      if s.mPlatformMode = userMode then
        if v.data 0 = 0#8 then enable else next (v.data 0) s
      else next 0#8 s

/-- `SecureBoot` and `CustomMode`. -/
def initializeSecureBoot (s : State V) (next : State V → Option (Status × State V)) :
    Option (Status × State V) :=
  initializeSecureBootEnable s fun secureBootEnable s =>
    let secureBootMode :=
      if secureBootEnable = 1#8 ∧ s.mPlatformMode = userMode then 1#8 else 0#8
    andThen (update s (byteUpdate secureBootModeKey secureBootMode 1 attributesBsRt)) fun s =>
      andThen (update s (byteUpdate customModeKey 0#8 1 attributesNvBs)) next

/-- A database without certificates. -/
def emptyDbUpdate (attributes : Attributes) : Update :=
  ⟨dbKey attributes, bytesOf 4, 4, dbAttributes attributes, none⟩

/-- "certdb" is created, or cleaned up. -/
def initializeCertDb (s : State V) (next : State V → Option (Status × State V)) :
    Option (Status × State V) :=
  match s.find certDbKey with
  | none => andThen (update s (emptyDbUpdate efiVariableNonVolatile)) next
  | some _ => (cleanCertsFromDb p p.limit s).bind fun cleaned => andThen cleaned next

/-- "certdbv" is created. -/
def initializeCertDbVolatile (s : State V) (next : State V → Option (Status × State V)) :
    Option (Status × State V) :=
  andThen (update s (emptyDbUpdate 0#32)) next

/-- `VendorKeysNv` and `VendorKeys`. -/
def initializeVendorKeys (s : State V) : Option (Status × State V) :=
  let vendorKeys := fun (s : State V) =>
    update s (byteUpdate vendorKeysKey s.mVendorKeyState 1 attributesBsRt)
  match s.find vendorKeysNvKey with
  | some v => some (vendorKeys { s with mVendorKeyState := v.data 0 })
  | none =>
      andThen (update { s with mVendorKeyState := 1#8 } (byteUpdate vendorKeysNvKey 1#8 1
        (attributesNvBs ||| efiVariableTimeBasedAuthenticatedWriteAccess)))
        fun s => some (vendorKeys s)

/-- `AuthVariableLibInitialize`, given whether its memory can be allocated. -/
def authVariableLibInitialize (allocateRuntimePool : Bool) (s : State V) :
    Option (Status × State V) :=
  if allocateRuntimePool = false then some (.outOfResources, s)
  else
    initializePlatformMode s fun s =>
      initializeSecureBoot s fun s =>
        initializeCertDb p s fun s =>
          initializeCertDbVolatile s initializeVendorKeys

end Initialize

end AuthVariable
