/-
  MsmnilePkg.AuthVariable.Services

  AuthService.c: the variables, as the variable driver keeps them, and the updates.

  `FindVariable`, `UpdateVariable` and `GetScratchBuffer` belong to the variable driver,
  which is a parameter: `VariableDriver` says what the library relies on.  An update that
  fails changes nothing, and which updates fail is up to the driver.  Left out is the empty
  name, for which `FindVariable` returns the first variable.
-/

import MsmnilePkg.AuthVariable.SignatureList

namespace AuthVariable

open Efi ByteMem LittleEndian RecordArea

def efiUnsupported : Status := .otherError 3
def efiWriteProtected : Status := .otherError 8
def efiAccessDenied : Status := .otherError 15
def efiAborted : Status := .otherError 21
def efiSecurityViolation : Status := .otherError 26

/-! ## Variables -/

/-- The name and the GUID of a variable; no character of a name is its terminating zero. -/
structure Key where
  variableName : Name
  vendorGuid : Guid
  terminated : 0#16 ∉ variableName
deriving DecidableEq

/-- `AUTH_VARIABLE_INFO` of a variable that is found. -/
structure VariableInfo where
  data : Buffer
  dataSize : Nat
  attributes : Attributes
  timeStamp : EfiTime

/-- `AUTH_VARIABLE_INFO`, as it is given to `UpdateVariable`. -/
structure Update where
  key : Key
  data : Buffer
  dataSize : Nat
  attributes : Attributes
  timeStamp : Option EfiTime

/-- What there is of a variable. -/
structure Content where
  value : List Byte
  attributes : Attributes
  timeStamp : EfiTime
deriving DecidableEq

/-- A time-based authenticated variable. -/
def Content.isTime (x : Content) : Bool :=
  x.attributes.has efiVariableTimeBasedAuthenticatedWriteAccess

def Content.nonVolatile (x : Content) : Bool := x.attributes.has efiVariableNonVolatile

def VariableInfo.content (v : VariableInfo) : Content :=
  ⟨slice v.data 0 v.dataSize, v.attributes, v.timeStamp⟩

def Update.value (u : Update) : List Byte := slice u.data 0 u.dataSize

/-- Without access attributes, or without data, an update deletes; an append does not. -/
def Update.deletes (u : Update) : Bool :=
  !u.attributes.has (efiVariableBootserviceAccess ||| efiVariableRuntimeAccess) ||
    (u.dataSize = 0 && !u.attributes.has efiVariableAppendWrite)

def noTime : EfiTime := ⟨0, 0, 0, 0, 0, 0, 0, 0, 0, 0, 0⟩

/-- The later of two time stamps. -/
def laterTime (old new : EfiTime) : EfiTime :=
  if authServiceInternalCompareTimeStamp old new then new else old

/-- What a variable is after an update that succeeds.  `EFI_VARIABLE_APPEND_WRITE` only
    effects an existing variable, whose time stamp does not go back. -/
def stored (old : Option Content) (u : Update) : Option Content :=
  if u.deletes then none
  else
    match old with
    | none =>
        if u.dataSize = 0 then none
        else some ⟨u.value, u.attributes &&& ~~~efiVariableAppendWrite, u.timeStamp.getD noTime⟩
    | some c =>
        if u.attributes.has efiVariableAppendWrite then
          some ⟨c.value ++ u.value, c.attributes,
            (u.timeStamp.map (laterTime c.timeStamp)).getD c.timeStamp⟩
        else
          some ⟨u.value, u.attributes &&& ~~~efiVariableAppendWrite, u.timeStamp.getD noTime⟩

/-- The variables that there are. -/
abbrev Contents := Key → Option Content

/-- `UpdateVariable`, or `CopyMem` of one byte to the data of a variable. -/
inductive Write where
  | update (u : Update)
  | copyMem (key : Key) (byte : Byte)

def Write.key : Write → Key
  | .update u => u.key
  | .copyMem key _ => key

def Contents.write (c : Contents) : Write → Contents
  | .update u => Function.update c u.key (stored (c u.key) u)
  | .copyMem key byte =>
      Function.update c key ((c key).map fun old => { old with value := old.value.set 0 byte })

/-- The variable driver, and what the library relies on. -/
structure VariableDriver where
  Store : Type
  findVariable : Store → Key → Option VariableInfo
  updateVariable : Store → Update → Status × Store
  copyMem : Store → Key → Byte → Store
  getScratchBuffer : Store → Nat → Option Buffer
  update_error : ∀ s u, (updateVariable s u).1.isError = true → ∀ k,
    (findVariable (updateVariable s u).2 k).map VariableInfo.content
      = (findVariable s k).map VariableInfo.content
  update_success : ∀ s u, (updateVariable s u).1.isError = false → ∀ k,
    (findVariable (updateVariable s u).2 k).map VariableInfo.content
      = Contents.write (fun k => (findVariable s k).map VariableInfo.content) (.update u) k
  /-- What does not exist is not deleted. -/
  delete_missing : ∀ s u, u.deletes = true → findVariable s u.key = none →
    (updateVariable s u).1.isError = true
  copyMem_written : ∀ s key byte k,
    (findVariable (copyMem s key byte) k).map VariableInfo.content
      = Contents.write (fun k => (findVariable s k).map VariableInfo.content)
          (.copyMem key byte) k

theorem content_ofList (c : Content) :
    VariableInfo.content ⟨ofList c.value, c.value.length, c.attributes, c.timeStamp⟩ = c := by
  obtain ⟨value, attributes, timeStamp⟩ := c
  exact congrArg (Content.mk · attributes timeStamp) (holds_ofList value)

/-- A driver that never fails but to delete what does not exist. -/
def plainDriver : VariableDriver where
  Store := Contents
  findVariable s k := (s k).map fun c => ⟨ofList c.value, c.value.length, c.attributes, c.timeStamp⟩
  updateVariable s u :=
    if u.deletes && (s u.key).isNone then (.notFound, s) else (.success, s.write (.update u))
  copyMem s key byte := s.write (.copyMem key byte)
  getScratchBuffer _ _ := some fun _ => 0#8
  update_error s u h k := by
    split at h
    · rename_i hmissing
      rw [if_pos hmissing]
    · exact absurd h Bool.false_ne_true
  update_success s u h k := by
    split at h
    · exact absurd h.symm Bool.false_ne_true
    · rename_i hpresent
      rw [if_neg hpresent]
      simp only [Option.map_map, Function.comp_def, content_ofList, Option.map_id']
  delete_missing s u hdelete hnone := by
    rw [Option.map_eq_none_iff] at hnone
    rw [hdelete, hnone]
    rfl
  copyMem_written s key byte k := by
    simp only [Option.map_map, Function.comp_def, content_ofList, Option.map_id']

/-! ## Names -/

def gEfiGlobalVariableGuid : Guid :=
  guid 0x8be4df61#32 0x93ca#16 0x11d2#16 0xaa 0x0d 0x00 0xe0 0x98 0x03 0x2b 0x8c

def gEfiImageSecurityDatabaseGuid : Guid :=
  guid 0xd719b2cb#32 0x3d3a#16 0x4596#16 0xa3 0xbc 0xda 0xd0 0x0e 0x67 0x65 0x6f

def gEfiSecureBootEnableDisableGuid : Guid :=
  guid 0xf0a30bc7#32 0xaf08#16 0x4556#16 0x99 0xc4 0x00 0x10 0x09 0xc9 0x3a 0x44

def gEfiCustomModeEnableGuid : Guid :=
  guid 0xc076ec0c#32 0x7028#16 0x4399#16 0xa0 0x72 0x71 0xee 0x5c 0x44 0x8b 0x9f

def gEfiVendorKeysNvGuid : Guid :=
  guid 0x9073e4e0#32 0x60ec#16 0x4b6e#16 0x99 0x03 0x4c 0x22 0x3c 0x26 0x0f 0x3c

def gEfiCertDbGuid : Guid :=
  guid 0xd9bee56e#32 0x75dc#16 0x49d9#16 0xb4 0xd7 0xb5 0x34 0x21 0x0f 0x63 0x7a

def platformKey : Key := ⟨name ['P', 'K'], gEfiGlobalVariableGuid, by decide⟩

def keyExchangeKey : Key := ⟨name ['K', 'E', 'K'], gEfiGlobalVariableGuid, by decide⟩

def setupModeKey : Key :=
  ⟨name ['S', 'e', 't', 'u', 'p', 'M', 'o', 'd', 'e'], gEfiGlobalVariableGuid, by decide⟩

def secureBootModeKey : Key :=
  ⟨name ['S', 'e', 'c', 'u', 'r', 'e', 'B', 'o', 'o', 't'], gEfiGlobalVariableGuid, by decide⟩

def signatureSupportKey : Key :=
  ⟨name ['S', 'i', 'g', 'n', 'a', 't', 'u', 'r', 'e', 'S', 'u', 'p', 'p', 'o', 'r', 't'],
    gEfiGlobalVariableGuid, by decide⟩

def vendorKeysKey : Key :=
  ⟨name ['V', 'e', 'n', 'd', 'o', 'r', 'K', 'e', 'y', 's'], gEfiGlobalVariableGuid, by decide⟩

def imageSecurityDatabase : Key := ⟨name ['d', 'b'], gEfiImageSecurityDatabaseGuid, by decide⟩

def imageSecurityDatabase1 : Key :=
  ⟨name ['d', 'b', 'x'], gEfiImageSecurityDatabaseGuid, by decide⟩

def imageSecurityDatabase2 : Key :=
  ⟨name ['d', 'b', 't'], gEfiImageSecurityDatabaseGuid, by decide⟩

def secureBootEnableKey : Key :=
  ⟨name ['S', 'e', 'c', 'u', 'r', 'e', 'B', 'o', 'o', 't', 'E', 'n', 'a', 'b', 'l', 'e'],
    gEfiSecureBootEnableDisableGuid, by decide⟩

def customModeKey : Key :=
  ⟨name ['C', 'u', 's', 't', 'o', 'm', 'M', 'o', 'd', 'e'], gEfiCustomModeEnableGuid, by decide⟩

def vendorKeysNvKey : Key :=
  ⟨name ['V', 'e', 'n', 'd', 'o', 'r', 'K', 'e', 'y', 's', 'N', 'v'], gEfiVendorKeysNvGuid,
    by decide⟩

def certDbKey : Key := ⟨name ['c', 'e', 'r', 't', 'd', 'b'], gEfiCertDbGuid, by decide⟩

def certDbVolatileKey : Key :=
  ⟨name ['c', 'e', 'r', 't', 'd', 'b', 'v'], gEfiCertDbGuid, by decide⟩

/-- db, dbx and dbt. -/
def Key.isImageSecurityDatabase (k : Key) : Bool :=
  k = imageSecurityDatabase || k = imageSecurityDatabase1 || k = imageSecurityDatabase2

/-! ## The library -/

/-- The crypto library and the fixed settings; each loop has at most `limit` turns. -/
structure Platform where
  x509 : X509
  /-- `Pkcs7Verify`: the signed data, the trusted certificate, and what was signed. -/
  pkcs7Verify : List Byte → List Byte → List Byte → Bool
  /-- `Pkcs7GetSigners`: the stack of certificates, and the top-level one. -/
  pkcs7GetSigners : List Byte → Option (List Byte × List Byte)
  x509GetCommonName : List Byte → Option (List Byte)
  x509GetTBSCert : List Byte → Option (List Byte)
  /-- The digest for an index of `mHashInfo`, of all that it is updated with. -/
  hash : Nat → List Byte → Option (List Byte)
  pcdRequireSelfSignedPk : Bool
  pcdEnforceSelfsignedPk : Bool
  mMaxCertDbSize : Nat
  /-- `AllocateZeroPool` does not return `NULL` for that many bytes. -/
  allocateZeroPool : Nat → Bool
  limit : Nat

/-- What the rest of the firmware answers during a call. -/
structure Env where
  userPhysicalPresent : Bool
  isVariablePolicyEnabled : Bool
  /-- `AtRuntime` of the variable driver. -/
  atRuntime : Bool
  efiAtRuntime : Bool

/-- The variables and the globals of the library. -/
structure State (V : VariableDriver) where
  store : V.Store
  mPlatformMode : BitVec 32
  mVendorKeyState : Byte
  mCertDbStore : Buffer

def userMode : BitVec 32 := 0#32
def setupMode : BitVec 32 := 1#32

section Services

variable {V : VariableDriver}

def State.find (s : State V) (k : Key) : Option VariableInfo := V.findVariable s.store k

def State.contents (s : State V) : Contents := fun k => (s.find k).map VariableInfo.content

/-- `AuthServiceInternalUpdateVariable`, and the call of `UpdateVariable` in general. -/
def update (s : State V) (u : Update) : Status × State V :=
  let r := V.updateVariable s.store u
  (r.1, { s with store := r.2 })

end Services

/-- A platform without a crypto library, and room for a small database. -/
def barePlatform : Platform where
  x509 := noX509
  pkcs7Verify _ _ _ := false
  pkcs7GetSigners _ := none
  x509GetCommonName _ := none
  x509GetTBSCert _ := none
  hash _ _ := none
  pcdRequireSelfSignedPk := false
  pcdEnforceSelfsignedPk := false
  mMaxCertDbSize := 4096
  allocateZeroPool _ := true
  limit := 4096

theorem plain_contents (s : State plainDriver) : s.contents = s.store := by
  funext k
  simp only [State.contents, State.find, plainDriver, Option.map_map, Function.comp_def,
    content_ofList, Option.map_id']

end AuthVariable
