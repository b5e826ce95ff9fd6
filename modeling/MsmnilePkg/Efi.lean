/-
  MsmnilePkg.Efi

  EFI_STATUS, as the drivers and libraries return it and test it.
-/

namespace Efi

/-- `EFI_STATUS`; a service of the firmware may return an error that has no name here. -/
inductive Status where
  | success
  | invalidParameter
  | badBufferSize
  | bufferTooSmall
  | notReady
  | outOfResources
  | notFound
  | protocolError
  | otherError (code : Nat)
  | warning (code : Nat)
  deriving DecidableEq, Repr

/-- `EFI_ERROR (Status)` -/
def Status.isError : Status → Bool
  | .success => false
  | .warning _ => false
  | _ => true

@[simp] theorem Status.success_isError : Status.success.isError = false := rfl

end Efi
