/-
  MsmnilePkg.SecureBoot.Provisioning

  SecureBootProvisioningDxe.c: the policy file and the Secure Boot keys.

  Every call that the driver makes may fail.  A file is written on a volume
  when it has a boot manager, and then the keys are enrolled; the volume at
  that moment is kept in a log.  The file systems are not part of the
  repository: their protocol is a parameter, with what is documented of it.
  Left out are the statuses of the two `Close` calls, which are only printed.
-/

import MsmnilePkg.Efi
import MsmnilePkg.Lib.ByteMem
import MsmnilePkg.Lib.History

namespace SecureBootProvisioning

open Efi ByteMem History

/-! ## Files -/

/-- The files of a volume. -/
abbrev Volume := String → Option (List Byte)

/-- An error that a call returns. -/
abbrev Failure := { e : Status // e.isError = true }

def Volume.set (v : Volume) (path : String) (contents : Option (List Byte)) : Volume :=
  fun p => if p = path then contents else v p

@[simp] theorem Volume.set_same (v : Volume) (path : String) (contents : Option (List Byte)) :
    v.set path contents path = contents := if_pos rfl

theorem Volume.set_of_ne {v : Volume} {path p : String} {contents : Option (List Byte)}
    (h : p ≠ path) : v.set path contents p = v p := if_neg h

/-- The protocol of a file: what its calls make of a volume, each with how it turns out. -/
structure FileProtocol where
  /-- `Open`, which may be asked to create the file. -/
  openFile : Volume → String → (create : Bool) → Option Failure → Status × Volume
  /-- `Write` from the beginning of the file, of which so many bytes are stored at most. -/
  writeFile : Volume → String → List Byte → (stored : Nat) → Volume
  deleteFile : Volume → String → Status → Volume

/-- What is documented of it: `Open` finds the file or, with `EFI_FILE_MODE_CREATE`, makes an
    empty one, `Write` stores the first bytes, and `Delete` leaves the file where it does not
    succeed. -/
structure FileProtocol.Documented (f : FileProtocol) : Prop where
  openFailed : ∀ v path create e, f.openFile v path create (some e) = (e.1, v)
  openFound : ∀ v path create, v path ≠ none → f.openFile v path create none = (.success, v)
  openMissing : ∀ v path, v path = none → f.openFile v path false none = (.notFound, v)
  openCreated : ∀ v path, v path = none →
    f.openFile v path true none = (.success, v.set path (some []))
  written : ∀ v path data stored, f.writeFile v path data stored =
    v.set path (some (data.take stored ++ ((v path).getD []).drop (min stored data.length)))
  deleted : ∀ v path, f.deleteFile v path .success = v.set path none
  notDeleted : ∀ v path status, status ≠ .success → f.deleteFile v path status = v

/-! ## The driver -/

/-- `SECURE_BOOT`, the section of the policy file in the firmware volumes, and the protocol of
    the file systems. -/
structure Firmware where
  secureBoot : Bool
  policy : Option (List Byte)
  file : FileProtocol

/-- How the calls that are made for one volume turn out. -/
structure Outcomes where
  getSection : Option Failure
  handleProtocol : Status
  openVolume : Status
  openBootmgfw : Option Failure
  openSiPolicy : Option Failure
  /-- The status and the size of the platform key. -/
  getVariable : Status × Nat
  delete : Status
  createSiPolicy : Option Failure
  /-- The bytes that `Write` stores, at most. -/
  stored : Nat
  setSecureBootConfig : Status

def bootmgfw : String := "\\EFI\\Microsoft\\Boot\\bootmgfw.efi"

def siPolicy : String := "\\EFI\\Microsoft\\Boot\\SiPolicy.p7b"

/-- `IsSecureBootOn` -/
def isSecureBootOn (fw : Firmware) (o : Outcomes) : Bool :=
  if fw.secureBoot then true
  else if o.getVariable.1 = .bufferTooSmall ∧ 0 < o.getVariable.2 then true
  else false

/-- `GetSectionFromAnyFv`; where it fails, `mSiPolicyDefaultSize` stays 0. -/
def siPolicyDefault (fw : Firmware) (o : Outcomes) : List Byte :=
  match o.getSection with
  | some _ => []
  | none => fw.policy.getD []

/-- What is returned for a volume, the volume afterwards, and the volume when
    `SetSecureBootConfig(0)` is called. -/
structure Processed where
  status : Status
  volume : Volume
  enrolled : Option Volume

/-- `TryWritePlatformSiPolicy` -/
def tryWritePlatformSiPolicy (fw : Firmware) (o : Outcomes) (v : Volume) : Processed :=
  let policy := siPolicyDefault fw o
  if o.handleProtocol.isError then ⟨o.handleProtocol, v, none⟩
  else if o.openVolume.isError then ⟨o.openVolume, v, none⟩
  else
    let boot := fw.file.openFile v bootmgfw false o.openBootmgfw
    if boot.1.isError then ⟨boot.1, boot.2, none⟩
    else
      let file := fw.file.openFile boot.2 siPolicy false o.openSiPolicy
      if file.1.isError ∧ file.1 ≠ .notFound then ⟨file.1, file.2, none⟩
      else if file.1 ≠ .notFound then
        if isSecureBootOn fw o = false then
          ⟨.success, fw.file.deleteFile file.2 siPolicy o.delete, none⟩
        else ⟨o.setSecureBootConfig, file.2, some file.2⟩
      else if isSecureBootOn fw o = false then ⟨.success, file.2, none⟩
      else
        let new := fw.file.openFile file.2 siPolicy true o.createSiPolicy
        if new.1.isError then ⟨new.1, new.2, none⟩
        else
          -- The status of Write is only printed.
          let written := fw.file.writeFile new.2 siPolicy policy o.stored
          ⟨o.setSecureBootConfig, written, some written⟩

abbrev Handle := BitVec 64

/-- A handle with a file system, and how its calls turn out. -/
structure Arrival where
  handle : Handle
  outcomes : Outcomes

structure State where
  volumes : Handle → Volume
  /-- The volumes when `SetSecureBootConfig(0)` was called. -/
  enrolled : List Volume

/-- A turn of the loop of `OnFileSystemNotification`. -/
def processHandle (fw : Firmware) (s : State) (a : Arrival) : State :=
  let p := tryWritePlatformSiPolicy fw a.outcomes (s.volumes a.handle)
  { volumes := fun h => if h = a.handle then p.volume else s.volumes h
    enrolled := s.enrolled ++ p.enrolled.toList }

/-- `OnFileSystemNotification`, with the handles that are located before an error. -/
def onFileSystemNotification (fw : Firmware) (s : State) (located : List Arrival) : State :=
  located.foldl (processHandle fw) s

/-- One notification after the other. -/
def runNotifications (fw : Firmware) (s : State) (notifications : List (List Arrival)) : State :=
  notifications.foldl (onFileSystemNotification fw) s

theorem runNotifications_eq (fw : Firmware) (notifications : List (List Arrival)) (s : State) :
    runNotifications fw s notifications = notifications.flatten.foldl (processHandle fw) s := by
  induction notifications generalizing s with
  | nil => rfl
  | cons located notifications ih =>
      rw [runNotifications, List.foldl_cons, ← runNotifications, ih, List.flatten_cons,
        List.foldl_append]
      rfl

/-! ## What the driver is for -/

/-- The volume has a boot manager, and the whole policy. -/
def Complete (fw : Firmware) (v : Volume) : Prop :=
  v bootmgfw ≠ none ∧ ∃ policy, fw.policy = some policy ∧ v siPolicy = some policy

/-- While Secure Boot is off no keys are enrolled, and no policy file is made. -/
def OffLeaves (fw : Firmware) (s : State) (a : Arrival) : Prop :=
  isSecureBootOn fw a.outcomes = false →
    (processHandle fw s a).enrolled = s.enrolled ∧
    ∀ h, s.volumes h siPolicy = none → (processHandle fw s a).volumes h siPolicy = none

/-- What the driver promises for a run. -/
structure Provisions (fw : Firmware) (volumes : Handle → Volume)
    (notifications : List (List Arrival)) : Prop where
  enrolled : ∀ v ∈ (runNotifications fw ⟨volumes, []⟩ notifications).enrolled, Complete fw v
  untouched : ∀ h, volumes h bootmgfw = none →
    (runNotifications fw ⟨volumes, []⟩ notifications).volumes h = volumes h
  off : EveryStep (OffLeaves fw) (processHandle fw) ⟨volumes, []⟩ notifications.flatten

/-- The policy file opens. -/
def Opens (o : Outcomes) (v : Volume) : Prop := o.openSiPolicy = none ∧ v siPolicy ≠ none

/-- The policy file is reported missing. -/
def Missing (o : Outcomes) (v : Volume) : Prop :=
  o.openSiPolicy = none ∧ v siPolicy = none ∨ ∃ e, o.openSiPolicy = some e ∧ e.1 = .notFound

/-- The calls come as far as `SetSecureBootConfig`. -/
structure Enrols (fw : Firmware) (o : Outcomes) (v : Volume) : Prop where
  handle : o.handleProtocol.isError = false
  volume : o.openVolume.isError = false
  bootmgfw : o.openBootmgfw = none ∧ v bootmgfw ≠ none
  on : isSecureBootOn fw o = true
  file : Opens o v ∨ Missing o v ∧ o.createSiPolicy = none

/-- The bytes of the policy that `Write` stores. -/
def storedBytes (fw : Firmware) (o : Outcomes) : Nat := min o.stored (siPolicyDefault fw o).length

/-- The condition on a step: where keys are enrolled, the file that is there is the policy, or
    else what `Write` does not store is there already. -/
def StepOk (fw : Firmware) (s : State) (a : Arrival) : Prop :=
  Enrols fw a.outcomes (s.volumes a.handle) → ∃ policy, fw.policy = some policy ∧
    (Opens a.outcomes (s.volumes a.handle) → s.volumes a.handle siPolicy = some policy) ∧
    (Missing a.outcomes (s.volumes a.handle) →
      ((s.volumes a.handle siPolicy).getD []).drop (storedBytes fw a.outcomes)
        = policy.drop (storedBytes fw a.outcomes))

/-! ## One volume -/

section Process

variable {fw : Firmware} {o : Outcomes} {v : Volume} {path : String} {failure : Option Failure}

section Files

variable {f : FileProtocol}

/-- Opening a file to read it changes nothing. -/
theorem openFile_read (hf : f.Documented) (v : Volume) (path : String)
    (failure : Option Failure) : (f.openFile v path false failure).2 = v := by
  cases failure with
  | some e => rw [hf.openFailed]
  | none =>
      by_cases hfile : v path = none
      · rw [hf.openMissing v path hfile]
      · rw [hf.openFound v path false hfile]

theorem openFile_read_ok_iff (hf : f.Documented) :
    (f.openFile v path false failure).1.isError = false ↔ failure = none ∧ v path ≠ none := by
  cases failure with
  | some e =>
      rw [hf.openFailed]
      constructor
      · intro h
        exact absurd e.2 (Bool.eq_false_iff.mp h)
      · exact fun h => absurd h.1 (Option.some_ne_none e)
  | none =>
      by_cases hfile : v path = none
      · rw [hf.openMissing v path hfile]
        exact iff_of_false (fun h => Bool.false_ne_true h.symm) fun h => h.2 hfile
      · rw [hf.openFound v path false hfile]
        exact iff_of_true rfl ⟨rfl, hfile⟩

theorem openFile_notFound_iff (hf : f.Documented) :
    (f.openFile v siPolicy false o.openSiPolicy).1 = .notFound ↔ Missing o v := by
  rw [Missing]
  cases hopen : o.openSiPolicy with
  | some e =>
      rw [hf.openFailed]
      simp
  | none =>
      by_cases hfile : v siPolicy = none
      · rw [hf.openMissing v siPolicy hfile]
        exact iff_of_true rfl (Or.inl ⟨rfl, hfile⟩)
      · rw [hf.openFound v siPolicy false hfile]
        simp [hfile]

/-- Opening a file to make it leaves a file that is there as it is. -/
theorem openFile_create (hf : f.Documented) (v : Volume) (path : String) :
    f.openFile v path true none = (.success, v.set path (some ((v path).getD []))) := by
  cases hfile : v path with
  | none => exact hf.openCreated v path hfile
  | some contents =>
      have hsame : v.set path (some contents) = v := by
        funext p
        rw [Volume.set]
        split_ifs with hp
        · rw [hp, hfile]
        · rfl
      rw [hf.openFound v path true (by rw [hfile]; exact Option.some_ne_none contents)]
      rw [Option.getD_some, hsame]

/-- A file that is deleted is gone, or stays where `Delete` does not succeed. -/
theorem deleteFile_none (hf : f.Documented) (status : Status) (h : v path = none) :
    f.deleteFile v path status path = none := by
  by_cases hstatus : status = .success
  · rw [hstatus, hf.deleted, Volume.set_same]
  · rw [hf.notDeleted v path status hstatus, h]

end Files

/-- The volume once the policy was written. -/
def written (fw : Firmware) (o : Outcomes) (v : Volume) : Volume :=
  v.set siPolicy (some ((siPolicyDefault fw o).take o.stored
    ++ ((v siPolicy).getD []).drop (storedBytes fw o)))

theorem Volume.set_set (v : Volume) (path : String) (old new : Option (List Byte)) :
    (v.set path old).set path new = v.set path new := by
  funext p
  unfold Volume.set
  split_ifs <;> rfl

theorem writeFile_new (hf : fw.file.Documented) (o : Outcomes) (v : Volume) :
    fw.file.writeFile (v.set siPolicy (some ((v siPolicy).getD []))) siPolicy
      (siPolicyDefault fw o) o.stored = written fw o v := by
  rw [hf.written, Volume.set_same, Option.getD_some, Volume.set_set]
  rfl

theorem Opens.not_missing (h : Opens o v) : ¬Missing o v := by
  rintro (⟨_, hfile⟩ | ⟨e, he, _⟩)
  · exact h.2 hfile
  · rw [h.1] at he
    exact absurd he.symm (Option.some_ne_none e)

/-- What can happen to a volume. -/
theorem tryWritePlatformSiPolicy_cases (hf : fw.file.Documented) (o : Outcomes) (v : Volume) :
    (¬Enrols fw o v ∧ (tryWritePlatformSiPolicy fw o v).enrolled = none ∧
      ((tryWritePlatformSiPolicy fw o v).volume = v ∨
        v bootmgfw ≠ none ∧
          (tryWritePlatformSiPolicy fw o v).volume = fw.file.deleteFile v siPolicy o.delete)) ∨
    (Enrols fw o v ∧ Opens o v ∧ (tryWritePlatformSiPolicy fw o v).volume = v ∧
      (tryWritePlatformSiPolicy fw o v).enrolled = some v) ∨
    (Enrols fw o v ∧ Missing o v ∧ (tryWritePlatformSiPolicy fw o v).volume = written fw o v ∧
      (tryWritePlatformSiPolicy fw o v).enrolled = some (written fw o v)) := by
  rw [tryWritePlatformSiPolicy]
  dsimp only
  by_cases hhandle : o.handleProtocol.isError = true
  · rw [if_pos hhandle]
    exact Or.inl ⟨fun h => absurd hhandle (Bool.eq_false_iff.mp h.handle), rfl, Or.inl rfl⟩
  rw [if_neg hhandle]
  rw [Bool.not_eq_true] at hhandle
  by_cases hvolume : o.openVolume.isError = true
  · rw [if_pos hvolume]
    exact Or.inl ⟨fun h => absurd hvolume (Bool.eq_false_iff.mp h.volume), rfl, Or.inl rfl⟩
  rw [if_neg hvolume, openFile_read hf v bootmgfw, openFile_read hf v siPolicy]
  rw [Bool.not_eq_true] at hvolume
  by_cases hboot : (fw.file.openFile v bootmgfw false o.openBootmgfw).1.isError = true
  · rw [if_pos hboot]
    refine Or.inl ⟨fun h => ?_, rfl, Or.inl rfl⟩
    exact absurd hboot (Bool.eq_false_iff.mp ((openFile_read_ok_iff hf).mpr h.bootmgfw))
  rw [if_neg hboot]
  rw [Bool.not_eq_true, openFile_read_ok_iff hf] at hboot
  -- Only a policy that is not found is written.
  by_cases hmissing : Missing o v
  · have hstatus := (openFile_notFound_iff hf).mpr hmissing
    rw [if_neg (fun h => h.2 hstatus), if_neg (not_not.mpr hstatus)]
    by_cases hoff : isSecureBootOn fw o = false
    · rw [if_pos hoff]
      exact Or.inl ⟨fun h => absurd h.on (Bool.eq_false_iff.mp hoff), rfl, Or.inl rfl⟩
    rw [if_neg hoff]
    rw [Bool.not_eq_false] at hoff
    -- It is enrolled once the new file could be created.
    cases hcreate : o.createSiPolicy with
    | some e =>
        rw [hf.openFailed, if_pos e.2]
        refine Or.inl ⟨fun h => ?_, rfl, Or.inl rfl⟩
        rcases h.file with hopens | ⟨_, hnone⟩
        · exact hopens.not_missing hmissing
        · rw [hcreate] at hnone
          exact absurd hnone (Option.some_ne_none e)
    | none =>
        rw [openFile_create hf, writeFile_new hf]
        exact Or.inr (Or.inr ⟨⟨hhandle, hvolume, hboot, hoff, Or.inr ⟨hmissing, hcreate⟩⟩,
          hmissing, rfl, rfl⟩)
  · have hstatus := fun h => hmissing ((openFile_notFound_iff hf).mp h)
    by_cases herror : (fw.file.openFile v siPolicy false o.openSiPolicy).1.isError = true
    · rw [if_pos ⟨herror, hstatus⟩]
      refine Or.inl ⟨fun h => ?_, rfl, Or.inl rfl⟩
      rcases h.file with hopens | ⟨hfile, _⟩
      · exact absurd herror (Bool.eq_false_iff.mp ((openFile_read_ok_iff hf).mpr hopens))
      · exact hmissing hfile
    rw [if_neg (fun h => herror h.1), if_pos hstatus]
    rw [Bool.not_eq_true, openFile_read_ok_iff hf] at herror
    -- An open policy is deleted when Secure Boot is off.
    by_cases hoff : isSecureBootOn fw o = false
    · rw [if_pos hoff]
      exact Or.inl ⟨fun h => absurd h.on (Bool.eq_false_iff.mp hoff), rfl,
        Or.inr ⟨hboot.2, rfl⟩⟩
    · rw [if_neg hoff]
      rw [Bool.not_eq_false] at hoff
      exact Or.inr (Or.inl ⟨⟨hhandle, hvolume, hboot, hoff, Or.inl herror⟩, herror, rfl, rfl⟩)

end Process

/-! ## One step -/

section Step

variable {fw : Firmware} {o : Outcomes} {v : Volume}

theorem bootmgfw_ne_siPolicy : bootmgfw ≠ siPolicy := by decide

/-- What is written begins with the bytes of the policy that are stored. -/
theorem siPolicyDefault_take {policy : List Byte} (h : fw.policy = some policy) :
    (siPolicyDefault fw o).take o.stored = policy.take (storedBytes fw o) := by
  unfold storedBytes siPolicyDefault
  cases o.getSection with
  | some e => simp
  | none =>
      rw [h]
      exact List.take_eq_take_min ..

/-- A volume that was written is complete when the bytes that were not stored are there. -/
theorem complete_written_iff (hboot : v bootmgfw ≠ none) :
    Complete fw (written fw o v) ↔ ∃ policy, fw.policy = some policy ∧
      ((v siPolicy).getD []).drop (storedBytes fw o) = policy.drop (storedBytes fw o) := by
  have hkept : written fw o v bootmgfw ≠ none := by
    rw [written, Volume.set_of_ne bootmgfw_ne_siPolicy]
    exact hboot
  rw [Complete, and_iff_right hkept]
  refine exists_congr fun policy => and_congr_right fun hpolicy => ?_
  have hsplit := List.take_append_drop (storedBytes fw o) policy
  rw [written, Volume.set_same, Option.some.injEq, siPolicyDefault_take hpolicy]
  constructor
  · intro h
    rw [← hsplit] at h
    nth_rewrite 1 [hsplit] at h
    exact List.append_cancel_left h
  · intro h
    rw [h, hsplit]

theorem enrolled_complete_iff (hf : fw.file.Documented) (s : State) (a : Arrival) :
    (∀ e ∈ (tryWritePlatformSiPolicy fw a.outcomes (s.volumes a.handle)).enrolled.toList,
      Complete fw e) ↔ StepOk fw s a := by
  rcases tryWritePlatformSiPolicy_cases hf a.outcomes (s.volumes a.handle) with
    ⟨hnot, hnone, _⟩ | ⟨henrols, hopens, _, hsome⟩ | ⟨henrols, hmissing, _, hsome⟩
  · rw [hnone]
    -- Nothing is enrolled.
    constructor
    · exact fun _ henrols => absurd henrols hnot
    · exact fun _ e he => absurd he List.not_mem_nil
  · rw [hsome, Option.toList_some, List.forall_mem_singleton, Complete,
      and_iff_right henrols.bootmgfw.2]
    constructor
    · rintro ⟨policy, hpolicy, hfile⟩ _
      exact ⟨policy, hpolicy, fun _ => hfile, fun h => absurd h hopens.not_missing⟩
    · intro h
      obtain ⟨policy, hpolicy, hfile, _⟩ := h henrols
      exact ⟨policy, hpolicy, hfile hopens⟩
  · rw [hsome, Option.toList_some, List.forall_mem_singleton,
      complete_written_iff henrols.bootmgfw.2]
    constructor
    · rintro ⟨policy, hpolicy, hrest⟩ _
      exact ⟨policy, hpolicy, fun h => absurd hmissing h.not_missing, fun _ => hrest⟩
    · intro h
      obtain ⟨policy, hpolicy, _, hrest⟩ := h henrols
      exact ⟨policy, hpolicy, hrest hmissing⟩

/-- A volume without a boot manager is left alone. -/
theorem tryWritePlatformSiPolicy_untouched (hf : fw.file.Documented) (h : v bootmgfw = none) :
    (tryWritePlatformSiPolicy fw o v).volume = v := by
  rcases tryWritePlatformSiPolicy_cases hf o v with
    ⟨_, _, hsame | ⟨hboot, _⟩⟩ | ⟨henrols, _⟩ | ⟨henrols, _⟩
  · exact hsame
  · exact absurd h hboot
  · exact absurd h henrols.bootmgfw.2
  · exact absurd h henrols.bootmgfw.2

theorem processHandle_untouched (hf : fw.file.Documented) {h : Handle}
    (hnone : v bootmgfw = none) (s : State) (a : Arrival) (hs : s.volumes h = v) : (processHandle fw s a).volumes h = v := by
  rw [processHandle]
  dsimp only
  split_ifs with hhere
  · subst hhere
    rw [hs]
    exact tryWritePlatformSiPolicy_untouched hf hnone
  · exact hs

theorem processHandle_off (hf : fw.file.Documented) (s : State) (a : Arrival) : OffLeaves fw s a := by
  intro hoff
  have hnot : ¬Enrols fw a.outcomes (s.volumes a.handle) :=
    fun henrols => absurd henrols.on (Bool.eq_false_iff.mp hoff)
  rcases tryWritePlatformSiPolicy_cases hf a.outcomes (s.volumes a.handle) with
    ⟨_, hnone, hvolume⟩ | ⟨henrols, _⟩ | ⟨henrols, _⟩
  · constructor
    · rw [processHandle, hnone, Option.toList_none, List.append_nil]
    · intro h hfile
      rw [processHandle]
      dsimp only
      split_ifs with hhere
      · subst hhere
        -- The volume stays, or the policy is deleted from it.
        rcases hvolume with hsame | ⟨_, hdeleted⟩
        · rw [hsame, hfile]
        · rw [hdeleted]
          exact deleteFile_none hf _ hfile
      · exact hfile
  · exact absurd henrols hnot
  · exact absurd henrols hnot

end Step

/-! ## All volumes -/

/-- The driver keeps its promise in a run exactly when every step meets the condition. -/
theorem provisions_iff {fw : Firmware} (hf : fw.file.Documented) (volumes : Handle → Volume)
    (notifications : List (List Arrival)) :
    Provisions fw volumes notifications ↔
      EveryStep (StepOk fw) (processHandle fw) ⟨volumes, []⟩ notifications.flatten := by
  have hlog : (∀ v ∈ (runNotifications fw ⟨volumes, []⟩ notifications).enrolled, Complete fw v) ↔
      EveryStep (StepOk fw) (processHandle fw) ⟨volumes, []⟩ notifications.flatten := by
    rw [runNotifications_eq]
    refine (log_iff_everyStep (fun _ _ => rfl) (enrolled_complete_iff hf)
      notifications.flatten ⟨volumes, []⟩).trans ?_
    exact and_iff_right fun e he => absurd he List.not_mem_nil
  constructor
  · exact fun h => hlog.mp h.enrolled
  · intro h
    refine ⟨hlog.mpr h, fun handle hnone => ?_, ?_⟩
    · rw [runNotifications_eq]
      exact run_invariant (I := fun s : State => s.volumes handle = volumes handle)
        (processHandle_untouched hf hnone) _ _ rfl
    · exact everyStep_of_forall (processHandle_off hf) _ _

/-! ## A policy that is written, and one that is cut -/

/-- A file system that does what is documented. -/
def fileSystem : FileProtocol where
  openFile v path create failure :=
    match failure with
    | some e => (e.1, v)
    | none =>
        match v path with
        | some _ => (.success, v)
        | none => if create then (.success, v.set path (some [])) else (.notFound, v)
  writeFile v path data stored :=
    v.set path (some (data.take stored ++ ((v path).getD []).drop (min stored data.length)))
  deleteFile v path status := if status = .success then v.set path none else v

theorem fileSystem_documented : fileSystem.Documented where
  openFailed _ _ _ _ := rfl
  openFound v path create h := by
    obtain ⟨contents, hfile⟩ := Option.ne_none_iff_exists'.mp h
    simp only [fileSystem, hfile]
  openMissing v path h := by simp [fileSystem, h]
  openCreated v path h := by simp [fileSystem, h]
  written _ _ _ _ := rfl
  deleted _ _ := rfl
  notDeleted _ _ _ h := if_neg h

/-- Secure Boot is on, and the policy has three bytes. -/
def policyFirmware : Firmware := ⟨true, some [1#8, 2#8, 3#8], fileSystem⟩

/-- A volume with a boot manager and no policy. -/
def bootVolume : Volume := fun path => if path = bootmgfw then some [0x4D#8, 0x5A#8] else none

/-- Everything goes well but `Write`, which stores one byte. -/
def shortWrite : Outcomes :=
  { getSection := none, handleProtocol := .success, openVolume := .success, openBootmgfw := none,
    openSiPolicy := none, getVariable := (.bufferTooSmall, 1), delete := .success,
    createSiPolicy := none, stored := 1, setSecureBootConfig := .success }

/-- `Write` stores the whole policy. -/
def wholeWrite : Outcomes := { shortWrite with stored := 3 }

theorem provisions_whole_write :
    Provisions policyFirmware (fun _ => bootVolume) [[⟨0#64, wholeWrite⟩]] := by
  have hstep : StepOk policyFirmware ⟨fun _ => bootVolume, []⟩ ⟨0#64, wholeWrite⟩ :=
    fun _ => ⟨[1#8, 2#8, 3#8], rfl, fun hopens => absurd (by decide) hopens.2, fun _ => rfl⟩
  exact (provisions_iff fileSystem_documented (fun _ => bootVolume)
    [[⟨0#64, wholeWrite⟩]]).mpr ⟨hstep, trivial⟩

/-- A policy of three bytes is cut to one, and the keys are enrolled. -/
theorem provisions_short_write : ¬∀ fw : Firmware, fw.file.Documented →
    ∀ volumes notifications, Provisions fw volumes notifications := by
  intro h
  have hfirst := (h policyFirmware fileSystem_documented (fun _ => bootVolume)
    [[⟨0#64, shortWrite⟩]]).enrolled
  have hrun : (runNotifications policyFirmware ⟨fun _ => bootVolume, []⟩
      [[⟨0#64, shortWrite⟩]]).enrolled.map (fun v => v siPolicy) = [some [1#8]] := by
    decide +kernel
  obtain ⟨v, hv, hfile⟩ : ∃ v ∈ (runNotifications policyFirmware
      ⟨fun _ => bootVolume, []⟩ [[⟨0#64, shortWrite⟩]]).enrolled, v siPolicy = some [1#8] := by
    rw [← List.mem_map, hrun]
    exact List.mem_singleton.mpr rfl
  obtain ⟨_, policy, hpolicy, hwhole⟩ := hfirst v hv
  rw [hfile] at hwhole
  exact absurd (hpolicy.trans hwhole.symm) (by decide)

end SecureBootProvisioning
