/-
  MsmnilePkg.BootOptions.RegisterDefaults

  MsBootOptionsLib.c: the default boot options.

  What the firmware answers is a parameter and the same for each call.  Pointers that
  the code passes itself and tests for NULL are left out, and so are the buffers that are
  freed, the texts that are printed and the assertions.
-/

import MsmnilePkg.Efi
import MsmnilePkg.Lib.Loop
import MsmnilePkg.BootOptions.LoadOptions

namespace BootOptions

open Efi Loop Reconcile

variable {σ : Type*}

/-! ## The firmware -/

/-- A firmware volume: the files with a PE32 section, and what `ReadSection` returns. -/
structure Volume where
  holds : Guid → Bool
  readSection : Guid → Status
  devicePath : Option DevicePath
  /-- A file that is not there cannot be read. -/
  absent : ∀ g, holds g = false → (readSection g).isError = true

structure Firmware where
  msBootPolicyFileGuid : Guid
  pcdUFPMenuFile : Guid
  pcdBootloaderMenuFile : Guid
  pcdShellFile : Guid
  pcdShellFvGuid : Guid
  /-- `HandleProtocol` for the loaded image, and for its firmware volume. -/
  loadedImage : Status
  loadedFrom : Status
  own : Volume
  /-- The handles that `LocateHandleBuffer` finds. -/
  volumes : List Volume
  /-- `AllocateCopyPool` finds memory for the template. -/
  copiesTemplate : Bool
  /-- There is memory for a device path. -/
  allocates : DevicePath → Bool
  initializeLoadOption : String → DevicePath → List (BitVec 8) → Status

/-- `AppendDevicePathNode` -/
def appendDevicePathNode (fw : Firmware) (path : Option DevicePath) (node : Node) :
    Option DevicePath :=
  let new := path.getD [] ++ [node]
  if fw.allocates new then some new else none

/-- `EfiBootManagerInitializeLoadOption` for a boot option. -/
def initializeLoadOption (fw : Firmware) (attributes : BitVec 32) (description : String)
    (path : DevicePath) (optionalData : List (BitVec 8)) : Except Status LoadOption :=
  let status := fw.initializeLoadOption description path optionalData
  if status.isError then .error status
  else .ok ⟨.boot, attributes, description, path, optionalData⟩

/-! ## The library -/

def internalFfuLoaderName : String := "FFU Loader"
def internalBootloaderMenuName : String := "Bootloader Menu"
def internalUefiShellName : String := "Internal UEFI Shell 2.0"
def msSddBoot : String := "Internal Storage"
def msUsbBoot : String := "USB Storage"
def msPxeBoot : String := "PXE Network"

/-- "SDD", "USB" and "PXE" with the NUL that `sizeof` counts. -/
def msSddBootParm : List (BitVec 8) := [0x53, 0x44, 0x44, 0]
def msUsbBootParm : List (BitVec 8) := [0x55, 0x53, 0x42, 0]
def msPxeBootParm : List (BitVec 8) := [0x50, 0x58, 0x45, 0]

/-- `CreateShellDevicePath`; `none` outside is a read of `FvHandleBuffer[0]` when there are
    no handles, for which `Status` still is the success it starts with. -/
def createShellDevicePath (fw : Firmware) : Option (Option DevicePath) :=
  match fw.volumes.find? fun v => !(v.readSection fw.pcdShellFile).isError with
  | some v => some v.devicePath
  | none => if fw.volumes.isEmpty then none else some none

/-- The end of `CreateFvBootOption`, from the second to last device path on. -/
def finishOption (fw : Firmware) (fileGuid : Guid) (description : String)
    (attributes : BitVec 32) (optionalData : List (BitVec 8)) (path : Option DevicePath) :
    Except Status LoadOption :=
  match appendDevicePathNode fw path (.fvFile fileGuid) with
  | none => .error .outOfResources
  | some path => initializeLoadOption fw attributes description path optionalData

/-- `CreateFvBootOption`; `none` is a read or a write through a pointer that leads nowhere. -/
def createFvBootOption (fw : Firmware) (fileGuid : Guid) (description : String)
    (attributes : BitVec 32) (optionalData : List (BitVec 8)) :
    Option (Except Status LoadOption) :=
  -- All files but the shell are those of the volume that the image was loaded from.
  if fileGuid ≠ fw.pcdShellFile then
    if fw.loadedImage.isError || fw.loadedFrom.isError
        || (fw.own.readSection fileGuid).isError then some (.error .notFound)
    else some (finishOption fw fileGuid description attributes optionalData fw.own.devicePath)
  -- Without a configured volume the shell is searched for in all of them.
  else if fw.pcdShellFvGuid = 0 then
    match createShellDevicePath fw with
    | none => none
    | some none => some (.error .notFound)
    | some (some path) =>
        some (finishOption fw fileGuid description attributes optionalData (some path))
  -- The name is copied into the template without a test for NULL.
  else if fw.copiesTemplate then
    some (finishOption fw fileGuid description attributes optionalData
      (some [.fvName fw.pcdShellFvGuid]))
  else none

/-- The arguments of `RegisterFvBootOption` in which the six calls differ. -/
structure Default where
  fileGuid : Guid
  description : String
  optionalData : List (BitVec 8)

def isShell (o : LoadOption) : Bool := decide (o.description = internalUefiShellName)

/-- `RegisterFvBootOption` with the position -1 and `LOAD_OPTION_ACTIVE`, and the number it
    returns; `none` is `LoadOptionNumberUnassigned`. -/
def registerFvBootOption (bm : BootManager σ) (fw : Firmware) (d : Default) (s : σ) :
    Option (Option Nat × σ) :=
  match createFvBootOption fw d.fileGuid d.description loadOptionActive d.optionalData with
  | none => none
  | some (.ok newOption) =>
      let bootOptions := bm.getLoadOptions s
      -- Looked for as it is, and then with the ACTIVE attribute toggled.
      let optionIndex :=
        match bm.findLoadOption newOption bootOptions with
        | some i => some i
        | none => bm.findLoadOption newOption.toggle bootOptions
      match optionIndex with
      | none =>
          let added := bm.addLoadOptionVariable newOption s
          some (some added.1, added.2)
      | some i => some ((bootOptions[i]?).map Prod.fst, s)
  | some (.error _) =>
      -- Whatever the error is, it is taken for a shell that is not there.
      if d.description = internalUefiShellName then
        some (none, bm.deleteAll isShell (bm.getLoadOptions s) s)
      else some (none, s)

def Firmware.shellDefault (fw : Firmware) : Default := ⟨fw.pcdShellFile, internalUefiShellName, []⟩

def Firmware.defaults (fw : Firmware) : List Default :=
  [⟨fw.msBootPolicyFileGuid, msSddBoot, msSddBootParm⟩,
    ⟨fw.msBootPolicyFileGuid, msUsbBoot, msUsbBootParm⟩,
    ⟨fw.msBootPolicyFileGuid, msPxeBoot, msPxeBootParm⟩,
    ⟨fw.pcdUFPMenuFile, internalFfuLoaderName, []⟩,
    ⟨fw.pcdBootloaderMenuFile, internalBootloaderMenuName, []⟩,
    fw.shellDefault]

/-- `MsBootOptionsLibRegisterDefaultBootOptions` -/
def registerDefaultBootOptions (bm : BootManager σ) (fw : Firmware) : σ → Option σ :=
  tryCalls (fun d s => (registerFvBootOption bm fw d s).map Prod.snd) fw.defaults

/-! ## What is asked of a run -/

/-- What becomes of a default. -/
def Firmware.create (fw : Firmware) (d : Default) : Option (Except Status LoadOption) :=
  createFvBootOption fw d.fileGuid d.description loadOptionActive d.optionalData

/-- The defaults that can be created. -/
def Firmware.created (fw : Firmware) : List LoadOption :=
  fw.defaults.filterMap fun d =>
    match fw.create d with
    | some (.ok o) => some o
    | _ => none

/-- No firmware volume has the shell. -/
def Firmware.ShellAbsent (fw : Firmware) : Prop :=
  ∀ v ∈ fw.volumes, v.holds fw.pcdShellFile = false

/-- A second run leaves the list as it is, no entry goes but the shell's when there is no
    shell, and what is added stands behind the others: one entry at most for each default
    that can be created, and none where one was there, active or not. -/
structure Registers (bm : BootManager σ) (fw : Firmware) (s s' : σ) : Prop where
  again : ∃ s'', registerDefaultBootOptions bm fw s' = some s'' ∧
    bm.getLoadOptions s'' = bm.getLoadOptions s'
  kept : ∀ e ∈ bm.getLoadOptions s, e ∈ bm.getLoadOptions s' ∨
    e.2.description = internalUefiShellName ∧ fw.ShellAbsent
  added : ∃ kept added, bm.getLoadOptions s' = kept ++ added ∧
    kept.Sublist (bm.getLoadOptions s) ∧ (added.map Prod.snd).Sublist fw.created ∧
    ∀ a ∈ added, ∀ e ∈ bm.getLoadOptions s, e.2 ≠ a.2 ∧ e.2 ≠ a.2.toggle

/-- The run goes through no pointer that leads nowhere. -/
def Firmware.Pointers (fw : Firmware) : Prop :=
  if fw.pcdShellFvGuid = 0 then fw.volumes ≠ [] else fw.copiesTemplate = true

/-- The device path of the volume that the shell is to be loaded from. -/
def Firmware.shellVolume (fw : Firmware) : Option DevicePath :=
  if fw.pcdShellFvGuid = 0 then
    (fw.volumes.find? fun v => !(v.readSection fw.pcdShellFile).isError).bind Volume.devicePath
  else some [.fvName fw.pcdShellFvGuid]

/-- There is a volume to load the shell from, and memory for the option. -/
def Firmware.ShellFits (fw : Firmware) : Prop :=
  ∃ path, fw.shellVolume = some path ∧ fw.allocates (path ++ [.fvFile fw.pcdShellFile]) = true ∧
    (fw.initializeLoadOption internalUefiShellName (path ++ [.fvFile fw.pcdShellFile])
      []).isError = false

/-! ## One option -/

section Create

variable {fw : Firmware}

theorem finishOption_ok {fileGuid : Guid} {description : String} {attributes : BitVec 32}
    {optionalData : List (BitVec 8)} {path : Option DevicePath} {o : LoadOption}
    (h : finishOption fw fileGuid description attributes optionalData path = .ok o) :
    o.description = description := by
  rw [finishOption] at h
  cases happend : appendDevicePathNode fw path (.fvFile fileGuid) with
  | none => simp [happend] at h
  | some new =>
      simp only [happend, initializeLoadOption] at h
      -- The option that is initialized has the description that was passed.
      split at h
      · exact absurd h (by simp)
      · rw [← Except.ok.inj h]

/-- An option has the description it is created with. -/
theorem create_description {d : Default} {o : LoadOption} (h : fw.create d = some (.ok o)) :
    o.description = d.description := by
  rw [Firmware.create, createFvBootOption] at h
  split at h
  · -- A file of the image's own volume.
    split at h
    · exact absurd h (by simp)
    · exact finishOption_ok (Option.some.inj h)
  · split at h
    · -- The shell, searched for or in a configured volume.
      split at h
      · exact absurd h (by simp)
      · exact absurd h (by simp)
      · exact finishOption_ok (Option.some.inj h)
    · split at h
      · exact finishOption_ok (Option.some.inj h)
      · exact absurd h (by simp)

theorem createShellDevicePath_none :
    createShellDevicePath fw = none ↔ fw.volumes = [] := by
  rw [createShellDevicePath]
  cases hfind : fw.volumes.find? fun v => !(v.readSection fw.pcdShellFile).isError with
  | some v =>
      have hmem := List.mem_of_find?_eq_some hfind
      -- A volume that is found is one of the volumes.
      simpa using fun hnil => by simp [hnil] at hmem
  | none => cases fw.volumes <;> simp

theorem create_none {d : Default} :
    fw.create d = none ↔ d.fileGuid = fw.pcdShellFile ∧ ¬fw.Pointers := by
  rw [Firmware.create, createFvBootOption, Firmware.Pointers]
  by_cases hfile : d.fileGuid = fw.pcdShellFile
  · rw [if_neg (not_not.mpr hfile)]
    by_cases hguid : fw.pcdShellFvGuid = 0
    · rw [if_pos hguid, if_pos hguid, not_not, ← createShellDevicePath_none]
      cases createShellDevicePath fw with
      | none => simp [hfile]
      | some path => cases path <;> simp
    · -- A configured volume only needs memory for the template.
      rw [if_neg hguid, if_neg hguid]
      cases fw.copiesTemplate <;> simp [hfile]
  · rw [if_pos hfile]
    simp only [hfile, false_and, iff_false]
    split <;> simp

/-- The shell is created exactly when it can be. -/
theorem create_shell_ok (fw : Firmware) : (∃ o, fw.create fw.shellDefault = some (.ok o)) ↔
    fw.Pointers ∧ fw.ShellFits := by
  have hfinish : ∀ path : DevicePath,
      (∃ o, finishOption fw fw.pcdShellFile internalUefiShellName loadOptionActive [] (some path)
        = .ok o) ↔
      fw.allocates (path ++ [.fvFile fw.pcdShellFile]) = true ∧
        (fw.initializeLoadOption internalUefiShellName (path ++ [.fvFile fw.pcdShellFile])
          []).isError = false := by
    intro path
    rw [finishOption, appendDevicePathNode, Option.getD_some]
    cases halloc : fw.allocates (path ++ [.fvFile fw.pcdShellFile]) with
    | false => simp
    | true =>
        simp only [if_true, initializeLoadOption]
        cases (fw.initializeLoadOption internalUefiShellName
          (path ++ [.fvFile fw.pcdShellFile]) []).isError <;> simp
  -- What remains is which path the shell is to be found on.
  rw [Firmware.create, createFvBootOption, Firmware.Pointers, Firmware.ShellFits,
    Firmware.shellVolume]
  simp only [Firmware.shellDefault, ne_eq, not_true_eq_false, if_false]
  by_cases hguid : fw.pcdShellFvGuid = 0
  · rw [if_pos hguid, if_pos hguid, if_pos hguid, ← createShellDevicePath_none,
      createShellDevicePath]
    cases hfind : fw.volumes.find? fun v => !(v.readSection fw.pcdShellFile).isError with
    | some v =>
        simp only [Option.bind_some]
        -- A volume without a device path has no path to the shell.
        cases hpath : v.devicePath with
        | none => simp
        | some path => simpa using hfinish path
    | none => cases fw.volumes <;> simp
  · rw [if_neg hguid, if_neg hguid, if_neg hguid]
    cases fw.copiesTemplate with
    | false => simp
    | true => simpa using hfinish [.fvName fw.pcdShellFvGuid]

end Create

/-! ## The calls as changes -/

/-- The change that a default asks for. -/
def Firmware.change (fw : Firmware) (d : Default) : Option (Change LoadOption) :=
  match fw.create d with
  | some (.ok o) => some (.put o)
  | some (.error _) =>
      if d.description = internalUefiShellName then some (.drop isShell) else none
  | none => none

def Firmware.changes (fw : Firmware) : List (Change LoadOption) :=
  fw.defaults.filterMap fw.change

section Changes

variable {fw : Firmware} {bm : BootManager σ}

/-- A default that is created is found, active or not, or added. -/
theorem registerFvBootOption_put (hbm : bm.Documented) {d : Default} {o : LoadOption}
    (hcreate : fw.create d = some (.ok o)) (s : σ) :
    ∃ r, registerFvBootOption bm fw d s = some r ∧
      Step Prod.snd LoadOption.key (.put o) (bm.getLoadOptions s) (bm.getLoadOptions r.2) := by
  rw [Firmware.create] at hcreate
  rw [registerFvBootOption]
  simp only [hcreate]
  cases hfirst : bm.findLoadOption o (bm.getLoadOptions s) with
  | some i =>
      obtain ⟨e, he, heq⟩ := hbm.found _ _ _ hfirst
      have hkey := (key_eq_iff e.2 o).mpr (.inl heq)
      exact ⟨_, rfl, .found (List.mem_of_getElem? he) hkey⟩
  | none =>
      cases hsecond : bm.findLoadOption o.toggle (bm.getLoadOptions s) with
      | some i =>
          obtain ⟨e, he, heq⟩ := hbm.found _ _ _ hsecond
          have hkey := (key_eq_iff e.2 o).mpr (.inr heq)
          exact ⟨_, rfl, .found (List.mem_of_getElem? he) hkey⟩
      | none =>
          refine ⟨_, rfl, ?_⟩
          show Step Prod.snd LoadOption.key (.put o) (bm.getLoadOptions s)
            (bm.getLoadOptions (bm.addLoadOptionVariable o s).2)
          rw [hbm.added]
          -- Neither probe has found it, so no entry has its key.
          refine .added (fun e he hkey => ?_) rfl
          rcases (key_eq_iff e.2 o).mp hkey with heq | heq
          · exact hbm.notFound _ _ hfirst e he heq
          · exact hbm.notFound _ _ hsecond e he heq

/-- One that is not changes nothing, the shell apart. -/
theorem registerFvBootOption_error {d : Default} {status : Status}
    (hcreate : fw.create d = some (.error status)) (s : σ) :
    registerFvBootOption bm fw d s = some (none,
      if d.description = internalUefiShellName then
        bm.deleteAll isShell (bm.getLoadOptions s) s
      else s) := by
  rw [Firmware.create] at hcreate
  rw [registerFvBootOption]
  simp only [hcreate]
  split <;> rfl

/-- Each call is the step of its change. -/
theorem registerFvBootOption_step (hbm : bm.Documented) {d : Default} (h : fw.create d ≠ none)
    (s : σ) :
    ∃ r, registerFvBootOption bm fw d s = some r ∧
      match fw.change d with
      | some c => Step Prod.snd LoadOption.key c (bm.getLoadOptions s) (bm.getLoadOptions r.2)
      | none => r.2 = s := by
  rw [Firmware.change]
  cases hcreate : fw.create d with
  | none => exact absurd hcreate h
  | some result =>
      cases result with
      | ok o => exact registerFvBootOption_put hbm hcreate s
      | error status =>
          refine ⟨_, registerFvBootOption_error hcreate s, ?_⟩
          by_cases hshell : d.description = internalUefiShellName
          · simp only [if_pos hshell, getLoadOptions_deleteAll_self hbm]
            exact .dropped
          · simp only [if_neg hshell]

/-- The calls for a list of defaults are a run of their changes. -/
theorem registerAll_run (hbm : bm.Documented) {ds : List Default}
    (h : ∀ d ∈ ds, fw.create d ≠ none) (s : σ) :
    ∃ s', tryCalls (fun d s => (registerFvBootOption bm fw d s).map Prod.snd) ds s = some s' ∧
      Run Prod.snd LoadOption.key (ds.filterMap fw.change) (bm.getLoadOptions s)
        (bm.getLoadOptions s') := by
  induction ds generalizing s with
  | nil => exact ⟨s, rfl, .done⟩
  | cons d ds ih =>
      -- The later calls run from the store that the first one leaves.
      obtain ⟨r, hr, hstep⟩ := registerFvBootOption_step hbm (h d List.mem_cons_self) s
      obtain ⟨s', hs', hrun⟩ := ih (fun d' hd' => h d' (List.mem_cons_of_mem d hd')) r.2
      refine ⟨s', ?_, ?_⟩
      · rw [tryCalls, hr]
        exact hs'
      · cases hchange : fw.change d with
        | none =>
            -- A default that asks for no change leaves the store as it is.
            simp only [hchange] at hstep
            rw [List.filterMap_cons_none hchange, ← hstep]
            exact hrun
        | some c =>
            simp only [hchange] at hstep
            rw [List.filterMap_cons_some hchange]
            exact .next hstep hrun

theorem registerDefaultBootOptions_run (hbm : bm.Documented) (h : fw.Pointers) (s : σ) :
    ∃ s', registerDefaultBootOptions bm fw s = some s' ∧
      Run Prod.snd LoadOption.key fw.changes (bm.getLoadOptions s) (bm.getLoadOptions s') :=
  registerAll_run hbm (fun _ _ hnone => (create_none.mp hnone).2 h) s

theorem registerDefaultBootOptions_none (h : ¬fw.Pointers) (s : σ) :
    registerDefaultBootOptions bm fw s = none := by
  apply tryCalls_none (c := fw.shellDefault)
  · simp [Firmware.defaults]
  · intro t
    have hcreate : fw.create fw.shellDefault = none := create_none.mpr ⟨rfl, h⟩
    rw [Firmware.create] at hcreate
    rw [registerFvBootOption]
    simp only [hcreate, Option.map_none]

/-! ## What the changes ask for -/

/-- Only the last default is called the shell. -/
theorem eq_shellDefault {d : Default} (hd : d ∈ fw.defaults)
    (h : d.description = internalUefiShellName) : d = fw.shellDefault := by
  simp only [Firmware.defaults, List.mem_cons, List.not_mem_nil, or_false] at hd
  rcases hd with rfl | rfl | rfl | rfl | rfl | rfl
  · exact absurd (show msSddBoot = internalUefiShellName from h) (by decide)
  · exact absurd (show msUsbBoot = internalUefiShellName from h) (by decide)
  · exact absurd (show msPxeBoot = internalUefiShellName from h) (by decide)
  · exact absurd (show internalFfuLoaderName = internalUefiShellName from h) (by decide)
  · exact absurd (show internalBootloaderMenuName = internalUefiShellName from h) (by decide)
  · rfl

theorem mem_changes_put {o : LoadOption} (h : .put o ∈ fw.changes) :
    ∃ d ∈ fw.defaults, fw.create d = some (.ok o) := by
  obtain ⟨d, hd, hchange⟩ := List.mem_filterMap.mp h
  refine ⟨d, hd, ?_⟩
  rw [Firmware.change] at hchange
  split at hchange
  · -- Only a default that is created is put.
    rename_i hcreate
    rw [hcreate, Change.put.inj (Option.some.inj hchange)]
  · split at hchange <;> simp at hchange
  · simp at hchange

/-- The shell's entries are dropped when the shell could not be created. -/
theorem mem_changes_drop {p : LoadOption → Bool} :
    .drop p ∈ fw.changes ↔
      p = isShell ∧ ∃ status, fw.create fw.shellDefault = some (.error status) := by
  constructor
  · intro h
    obtain ⟨d, hd, hchange⟩ := List.mem_filterMap.mp h
    rw [Firmware.change] at hchange
    split at hchange
    · simp at hchange
    · rename_i status hcreate
      split at hchange
      · rename_i hshell
        -- Only the shell default drops entries, and only when it fails.
        rw [eq_shellDefault hd hshell] at hcreate
        exact ⟨(Change.drop.inj (Option.some.inj hchange)).symm, status, hcreate⟩
      · simp at hchange
    · simp at hchange
  · rintro ⟨rfl, status, hcreate⟩
    refine List.mem_filterMap.mpr ⟨fw.shellDefault, by simp [Firmware.defaults], ?_⟩
    rw [Firmware.change, hcreate]
    exact if_pos rfl

theorem key_description {a b : LoadOption} (h : a.key = b.key) :
    a.description = b.description := by
  show a.key.description = b.key.description
  rw [h]

/-- What is dropped is not asked for by another default. -/
theorem changes_separate : Separate LoadOption.key fw.changes := by
  intro o p hput hdrop e hkey
  obtain ⟨d, hd, hcreate⟩ := mem_changes_put hput
  obtain ⟨rfl, status, hshell⟩ := mem_changes_drop.mp hdrop
  -- An option with the key of a default has that default's description.
  have hdescription : e.description = d.description :=
    (key_description hkey).trans (create_description hcreate)
  rw [isShell, decide_eq_false_iff_not, hdescription]
  intro hname
  -- With the name of the shell it would be the shell default, which failed.
  rw [eq_shellDefault hd hname, hshell] at hcreate
  exact absurd hcreate (by simp)

theorem puts_changes : puts fw.changes = fw.created := by
  rw [Firmware.changes, Firmware.created]
  induction fw.defaults with
  | nil => rfl
  | cons d ds ih =>
      rw [List.filterMap_cons, List.filterMap_cons, Firmware.change]
      cases fw.create d with
      | none => exact ih
      | some result =>
          cases result with
          | ok o => exact congrArg (o :: ·) ih
          | error status =>
              by_cases hshell : d.description = internalUefiShellName
              · simp only [if_pos hshell]
                exact ih
              · simp only [if_neg hshell]
                exact ih

end Changes

/-! ## The run -/

section Outcome

variable {bm : BootManager σ} {fw : Firmware} {s s' : σ}

/-- What holds of every run, and the entries that it drops. -/
theorem registers_of_run (hbm : bm.Documented) (h : fw.Pointers)
    (hrun : Run Prod.snd LoadOption.key fw.changes (bm.getLoadOptions s) (bm.getLoadOptions s'))
    (hdrop : ∀ e ∈ bm.getLoadOptions s, ∀ p, .drop p ∈ fw.changes → p e.2 = true →
      fw.ShellAbsent) :
    Registers bm fw s s' where
  again := by
    obtain ⟨s'', hs'', hagain⟩ := registerDefaultBootOptions_run hbm h s'
    exact ⟨s'', hs'', hrun.twice hagain changes_separate⟩
  kept := by
    intro e he
    rcases hrun.keeps he with hkept | ⟨p, hp, hpe⟩
    · exact .inl hkept
    · obtain ⟨rfl, _⟩ := mem_changes_drop.mp hp
      exact .inr ⟨of_decide_eq_true hpe, hdrop e he isShell hp hpe⟩
  added := by
    obtain ⟨kept, added, happend, hkept, hadded, hnew⟩ := hrun.adds changes_separate
    rw [puts_changes] at hadded
    refine ⟨kept, added, happend, hkept, hadded, fun a ha e he => ?_⟩
    have hkey := hnew a ha e he
    rw [Ne, key_eq_iff, not_or] at hkey
    exact hkey

end Outcome

/-- Registering the defaults keeps the list as it should exactly when the shell can be
    created, or is in no volume, or has no entry that could be lost. -/
theorem registerDefaultBootOptions_registers_iff {bm : BootManager σ} (hbm : bm.Documented)
    (fw : Firmware) (s : σ) :
    (∃ s', registerDefaultBootOptions bm fw s = some s' ∧ Registers bm fw s s') ↔
    fw.Pointers ∧ (fw.ShellFits ∨ fw.ShellAbsent ∨
      ∀ e ∈ bm.getLoadOptions s, e.2.description ≠ internalUefiShellName) := by
  by_cases hpointers : fw.Pointers
  · obtain ⟨s', hs', hrun⟩ := registerDefaultBootOptions_run hbm hpointers s
    -- The shell's entries are dropped exactly when the shell does not fit.
    have hdropped : ∀ p, .drop p ∈ fw.changes ↔ p = isShell ∧ ¬fw.ShellFits := by
      intro p
      rw [mem_changes_drop]
      have hok := create_shell_ok fw
      have hsome : fw.create fw.shellDefault ≠ none := fun h => (create_none.mp h).2 hpointers
      cases hcreate : fw.create fw.shellDefault with
      | none => exact absurd hcreate hsome
      | some result =>
          rw [hcreate] at hok
          cases result with
          | ok o => simp [(hok.mp ⟨o, rfl⟩).2]
          | error status =>
              have hnot : ¬fw.ShellFits := fun hfits => by
                obtain ⟨o, ho⟩ := hok.mpr ⟨hpointers, hfits⟩
                exact absurd ho (by simp)
              simp [hnot]
    constructor
    · rintro ⟨t, ht, hregisters⟩
      obtain rfl : s' = t := Option.some.inj (hs'.symm.trans ht)
      refine ⟨hpointers, ?_⟩
      by_contra hbad
      obtain ⟨hfits, habsent, hentry⟩ : ¬fw.ShellFits ∧ ¬fw.ShellAbsent ∧
          ∃ e ∈ bm.getLoadOptions s, e.2.description = internalUefiShellName := by
        simpa [not_or] using hbad
      obtain ⟨e, he, hname⟩ := hentry
      -- The shell's entry e is gone after the run, and the shell is not absent.
      rcases hregisters.kept e he with hkept | ⟨_, h⟩
      · have hsettled := hrun.settled changes_separate _ ((hdropped isShell).mpr ⟨rfl, hfits⟩)
        have hshell : isShell e.2 = true := decide_eq_true hname
        rw [hsettled e hkept] at hshell
        exact Bool.false_ne_true hshell
      · exact habsent h
    · rintro ⟨-, hgood⟩
      refine ⟨s', hs', registers_of_run hbm hpointers hrun fun e he p hp hpe => ?_⟩
      -- A dropped entry is one of the shell: it is absent, or there was none.
      obtain ⟨rfl, hfits⟩ := (hdropped p).mp hp
      rcases hgood with h | h | h
      · exact absurd h hfits
      · exact h
      · exact absurd (of_decide_eq_true hpe) (h e he)
  · -- A run through a pointer that leads nowhere has no result.
    refine iff_of_false ?_ fun h => hpointers h.1
    rintro ⟨s', hs', _⟩
    rw [registerDefaultBootOptions_none hpointers] at hs'
    exact absurd hs'.symm (Option.some_ne_none s')

/-! ## A shell that is kept, and one that is lost -/

/-- The number behind all others. -/
def behind (order : List Nat) : Nat := order.foldr (fun n next => max (n + 1) next) 0

theorem lt_behind {order : List Nat} {n : Nat} (h : n ∈ order) : n < behind order := by
  induction order with
  | nil => exact absurd h List.not_mem_nil
  | cons m order ih =>
      rw [behind, List.foldr_cons]
      rcases List.mem_cons.mp h with rfl | h
      · omega
      · have hlt : n < order.foldr (fun n next => max (n + 1) next) 0 := ih h
        omega

def numberBehind : Numbering where
  free := behind
  fresh _ h := Nat.lt_irrefl _ (lt_behind h)

/-- A volume with the shell, from which no section can be read for want of memory. -/
def fullVolume : Volume where
  holds _ := true
  readSection _ := .outOfResources
  devicePath := some []
  absent _ h := absurd h.symm Bool.false_ne_true

def fullFirmware : Firmware where
  msBootPolicyFileGuid := 1
  pcdUFPMenuFile := 2
  pcdBootloaderMenuFile := 3
  pcdShellFile := 4
  pcdShellFvGuid := 0
  loadedImage := .success
  loadedFrom := .success
  own := fullVolume
  volumes := [fullVolume]
  copiesTemplate := true
  allocates _ := true
  initializeLoadOption _ _ _ := .success

/-- `BootOrder` with the shell alone. -/
def shellStore : Store where
  order := [0]
  bootOption n :=
    if n = 0 then some ⟨.boot, 1#32, internalUefiShellName, [.fvFile 4], []⟩ else none

/-- The same firmware with memory for what is read. -/
def readableVolume : Volume := { fullVolume with
  readSection := fun _ => .success
  absent := fun _ h => absurd h.symm Bool.false_ne_true }

def readableFirmware : Firmware :=
  { fullFirmware with own := readableVolume, volumes := [readableVolume] }

theorem registerDefaultBootOptions_registers_readable :
    ∃ s', registerDefaultBootOptions (bootVariables numberBehind) readableFirmware shellStore
        = some s' ∧
      Registers (bootVariables numberBehind) readableFirmware shellStore s' := by
  have hpointers : readableFirmware.Pointers := List.cons_ne_nil readableVolume []
  have hfits : readableFirmware.ShellFits := ⟨[], rfl, rfl, rfl⟩
  have hdocumented := bootVariables_documented numberBehind
  exact (registerDefaultBootOptions_registers_iff hdocumented readableFirmware shellStore).mpr
    ⟨hpointers, .inl hfits⟩

theorem shellStore_loses_shell :
    ((registerDefaultBootOptions (bootVariables numberBehind) fullFirmware shellStore).map
        Store.entries = some [] ∧ fullVolume.holds fullFirmware.pcdShellFile = true) ∧
      ¬∃ s', registerDefaultBootOptions (bootVariables numberBehind) fullFirmware shellStore
          = some s' ∧
        Registers (bootVariables numberBehind) fullFirmware shellStore s' := by
  have hentries : (registerDefaultBootOptions (bootVariables numberBehind) fullFirmware
      shellStore).map Store.entries = some [] := by decide
  refine ⟨⟨hentries, rfl⟩, ?_⟩
  rintro ⟨s', hs', hregisters⟩
  rw [hs', Option.map_some, Option.some.injEq] at hentries
  have hshell : (0, ⟨.boot, 1#32, internalUefiShellName, [.fvFile 4], []⟩)
      ∈ shellStore.entries := by decide
  rcases hregisters.kept _ hshell with hkept | ⟨_, habsent⟩
  · have hnone : (0, _) ∈ s'.entries := hkept
    rw [hentries] at hnone
    exact List.not_mem_nil hnone
  · exact absurd (habsent fullVolume List.mem_cons_self) (by decide)

end BootOptions
