/-
  MsmnilePkg.SmBiosTable.LogSmbiosData

  SmBiosTableDxe: a record of the SMBIOS table, from a template and a pack of
  strings.

  The strings are measured in one pass and copied behind the template in
  another.  The record is what the tables of SMBIOS ask for when the pack is
  there, none of its strings is empty and its size fits a UINTN.
-/

import MsmnilePkg.Efi
import MsmnilePkg.Lib.ByteMem
import MsmnilePkg.Lib.StringArea

namespace SmBiosTable

open Efi ByteMem StringArea

/-! ## What the function is given -/

/-- A string of `CHAR8`, without its NUL. -/
structure AsciiString where
  chars : List Byte
  no_nul : 0#8 ∉ chars

/-- `AsciiStrSize` -/
def asciiStrSize (s : AsciiString) : BitVec 64 := BitVec.ofNat 64 (s.chars.length + 1)

/-- An SMBIOS structure that begins with `EFI_SMBIOS_TABLE_HEADER`: the type, the length of the
    whole, and a handle of two bytes. -/
structure Template where
  type : Byte
  length : Byte
  rest : List Byte
  length_eq : length.toNat = rest.length + 2
  header : 2 ≤ rest.length

def Template.bytes (t : Template) : List Byte := t.type :: t.length :: t.rest

@[simp] theorem Template.bytes_length (t : Template) : t.bytes.length = t.length.toNat := by
  simp [Template.bytes, t.length_eq]

/-- The firmware around the function. -/
structure Firmware where
  /-- `LocateProtocol (&gEfiSmbiosProtocolGuid, ..)` -/
  locate : Status
  /-- `AllocateZeroPool` returns memory. -/
  allocates : Bool
  /-- `Smbios->Add`, and the handle that it stores. -/
  add : List Byte → Status × BitVec 16

inductive Fault where
  /-- `StringPack[Index]` is read through `NULL`. -/
  | nullPack
  /-- A store behind the record. -/
  | outsideRecord
  deriving DecidableEq, Repr

/-- What a call leaves behind: the record that was added, and `*DataSmbiosHande`. -/
structure Outcome where
  status : Status
  added : Option (List Byte)
  dataSmbiosHande : Option (BitVec 16)

/-! ## The function -/

/-- The pass that measures the strings. -/
def addSizes (size : BitVec 64) (strings : List AsciiString) : BitVec 64 :=
  strings.foldl (fun size s => size + asciiStrSize s) size

/-- `Size` -/
def recordSize (template : Template) : Option (List AsciiString) → BitVec 64
  | none => template.length.setWidth 64 + 2#64
  | some strings =>
      let size := addSizes (template.length.setWidth 64) strings
      let size := if strings = [] then size + 1#64 else size
      size + 1#64

/-- `CopyMem` into the record. -/
def copyInto (record : List Byte) (offset : Nat) (src : List Byte) : Except Fault (List Byte) :=
  if offset + src.length ≤ record.length then
    .ok (record.take offset ++ src ++ record.drop (offset + src.length))
  else .error .outsideRecord

/-- The pass that copies the strings, and `Str` after it. -/
def appendStrings (record : List Byte) (str : Nat) :
    List AsciiString → Except Fault (List Byte × Nat)
  | [] => .ok (record, str)
  | s :: strings => do
      let record ← copyInto record str (s.chars ++ [0#8])
      appendStrings record (str + (s.chars.length + 1)) strings

/-- `Record->Length` -/
def recordLength (record : List Byte) : Nat := (record.getD 1 0#8).toNat

/-- The record, from `AllocateZeroPool (Size)` on to the last NUL. -/
def buildRecord (template : Template) (stringPack : Option (List AsciiString)) :
    Except Fault (List Byte) := do
  let record := List.replicate (recordSize template stringPack).toNat 0#8
  let record ← copyInto record 0 template.bytes
  match stringPack with
  | none => .error .nullPack
  | some strings =>
      let (record, str) ← appendStrings record (recordLength record) strings
      copyInto record str [0#8]

/-- `Smbios->Add`, and the handle for the caller. -/
def addRecord (fw : Firmware) (wantsHandle : Bool) (record : List Byte) : Outcome :=
  let (status, smbiosHandle) := fw.add record
  ⟨status, some record, if status = .success ∧ wantsHandle then some smbiosHandle else none⟩

/-- `LogSmbiosData`; `wantsHandle` tells whether `DataSmbiosHande` is not `NULL`. -/
def logSmbiosData (fw : Firmware) (template : Template) (stringPack : Option (List AsciiString))
    (wantsHandle : Bool) : Except Fault Outcome :=
  if fw.locate.isError then .ok ⟨fw.locate, none, none⟩
  else if fw.allocates = false then .ok ⟨.outOfResources, none, none⟩
  else (buildRecord template stringPack).map (addRecord fw wantsHandle)

/-! ## The two passes -/

/-- The strings of a pack, as lists of characters. -/
def texts (strings : List AsciiString) : List (List Byte) := strings.map AsciiString.chars

theorem no_nul_of_mem_texts (strings : List AsciiString) : ∀ t ∈ texts strings, 0#8 ∉ t := by
  intro t ht
  obtain ⟨s, -, rfl⟩ := List.mem_map.mp ht
  exact s.no_nul

/-- The size that the record needs. -/
def neededSize (template : Template) (strings : List AsciiString) : Nat :=
  template.length.toNat + (area 0#8 (texts strings)).length

@[simp] theorem texts_nil : texts [] = [] := rfl

theorem packed_texts_cons (s : AsciiString) (strings : List AsciiString) :
    packed 0#8 (texts (s :: strings)) = (s.chars ++ [0#8]) ++ packed 0#8 (texts strings) := by
  simp [texts]

theorem addSizes_eq (strings : List AsciiString) : ∀ size : BitVec 64,
    addSizes size strings = size + BitVec.ofNat 64 (packed 0#8 (texts strings)).length := by
  induction strings with
  | nil => simp [addSizes]
  | cons s strings ih =>
      intro size
      have hstep : addSizes size (s :: strings) = addSizes (size + asciiStrSize s) strings := rfl
      have hlength : (packed 0#8 (texts (s :: strings))).length
          = s.chars.length + 1 + (packed 0#8 (texts strings)).length := by
        rw [packed_texts_cons, List.length_append, List.length_append, List.length_singleton]
      rw [hstep, ih, BitVec.add_assoc, asciiStrSize, ← BitVec.ofNat_add, hlength]

/-- The first pass finds the size that is needed, as far as a `UINTN` holds it. -/
theorem recordSize_eq (template : Template) (strings : List AsciiString) :
    (recordSize template (some strings)).toNat = neededSize template strings % 2 ^ 64 := by
  have hsize : recordSize template (some strings)
      = BitVec.ofNat 64 (neededSize template strings) := by
    have hlength : template.length.setWidth 64 = BitVec.ofNat 64 template.length.toNat := by
      rw [← BitVec.ofNat_toNat]
    simp only [recordSize, neededSize, addSizes_eq, hlength, area]
    by_cases hnil : strings = []
    · -- No string: two more bytes for the double NUL.
      subst hnil
      simp [texts, BitVec.ofNat_add, BitVec.add_assoc]
    · have htexts : texts strings ≠ [] := by simpa [texts] using hnil
      simp [hnil, htexts, BitVec.ofNat_add, BitVec.add_assoc]
  rw [hsize, BitVec.toNat_ofNat]

section Copy

/-- A copy behind what has been filled, where there are zeros. -/
theorem copyInto_zeros (filled src : List Byte) {n : Nat} (h : src.length ≤ n) :
    copyInto (filled ++ List.replicate n 0#8) filled.length src
      = .ok ((filled ++ src) ++ List.replicate (n - src.length) 0#8) := by
  rw [copyInto, if_pos (by simp; omega)]
  simp [List.drop_append, List.append_assoc]

theorem copyInto_outside {record src : List Byte} {offset : Nat}
    (h : record.length < offset + src.length) :
    copyInto record offset src = .error .outsideRecord := by
  rw [copyInto, if_neg (by omega)]

theorem copyInto_ok {record record' src : List Byte} {offset : Nat}
    (h : copyInto record offset src = .ok record') : record'.length = record.length := by
  by_cases hle : offset + src.length ≤ record.length
  · rw [copyInto, if_pos hle] at h
    obtain rfl := Except.ok.inj h
    simp only [List.length_append, List.length_take, List.length_drop]
    omega
  · rw [copyInto, if_neg hle] at h
    cases h

/-- The second pass fills zeros with the strings, when there are enough of them. -/
theorem appendStrings_zeros (strings : List AsciiString) : ∀ (filled : List Byte) (n : Nat),
    (packed 0#8 (texts strings)).length ≤ n →
    appendStrings (filled ++ List.replicate n 0#8) filled.length strings
      = .ok ((filled ++ packed 0#8 (texts strings)) ++
          List.replicate (n - (packed 0#8 (texts strings)).length) 0#8,
        (filled ++ packed 0#8 (texts strings)).length) := by
  induction strings with
  | nil => simp [appendStrings]
  | cons s strings ih =>
      intro filled n hn
      rw [packed_texts_cons, List.length_append] at hn
      have hcopy := copyInto_zeros filled (s.chars ++ [0#8]) (n := n) (by omega)
      have hrest := ih (filled ++ (s.chars ++ [0#8])) (n - (s.chars ++ [0#8]).length) (by omega)
      have hlength : (filled ++ (s.chars ++ [0#8])).length
          = filled.length + (s.chars.length + 1) := by simp
      have hpack : filled ++ (s.chars ++ [0#8] ++ packed 0#8 (texts strings))
          = filled ++ (s.chars ++ [0#8]) ++ packed 0#8 (texts strings) :=
        (List.append_assoc ..).symm
      rw [hlength, Nat.sub_sub, ← List.length_append] at hrest
      rw [appendStrings, hcopy, packed_texts_cons, hpack]
      exact hrest

/-- However the second pass ends, it copied the strings one behind the other. -/
theorem appendStrings_ok (strings : List AsciiString) : ∀ (record : List Byte) (str : Nat)
    {record' : List Byte} {str' : Nat},
    appendStrings record str strings = .ok (record', str') →
    record'.length = record.length ∧ str' = str + (packed 0#8 (texts strings)).length := by
  induction strings with
  | nil =>
      intro record str record' str' h
      cases h
      simp
  | cons s strings ih =>
      intro record str record' str' h
      rw [appendStrings] at h
      cases hcopy : copyInto record str (s.chars ++ [0#8]) with
      | error e =>
          rw [hcopy] at h
          cases h
      | ok record₁ =>
          rw [hcopy] at h
          -- A copy keeps the length and goes on behind the NUL.
          obtain ⟨hlen, hstr⟩ := ih _ _ h
          refine ⟨hlen.trans (copyInto_ok hcopy), ?_⟩
          rw [hstr, packed_texts_cons, List.length_append, List.length_append,
            List.length_singleton, Nat.add_assoc]

end Copy

/-! ## The record -/

section Record

variable {template : Template} {strings : List AsciiString}

/-- The record has the length of the template in its header. -/
theorem recordLength_template (record : List Byte) :
    recordLength (template.bytes ++ record) = template.bytes.length := by
  rw [Template.bytes_length]
  rfl

/-- The strings, one more NUL, and what that leaves of a record of the needed size. -/
theorem area_length (strings : List AsciiString) :
    (packed 0#8 (texts strings)).length + 1 ≤ (area 0#8 (texts strings)).length ∧
      (packed 0#8 (texts strings) ++ [0#8]) ++
        List.replicate ((area 0#8 (texts strings)).length
          - (packed 0#8 (texts strings)).length - 1) 0#8 = area 0#8 (texts strings) := by
  by_cases hnil : texts strings = []
  · simp [area, hnil]
  · simp [area, hnil]

/-- When its size fits, the record is the template and the area of the pack. -/
theorem buildRecord_fits (hfits : neededSize template strings < 2 ^ 64) :
    buildRecord template (some strings) = .ok (template.bytes ++ area 0#8 (texts strings)) := by
  obtain ⟨hlength, harea⟩ := area_length strings
  have hsize : (recordSize template (some strings)).toNat
      = template.bytes.length + (area 0#8 (texts strings)).length := by
    rw [recordSize_eq, Nat.mod_eq_of_lt hfits, neededSize, Template.bytes_length]
  have htemplate := copyInto_zeros [] template.bytes
    (n := template.bytes.length + (area 0#8 (texts strings)).length) (by omega)
  rw [List.nil_append, List.nil_append, List.length_nil, Nat.add_sub_cancel_left] at htemplate
  have happend := appendStrings_zeros strings template.bytes
    (area 0#8 (texts strings)).length (by omega)
  have hlast := copyInto_zeros (template.bytes ++ packed 0#8 (texts strings)) [0#8]
    (n := (area 0#8 (texts strings)).length - (packed 0#8 (texts strings)).length)
    (by rw [List.length_singleton]; omega)
  rw [buildRecord, hsize, htemplate]
  show (appendStrings _ (recordLength _) strings).bind _ = _
  rw [recordLength_template, happend]
  show copyInto _ _ [0#8] = _
  rw [hlast, List.append_assoc, List.append_assoc, ← harea, List.length_singleton]
  simp

/-- When it does not, some store is behind the record. -/
theorem buildRecord_wraps (hwrap : 2 ^ 64 ≤ neededSize template strings) (record : List Byte) :
    buildRecord template (some strings) ≠ .ok record := by
  have hsize := recordSize_eq template strings
  have hneeded : neededSize template strings
      = template.length.toNat + ((packed 0#8 (texts strings)).length + 1) := by
    rw [neededSize, area]
    by_cases hnil : texts strings = []
    · -- The area of an empty pack is short.
      rw [neededSize, hnil] at hwrap
      simp [area] at hwrap
      omega
    · simp [hnil]
  intro h
  rw [buildRecord] at h
  cases hcopy : copyInto (List.replicate (recordSize template (some strings)).toNat 0#8) 0
      template.bytes with
  | error e =>
      rw [hcopy] at h
      cases h
  | ok record₁ =>
      have hlen₁ : record₁.length = (recordSize template (some strings)).toNat := by
        rw [copyInto_ok hcopy, List.length_replicate]
      rw [hcopy] at h
      cases happend : appendStrings record₁ (recordLength record₁) strings with
      | error e =>
          change (appendStrings record₁ (recordLength record₁) strings).bind _ = _ at h
          rw [happend] at h
          cases h
      | ok appended =>
          obtain ⟨record₂, str⟩ := appended
          obtain ⟨hlen₂, hend⟩ := appendStrings_ok strings _ _ happend
          -- The last NUL is at the end that was needed.
          have houtside : copyInto record₂ str [0#8] = .error .outsideRecord := by
            apply copyInto_outside
            rw [List.length_singleton]
            omega
          change (appendStrings record₁ (recordLength record₁) strings).bind _ = _ at h
          rw [happend] at h
          change copyInto record₂ str [0#8] = _ at h
          rw [houtside] at h
          cases h

end Record

/-! ## The whole function -/

/-- What is added is the template and an area from which the strings are read back. -/
def RecordOf (template : Template) (strings : List AsciiString) (record : List Byte) : Prop :=
  ∃ l, record = template.bytes ++ l ∧ readStrings 0#8 l = some (texts strings)

/-- The function ends without a read through `NULL` or a store behind the record, and a record
    that it adds is the right one. -/
def AddsRecord (fw : Firmware) (template : Template) (stringPack : Option (List AsciiString))
    (wantsHandle : Bool) : Prop :=
  ∃ out, logSmbiosData fw template stringPack wantsHandle = .ok out ∧
    ∀ record, out.added = some record → RecordOf template (stringPack.getD []) record

/-- The pack is there, its record has a size below 2 ^ 64, and its strings can be told from
    the end of the area. -/
structure PackOk (template : Template) (strings : List AsciiString) : Prop where
  fits : neededSize template strings < 2 ^ 64
  readable : Readable (texts strings)

section Whole

variable {fw : Firmware} {template : Template} {wantsHandle : Bool}

/-- Behind the two checks, a record is built and added. -/
theorem addsRecord_iff (hlocate : fw.locate.isError = false) (halloc : fw.allocates = true)
    (stringPack : Option (List AsciiString)) :
    AddsRecord fw template stringPack wantsHandle ↔
      ∃ record, buildRecord template stringPack = .ok record ∧
        RecordOf template (stringPack.getD []) record := by
  have hcall : logSmbiosData fw template stringPack wantsHandle
      = (buildRecord template stringPack).map (addRecord fw wantsHandle) := by
    simp [logSmbiosData, hlocate, halloc]
  rw [AddsRecord, hcall]
  cases buildRecord template stringPack with
  | error e => simp [Except.map]
  | ok record => simp [Except.map, addRecord]

/-- The record of a pack is right exactly when the pack is. -/
theorem buildRecord_iff (strings : List AsciiString) :
    (∃ record, buildRecord template (some strings) = .ok record ∧
      RecordOf template strings record) ↔ PackOk template strings := by
  by_cases hfits : neededSize template strings < 2 ^ 64
  · have hread := readStrings_area_iff (no_nul_of_mem_texts strings)
    rw [buildRecord_fits hfits]
    constructor
    · -- The record is the template and the area, so it is read back as the area is.
      rintro ⟨record, hok, l, heq, hl⟩
      obtain rfl := Except.ok.inj hok
      obtain rfl := List.append_cancel_left heq
      exact ⟨hfits, hread.mp hl⟩
    · intro h
      exact ⟨_, rfl, _, rfl, hread.mpr h.readable⟩
  · constructor
    · rintro ⟨record, hok, -⟩
      exact absurd hok (buildRecord_wraps (Nat.not_lt.mp hfits) record)
    · intro h
      exact absurd h.fits hfits

theorem buildRecord_null (record : List Byte) : buildRecord template none ≠ .ok record := by
  intro h
  rw [buildRecord] at h
  cases hcopy : copyInto (List.replicate (recordSize template none).toNat 0#8) 0
      template.bytes with
  -- The template does not fit; or it does, and the first string is read through `NULL`.
  | error e =>
      rw [hcopy] at h
      cases h
  | ok record₁ =>
      rw [hcopy] at h
      cases h

end Whole

/-- A record is right exactly when there is a pack whose size fits and whose strings can be
    told from the end; or when there is no protocol or no memory, and so no record. -/
theorem logSmbiosData_record_iff (fw : Firmware) (template : Template)
    (stringPack : Option (List AsciiString)) (wantsHandle : Bool) :
    AddsRecord fw template stringPack wantsHandle ↔
      fw.locate.isError = true ∨ fw.allocates = false ∨
        ∃ strings, stringPack = some strings ∧ PackOk template strings := by
  by_cases hlocate : fw.locate.isError = true
  · -- No protocol: nothing is added.
    have hcall : logSmbiosData fw template stringPack wantsHandle
        = .ok ⟨fw.locate, none, none⟩ := by
      simp [logSmbiosData, hlocate]
    simp [AddsRecord, hcall, hlocate]
  · by_cases halloc : fw.allocates = true
    · rw [addsRecord_iff (Bool.eq_false_iff.mpr hlocate) halloc]
      cases stringPack with
      | none => simp [buildRecord_null, hlocate, halloc]
      | some strings =>
          rw [Option.getD_some, buildRecord_iff]
          simp [hlocate, halloc]
    · -- No memory: nothing is added.
      have hcall : logSmbiosData fw template stringPack wantsHandle
          = .ok ⟨.outOfResources, none, none⟩ := by
        simp [logSmbiosData, hlocate, halloc]
      simp [AddsRecord, hcall, halloc]

/-! ## Samples -/

/-- `gSmbiosType12` of the comment above the function. -/
def sampleTemplate : Template := ⟨12#8, 5#8, [0#8, 0#8, 1#8], rfl, by decide⟩

def sampleFirmware : Firmware := ⟨.success, true, fun _ => (.success, 0#16)⟩

/-- A pack of `NULL`, which the comment allows, is read through. -/
theorem null_pack_faults :
    logSmbiosData sampleFirmware sampleTemplate none true = .error .nullPack ∧
      ¬ AddsRecord sampleFirmware sampleTemplate none true := by
  have hfault : logSmbiosData sampleFirmware sampleTemplate none true = .error .nullPack := by
    rfl
  refine ⟨hfault, ?_⟩
  rintro ⟨out, hok, -⟩
  rw [hfault] at hok
  cases hok

end SmBiosTable
