/-
  MsmnilePkg.AslUpdate.NameUpdate

  What UpdateNameAslCode does to the installed tables.

  The scan leaves the table unless it finds the name: the last of its reads
  begin inside the table and end behind it.  The value must fit behind the name,
  and the two calls of the protocol must end alike.
-/

import MsmnilePkg.AslUpdate.DxeAslUpdateLib

namespace AslUpdate

open Efi ByteMem

/-! ## Names -/

/-- The encoding of the name and the name stand before `p + 4`. -/
structure NameAt (bytes : List Byte) (signature : BitVec 32) (p : Nat) : Prop where
  pos : 1 ≤ p
  inside : p + 4 ≤ bytes.length
  op : bytes.getD (p - 1) 0#8 = amlNameOp
  name : wordAt bytes p = signature

/-- The lowest one. -/
structure FirstName (bytes : List Byte) (signature : BitVec 32) (p : Nat) : Prop where
  found : NameAt bytes signature p
  lowest : ∀ q < p, ¬ NameAt bytes signature q

theorem FirstName.unique {bytes : List Byte} {signature : BitVec 32} {p q : Nat}
    (hp : FirstName bytes signature p) (hq : FirstName bytes signature q) : p = q := by
  rcases Nat.lt_trichotomy p q with h | h | h
  · exact absurd hp.found (hq.lowest p h)
  · exact h
  · exact absurd hq.found (hp.lowest q h)

section Scan

variable {bytes : List Byte} {signature : BitVec 32}

theorem no_name_succ {p : Nat} (hbefore : ∀ q < p, ¬ NameAt bytes signature q)
    (h : ¬ NameAt bytes signature p) : ∀ q < p + 1, ¬ NameAt bytes signature q := by
  intro q hq
  rcases Nat.lt_succ_iff_lt_or_eq.mp hq with hlt | rfl
  · exact hbefore q hlt
  · exact h

/-- The scan ends at the first name from `p` on. -/
theorem scanName_found {q : Nat} (hq : FirstName bytes signature q) : ∀ (n p : Nat),
    p + n = bytes.length → p ≤ q → (p = 0 → wordAt bytes 0 ≠ signature) →
    scanName signature bytes n p = .ok (some q) := by
  have hinside := hq.found.inside
  intro n
  induction n with
  | zero => intro p hn hle _; omega
  | succ n ih =>
      intro p hn hle hfirst
      rw [scanName, if_neg (by omega)]
      by_cases hword : wordAt bytes p = signature
      · -- The letters of the name: is the encoding of a name in front of them?
        have hpos : p ≠ 0 := by
          rintro rfl
          exact hfirst rfl hword
        rw [if_pos hword, if_neg hpos]
        by_cases hop : bytes.getD (p - 1) 0#8 = amlNameOp
        · -- Here is a name, so it is the first one.
          have hname : NameAt bytes signature p := ⟨by omega, by omega, hop, hword⟩
          have heq : p = q := by
            by_contra hne
            exact hq.lowest p (by omega) hname
          rw [if_pos hop, heq]
        · have hne : p ≠ q := by
            rintro rfl
            exact hop hq.found.op
          rw [if_neg hop]
          exact ih (p + 1) (by omega) (by omega) (by omega)
      · have hne : p ≠ q := by
          rintro rfl
          exact hword hq.found.name
        rw [if_neg hword]
        exact ih (p + 1) (by omega) (by omega) (by omega)

/-- A scan that does not leave the table has found the first name. -/
theorem scanName_ok : ∀ (n p : Nat) {r : Option Nat}, p + n = bytes.length → 0 < n →
    (∀ q < p, ¬ NameAt bytes signature q) → scanName signature bytes n p = .ok r →
    (∃ q, r = some q ∧ FirstName bytes signature q) ∧ (p = 0 → wordAt bytes 0 ≠ signature) := by
  intro n
  induction n with
  | zero => intro p r _ hpos; omega
  | succ n ih =>
      intro p r hn _ hbefore h
      rw [scanName] at h
      by_cases hend : bytes.length < p + 4
      · -- The read ends behind the table.
        rw [if_pos hend] at h
        cases h
      · rw [if_neg hend] at h
        by_cases hword : wordAt bytes p = signature
        · rw [if_pos hword] at h
          by_cases hzero : p = 0
          · -- The byte before the table is read.
            rw [if_pos hzero] at h
            cases h
          · rw [if_neg hzero] at h
            by_cases hop : bytes.getD (p - 1) 0#8 = amlNameOp
            · -- Here is a name, and there was none before.
              rw [if_pos hop] at h
              obtain rfl := Except.ok.inj h
              refine ⟨⟨p, rfl, ⟨by omega, by omega, hop, hword⟩, hbefore⟩, ?_⟩
              intro heq
              exact absurd heq hzero
            · rw [if_neg hop] at h
              have hno := no_name_succ hbefore fun hname => hop hname.op
              refine ⟨(ih (p + 1) (by omega) (by omega) hno h).1, ?_⟩
              intro heq
              exact absurd heq hzero
        · rw [if_neg hword] at h
          have hno := no_name_succ hbefore fun hname => hword hname.name
          refine ⟨(ih (p + 1) (by omega) (by omega) hno h).1, ?_⟩
          rintro rfl
          exact hword

/-- The encoding of a name is none of the four letters that the table begins with. -/
theorem NameAt.behind_signature {p : Nat} (h : NameAt bytes signature p)
    (hdsdt : wordAt bytes 0 = dsdtSignature) : 5 ≤ p := by
  have hop := h.op
  obtain ⟨h0, h1, h2, h3⟩ := byteOf32_word32 (bytes.getD 0 0#8) (bytes.getD 1 0#8)
    (bytes.getD 2 0#8) (bytes.getD 3 0#8)
  change word32 (bytes.getD 0 0#8) (bytes.getD 1 0#8) (bytes.getD 2 0#8) (bytes.getD 3 0#8)
    = dsdtSignature at hdsdt
  rw [hdsdt] at h0 h1 h2 h3
  by_contra hlt
  have hcases : p - 1 = 0 ∨ p - 1 = 1 ∨ p - 1 = 2 ∨ p - 1 = 3 := by omega
  rcases hcases with heq | heq | heq | heq
  · rw [heq, ← h0] at hop
    exact absurd hop (by decide)
  · rw [heq, ← h1] at hop
    exact absurd hop (by decide)
  · rw [heq, ← h2] at hop
    exact absurd hop (by decide)
  · rw [heq, ← h3] at hop
    exact absurd hop (by decide)

end Scan

/-! ## The value -/

/-- The bytes behind `p + 5` are replaced by the value. -/
def replaced (bytes : List Byte) (p : Nat) (buffer : List Byte) : List Byte :=
  bytes.take (p + 5) ++ buffer ++ bytes.drop (p + 5 + buffer.length)

section Value

variable {bytes buffer : List Byte} {p : Nat}

theorem replaced_length (hp : p + 4 ≤ bytes.length)
    (hfits : buffer = [] ∨ p + 5 + buffer.length ≤ bytes.length) :
    (replaced bytes p buffer).length = bytes.length := by
  rw [replaced, List.length_append, List.length_append, List.length_take, List.length_drop]
  rcases hfits with rfl | hfits
  · -- A value without bytes fits everywhere.
    rw [List.length_nil]
    omega
  · omega

/-- What stands before the value is kept. -/
theorem replaced_before (hp : p + 4 ≤ bytes.length) {i : Nat} (hi : i < p + 4) :
    (replaced bytes p buffer).getD i 0#8 = bytes.getD i 0#8 := by
  have htake : i < (bytes.take (p + 5)).length := by
    rw [List.length_take]
    omega
  rw [List.getD_eq_getElem?_getD, List.getD_eq_getElem?_getD, replaced, List.append_assoc,
    List.getElem?_append_left htake, List.getElem?_take, if_pos (by omega)]

/-- So is the header. -/
theorem replaced_headerLength (hp : p + 4 ≤ bytes.length) (h5 : 5 ≤ p) :
    headerLength (replaced bytes p buffer) = headerLength bytes := by
  simp only [headerLength, wordAt]
  rw [replaced_before hp (by omega), replaced_before hp (by omega), replaced_before hp (by omega),
    replaced_before hp (by omega)]

end Value

/-! ## The tables -/

/-- The tables have keys of their own, and headers that tell their size. -/
structure TablesOk (tables : List InstalledTable) : Prop where
  keys : (tables.map InstalledTable.key).Nodup
  header : ∀ t ∈ tables, 36 ≤ t.bytes.length
  size : ∀ t ∈ tables, headerLength t.bytes = t.bytes.length

section Tables

variable {tables : List InstalledTable} {dsdt : InstalledTable}

/-- The table that is found is the first one with the signature. -/
theorem locate_some {signature : BitVec 32}
    (h : locateAcpiTableBySignature signature tables = some dsdt) :
    ∃ before after, tables = before ++ dsdt :: after ∧ wordAt dsdt.bytes 0 = signature ∧
      ∀ t ∈ before, wordAt t.bytes 0 ≠ signature := by
  induction tables with
  | nil => cases h
  | cons t tables ih =>
      rw [locateAcpiTableBySignature] at h
      by_cases hword : wordAt t.bytes 0 = signature
      · rw [if_pos hword] at h
        obtain rfl := Option.some.inj h
        exact ⟨[], tables, rfl, hword, by simp⟩
      · rw [if_neg hword] at h
        obtain ⟨before, after, rfl, hdsdt, hbefore⟩ := ih h
        refine ⟨t :: before, after, rfl, hdsdt, ?_⟩
        rw [List.forall_mem_cons]
        exact ⟨hword, hbefore⟩

theorem locate_append {signature : BitVec 32} {before : List InstalledTable}
    (hbefore : ∀ t ∈ before, wordAt t.bytes 0 ≠ signature)
    (hword : wordAt dsdt.bytes 0 = signature) (after : List InstalledTable) :
    locateAcpiTableBySignature signature (before ++ dsdt :: after) = some dsdt := by
  induction before with
  | nil => simp [locateAcpiTableBySignature, hword]
  | cons t before ih =>
      rw [List.forall_mem_cons] at hbefore
      rw [List.cons_append, locateAcpiTableBySignature, if_neg hbefore.1]
      exact ih hbefore.2

/-- Taking out a table by its key leaves the others. -/
theorem filter_key {before after : List InstalledTable}
    (h : ((before ++ dsdt :: after).map InstalledTable.key).Nodup) :
    (before ++ dsdt :: after).filter (fun t => t.key ≠ dsdt.key) = before ++ after := by
  rw [List.map_append, List.map_cons, List.nodup_append, List.nodup_cons] at h
  obtain ⟨-, ⟨hafter, -⟩, hbefore⟩ := h
  have hkeep : ∀ l : List InstalledTable, (∀ t ∈ l, t.key ≠ dsdt.key) →
      l.filter (fun t => t.key ≠ dsdt.key) = l := by
    intro l hl
    rw [List.filter_eq_self]
    intro t ht
    simpa using hl t ht
  rw [List.filter_append, List.filter_cons_of_neg (by simp), hkeep before, hkeep after]
  · intro t ht heq
    exact hafter (heq ▸ List.mem_map_of_mem ht)
  · intro t ht
    exact hbefore t.key (List.mem_map_of_mem ht) dsdt.key (List.mem_cons_self ..)

end Tables

/-! ## The whole function -/

/-- The value fits behind the name. -/
structure ValueAt (bytes : List Byte) (signature : BitVec 32) (length p : Nat) : Prop where
  name : NameAt bytes signature p
  fits : p + 5 + length ≤ bytes.length

/-- The tables are the old ones, but for the DSDT, whose value behind the lowest name is
    replaced. -/
def Replaces (signature : BitVec 32) (buffer : List Byte) (newKey : Nat)
    (tables tables' : List InstalledTable) : Prop :=
  ∃ before dsdt after p, tables = before ++ dsdt :: after ∧
    (∀ t ∈ before, wordAt t.bytes 0 ≠ dsdtSignature) ∧ wordAt dsdt.bytes 0 = dsdtSignature ∧
    ValueAt dsdt.bytes signature buffer.length p ∧
    (∀ q < p, ¬ ValueAt dsdt.bytes signature buffer.length q) ∧
    tables' = before ++ after ++ [⟨newKey, replaced dsdt.bytes p buffer⟩]

/-- The function ends without an access outside the table; after a success the value is
    replaced, after an error nothing is changed. -/
def Updates (fw : Firmware) (signature : BitVec 32) (buffer : List Byte)
    (tables : List InstalledTable) : Prop :=
  ∃ status tables', updateNameAslCode fw signature buffer tables = .ok (status, tables') ∧
    (status = .success → Replaces signature buffer fw.newKey tables tables') ∧
    (status.isError = true → tables' = tables)

/-- The DSDT has the name, with the value inside the table, and the two calls of the protocol
    end alike. -/
structure UpdateOk (fw : Firmware) (signature : BitVec 32) (buffer : List Byte)
    (dsdt : InstalledTable) (p : Nat) : Prop where
  other : signature ≠ dsdtSignature
  first : FirstName dsdt.bytes signature p
  inside : buffer = [] ∨ p + 5 + buffer.length ≤ dsdt.bytes.length
  success : fw.install = .success →
    fw.uninstall.isError = false ∧ p + 5 + buffer.length ≤ dsdt.bytes.length
  failure : fw.install.isError = true → fw.uninstall.isError = true

section Whole

variable {fw : Firmware} {signature : BitVec 32} {buffer : List Byte}
  {tables : List InstalledTable} {dsdt : InstalledTable}

/-- Without the protocols, the DSDT or memory for its copy, the function gives up. -/
theorem updateNameAslCode_none (h : (fw.acpiTable = false ∨ fw.acpiSdt = false) ∨
      locateAcpiTableBySignature dsdtSignature tables = none ∨ fw.allocates = false) :
    Updates fw signature buffer tables := by
  by_cases hready : fw.acpiTable = false ∨ fw.acpiSdt = false
  · refine ⟨.notReady, tables, ?_, by simp, fun _ => rfl⟩
    rw [updateNameAslCode, if_pos hready]
  · refine ⟨.notFound, tables, ?_, by simp, fun _ => rfl⟩
    rw [updateNameAslCode, if_neg hready]
    rcases h with h | h | h
    · exact absurd h hready
    · rw [h]
    · cases locateAcpiTableBySignature dsdtSignature tables with
      | none => rfl
      | some t => simp [h]

/-- The scan and the copy stay inside the table when it has the name, the name is not its
    signature, and the value fits. -/
theorem updateDsdt_ok_iff (fw : Firmware) (signature : BitVec 32) (buffer : List Byte)
    (tables : List InstalledTable) (hheader : 36 ≤ dsdt.bytes.length)
    (hsize : headerLength dsdt.bytes = dsdt.bytes.length)
    (hword : wordAt dsdt.bytes 0 = dsdtSignature) (result : Status × List InstalledTable) :
    updateDsdt fw signature buffer dsdt tables = .ok result ↔
      ∃ p, signature ≠ dsdtSignature ∧ FirstName dsdt.bytes signature p ∧
        (buffer = [] ∨ p + 5 + buffer.length ≤ dsdt.bytes.length) ∧
        result = (fw.install, fw.installAcpiTable (replaced dsdt.bytes p buffer)
          dsdt.bytes.length (fw.uninstallAcpiTable dsdt.key tables)) := by
  constructor
  · intro h
    rw [updateDsdt, hsize] at h
    cases hscan : scanName signature dsdt.bytes dsdt.bytes.length 0 with
    | error e =>
        rw [hscan] at h
        cases h
    | ok r =>
        obtain ⟨⟨p, rfl, hfirst⟩, hother⟩ := scanName_ok dsdt.bytes.length 0 (Nat.zero_add _)
          (by omega) (by omega) hscan
        have hinside := hfirst.found.inside
        have h5 := hfirst.found.behind_signature hword
        rw [hscan] at h
        change (copyValue dsdt.bytes p buffer).bind _ = _ at h
        by_cases hfits : buffer = [] ∨ p + 5 + buffer.length ≤ dsdt.bytes.length
        · rw [copyValue, if_pos hfits] at h
          obtain rfl := Except.ok.inj h
          have hlength := @replaced_headerLength dsdt.bytes buffer p hinside h5
          rw [hsize] at hlength
          refine ⟨p, fun heq => hother rfl (hword.trans heq.symm), hfirst, hfits, ?_⟩
          rw [← hlength]
          rfl
        · -- The value ends behind the table.
          rw [copyValue, if_neg hfits] at h
          cases h
  · rintro ⟨p, hother, hfirst, hfits, rfl⟩
    have hinside := hfirst.found.inside
    have h5 := hfirst.found.behind_signature hword
    have hscan := scanName_found hfirst dsdt.bytes.length 0 (Nat.zero_add _) (Nat.zero_le _)
      (fun _ heq => hother (heq.symm.trans hword))
    have hlength := @replaced_headerLength dsdt.bytes buffer p hinside h5
    rw [hsize] at hlength
    rw [updateDsdt, hsize, hscan]
    change (copyValue dsdt.bytes p buffer).bind _ = _
    rw [copyValue, if_pos hfits, ← hlength]
    rfl

section Swap

variable {before after : List InstalledTable} {p : Nat} (hfw : fw.Documented)
  (hkeys : ((before ++ dsdt :: after).map InstalledTable.key).Nodup)

include hfw hkeys

/-- After a success of `InstallAcpiTable` the value is replaced exactly when the old table was
    taken out and the value fits. -/
theorem replaces_iff (hbefore : ∀ t ∈ before, wordAt t.bytes 0 ≠ dsdtSignature)
    (hword : wordAt dsdt.bytes 0 = dsdtSignature) (hfirst : FirstName dsdt.bytes signature p)
    (hfits : buffer = [] ∨ p + 5 + buffer.length ≤ dsdt.bytes.length)
    (hinstall : fw.install.isError = false) :
    Replaces signature buffer fw.newKey (before ++ dsdt :: after)
        (fw.installAcpiTable (replaced dsdt.bytes p buffer) dsdt.bytes.length
          (fw.uninstallAcpiTable dsdt.key (before ++ dsdt :: after))) ↔
      fw.uninstall.isError = false ∧ p + 5 + buffer.length ≤ dsdt.bytes.length := by
  have htake : (replaced dsdt.bytes p buffer).take dsdt.bytes.length
      = replaced dsdt.bytes p buffer := by
    rw [← replaced_length hfirst.found.inside hfits, List.take_length]
  rw [hfw.installed hinstall, htake]
  constructor
  · rintro ⟨before', dsdt', after', p', heq, hbefore', hword', hvalue, -, htables⟩
    -- Both are the first table with the signature of the DSDT.
    have hsame : dsdt' = dsdt := by
      have hlocate := locate_append hbefore hword after
      rw [heq, locate_append hbefore' hword' after'] at hlocate
      exact Option.some.inj hlocate
    subst hsame
    constructor
    · by_contra hno
      rw [hfw.notUninstalled (by simpa using hno), heq] at htables
      have hlength := congrArg List.length htables
      simp at hlength
    · have hle : p ≤ p' := by
        by_contra hlt
        exact hfirst.lowest p' (by omega) hvalue.name
      have hfits' := hvalue.fits
      omega
  · rintro ⟨huninstall, hinside⟩
    rw [hfw.uninstalled huninstall, filter_key hkeys]
    refine ⟨before, dsdt, after, p, rfl, hbefore, hword, ⟨hfirst.found, hinside⟩, ?_, rfl⟩
    intro q hq hvalue
    exact hfirst.lowest q hq hvalue.name

/-- After an error of `InstallAcpiTable` the tables are the old ones exactly when the DSDT was
    not taken out. -/
theorem unchanged_iff (table : List Byte) (size : Nat) (hinstall : fw.install.isError = true) :
    fw.installAcpiTable table size (fw.uninstallAcpiTable dsdt.key (before ++ dsdt :: after))
        = before ++ dsdt :: after ↔ fw.uninstall.isError = true := by
  rw [hfw.notInstalled hinstall]
  cases huninstall : fw.uninstall.isError with
  | true => exact iff_of_true (hfw.notUninstalled huninstall _ _) rfl
  | false =>
      rw [hfw.uninstalled huninstall, filter_key hkeys]
      refine iff_of_false ?_ Bool.false_ne_true
      intro heq
      have hlength := congrArg List.length heq
      simp at hlength

end Swap

end Whole

/-- The function does what it should when it gives up before it has a copy of the DSDT, or the
    DSDT has the name with room for the value and the two calls of the protocol end alike; and
    only then. -/
theorem updateNameAslCode_iff {fw : Firmware} (hfw : fw.Documented) (signature : BitVec 32)
    (buffer : List Byte) (tables : List InstalledTable) (hwf : TablesOk tables) :
    Updates fw signature buffer tables ↔
      (fw.acpiTable = false ∨ fw.acpiSdt = false) ∨
        locateAcpiTableBySignature dsdtSignature tables = none ∨ fw.allocates = false ∨
        ∃ dsdt p, locateAcpiTableBySignature dsdtSignature tables = some dsdt ∧
          UpdateOk fw signature buffer dsdt p := by
  -- Where the function returns before the search there is nothing to show.
  by_cases hready : fw.acpiTable = false ∨ fw.acpiSdt = false
  · exact iff_of_true (updateNameAslCode_none (Or.inl hready)) (Or.inl hready)
  · by_cases halloc : fw.allocates = false
    · exact iff_of_true (updateNameAslCode_none (Or.inr (Or.inr halloc)))
        (Or.inr (Or.inr (Or.inl halloc)))
    · cases hdsdt : locateAcpiTableBySignature dsdtSignature tables with
      | none =>
          exact iff_of_true (updateNameAslCode_none (Or.inr (Or.inl hdsdt))) (Or.inr (Or.inl rfl))
      | some dsdt =>
          obtain ⟨before, after, rfl, hword, hbefore⟩ := locate_some hdsdt
          have hmem : dsdt ∈ before ++ dsdt :: after := by simp
          -- The rest of the function is the update of the DSDT.
          have hcall : updateNameAslCode fw signature buffer (before ++ dsdt :: after)
              = updateDsdt fw signature buffer dsdt (before ++ dsdt :: after) := by
            rw [updateNameAslCode, if_neg hready, hdsdt]
            exact if_neg halloc
          have hok := updateDsdt_ok_iff fw signature buffer (before ++ dsdt :: after)
            (hwf.header dsdt hmem) (hwf.size dsdt hmem) hword
          rw [Updates, hcall]
          constructor
          · rintro ⟨status, tables', hrun, hsuccess, herror⟩
            obtain ⟨p, hother, hfirst, hfits, heq⟩ := (hok _).mp hrun
            cases heq
            refine Or.inr (Or.inr (Or.inr ⟨dsdt, p, rfl, hother, hfirst, hfits, ?_, ?_⟩))
            · intro hinstall
              exact (replaces_iff hfw hwf.keys hbefore hword hfirst hfits
                (by simp [hinstall])).mp (hsuccess hinstall)
            · intro hinstall
              exact (unchanged_iff hfw hwf.keys _ _ hinstall).mp (herror hinstall)
          · rintro (hno | hno | hno | ⟨dsdt', p, hsome, h⟩)
            · exact absurd hno hready
            · cases hno
            · exact absurd hno halloc
            · obtain rfl := Option.some.inj hsome
              refine ⟨fw.install, _, (hok _).mpr ⟨p, h.other, h.first, h.inside, rfl⟩, ?_, ?_⟩
              · intro hinstall
                exact (replaces_iff hfw hwf.keys hbefore hword h.first h.inside
                  (by simp [hinstall])).mpr (h.success hinstall)
              · intro hinstall
                exact (unchanged_iff hfw hwf.keys _ _ hinstall).mpr (h.failure hinstall)

/-! ## Samples -/

/-- A DSDT of one name, `SOID`, with a value of four bytes. -/
def sampleDsdt : InstalledTable where
  key := 1
  bytes := [0x44#8, 0x53#8, 0x44#8, 0x54#8, 46#8, 0#8, 0#8, 0#8] ++ List.replicate 28 0#8 ++
    [0x08#8, 0x53#8, 0x4F#8, 0x49#8, 0x44#8, 0x0C#8, 0#8, 0#8, 0#8, 0#8]

/-- Firmware whose calls all succeed. -/
def sampleFirmware : Firmware where
  acpiTable := true
  acpiSdt := true
  allocates := true
  uninstall := .success
  uninstallAcpiTable handle tables := tables.filter fun t => t.key ≠ handle
  install := .success
  installAcpiTable table size tables := tables ++ [⟨2, table.take size⟩]
  newKey := 2

theorem sampleFirmware_documented : sampleFirmware.Documented where
  uninstalled _ _ _ := rfl
  notUninstalled h := absurd h Bool.false_ne_true
  installed _ _ _ _ := rfl
  notInstalled h := absurd h Bool.false_ne_true

theorem sampleDsdt_ok : TablesOk [sampleDsdt] := by
  constructor
  · decide
  · decide
  · decide

/-- `SIGNATURE_32 ('S', 'O', 'I', 'D')` -/
theorem updateNameAslCode_soid :
    Updates sampleFirmware 0x44494F53#32 [1#8, 2#8, 3#8, 4#8] [sampleDsdt] ↔
      (sampleFirmware.acpiTable = false ∨ sampleFirmware.acpiSdt = false) ∨
        locateAcpiTableBySignature dsdtSignature [sampleDsdt] = none ∨
        sampleFirmware.allocates = false ∨
        ∃ dsdt p, locateAcpiTableBySignature dsdtSignature [sampleDsdt] = some dsdt ∧
          UpdateOk sampleFirmware 0x44494F53#32 [1#8, 2#8, 3#8, 4#8] dsdt p :=
  updateNameAslCode_iff sampleFirmware_documented _ _ _ sampleDsdt_ok

/-- A name that the DSDT does not have: the scan reads behind the table. -/
theorem absent_name_leaves_table :
    updateNameAslCode sampleFirmware 0x524F5453#32 [1#8, 2#8, 3#8, 4#8] [sampleDsdt]
        = .error .outsideTable ∧
      ¬ Updates sampleFirmware 0x524F5453#32 [1#8, 2#8, 3#8, 4#8] [sampleDsdt] := by
  have hfault : updateNameAslCode sampleFirmware 0x524F5453#32 [1#8, 2#8, 3#8, 4#8] [sampleDsdt]
      = .error .outsideTable := by rfl
  refine ⟨hfault, ?_⟩
  rintro ⟨status, tables', hok, -⟩
  rw [hfault] at hok
  cases hok

end AslUpdate
