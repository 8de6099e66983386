import Hal9000.CommonLib.Base
import Hal9000.Lib.Bytes

set_option autoImplicit false

namespace Hal9000.Acpi

open Lib (Access)

structure Layout where
  sizeofTableMadt : Nat
  sizeofLocalApic : Nat
  sizeofIoApic : Nat
  sizeofInterruptOverride : Nat
  sizeofLocalApicNmi : Nat
  lapicFlags : Nat
  nmiFields : List Nat
  typeLocalApic : UInt8
  typeIoApic : UInt8
  typeInterruptOverride : UInt8
  typeLocalApicNmi : UInt8
  sizeofTableMcfg : Nat
  sizeofMcfgAllocation : Nat
  tables : sizeofTableMadt < 2 ^ 32 ∧ sizeofTableMcfg < 2 ^ 32
  headers : 2 ≤ sizeofLocalApic ∧ 2 ≤ sizeofIoApic ∧ 2 ≤ sizeofInterruptOverride ∧ 2 ≤ sizeofLocalApicNmi
  flags : lapicFlags + 4 ≤ sizeofLocalApic
  fields : forall field, field ∈ nmiFields -> field < sizeofLocalApicNmi
  types : [typeLocalApic, typeIoApic, typeInterruptOverride, typeLocalApicNmi].Nodup
  allocation : 0 < sizeofMcfgAllocation

structure AcpiTable where
  length : UInt32
  data : Nat -> UInt8

def AcpiTable.read (table : AcpiTable) (offset : Nat) : Access UInt8 :=
  if offset < table.length.toNat then .ok (table.data offset) else .error (.outOfBounds offset)

def AcpiTable.readAll (table : AcpiTable) : List Nat -> Access (List UInt8)
  | [] => pure []
  | offset :: rest => do
    let byte <- table.read offset
    let bytes <- table.readAll rest
    pure (byte :: bytes)

inductive AcpiStatus where
  | notFound
  | other
  deriving DecidableEq

inductive Status where
  | success
  | unsuccessful
  | deviceDoesNotExist
  | heapNoMoreMemory
  deriving DecidableEq, Repr

structure AcpiData where
  cpuList : List (List UInt8) := []
  ioApicList : List (List UInt8) := []
  intOverrideList : List (List UInt8) := []
  mcfgList : List (List UInt8) := []
  deriving DecidableEq

def apicProcessorActive : UInt8 := 0x1

def parseSubtable (layout : Layout) (table : AcpiTable) (allocates : AcpiData -> Bool) (header : Nat) (acpi : AcpiData) :
    Access (Option AcpiData) := do
  let type <- table.read header
  if type = layout.typeLocalApic then do
    let lapicFlags <- table.readAll (List.range' (header + layout.lapicFlags) 4)
    if lapicFlags.headD 0 &&& apicProcessorActive ≠ 0 then
      if allocates acpi then do
        let data <- table.readAll (List.range' header layout.sizeofLocalApic)
        pure (some { acpi with cpuList := acpi.cpuList ++ [data] })
      else pure none
    else pure (some acpi)
  else if type = layout.typeIoApic then
    if allocates acpi then do
      let data <- table.readAll (List.range' header layout.sizeofIoApic)
      pure (some { acpi with ioApicList := acpi.ioApicList ++ [data] })
    else pure none
  else if type = layout.typeInterruptOverride then
    if allocates acpi then do
      let data <- table.readAll (List.range' header layout.sizeofInterruptOverride)
      pure (some { acpi with intOverrideList := acpi.intOverrideList ++ [data] })
    else pure none
  else if type = layout.typeLocalApicNmi then do
    let _ <- table.readAll (layout.nmiFields.map (header + ·))
    pure (some acpi)
  else pure (some acpi)

def madtLoop (layout : Layout) (table : AcpiTable) (allocates : AcpiData -> Bool) (actualTableLength : Nat) :
    (fuel : Nat) -> (offsetInTable : Nat) -> AcpiData -> Access (Status × AcpiData)
  | 0, _, _ => .error .unfinished
  | fuel + 1, offsetInTable, acpi =>
    if offsetInTable < actualTableLength then do
      let header := layout.sizeofTableMadt + offsetInTable
      match <- parseSubtable layout table allocates header acpi with
      | none => pure (.heapNoMoreMemory, acpi)
      | some acpi => do
        let length <- table.read (header + 1)
        madtLoop layout table allocates actualTableLength fuel (dword (offsetInTable + length.toNat)) acpi
    else pure (.success, acpi)

def actualTableLength (table : AcpiTable) (sizeofTable : Nat) : Nat := dword (table.length.toNat + 2 ^ 32 - sizeofTable)

def acpiInterfaceParseMadt (layout : Layout) (acpiGetTable : Except AcpiStatus AcpiTable) (allocates : AcpiData -> Bool)
    (fuel : Nat) (acpi : AcpiData) : Access (Status × AcpiData) :=
  match acpiGetTable with
  | .error _ => pure (.unsuccessful, acpi)
  | .ok table => madtLoop layout table allocates (actualTableLength table layout.sizeofTableMadt) fuel 0 acpi

def mcfgLoop (layout : Layout) (table : AcpiTable) (allocates : AcpiData -> Bool) (actualTableLength : Nat) :
    (fuel : Nat) -> (offsetInTable : Nat) -> AcpiData -> Access (Status × AcpiData)
  | 0, _, _ => .error .unfinished
  | fuel + 1, offsetInTable, acpi =>
    if offsetInTable < actualTableLength then
      if allocates acpi then do
        let data <- table.readAll (List.range' (layout.sizeofTableMcfg + offsetInTable) layout.sizeofMcfgAllocation)
        mcfgLoop layout table allocates actualTableLength fuel (dword (offsetInTable + layout.sizeofMcfgAllocation))
          { acpi with mcfgList := acpi.mcfgList ++ [data] }
      else pure (.heapNoMoreMemory, acpi)
    else pure (.success, acpi)

def acpiInterfaceParseMcfg (layout : Layout) (acpiGetTable : Except AcpiStatus AcpiTable) (allocates : AcpiData -> Bool)
    (fuel : Nat) (acpi : AcpiData) : Access (Status × AcpiData) :=
  match acpiGetTable with
  | .error status => pure (if status = .notFound then .deviceDoesNotExist else .unsuccessful, acpi)
  | .ok table => mcfgLoop layout table allocates (actualTableLength table layout.sizeofTableMcfg) fuel 0 acpi

def AcpiTable.copy (table : AcpiTable) (size start : Nat) : List UInt8 := (List.range' start size).map table.data

section Description

variable (layout : Layout) (table : AcpiTable)

def typeAt (offset : Nat) : UInt8 := table.data (layout.sizeofTableMadt + offset)

def lengthAt (offset : Nat) : Nat := (table.data (layout.sizeofTableMadt + offset + 1)).toNat

def isActive (offset : Nat) : Bool := table.data (layout.sizeofTableMadt + offset + layout.lapicFlags) &&& apicProcessorActive != 0

def entriesOf (offsets : List Nat) : AcpiData where
  cpuList := (offsets.filter fun offset => typeAt layout table offset == layout.typeLocalApic && isActive layout table offset).map
    fun offset => table.copy layout.sizeofLocalApic (layout.sizeofTableMadt + offset)
  ioApicList := (offsets.filter fun offset => typeAt layout table offset == layout.typeIoApic).map
    fun offset => table.copy layout.sizeofIoApic (layout.sizeofTableMadt + offset)
  intOverrideList := (offsets.filter fun offset => typeAt layout table offset == layout.typeInterruptOverride).map
    fun offset => table.copy layout.sizeofInterruptOverride (layout.sizeofTableMadt + offset)

def bytesOf (offset : Nat) : List Nat :=
  let header := layout.sizeofTableMadt + offset
  header ::
    if typeAt layout table offset = layout.typeLocalApic then
      List.range' (header + layout.lapicFlags) 4 ++
        if isActive layout table offset then List.range' header layout.sizeofLocalApic else []
    else if typeAt layout table offset = layout.typeIoApic then List.range' header layout.sizeofIoApic
    else if typeAt layout table offset = layout.typeInterruptOverride then
      List.range' header layout.sizeofInterruptOverride
    else if typeAt layout table offset = layout.typeLocalApicNmi then layout.nmiFields.map (header + ·)
    else []

inductive Chain : Nat -> List Nat -> Prop
  | ends {offset : Nat} (behind : table.length.toNat ≤ layout.sizeofTableMadt + offset) : Chain offset []
  | next {offset : Nat} {offsets : List Nat} (inside : layout.sizeofTableMadt + offset + 1 < table.length.toNat)
      (readable : forall place, place ∈ bytesOf layout table offset -> place < table.length.toNat)
      (rest : Chain (dword (offset + lengthAt layout table offset)) offsets) : Chain offset (offset :: offsets)

def sizeFor (type : UInt8) : Nat :=
  if type = layout.typeLocalApic then layout.sizeofLocalApic
  else if type = layout.typeIoApic then layout.sizeofIoApic
  else if type = layout.typeInterruptOverride then layout.sizeofInterruptOverride
  else if type = layout.typeLocalApicNmi then layout.sizeofLocalApicNmi
  else 2

inductive WellFormed : Nat -> List Nat -> Prop
  | ends {offset : Nat} (whole : layout.sizeofTableMadt + offset = table.length.toNat) : WellFormed offset []
  | next {offset : Nat} {offsets : List Nat} (long : sizeFor layout (typeAt layout table offset) ≤ lengthAt layout table offset)
      (rest : WellFormed (offset + lengthAt layout table offset) offsets) : WellFormed offset (offset :: offsets)

end Description

def AcpiData.append (one other : AcpiData) : AcpiData where
  cpuList := one.cpuList ++ other.cpuList
  ioApicList := one.ioApicList ++ other.ioApicList
  intOverrideList := one.intOverrideList ++ other.intOverrideList
  mcfgList := one.mcfgList ++ other.mcfgList

def MadtParsed (layout : Layout) (table : AcpiTable) : Prop :=
  ∃ acpi, Access.Returns (fun fuel => acpiInterfaceParseMadt layout (.ok table) (fun _ => true) fuel {}) (.success, acpi) ∧
    forall offsets, WellFormed layout table 0 offsets -> acpi = entriesOf layout table offsets

def allocationsOf (layout : Layout) (table : AcpiTable) (count : Nat) : List (List UInt8) :=
  (List.range count).map fun index =>
    table.copy layout.sizeofMcfgAllocation (layout.sizeofTableMcfg + layout.sizeofMcfgAllocation * index)

def McfgParsed (layout : Layout) (table : AcpiTable) : Prop :=
  ∃ acpi, Access.Returns (fun fuel => acpiInterfaceParseMcfg layout (.ok table) (fun _ => true) fuel {}) (.success, acpi) ∧
    forall count, layout.sizeofTableMcfg + layout.sizeofMcfgAllocation * count = table.length.toNat ->
      acpi = { mcfgList := allocationsOf layout table count }

variable {layout : Layout} {table : AcpiTable} {offset header : Nat} {offsets : List Nat} {acpi : AcpiData}

section Reading

theorem read_iff {byte : UInt8} : table.read offset = .ok byte ↔ offset < table.length.toNat ∧ byte = table.data offset := by
  unfold AcpiTable.read
  split
  next inside => simp only [inside, true_and, Except.ok.injEq, eq_comm]
  next outside => simp only [outside, false_and, reduceCtorEq]

theorem readAll_iff {bytes : List UInt8} :
    table.readAll offsets = .ok bytes ↔
      (forall place, place ∈ offsets -> place < table.length.toNat) ∧ bytes = offsets.map table.data := by
  induction offsets generalizing bytes with
  | nil =>
    simp only [AcpiTable.readAll, pure, Except.pure, Except.ok.injEq, List.not_mem_nil, false_implies, implies_true, true_and,
      List.map_nil, eq_comm]
  | cons offset rest ih =>
    simp only [AcpiTable.readAll, Access.bind_eq_ok, read_iff, ih, pure, Except.pure, Except.ok.injEq, List.forall_mem_cons,
      List.map_cons]
    grind

theorem actualTableLength_eq {sizeofTable : Nat} (long : sizeofTable ≤ table.length.toNat) :
    actualTableLength table sizeofTable = table.length.toNat - sizeofTable := by
  have small := table.length.toNat_lt
  unfold actualTableLength dword
  omega

theorem actualTableLength_wraps {sizeofTable : Nat} (size : sizeofTable < 2 ^ 32) (short : table.length.toNat < sizeofTable) :
    0 < actualTableLength table sizeofTable := by
  unfold actualTableLength dword
  omega

end Reading

section Subtable

theorem types_distinct (layout : Layout) :
    layout.typeLocalApic ≠ layout.typeIoApic ∧ layout.typeLocalApic ≠ layout.typeInterruptOverride ∧
      layout.typeIoApic ≠ layout.typeInterruptOverride := by
  have distinct := layout.types
  simp only [List.nodup_cons, List.mem_cons, not_or] at distinct
  exact ⟨distinct.1.1, distinct.1.2.1, distinct.2.1.1⟩

theorem flags_head (layout : Layout) (table : AcpiTable) (offset : Nat) :
    (((List.range' (layout.sizeofTableMadt + offset + layout.lapicFlags) 4).map table.data).headD 0 &&& apicProcessorActive ≠ 0) ↔
      isActive layout table offset = true := by
  rw [isActive, bne_iff_ne]
  rfl

theorem entries_localApic (isLocal : typeAt layout table offset = layout.typeLocalApic) :
    acpi.append (entriesOf layout table [offset]) =
      if isActive layout table offset then
        { acpi with
          cpuList := acpi.cpuList ++ [table.copy layout.sizeofLocalApic (layout.sizeofTableMadt + offset)] }
      else acpi := by
  obtain ⟨ioApic, override, _⟩ := types_distinct layout
  by_cases active : isActive layout table offset = true
  next => simp [AcpiData.append, entriesOf, isLocal, active, ioApic, override]
  next => simp [AcpiData.append, entriesOf, isLocal, active, ioApic, override]

theorem entries_ioApic (isIoApic : typeAt layout table offset = layout.typeIoApic) :
    acpi.append (entriesOf layout table [offset]) =
      { acpi with
        ioApicList := acpi.ioApicList ++ [table.copy layout.sizeofIoApic (layout.sizeofTableMadt + offset)] } := by
  obtain ⟨ioApic, _, other⟩ := types_distinct layout
  simp [AcpiData.append, entriesOf, isIoApic, ioApic.symm, other]

theorem entries_override (isOverride : typeAt layout table offset = layout.typeInterruptOverride) :
    acpi.append (entriesOf layout table [offset]) =
      { acpi with
        intOverrideList := acpi.intOverrideList ++
          [table.copy layout.sizeofInterruptOverride (layout.sizeofTableMadt + offset)] } := by
  obtain ⟨_, override, other⟩ := types_distinct layout
  simp [AcpiData.append, entriesOf, isOverride, override.symm, other.symm]

theorem entries_other (notLocal : typeAt layout table offset ≠ layout.typeLocalApic)
    (notIoApic : typeAt layout table offset ≠ layout.typeIoApic)
    (notOverride : typeAt layout table offset ≠ layout.typeInterruptOverride) :
    acpi.append (entriesOf layout table [offset]) = acpi := by
  simp [AcpiData.append, entriesOf, notLocal, notIoApic, notOverride]

theorem copied_iff {places : List Nat} {add : List UInt8 -> AcpiData} {result : Option AcpiData} :
    (do
      let data <- table.readAll places
      (pure (some (add data)) : Access (Option AcpiData))) = .ok result ↔
      (forall place, place ∈ places -> place < table.length.toNat) ∧ result = some (add (places.map table.data)) := by
  simp only [Access.bind_eq_ok, readAll_iff, and_assoc, exists_and_left, exists_eq_left, pure, Except.pure, Except.ok.injEq]
  exact and_congr_right (fun _ => eq_comm)

theorem pure_iff {result other : Option AcpiData} : (pure other : Access (Option AcpiData)) = .ok result ↔ result = other := by
  simp only [pure, Except.pure, Except.ok.injEq]
  exact eq_comm

theorem parseSubtable_iff {result : Option AcpiData} :
    parseSubtable layout table (fun _ => true) (layout.sizeofTableMadt + offset) acpi = .ok result ↔
      (forall place, place ∈ bytesOf layout table offset -> place < table.length.toNat) ∧
        result = some (acpi.append (entriesOf layout table [offset])) := by
  obtain ⟨ioApic, override, other⟩ := types_distinct layout
  have type : table.data (layout.sizeofTableMadt + offset) = typeAt layout table offset := rfl
  simp only [parseSubtable, Access.bind_eq_ok, read_iff, and_assoc, exists_and_left, bytesOf,
    List.forall_mem_cons, type, exists_eq_left, if_true]
  refine and_congr_right (fun _ => ?_)
  by_cases isLocal : typeAt layout table offset = layout.typeLocalApic
  next =>
    simp only [isLocal, if_true, Access.bind_eq_ok, readAll_iff, and_assoc, exists_and_left, exists_eq_left, flags_head,
      List.forall_mem_append, entries_localApic isLocal]
    refine and_congr_right (fun _ => ?_)
    by_cases active : isActive layout table offset = true
    next =>
      rw [if_pos active, if_pos active, if_pos active]
      exact copied_iff
    next =>
      rw [if_neg active, if_neg active, if_neg active, pure_iff]
      exact (and_iff_right (fun _ inside => absurd inside List.not_mem_nil)).symm
  next =>
    rw [if_neg isLocal, if_neg isLocal]
    by_cases isIoApic : typeAt layout table offset = layout.typeIoApic
    next =>
      rw [if_pos isIoApic, if_pos isIoApic, entries_ioApic isIoApic]
      exact copied_iff
    next =>
      rw [if_neg isIoApic, if_neg isIoApic]
      by_cases isOverride : typeAt layout table offset = layout.typeInterruptOverride
      next =>
        rw [if_pos isOverride, if_pos isOverride, entries_override isOverride]
        exact copied_iff
      next =>
        rw [if_neg isOverride, if_neg isOverride, entries_other isLocal isIoApic isOverride]
        by_cases isNmi : typeAt layout table offset = layout.typeLocalApicNmi
        next =>
          rw [if_pos isNmi, if_pos isNmi]
          exact @copied_iff table _ (fun _ => acpi) result
        next =>
          rw [if_neg isNmi, if_neg isNmi, pure_iff]
          exact (and_iff_right (fun _ inside => absurd inside List.not_mem_nil)).symm

theorem entriesOf_cons (offset : Nat) (offsets : List Nat) :
    entriesOf layout table (offset :: offsets) =
      (entriesOf layout table [offset]).append (entriesOf layout table offsets) := by
  have split_ (matching : Nat -> Bool) (copy : Nat -> List UInt8) :
      ((offset :: offsets).filter matching).map copy = ([offset].filter matching).map copy ++ (offsets.filter matching).map copy := by
    rw [← List.map_append, ← List.filter_append, List.singleton_append]
  simp only [entriesOf, AcpiData.append, AcpiData.mk.injEq, List.append_nil, and_true]
  exact ⟨split_ _ _, split_ _ _, split_ _ _⟩

theorem append_assoc (one two three : AcpiData) : (one.append two).append three = one.append (two.append three) := by
  simp only [AcpiData.append, List.append_assoc]

theorem append_nil (acpi : AcpiData) : acpi.append (entriesOf layout table []) = acpi := by
  simp only [AcpiData.append, entriesOf, List.filter_nil, List.map_nil, List.append_nil]

end Subtable

section Madt

variable (long : layout.sizeofTableMadt ≤ table.length.toNat)
include long

attribute [local simp] madtLoop in
theorem madtLoop_returns (chain : Chain layout table offset offsets) :
    ∃ enough, forall fuel, enough ≤ fuel ->
      madtLoop layout table (fun _ => true) (actualTableLength table layout.sizeofTableMadt) fuel offset acpi =
        .ok (.success, acpi.append (entriesOf layout table offsets)) := by
  rw [actualTableLength_eq long]
  induction chain generalizing acpi with
  | ends behind =>
    refine ⟨1, fun fuel enough => ?_⟩
    obtain ⟨fuel, rfl⟩ := Nat.exists_eq_add_of_le' enough
    rw [madtLoop, if_neg (by omega), append_nil]
    rfl
  | @next offset offsets inside readable _ ih =>
    obtain ⟨least, returns⟩ := @ih (acpi.append (entriesOf layout table [offset]))
    refine ⟨least + 1, fun fuel enough => ?_⟩
    obtain ⟨fuel, rfl⟩ := Nat.exists_eq_add_of_le' (Nat.le_of_add_left_le enough)
    have parsed := (@parseSubtable_iff layout table offset acpi _).mpr ⟨readable, rfl⟩
    have length : table.read (layout.sizeofTableMadt + offset + 1) =
        .ok (table.data (layout.sizeofTableMadt + offset + 1)) := read_iff.mpr ⟨inside, rfl⟩
    have more : offset < table.length.toNat - layout.sizeofTableMadt := by omega
    simp only [madtLoop, more, if_true, parsed, Access.ok_bind, length]
    rw [entriesOf_cons offset offsets, ← append_assoc]
    exact returns fuel (by omega)

theorem chain_of_madtLoop {fuel : Nat} {result : Status × AcpiData}
    (returns : madtLoop layout table (fun _ => true) (actualTableLength table layout.sizeofTableMadt) fuel offset acpi =
      .ok result) : ∃ offsets, Chain layout table offset offsets := by
  rw [actualTableLength_eq long] at returns
  induction fuel generalizing offset acpi with
  | zero => cases returns
  | succ fuel ih =>
    rw [madtLoop] at returns
    split at returns
    next inside =>
      obtain ⟨parsed, run, returns⟩ := Access.bind_eq_ok.mp returns
      obtain ⟨readable, rfl⟩ := parseSubtable_iff.mp run
      obtain ⟨length, read, returns⟩ := Access.bind_eq_ok.mp returns
      obtain ⟨within, rfl⟩ := read_iff.mp read
      obtain ⟨offsets, rest⟩ := ih returns
      exact ⟨offset :: offsets, .next within readable rest⟩
    next behind => exact ⟨[], .ends (by omega)⟩

end Madt

theorem header_inside : layout.sizeofTableMadt + offset ∈ bytesOf layout table offset := List.mem_cons_self

theorem bytesOf_sizeFor {place : Nat} (inside : place ∈ bytesOf layout table offset) :
    place < layout.sizeofTableMadt + offset + sizeFor layout (typeAt layout table offset) := by
  obtain ⟨localApic, ioApic, override, nmi⟩ := layout.headers
  have flags := layout.flags
  have fields := layout.fields
  unfold bytesOf sizeFor at *
  simp only [List.mem_cons] at inside
  split at inside
  next isLocal =>
    simp only [isLocal, if_true, List.mem_append, List.mem_range'_1] at inside ⊢
    rcases inside with rfl | within | within
    · omega
    · omega
    · split at within
      · rw [List.mem_range'_1] at within
        omega
      · cases within
  next notLocal =>
    rw [if_neg notLocal]
    split at inside
    next isIoApic =>
      rw [if_pos isIoApic]
      simp only [List.mem_range'_1] at inside
      omega
    next notIoApic =>
      rw [if_neg notIoApic]
      split at inside
      next isOverride =>
        rw [if_pos isOverride]
        simp only [List.mem_range'_1] at inside
        omega
      next notOverride =>
        rw [if_neg notOverride]
        split at inside
        next isNmi =>
          rw [if_pos isNmi]
          simp only [List.mem_map] at inside
          rcases inside with rfl | ⟨field, listed, rfl⟩
          · omega
          · have := fields field listed
            omega
        next notNmi =>
          rw [if_neg notNmi]
          simp only [List.not_mem_nil, or_false] at inside
          omega

theorem sizeFor_header (type : UInt8) : 2 ≤ sizeFor layout type := by
  obtain ⟨localApic, ioApic, override, nmi⟩ := layout.headers
  unfold sizeFor
  split
  · exact localApic
  · split
    · exact ioApic
    · split
      · exact override
      · split
        · exact nmi
        · exact Nat.le_refl 2

theorem WellFormed.within (wellFormed : WellFormed layout table offset offsets) :
    layout.sizeofTableMadt + offset ≤ table.length.toNat := by
  induction wellFormed with
  | ends whole => exact Nat.le_of_eq whole
  | next _ _ ih => omega

theorem WellFormed.chain (wellFormed : WellFormed layout table offset offsets) : Chain layout table offset offsets := by
  induction wellFormed with
  | ends whole => exact .ends (Nat.le_of_eq whole.symm)
  | @next offset offsets long rest ih =>
    have within := rest.within
    have header := @sizeFor_header layout (typeAt layout table offset)
    have small := table.length.toNat_lt
    refine .next (by omega) (fun place inside => ?_) ?_
    · have here := bytesOf_sizeFor inside
      omega
    · rw [dword_of_lt (by omega)]
      exact ih

theorem madtParsed_iff (layout : Layout) (table : AcpiTable) :
    MadtParsed layout table ↔
      layout.sizeofTableMadt ≤ table.length.toNat ∧ ∃ offsets, Chain layout table 0 offsets := by
  constructor
  next =>
    rintro ⟨acpi, ⟨enough, returns⟩, _⟩
    have run := returns enough (Nat.le_refl _)
    by_cases long : layout.sizeofTableMadt ≤ table.length.toNat
    next => exact ⟨long, chain_of_madtLoop long run⟩
    next =>
      have wraps := actualTableLength_wraps layout.tables.1 (Nat.lt_of_not_le long)
      cases enough with
      | zero => cases run
      | succ fuel =>
        simp only [acpiInterfaceParseMadt, madtLoop, wraps, if_true] at run
        obtain ⟨parsed, subtable, _⟩ := Access.bind_eq_ok.mp run
        have inside := (parseSubtable_iff.mp subtable).1 _ header_inside
        omega
  next =>
    rintro ⟨long, offsets, chain⟩
    refine ⟨entriesOf layout table offsets, ?_, ?_⟩
    next =>
      obtain ⟨enough, returns⟩ := @madtLoop_returns layout table 0 offsets {} long chain
      exact ⟨enough, fun fuel more => (returns fuel more).trans rfl⟩
    next =>
      intro others wellFormed
      have unique : Access.Returns (fun fuel => acpiInterfaceParseMadt layout (.ok table) (fun _ => true) fuel {})
          (.success, ({} : AcpiData).append (entriesOf layout table offsets)) := madtLoop_returns long chain
      obtain ⟨enough, returns⟩ := @madtLoop_returns layout table 0 others {} long wellFormed.chain
      exact (Prod.mk.inj (unique.unique returns)).2

section Mcfg

variable (long : layout.sizeofTableMcfg ≤ table.length.toNat)
include long

attribute [local simp] mcfgLoop in
theorem mcfgLoop_returns {count : Nat}
    (whole : layout.sizeofTableMcfg + offset + layout.sizeofMcfgAllocation * count = table.length.toNat) :
    ∃ enough, forall fuel, enough ≤ fuel ->
      mcfgLoop layout table (fun _ => true) (actualTableLength table layout.sizeofTableMcfg) fuel offset acpi =
        .ok (.success, { acpi with
          mcfgList := acpi.mcfgList ++ (List.range count).map fun index =>
            table.copy layout.sizeofMcfgAllocation
              (layout.sizeofTableMcfg + offset + layout.sizeofMcfgAllocation * index) }) := by
  rw [actualTableLength_eq long]
  have positive := layout.allocation
  have small := table.length.toNat_lt
  induction count generalizing offset acpi with
  | zero =>
    refine ⟨1, fun fuel enough => ?_⟩
    obtain ⟨fuel, rfl⟩ := Nat.exists_eq_add_of_le' enough
    have behind : ¬ offset < table.length.toNat - layout.sizeofTableMcfg := by omega
    simp only [mcfgLoop, behind, if_false, List.range_zero, List.map_nil, List.append_nil]
    rfl
  | succ count ih =>
    have further : layout.sizeofTableMcfg + (offset + layout.sizeofMcfgAllocation) + layout.sizeofMcfgAllocation * count =
        table.length.toNat := by
      rw [← whole, Nat.mul_succ]
      omega
    obtain ⟨least, returns⟩ := @ih (offset + layout.sizeofMcfgAllocation) { acpi with
      mcfgList := acpi.mcfgList ++ [table.copy layout.sizeofMcfgAllocation (layout.sizeofTableMcfg + offset)] } further
    refine ⟨least + 1, fun fuel enough => ?_⟩
    obtain ⟨fuel, rfl⟩ := Nat.exists_eq_add_of_le' (Nat.le_of_add_left_le enough)
    have more : offset < table.length.toNat - layout.sizeofTableMcfg := by omega
    have readable : table.readAll (List.range' (layout.sizeofTableMcfg + offset) layout.sizeofMcfgAllocation) =
        .ok (table.copy layout.sizeofMcfgAllocation (layout.sizeofTableMcfg + offset)) := by
      refine readAll_iff.mpr ⟨fun place inside => ?_, rfl⟩
      rw [List.mem_range'_1] at inside
      omega
    have noWrap : dword (offset + layout.sizeofMcfgAllocation) = offset + layout.sizeofMcfgAllocation := dword_of_lt (by omega)
    have places (index : Nat) : layout.sizeofTableMcfg + (offset + layout.sizeofMcfgAllocation) +
        layout.sizeofMcfgAllocation * index = layout.sizeofTableMcfg + offset + layout.sizeofMcfgAllocation * (index + 1) := by
      rw [Nat.mul_succ]
      omega
    simp only [mcfgLoop, more, if_true, readable, Access.ok_bind, noWrap]
    rw [returns fuel (by omega)]
    simp only [List.append_assoc, List.singleton_append, List.range_succ_eq_map, List.map_cons, List.map_map,
      Function.comp_def, places, Nat.mul_zero, Nat.add_zero, Nat.succ_eq_add_one]

theorem whole_of_mcfgLoop {fuel : Nat} {result : Status × AcpiData}
    (within : layout.sizeofTableMcfg + offset ≤ table.length.toNat)
    (returns : mcfgLoop layout table (fun _ => true) (actualTableLength table layout.sizeofTableMcfg) fuel offset acpi =
      .ok result) :
    ∃ count, layout.sizeofTableMcfg + offset + layout.sizeofMcfgAllocation * count = table.length.toNat := by
  rw [actualTableLength_eq long] at returns
  have positive := layout.allocation
  have small := table.length.toNat_lt
  induction fuel generalizing offset acpi with
  | zero => cases returns
  | succ fuel ih =>
    simp only [mcfgLoop, if_true] at returns
    split at returns
    next inside =>
      obtain ⟨data, read, returns⟩ := Access.bind_eq_ok.mp returns
      have last := (readAll_iff.mp read).1 (layout.sizeofTableMcfg + offset + layout.sizeofMcfgAllocation - 1)
        (List.mem_range'_1.mpr (by omega))
      rw [dword_of_lt (by omega)] at returns
      obtain ⟨count, whole⟩ := ih (by omega) returns
      refine ⟨count + 1, ?_⟩
      rw [← whole, Nat.mul_succ]
      omega
    next behind => exact ⟨0, by omega⟩

end Mcfg

theorem mcfgParsed_iff (layout : Layout) (table : AcpiTable) :
    McfgParsed layout table ↔
      ∃ count, layout.sizeofTableMcfg + layout.sizeofMcfgAllocation * count = table.length.toNat := by
  constructor
  next =>
    rintro ⟨acpi, ⟨enough, returns⟩, _⟩
    have run := returns enough (Nat.le_refl _)
    by_cases long : layout.sizeofTableMcfg ≤ table.length.toNat
    next => exact whole_of_mcfgLoop long long run
    next =>
      have wraps := actualTableLength_wraps layout.tables.2 (Nat.lt_of_not_le long)
      have positive := layout.allocation
      cases enough with
      | zero => cases run
      | succ fuel =>
        simp only [acpiInterfaceParseMcfg, mcfgLoop, wraps, if_true] at run
        obtain ⟨data, read, _⟩ := Access.bind_eq_ok.mp run
        have first := (readAll_iff.mp read).1 (layout.sizeofTableMcfg + 0) (List.mem_range'_1.mpr (by omega))
        omega
  next =>
    rintro ⟨count, whole⟩
    have long : layout.sizeofTableMcfg ≤ table.length.toNat := by omega
    refine ⟨{ mcfgList := allocationsOf layout table count }, @mcfgLoop_returns layout table 0 {} long count whole, ?_⟩
    intro other same
    have equal : layout.sizeofMcfgAllocation * other = layout.sizeofMcfgAllocation * count := by omega
    rw [Nat.eq_of_mul_eq_mul_left layout.allocation equal]

theorem tables_parsed_iff (layout : Layout) (table : AcpiTable) :
    (MadtParsed layout table ↔
      layout.sizeofTableMadt ≤ table.length.toNat ∧ ∃ offsets, Chain layout table 0 offsets) ∧
    (forall offsets, WellFormed layout table 0 offsets ->
      layout.sizeofTableMadt ≤ table.length.toNat ∧ Chain layout table 0 offsets) ∧
    (McfgParsed layout table ↔
      ∃ count, layout.sizeofTableMcfg + layout.sizeofMcfgAllocation * count = table.length.toNat) :=
  ⟨madtParsed_iff layout table, fun _ wellFormed => ⟨wellFormed.within, wellFormed.chain⟩, mcfgParsed_iff layout table⟩

def acpiLayout : Layout where
  sizeofTableMadt := 44
  sizeofLocalApic := 8
  sizeofIoApic := 12
  sizeofInterruptOverride := 10
  sizeofLocalApicNmi := 6
  lapicFlags := 4
  nmiFields := [2, 3, 4, 5]
  typeLocalApic := 0
  typeIoApic := 1
  typeInterruptOverride := 2
  typeLocalApicNmi := 4
  sizeofTableMcfg := 44
  sizeofMcfgAllocation := 16
  tables := by decide
  headers := by decide
  flags := by decide
  fields := by decide
  types := by decide
  allocation := by decide

-- A table of zeros has subtables of length 0.
theorem madtLoop_stays (fuel : Nat) (acpi : AcpiData) :
    madtLoop acpiLayout ⟨60, fun _ => 0⟩ (fun _ => true) 16 fuel 0 acpi = .error .unfinished := by
  induction fuel generalizing acpi with
  | zero => rfl
  | succ fuel ih => exact ih acpi

-- A subtable of length 0, a MADT that is shorter than its header, and an MCFG with a remainder.
theorem tables_not_parsed :
    (forall fuel, acpiInterfaceParseMadt acpiLayout (.ok ⟨60, fun _ => 0⟩) (fun _ => true) fuel {} = .error .unfinished) ∧
      ¬ MadtParsed acpiLayout ⟨60, fun _ => 0⟩ ∧
      acpiInterfaceParseMadt acpiLayout (.ok ⟨43, fun _ => 0⟩) (fun _ => true) 1 {} = .error (.outOfBounds 44) ∧
      ¬ MadtParsed acpiLayout ⟨43, fun _ => 0⟩ ∧
      acpiInterfaceParseMcfg acpiLayout (.ok ⟨45, fun _ => 0⟩) (fun _ => true) 1 {} = .error (.outOfBounds 45) ∧
      ¬ McfgParsed acpiLayout ⟨45, fun _ => 0⟩ := by
  refine ⟨fun fuel => madtLoop_stays fuel {}, ?_, ?_, ?_, ?_, ?_⟩
  · rintro ⟨acpi, ⟨enough, returns⟩, _⟩
    cases (madtLoop_stays enough {}).symm.trans (returns enough (Nat.le_refl _))
  · have wraps : 0 < actualTableLength ⟨43, fun _ => 0⟩ acpiLayout.sizeofTableMadt :=
      actualTableLength_wraps acpiLayout.tables.1 (by decide)
    simp only [acpiInterfaceParseMadt, madtLoop, wraps, if_true]
    rfl
  · intro parsed
    exact absurd ((madtParsed_iff _ _).mp parsed).1 (by decide)
  · have remainder : actualTableLength ⟨45, fun _ => 0⟩ acpiLayout.sizeofTableMcfg = 1 := actualTableLength_eq (by decide)
    rw [acpiInterfaceParseMcfg, remainder]
    rfl
  · intro parsed
    obtain ⟨count, whole⟩ := (mcfgParsed_iff _ _).mp parsed
    have number : 44 + 16 * count = 45 := whole
    omega

end Hal9000.Acpi
