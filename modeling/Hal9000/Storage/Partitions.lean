import Hal9000.CommonLib.Base
import Hal9000.Lib.Walk
import Mathlib.Data.Fin.VecNotation
import Mathlib.Data.Finite.Prod
import Mathlib.Data.List.Perm.Subperm
import Mathlib.Data.List.TakeWhile
import Mathlib.Data.Set.Finite.Basic
import Mathlib.Data.Set.Finite.Range

set_option autoImplicit false

namespace Hal9000.Disk

open Lib (Follows Walk Tour Reaches)

inductive Status where
  | success
  | diskMbrNotPresent
  deriving DecidableEq, Repr

-- MBR_PARTITION_ENTRY; a CHS_ADDRESS is its three bytes.
structure MbrPartitionEntry where
  status : UInt8 := 0
  firstSectorCHS : Fin (2 ^ 24) := 0
  partitionType : UInt8 := 0
  lastSectorCHS : Fin (2 ^ 24) := 0
  firstSectorLBA : UInt32 := 0
  numberOfSectors : UInt32 := 0
  deriving DecidableEq, Repr

structure Mbr where
  partitions : Fin 4 -> MbrPartitionEntry
  bootSignature : UInt16

def mbrBootSignature : UInt16 := 0xAA55
def mbrNoOfPartitions : Nat := 4
def mbrExtPartitionNoOfEntries : Nat := 2
def mbrStatusActive : UInt8 := 0x80
def mbrStatusInactive : UInt8 := 0x00
def mbrPartitionExtendedChs : UInt8 := 0x5
def mbrPartitionExtendedLba : UInt8 := 0xF

namespace MbrPartitionEntry

def isZero (entry : MbrPartitionEntry) : Bool := entry == {}

def hasValidStatus (entry : MbrPartitionEntry) : Bool :=
  entry.status == mbrStatusActive || entry.status == mbrStatusInactive

def hasExtendedType (entry : MbrPartitionEntry) : Bool :=
  entry.partitionType == mbrPartitionExtendedLba || entry.partitionType == mbrPartitionExtendedChs

end MbrPartitionEntry

structure PartitionInformation where
  offsetInDisk : Nat := 0
  partitionSize : Nat := 0
  partitionType : UInt8 := 0
  bootable : Bool := false
  deriving DecidableEq, Repr

def sizeofPartitionInformation : Nat := 24
def sizeofDiskLayoutInformation : Nat := 8

structure DiskLayoutInformation where
  structureSize : Nat
  partitions : Nat -> PartitionInformation := fun _ => {}
  numberOfPartitions : Nat := 0

structure Place where
  diskOffset : Nat
  extendedPartition : Bool
  firstExtendedPartitionLBA : Nat
  deriving DecidableEq, Repr

structure Pass where
  partitionCount : Nat := 0
  layout : Option DiskLayoutInformation := none

def partitionInformation (entry : MbrPartitionEntry) (firstPartitionLBA : Nat) : PartitionInformation where
  offsetInDisk := firstPartitionLBA
  partitionSize := entry.numberOfSectors.toNat
  partitionType := entry.partitionType
  bootable := entry.status == mbrStatusActive

-- C gives a write behind the block no meaning.
def addPartition (pass : Pass) (information : PartitionInformation) : Kernel Pass :=
  match pass.layout with
  | none => pure { pass with partitionCount := dword (pass.partitionCount + 1) }
  | some layout => do
    assert (decide (sizeofDiskLayoutInformation + (pass.partitionCount + 1) * sizeofPartitionInformation ≤
      layout.structureSize)) "DiskLayoutInformation->Partitions[partitionCount]"
    pure
      { partitionCount := dword (pass.partitionCount + 1)
        layout := some
          { layout with partitions := Function.update layout.partitions pass.partitionCount information } }

def iterate (place : Place) : List MbrPartitionEntry -> Pass -> Kernel (Pass × Option Place)
  | [], pass => pure (pass, none)
  | entry :: rest, pass =>
    if place.extendedPartition && entry.isZero then pure (pass, none)
    else if !entry.hasValidStatus then iterate place rest pass
    else if entry.hasExtendedType then
      pure (pass, some
        { diskOffset := dword (entry.firstSectorLBA.toNat + place.firstExtendedPartitionLBA)
          extendedPartition := true
          firstExtendedPartitionLBA :=
            if place.extendedPartition then place.firstExtendedPartitionLBA else entry.firstSectorLBA.toNat })
    else do
      let pass <- addPartition pass
        (partitionInformation entry (dword (entry.firstSectorLBA.toNat + place.diskOffset)))
      iterate place rest pass

def entriesToIterateOver (place : Place) : Nat :=
  if place.extendedPartition then mbrExtPartitionNoOfEntries else mbrNoOfPartitions

def iteratedEntries (disk : Nat -> Mbr) (place : Place) : List MbrPartitionEntry :=
  (List.ofFn (disk place.diskOffset).partitions).take (entriesToIterateOver place)

-- Sectors are read and boot records allocated without failure; without a result the recursion goes on.
def diskRetrievePartitionsFromDiskStartingAtOffset (disk : Nat -> Mbr) :
    Nat -> Place -> Pass -> Option (Kernel (Status × Pass))
  | 0, _, _ => none
  | fuel + 1, place, pass =>
    if !(place.extendedPartition ^^ (0 == place.firstExtendedPartitionLBA)) then
      some (.error "ExtendedPartition ^ (0 == FirstExtendedPartitionLBA)")
    else if (disk place.diskOffset).bootSignature ≠ mbrBootSignature then some (.ok (.diskMbrNotPresent, pass))
    else
      match iterate place (iteratedEntries disk place) pass with
      | .error text => some (.error text)
      | .ok (pass, none) => some (.ok (.success, pass))
      | .ok (pass, some next) => diskRetrievePartitionsFromDiskStartingAtOffset disk fuel next pass

def masterBootRecord : Place :=
  { diskOffset := 0, extendedPartition := false, firstExtendedPartitionLBA := 0 }

-- The second component is what becomes of pDisk->DiskLayout.
def diskRetrievePartitionsFromDisk (disk : Nat -> Mbr) (fuel : Nat) :
    Option (Kernel (Status × Option DiskLayoutInformation)) :=
  match diskRetrievePartitionsFromDiskStartingAtOffset disk fuel masterBootRecord {} with
  | none => none
  | some (.error text) => some (.error text)
  | some (.ok (.diskMbrNotPresent, _)) => some (.ok (.diskMbrNotPresent, none))
  | some (.ok (.success, counted)) =>
    let structureSize :=
      dword (sizeofDiskLayoutInformation + counted.partitionCount * sizeofPartitionInformation)
    match diskRetrievePartitionsFromDiskStartingAtOffset disk fuel masterBootRecord
        { layout := some { structureSize := structureSize } } with
    | none => none
    | some (.error text) => some (.error text)
    | some (.ok (.diskMbrNotPresent, _)) => some (.ok (.diskMbrNotPresent, none))
    | some (.ok (.success, filled)) =>
      some (.ok (.success,
        filled.layout.map (fun layout => { layout with numberOfPartitions := filled.partitionCount })))

namespace MbrPartitionEntry

def isPartition (entry : MbrPartitionEntry) : Bool :=
  entry.hasValidStatus && !entry.hasExtendedType && entry.partitionType != 0

def isExtended (entry : MbrPartitionEntry) : Bool := entry.hasValidStatus && entry.hasExtendedType

end MbrPartitionEntry

def hasSignature (disk : Nat -> Mbr) (place : Place) : Bool :=
  (disk place.diskOffset).bootSignature == mbrBootSignature

def bootEntries (disk : Nat -> Mbr) (place : Place) : List MbrPartitionEntry :=
  if hasSignature disk place then iteratedEntries disk place else []

def partitionsAt (disk : Nat -> Mbr) (place : Place) : List PartitionInformation :=
  ((bootEntries disk place).filter MbrPartitionEntry.isPartition).map
    (fun entry => partitionInformation entry (entry.firstSectorLBA.toNat + place.diskOffset))

def linkedRecord (disk : Nat -> Mbr) (place : Place) : Option Place :=
  ((bootEntries disk place).find? MbrPartitionEntry.isExtended).map (fun entry =>
    { diskOffset := entry.firstSectorLBA.toNat + place.firstExtendedPartitionLBA
      extendedPartition := true
      firstExtendedPartitionLBA :=
        if place.extendedPartition then place.firstExtendedPartitionLBA else entry.firstSectorLBA.toNat })

section Reading

-- The entries that the loop goes over, up to the one that ends it.
def goesOn (place : Place) (entry : MbrPartitionEntry) : Bool :=
  !(place.extendedPartition && entry.isZero) && !entry.isExtended

def goneOver (disk : Nat -> Mbr) (place : Place) : List MbrPartitionEntry :=
  (bootEntries disk place).takeWhile (goesOn place)

def leftOver (disk : Nat -> Mbr) (place : Place) : List MbrPartitionEntry :=
  (bootEntries disk place).dropWhile (goesOn place)

def readFrom (place : Place) (leftOver : List MbrPartitionEntry) : Option Place :=
  match leftOver with
  | [] => none
  | entry :: _ =>
    if place.extendedPartition && entry.isZero then none
    else some
      { diskOffset := dword (entry.firstSectorLBA.toNat + place.firstExtendedPartitionLBA)
        extendedPartition := true
        firstExtendedPartitionLBA :=
          if place.extendedPartition then place.firstExtendedPartitionLBA else entry.firstSectorLBA.toNat }

def nextRead (disk : Nat -> Mbr) (place : Place) : Option Place := readFrom place (leftOver disk place)

def IsRead (disk : Nat -> Mbr) (place : Place) : Prop := Reaches (nextRead disk) masterBootRecord place

structure SumsExact (disk : Nat -> Mbr) (place : Place) : Prop where
  partitions : forall entry, entry ∈ goneOver disk place -> entry.hasValidStatus = true ->
    entry.firstSectorLBA.toNat + place.diskOffset < 2 ^ 32
  link : forall entry, (leftOver disk place).head? = some entry -> entry.isExtended = true ->
    entry.firstSectorLBA.toNat + place.firstExtendedPartitionLBA < 2 ^ 32

end Reading

structure Lists (layout : DiskLayoutInformation) (partitions : List PartitionInformation) : Prop where
  numberOfPartitions : layout.numberOfPartitions = partitions.length
  structureSize : layout.structureSize = sizeofDiskLayoutInformation + partitions.length * sizeofPartitionInformation
  listed : forall i partition, partitions[i]? = some partition -> layout.partitions i = partition

-- The enumeration returns, without a failed ASSERT or a write behind the layout, adds no two numbers beyond 32
-- bits, and where it succeeds lists the partitions of the chain of boot records in order.
structure EnumerationExact (disk : Nat -> Mbr) : Prop where
  returns : ∃ fuel outcome, diskRetrievePartitionsFromDisk disk fuel = some (.ok outcome)
  sums : forall place, IsRead disk place -> SumsExact disk place
  lists : forall fuel layout, diskRetrievePartitionsFromDisk disk fuel = some (.ok (.success, layout)) ->
    ∃ made chain, layout = some made ∧ Tour (linkedRecord disk) masterBootRecord chain ∧
      Lists made (chain.flatMap (partitionsAt disk))

def maxPartitions : Nat := 178956970

structure Listable (disk : Nat -> Mbr) : Prop where
  room : forall reads, Walk (nextRead disk) masterBootRecord reads ->
    (reads.flatMap (fun place => (goneOver disk place).filter MbrPartitionEntry.hasValidStatus)).length ≤ maxPartitions
  used : forall place, IsRead disk place -> forall entry, entry ∈ goneOver disk place ->
    entry.hasValidStatus = true -> entry.partitionType ≠ 0
  whole : forall place, Reaches (linkedRecord disk) masterBootRecord place -> partitionsAt disk place ≠ [] ->
    IsRead disk place ∧ forall entry, entry ∈ leftOver disk place -> entry.isPartition = false

-- The boot records that are read form no cycle, the extended partition does not start at sector 0 and no sum wraps
-- around; and if all have the signature, no entry gone over is empty and no partition is left out.
structure Enumerable (disk : Nat -> Mbr) : Prop where
  ends : ∃ reads, Walk (nextRead disk) masterBootRecord reads
  based : forall place, IsRead disk place -> place.extendedPartition = true -> place.firstExtendedPartitionLBA ≠ 0
  sums : forall place, IsRead disk place -> SumsExact disk place
  listable : (forall place, IsRead disk place -> hasSignature disk place = true) -> Listable disk

section Passes

variable {disk : Nat -> Mbr} {place : Place} {pass : Pass}

def addAll (informations : List PartitionInformation) (pass : Pass) : Kernel Pass :=
  informations.foldlM addPartition pass

theorem addAll_append (first second : List PartitionInformation) (pass : Pass) :
    addAll (first ++ second) pass = addAll first pass >>= addAll second := List.foldlM_append

def taken (place : Place) (entries : List MbrPartitionEntry) : List PartitionInformation :=
  (entries.filter MbrPartitionEntry.hasValidStatus).map
    (fun entry => partitionInformation entry (dword (entry.firstSectorLBA.toNat + place.diskOffset)))

def takenAt (disk : Nat -> Mbr) (place : Place) : List PartitionInformation := taken place (goneOver disk place)

theorem goesOn_eq (place : Place) (entry : MbrPartitionEntry) :
    goesOn place entry =
      (!(place.extendedPartition && entry.isZero) && !(entry.hasValidStatus && entry.hasExtendedType)) := rfl

theorem iterate_eq (place : Place) (entries : List MbrPartitionEntry) (pass : Pass) :
    iterate place entries pass = (do
      let pass <- addAll (taken place (entries.takeWhile (goesOn place))) pass
      pure (pass, readFrom place (entries.dropWhile (goesOn place)))) := by
  induction entries generalizing pass with
  | nil => rfl
  | cons entry rest ih =>
    rw [iterate]
    by_cases zero : (place.extendedPartition && entry.isZero) = true
    · have stops : goesOn place entry = false := by rw [goesOn_eq, zero]; rfl
      rw [if_pos zero, List.takeWhile_cons, List.dropWhile_cons]
      simp only [stops, Bool.false_eq_true, if_false, readFrom, zero, if_true]
      rfl
    · rw [if_neg zero]
      rw [Bool.not_eq_true] at zero
      cases valid : entry.hasValidStatus with
      | false =>
        have goes : goesOn place entry = true := by rw [goesOn_eq, zero, valid]; rfl
        rw [List.takeWhile_cons, List.dropWhile_cons]
        simp only [goes, Bool.not_false, if_true, ih]
        rw [taken, taken, List.filter_cons_of_neg (by simp [valid])]
      | true =>
        cases extended : entry.hasExtendedType with
        | true =>
          have stops : goesOn place entry = false := by rw [goesOn_eq, zero, valid, extended]; rfl
          rw [List.takeWhile_cons, List.dropWhile_cons]
          simp only [stops, Bool.false_eq_true, if_false, readFrom, zero, Bool.not_true, if_true]
          rfl
        | false =>
          have goes : goesOn place entry = true := by rw [goesOn_eq, zero, valid, extended]; rfl
          rw [List.takeWhile_cons, List.dropWhile_cons]
          simp only [goes, Bool.not_true, Bool.false_eq_true, if_false, if_true, ih]
          rw [taken, taken, List.filter_cons_of_pos valid, List.map_cons, addAll, List.foldlM_cons, bind_assoc]
          rfl

def Based (place : Place) : Prop := (place.extendedPartition ^^ (0 == place.firstExtendedPartitionLBA)) = true

instance (place : Place) : Decidable (Based place) := inferInstanceAs (Decidable (_ = true))

theorem retrieve_step (disk : Nat -> Mbr) (fuel : Nat) (place : Place) (pass : Pass) :
    (¬ Based place ∧ ∃ text,
      diskRetrievePartitionsFromDiskStartingAtOffset disk (fuel + 1) place pass = some (.error text)) ∨
    (Based place ∧ hasSignature disk place = false ∧
      diskRetrievePartitionsFromDiskStartingAtOffset disk (fuel + 1) place pass =
        some (.ok (.diskMbrNotPresent, pass))) ∨
    (Based place ∧ hasSignature disk place = true ∧
      diskRetrievePartitionsFromDiskStartingAtOffset disk (fuel + 1) place pass =
        match addAll (takenAt disk place) pass with
        | .error text => some (.error text)
        | .ok pass =>
          match nextRead disk place with
          | none => some (.ok (.success, pass))
          | some next => diskRetrievePartitionsFromDiskStartingAtOffset disk fuel next pass) := by
  by_cases based : Based place
  · have holds : ¬ (!(place.extendedPartition ^^ (0 == place.firstExtendedPartitionLBA))) = true := by
      rw [Bool.not_eq_true', Bool.not_eq_false]
      exact based
    rw [diskRetrievePartitionsFromDiskStartingAtOffset, if_neg holds]
    by_cases signed : (disk place.diskOffset).bootSignature = mbrBootSignature
    · have signature : hasSignature disk place = true := beq_iff_eq.mpr signed
      have entries : bootEntries disk place = iteratedEntries disk place := if_pos signature
      refine .inr (.inr ⟨based, signature, ?_⟩)
      rw [if_neg (not_not_intro signed), iterate_eq, takenAt, goneOver, nextRead, leftOver, entries]
      cases addAll (taken place ((iteratedEntries disk place).takeWhile (goesOn place))) pass with
      | error text => rfl
      | ok pass =>
        rw [Kernel.ok_bind, Kernel.pure_eq]
        cases readFrom place ((iteratedEntries disk place).dropWhile (goesOn place)) <;> rfl
    · exact .inr (.inl ⟨based, beq_eq_false_iff_ne.mpr signed, if_pos signed⟩)
  · refine .inl ⟨based, "ExtendedPartition ^ (0 == FirstExtendedPartitionLBA)", if_pos ?_⟩
    rw [Bool.not_eq_true', ← Bool.not_eq_true]
    exact based

theorem nextRead_unsigned (signature : hasSignature disk place = false) : nextRead disk place = none := by
  have entries : bootEntries disk place = [] := by rw [bootEntries, signature]; rfl
  rw [nextRead, leftOver, entries]
  rfl

theorem takenAt_unsigned (signature : hasSignature disk place = false) : takenAt disk place = [] := by
  have entries : bootEntries disk place = [] := by rw [bootEntries, signature]; rfl
  rw [takenAt, goneOver, entries]
  rfl

def outcome (disk : Nat -> Mbr) (path : List Place) : Status :=
  if path.all (hasSignature disk) then .success else .diskMbrNotPresent

theorem retrieve_walk {path : List Place} (walk : Walk (nextRead disk) place path)
    (based : forall a, a ∈ path -> Based a) {fuel : Nat} (enough : path.length ≤ fuel) (pass : Pass) :
    diskRetrievePartitionsFromDiskStartingAtOffset disk fuel place pass =
      some (do
        let pass <- addAll (path.flatMap (takenAt disk)) pass
        pure (outcome disk path, pass)) := by
  induction walk generalizing fuel pass with
  | @last a ends =>
    obtain ⟨fuel, rfl⟩ := Nat.exists_eq_succ_of_ne_zero (Nat.ne_of_gt enough)
    rw [List.flatMap_singleton, outcome, List.all_cons, List.all_nil, Bool.and_true]
    rcases retrieve_step disk fuel a pass with ⟨never, _⟩ | ⟨_, unsigned, result⟩ | ⟨_, signed, result⟩
    · exact absurd (based a (List.mem_singleton_self a)) never
    · rw [result, takenAt_unsigned unsigned, unsigned]
      rfl
    · rw [result, ends, signed]
      cases addAll (takenAt disk a) pass <;> rfl
  | @step a b path leads rest ih =>
    obtain ⟨fuel, rfl⟩ := Nat.exists_eq_succ_of_ne_zero (Nat.ne_of_gt (Nat.lt_of_lt_of_le Nat.succ_pos' enough))
    have behind := ih (fun a inside => based a (List.mem_cons_of_mem _ inside)) (Nat.le_of_succ_le_succ enough)
    rw [List.flatMap_cons, addAll_append]
    rcases retrieve_step disk fuel a pass with ⟨never, _⟩ | ⟨_, unsigned, _⟩ | ⟨_, signed, result⟩
    · exact absurd (based a List.mem_cons_self) never
    · rw [nextRead_unsigned unsigned] at leads
      cases leads
    · have same : outcome disk (a :: path) = outcome disk path := by
        rw [outcome, List.all_cons, signed, Bool.true_and, outcome]
      rw [result, leads, same]
      cases addAll (takenAt disk a) pass with
      | error text => rfl
      | ok pass => exact behind pass

theorem retrieve_returns {fuel : Nat} {result : Status × Pass}
    (returns : diskRetrievePartitionsFromDiskStartingAtOffset disk fuel place pass = some (.ok result)) :
    ∃ path, Walk (nextRead disk) place path ∧ (forall a, a ∈ path -> Based a) ∧ path.length ≤ fuel := by
  induction fuel generalizing place pass with
  | zero => cases returns
  | succ fuel ih =>
    rcases retrieve_step disk fuel place pass with ⟨_, text, fails⟩ | ⟨based, unsigned, _⟩ | ⟨based, signed, result⟩
    · rw [fails] at returns
      cases returns
    · refine ⟨[place], .last (nextRead_unsigned unsigned), fun a inside => ?_, Nat.succ_le_succ (Nat.zero_le _)⟩
      rwa [List.mem_singleton.mp inside]
    · rw [result] at returns
      cases added : addAll (takenAt disk place) pass with
      | error text =>
        rw [added] at returns
        cases returns
      | ok pass =>
        rw [added] at returns
        cases leads : nextRead disk place with
        | none =>
          refine ⟨[place], .last leads, fun a inside => ?_, Nat.succ_le_succ (Nat.zero_le _)⟩
          rwa [List.mem_singleton.mp inside]
        | some next =>
          rw [leads] at returns
          obtain ⟨path, walk, all, length⟩ := ih returns
          refine ⟨place :: path, .step leads walk, fun a inside => ?_, Nat.succ_le_succ length⟩
          rcases List.mem_cons.mp inside with rfl | behind
          · exact based
          · exact all a behind

end Passes

section Layouts

variable {disk : Nat -> Mbr}

theorem addAll_count (informations : List PartitionInformation) (count : Nat) :
    addAll informations { partitionCount := dword count } =
      .ok { partitionCount := dword (count + informations.length) } := by
  induction informations generalizing count with
  | nil => rfl
  | cons information rest ih =>
    have one : dword (dword count + 1) = dword (count + 1) := Nat.mod_add_mod count (2 ^ 32) 1
    have total : count + (information :: rest).length = count + 1 + rest.length := by
      rw [List.length_cons, Nat.add_right_comm, Nat.add_assoc]
    rw [total, ← ih (count + 1), ← one]
    rfl

def listed (informations : List PartitionInformation) (count : Nat) (partitions : Nat -> PartitionInformation)
    (i : Nat) : PartitionInformation :=
  if i < count then partitions i else (informations[i - count]?).getD (partitions i)

theorem listed_cons (information : PartitionInformation) (rest : List PartitionInformation) (count : Nat)
    (partitions : Nat -> PartitionInformation) :
    listed (information :: rest) count partitions =
      listed rest (count + 1) (Function.update partitions count information) := by
  funext i
  rcases Nat.lt_trichotomy i count with before | rfl | behind
  · rw [listed, listed, if_pos before, if_pos (Nat.lt_succ_of_lt before), Function.update_of_ne (Nat.ne_of_lt before)]
  · rw [listed, listed, if_neg (Nat.lt_irrefl i), if_pos (Nat.lt_succ_self i), Nat.sub_self, Function.update_self]
    rfl
  · obtain ⟨more, rfl⟩ := Nat.exists_eq_add_of_lt behind
    have first : count + more + 1 - count = more + 1 := by omega
    have second : count + more + 1 - (count + 1) = more := by omega
    rw [listed, listed, if_neg (Nat.not_lt_of_lt behind), if_neg (by omega), first, second,
      Function.update_of_ne (Nat.ne_of_gt behind), List.getElem?_cons_succ]

theorem addPartition_room {layout : DiskLayoutInformation} {count : Nat} (information : PartitionInformation)
    (room : sizeofDiskLayoutInformation + (count + 1) * sizeofPartitionInformation ≤ layout.structureSize) :
    addPartition { partitionCount := count, layout := some layout } information =
      .ok
        { partitionCount := dword (count + 1)
          layout := some { layout with partitions := Function.update layout.partitions count information } } := by
  simp only [addPartition, decide_eq_true room, assert_true, Kernel.ok_bind, Kernel.pure_eq]

theorem addPartition_full {layout : DiskLayoutInformation} {count : Nat} (information : PartitionInformation)
    (full : layout.structureSize < sizeofDiskLayoutInformation + (count + 1) * sizeofPartitionInformation) :
    ∃ text, addPartition { partitionCount := count, layout := some layout } information = .error text := by
  refine ⟨"DiskLayoutInformation->Partitions[partitionCount]", ?_⟩
  simp only [addPartition, decide_eq_false (Nat.not_le_of_lt full), assert_false, Kernel.error_bind]

theorem room_count {count structureSize : Nat} (small : structureSize < 2 ^ 32)
    (room : sizeofDiskLayoutInformation + count * sizeofPartitionInformation ≤ structureSize) :
    dword count = count := by
  simp only [sizeofDiskLayoutInformation, sizeofPartitionInformation] at room
  exact dword_of_lt (by omega)

theorem addAll_room (informations : List PartitionInformation) (count : Nat) (layout : DiskLayoutInformation)
    (small : layout.structureSize < 2 ^ 32)
    (room : sizeofDiskLayoutInformation + (count + informations.length) * sizeofPartitionInformation ≤
      layout.structureSize) :
    addAll informations { partitionCount := count, layout := some layout } =
      .ok
        { partitionCount := count + informations.length
          layout := some { layout with partitions := listed informations count layout.partitions } } := by
  induction informations generalizing count layout with
  | nil =>
    have same : listed [] count layout.partitions = layout.partitions := by
      funext i
      rw [listed, List.getElem?_nil, Option.getD_none, ite_self]
    rw [same]
    rfl
  | cons information rest ih =>
    have total : count + (information :: rest).length = count + 1 + rest.length := by
      rw [List.length_cons, Nat.add_right_comm, Nat.add_assoc]
    rw [total] at room ⊢
    have here : sizeofDiskLayoutInformation + (count + 1) * sizeofPartitionInformation ≤ layout.structureSize := by
      simp only [sizeofDiskLayoutInformation, sizeofPartitionInformation] at room ⊢
      omega
    rw [addAll, List.foldlM_cons, addPartition_room information here, Kernel.ok_bind, room_count small here]
    have behind := ih (count + 1)
      { layout with partitions := Function.update layout.partitions count information } small room
    rw [listed_cons]
    exact behind

theorem addAll_full (informations : List PartitionInformation) (count : Nat) (layout : DiskLayoutInformation)
    (small : layout.structureSize < 2 ^ 32) (some_ : informations ≠ [])
    (full : layout.structureSize <
      sizeofDiskLayoutInformation + (count + informations.length) * sizeofPartitionInformation) :
    ∃ text, addAll informations { partitionCount := count, layout := some layout } = .error text := by
  induction informations generalizing count layout with
  | nil => exact absurd rfl some_
  | cons information rest ih =>
    rw [addAll, List.foldlM_cons]
    rcases Nat.lt_or_ge layout.structureSize
      (sizeofDiskLayoutInformation + (count + 1) * sizeofPartitionInformation) with now | room
    · obtain ⟨text, fails⟩ := addPartition_full information now
      exact ⟨text, by rw [fails]; rfl⟩
    · rw [addPartition_room information room, Kernel.ok_bind, room_count small room]
      have total : count + (information :: rest).length = count + 1 + rest.length := by
        rw [List.length_cons, Nat.add_right_comm, Nat.add_assoc]
      rw [total] at full
      refine ih (count + 1) { layout with partitions := _ } small (fun empty => ?_) full
      rw [empty] at full
      exact absurd full (Nat.not_lt_of_le room)

def madeLayout (informations : List PartitionInformation) : DiskLayoutInformation where
  structureSize := sizeofDiskLayoutInformation + informations.length * sizeofPartitionInformation
  partitions := listed informations 0 (fun _ => {})
  numberOfPartitions := informations.length

theorem lists_made (informations other : List PartitionInformation) :
    Lists (madeLayout informations) other ↔ informations = other := by
  constructor
  · intro lists
    have length : informations.length = other.length := lists.numberOfPartitions
    refine List.ext_getElem length (fun i inside also => ?_)
    have same : listed informations 0 (fun _ => {}) i = other[i] := lists.listed i _ (List.getElem?_eq_getElem also)
    rw [← same, listed, if_neg (Nat.not_lt_zero i), Nat.sub_zero, List.getElem?_eq_getElem inside, Option.getD_some]
  · rintro rfl
    refine ⟨rfl, rfl, fun i partition at_ => ?_⟩
    change listed informations 0 (fun _ => {}) i = partition
    rw [listed, if_neg (Nat.not_lt_zero i), Nat.sub_zero, at_, Option.getD_some]

variable {path : List Place} (walk : Walk (nextRead disk) masterBootRecord path)
  (based : forall a, a ∈ path -> Based a)

include walk based

theorem retrieve_path {fuel : Nat} (enough : path.length ≤ fuel) :
    (outcome disk path = .diskMbrNotPresent ∧
      diskRetrievePartitionsFromDisk disk fuel = some (.ok (.diskMbrNotPresent, none))) ∨
    (outcome disk path = .success ∧ (path.flatMap (takenAt disk)).length ≤ maxPartitions ∧
      diskRetrievePartitionsFromDisk disk fuel =
        some (.ok (.success, some (madeLayout (path.flatMap (takenAt disk)))))) ∨
    (outcome disk path = .success ∧ maxPartitions < (path.flatMap (takenAt disk)).length ∧
      ∃ text, diskRetrievePartitionsFromDisk disk fuel = some (.error text)) := by
  let informations := path.flatMap (takenAt disk)
  have counting := retrieve_walk walk based enough {}
  rw [show ({} : Pass) = { partitionCount := dword 0 } from rfl, addAll_count, Kernel.ok_bind, Nat.zero_add] at counting
  rw [diskRetrievePartitionsFromDisk, show ({} : Pass) = { partitionCount := dword 0 } from rfl, counting]
  cases ends : outcome disk path with
  | diskMbrNotPresent => exact .inl ⟨rfl, rfl⟩
  | success =>
    refine .inr ?_
    have filling (structureSize : Nat) :=
      retrieve_walk walk based enough { layout := some { structureSize := structureSize } }
    rcases Nat.lt_or_ge maxPartitions informations.length with many | few
    · refine .inr ⟨rfl, many, ?_⟩
      have size : dword (sizeofDiskLayoutInformation + dword informations.length * sizeofPartitionInformation) < 2 ^ 32 :=
        dword_lt _
      obtain ⟨text, fails⟩ := addAll_full informations 0
        { structureSize := dword (sizeofDiskLayoutInformation + dword informations.length * sizeofPartitionInformation) }
        size (fun empty => by rw [empty] at many; exact absurd many (Nat.not_lt_zero _)) (by
          simp only [sizeofDiskLayoutInformation, sizeofPartitionInformation, maxPartitions] at size many ⊢
          omega)
      refine ⟨text, ?_⟩
      have second := filling (dword (sizeofDiskLayoutInformation + dword informations.length * sizeofPartitionInformation))
      rw [fails, Kernel.error_bind] at second
      rw [Kernel.pure_eq]
      simp only
      rw [second]
    · refine .inl ⟨rfl, few, ?_⟩
      have size : dword (sizeofDiskLayoutInformation + dword informations.length * sizeofPartitionInformation) =
          sizeofDiskLayoutInformation + informations.length * sizeofPartitionInformation := by
        have count : dword informations.length = informations.length := dword_of_lt (few.trans_lt (by decide))
        rw [count]
        simp only [sizeofDiskLayoutInformation, sizeofPartitionInformation, maxPartitions] at few ⊢
        exact dword_of_lt (by omega)
      have second := filling (dword (sizeofDiskLayoutInformation + dword informations.length * sizeofPartitionInformation))
      rw [addAll_room informations 0 _ (dword_lt _) (by rw [Nat.zero_add]; exact Nat.le_of_eq size.symm),
        Kernel.ok_bind, ends] at second
      rw [Kernel.pure_eq]
      simp only
      rw [second, Kernel.pure_eq, size, Nat.zero_add]
      rfl

end Layouts

section Records

variable {disk : Nat -> Mbr} {place next : Place}

def exactInformation (place : Place) (entry : MbrPartitionEntry) : PartitionInformation :=
  partitionInformation entry (entry.firstSectorLBA.toNat + place.diskOffset)

def leftAt (disk : Nat -> Mbr) (place : Place) : List PartitionInformation :=
  ((leftOver disk place).filter MbrPartitionEntry.isPartition).map (exactInformation place)

theorem bootEntries_split (disk : Nat -> Mbr) (place : Place) :
    goneOver disk place ++ leftOver disk place = bootEntries disk place := List.takeWhile_append_dropWhile

theorem partitionsAt_split (disk : Nat -> Mbr) (place : Place) :
    partitionsAt disk place =
      ((goneOver disk place).filter MbrPartitionEntry.isPartition).map (exactInformation place) ++
        leftAt disk place := by
  rw [leftAt, ← List.map_append, ← List.filter_append, bootEntries_split]
  rfl

theorem goneOver_goesOn {entry : MbrPartitionEntry} (member : entry ∈ goneOver disk place) :
    goesOn place entry = true := List.mem_takeWhile_imp member

theorem goneOver_unlinked {entry : MbrPartitionEntry} (member : entry ∈ goneOver disk place) :
    entry.isExtended = false := by
  have goes := goneOver_goesOn member
  rw [goesOn, Bool.and_eq_true] at goes
  exact (Bool.not_eq_true' _).mp goes.2

theorem takenAt_exact (sums : SumsExact disk place) :
    takenAt disk place =
      ((goneOver disk place).filter MbrPartitionEntry.hasValidStatus).map (exactInformation place) := by
  refine List.map_congr_left (fun entry member => ?_)
  obtain ⟨past, valid⟩ := List.mem_filter.mp member
  rw [exactInformation, dword_of_lt (sums.partitions entry past valid)]

theorem takenAt_partitions (sums : SumsExact disk place)
    (used : forall entry, entry ∈ goneOver disk place -> entry.hasValidStatus = true -> entry.partitionType ≠ 0) :
    partitionsAt disk place = takenAt disk place ++ leftAt disk place := by
  have same : (goneOver disk place).filter MbrPartitionEntry.hasValidStatus =
      (goneOver disk place).filter MbrPartitionEntry.isPartition := by
    refine List.filter_congr (fun entry member => ?_)
    have unlinked := goneOver_unlinked member
    have typed := used entry member
    rw [MbrPartitionEntry.isExtended] at unlinked
    rw [MbrPartitionEntry.isPartition]
    cases valid : entry.hasValidStatus with
    | false => rfl
    | true =>
      rw [valid, Bool.true_and] at unlinked
      rw [unlinked, bne_iff_ne.mpr (typed valid)]
      rfl
  rw [takenAt_exact sums, same, partitionsAt_split]

theorem nextRead_linked (sums : SumsExact disk place) (leads : nextRead disk place = some next) :
    linkedRecord disk place = some next := by
  rw [nextRead] at leads
  cases left : leftOver disk place with
  | nil =>
    rw [left] at leads
    cases leads
  | cons entry rest =>
    have stops : goesOn place entry = false := by
      have head := List.head?_dropWhile_not (goesOn place) (bootEntries disk place)
      rw [show (bootEntries disk place).dropWhile (goesOn place) = entry :: rest from left] at head
      exact head
    rw [left, readFrom] at leads
    cases zero : (place.extendedPartition && entry.isZero) with
    | true =>
      rw [zero] at leads
      cases leads
    | false =>
      have extended : entry.isExtended = true := by
        rw [goesOn, zero, Bool.not_false, Bool.true_and, Bool.not_eq_false'] at stops
        exact stops
      have found : (bootEntries disk place).find? MbrPartitionEntry.isExtended = some entry := by
        rw [← bootEntries_split, left, List.find?_append, List.find?_eq_none.mpr, Option.none_or,
          List.find?_cons_of_pos extended]
        intro earlier member
        rw [goneOver_unlinked member]
        exact Bool.false_ne_true
      rw [zero, dword_of_lt (sums.link entry (by rw [left]; rfl) extended)] at leads
      rw [linkedRecord, found]
      exact leads

theorem linked_bounds (bound : place.firstExtendedPartitionLBA < 2 ^ 32) (leads : linkedRecord disk place = some next) :
    next.diskOffset < 2 ^ 33 ∧ next.firstExtendedPartitionLBA < 2 ^ 32 := by
  obtain ⟨entry, _, rfl⟩ := Option.map_eq_some_iff.mp leads
  have sector := entry.firstSectorLBA.toNat_lt
  constructor
  · change entry.firstSectorLBA.toNat + place.firstExtendedPartitionLBA < 2 ^ 33
    omega
  · change (if place.extendedPartition then place.firstExtendedPartitionLBA else entry.firstSectorLBA.toNat) < 2 ^ 32
    split
    · exact bound
    · exact sector

theorem linked_tour (disk : Nat -> Mbr) : ∃ chain, Tour (linkedRecord disk) masterBootRecord chain := by
  let Bounded (place : Place) : Prop := place.diskOffset < 2 ^ 33 ∧ place.firstExtendedPartitionLBA < 2 ^ 32
  let number (key : Fin (2 ^ 33) × Bool × Fin (2 ^ 32)) : Place :=
    { diskOffset := key.1, extendedPartition := key.2.1, firstExtendedPartitionLBA := key.2.2 }
  refine Tour.exists_of_finite (Set.finite_range number).toFinset (fun place reaches => ?_)
  obtain ⟨path, follows, member⟩ := reaches
  have bounded : Bounded place := follows.mem_of_closed ⟨Nat.two_pow_pos 33, Nat.two_pow_pos 32⟩
    (fun place bounded next leads => linked_bounds bounded.2 leads) member
  rw [Set.Finite.mem_toFinset]
  exact ⟨(⟨place.diskOffset, bounded.1⟩, place.extendedPartition, ⟨place.firstExtendedPartitionLBA, bounded.2⟩), rfl⟩

-- Only the first boot record that is read is no extended one.
theorem read_based {path : List Place} (follows : Follows (nextRead disk) masterBootRecord path)
    (grounded : forall place, place ∈ path -> place.extendedPartition = true -> place.firstExtendedPartitionLBA ≠ 0)
    (member : place ∈ path) : Based place := by
  let Kind (place : Place) : Prop := place = masterBootRecord ∨ place.extendedPartition = true
  have kind : Kind place := by
    refine follows.mem_of_closed (.inl rfl) (fun place _ next leads => .inr ?_) member
    rw [nextRead] at leads
    cases left : leftOver disk place with
    | nil =>
      rw [left] at leads
      cases leads
    | cons entry rest =>
      rw [left, readFrom] at leads
      cases zero : (place.extendedPartition && entry.isZero) with
      | true =>
        rw [zero] at leads
        cases leads
      | false =>
        rw [zero] at leads
        rw [← Option.some.inj leads]
  rcases kind with rfl | extended
  · rfl
  · have base : (0 == place.firstExtendedPartitionLBA) = false :=
      beq_eq_false_iff_ne.mpr (Ne.symm (grounded place member extended))
    rw [Based, extended, base]
    rfl

theorem based_extended (based : Based place) (extended : place.extendedPartition = true) :
    place.firstExtendedPartitionLBA ≠ 0 := by
  intro zero
  rw [Based, extended, zero] at based
  cases based

end Records

section Exactness

variable {disk : Nat -> Mbr} {path chain extra : List Place}

theorem outcome_success : outcome disk path = .success ↔ forall place, place ∈ path -> hasSignature disk place = true := by
  rw [outcome, ← List.all_eq_true]
  cases path.all (hasSignature disk) <;> simp

theorem isRead_iff (walk : Walk (nextRead disk) masterBootRecord path) (place : Place) :
    IsRead disk place ↔ place ∈ path :=
  ⟨walk.tour.mem_of_reaches, fun member => ⟨path, walk.follows, member⟩⟩

theorem read_isPrefix (walk : Walk (nextRead disk) masterBootRecord path)
    (sums : forall place, IsRead disk place -> SumsExact disk place)
    (tour : Tour (linkedRecord disk) masterBootRecord chain) : path <+: chain := by
  have linked : Follows (linkedRecord disk) masterBootRecord path :=
    walk.follows.transfer (fun place member next leads =>
      nextRead_linked (sums place ((isRead_iff walk place).mpr member)) leads)
  have inside : path ⊆ chain := fun place member => tour.mem_of_reaches ⟨path, linked, member⟩
  exact linked.isPrefix tour.follows (walk.nodup.subperm inside).length_le

theorem length_flatMap_append {f g h : Place -> List PartitionInformation}
    (parts : forall a, a ∈ path -> h a = f a ++ g a) :
    (path.flatMap h).length = (path.flatMap f).length + (path.flatMap g).length := by
  induction path with
  | nil => rfl
  | cons a rest ih =>
    have behind := ih (fun a member => parts a (List.mem_cons_of_mem _ member))
    rw [List.flatMap_cons, List.flatMap_cons, List.flatMap_cons, List.length_append, List.length_append,
      List.length_append, parts a List.mem_cons_self, List.length_append, behind]
    omega

theorem partitionsAt_typed {place : Place} {information : PartitionInformation}
    (member : information ∈ partitionsAt disk place) : information.partitionType ≠ 0 := by
  obtain ⟨entry, kept, rfl⟩ := List.mem_map.mp member
  have partition := (List.mem_filter.mp kept).2
  rw [MbrPartitionEntry.isPartition, Bool.and_eq_true] at partition
  exact bne_iff_ne.mp partition.2

theorem listable_of_same (walk : Walk (nextRead disk) masterBootRecord path)
    (sums : forall place, IsRead disk place -> SumsExact disk place)
    (tour : Tour (linkedRecord disk) masterBootRecord chain)
    (room : (path.flatMap (takenAt disk)).length ≤ maxPartitions)
    (same : path.flatMap (takenAt disk) = chain.flatMap (partitionsAt disk)) : Listable disk := by
  have used (place : Place) (read : IsRead disk place) (entry : MbrPartitionEntry)
      (member : entry ∈ goneOver disk place) (valid : entry.hasValidStatus = true) : entry.partitionType ≠ 0 := by
    have taken : partitionInformation entry (dword (entry.firstSectorLBA.toNat + place.diskOffset)) ∈
        path.flatMap (takenAt disk) :=
      List.mem_flatMap.mpr ⟨place, (isRead_iff walk place).mp read,
        List.mem_map_of_mem (List.mem_filter.mpr ⟨member, valid⟩)⟩
    rw [same] at taken
    obtain ⟨other, _, there⟩ := List.mem_flatMap.mp taken
    exact partitionsAt_typed there
  obtain ⟨extra, rfl⟩ := read_isPrefix walk sums tour
  have parts (place : Place) (member : place ∈ path) :
      partitionsAt disk place = takenAt disk place ++ leftAt disk place :=
    have read := (isRead_iff walk place).mpr member
    takenAt_partitions (sums place read) (used place read)
  have lengths := congrArg List.length same
  rw [List.flatMap_append, List.length_append, length_flatMap_append parts] at lengths
  have left : path.flatMap (leftAt disk) = [] := List.length_eq_zero_iff.mp (by omega)
  have none_ : extra.flatMap (partitionsAt disk) = [] := List.length_eq_zero_iff.mp (by omega)
  refine ⟨fun reads other => ?_, used, fun place reached some_ => ?_⟩
  · rw [other.unique walk]
    rw [List.length_flatMap] at room ⊢
    have lengths_ : path.map (fun place => (takenAt disk place).length) =
        path.map (fun place => ((goneOver disk place).filter MbrPartitionEntry.hasValidStatus).length) :=
      List.map_congr_left (fun place _ => List.length_map _)
    rwa [← lengths_]
  · rcases List.mem_append.mp (tour.mem_of_reaches reached) with inside | outside
    · refine ⟨(isRead_iff walk place).mpr inside, fun entry member => ?_⟩
      have nothing := List.flatMap_eq_nil_iff.mp left place inside
      rw [leftAt, List.map_eq_nil_iff, List.filter_eq_nil_iff] at nothing
      exact Bool.eq_false_iff.mpr (nothing entry member)
    · exact absurd (List.flatMap_eq_nil_iff.mp none_ place outside) some_

theorem same_of_listable (walk : Walk (nextRead disk) masterBootRecord path)
    (sums : forall place, IsRead disk place -> SumsExact disk place) (listable : Listable disk)
    (tour : Tour (linkedRecord disk) masterBootRecord chain) :
    path.flatMap (takenAt disk) = chain.flatMap (partitionsAt disk) := by
  obtain ⟨extra, rfl⟩ := read_isPrefix walk sums tour
  have apart := List.disjoint_of_nodup_append tour.distinct
  have outside (place : Place) (member : place ∈ extra) : partitionsAt disk place = [] := by
    by_contra some_
    have reached : Reaches (linkedRecord disk) masterBootRecord place :=
      ⟨_, tour.follows, List.mem_append_right _ member⟩
    exact apart ((isRead_iff walk place).mp (listable.whole place reached some_).1) member
  have inside (place : Place) (member : place ∈ path) : partitionsAt disk place = takenAt disk place := by
    have read := (isRead_iff walk place).mpr member
    have parts := takenAt_partitions (sums place read) (listable.used place read)
    have reached : Reaches (linkedRecord disk) masterBootRecord place :=
      ⟨_, tour.follows, List.mem_append_left _ member⟩
    have nothing : leftAt disk place = [] := by
      by_contra left
      have some_ : partitionsAt disk place ≠ [] := by
        rw [parts]
        exact fun empty => left (List.append_eq_nil_iff.mp empty).2
      refine left ?_
      rw [leftAt, List.map_eq_nil_iff, List.filter_eq_nil_iff]
      exact fun entry behind => Bool.eq_false_iff.mp ((listable.whole place reached some_).2 entry behind)
    rw [parts, nothing, List.append_nil]
  rw [List.flatMap_append, List.flatMap_eq_nil_iff.mpr outside, List.append_nil]
  exact List.flatMap_congr (fun place member => (inside place member).symm)

theorem enumerable_of_exact (exact_ : EnumerationExact disk) : Enumerable disk := by
  obtain ⟨fuel, result, returns⟩ := exact_.returns
  obtain ⟨path, walk, based, enough⟩ : ∃ path, Walk (nextRead disk) masterBootRecord path ∧
      (forall a, a ∈ path -> Based a) ∧ path.length ≤ fuel := by
    cases counting : diskRetrievePartitionsFromDiskStartingAtOffset disk fuel masterBootRecord {} with
    | none =>
      rw [diskRetrievePartitionsFromDisk, counting] at returns
      cases returns
    | some counted =>
      cases counted with
      | error text =>
        rw [diskRetrievePartitionsFromDisk, counting] at returns
        cases returns
      | ok counted => exact retrieve_returns counting
  refine ⟨⟨path, walk⟩, fun place read => ?_, exact_.sums, fun signed => ?_⟩
  · exact based_extended (based place ((isRead_iff walk place).mp read))
  · have success : outcome disk path = .success :=
      outcome_success.mpr (fun place member => signed place ((isRead_iff walk place).mpr member))
    rcases retrieve_path walk based enough with ⟨never, _⟩ | ⟨_, room, made⟩ | ⟨_, _, text, fails⟩
    · rw [success] at never
      cases never
    · obtain ⟨layout, chain, rfl, tour, lists⟩ : ∃ layout chain, layout = madeLayout (path.flatMap (takenAt disk)) ∧
          Tour (linkedRecord disk) masterBootRecord chain ∧ Lists layout (chain.flatMap (partitionsAt disk)) := by
        obtain ⟨layout, chain, same, tour, lists⟩ := exact_.lists fuel _ made
        exact ⟨layout, chain, (Option.some.inj same).symm, tour, lists⟩
      exact listable_of_same walk exact_.sums tour room ((lists_made _ _).mp lists)
    · rw [fails] at returns
      cases returns

theorem exact_of_enumerable (enumerable : Enumerable disk) : EnumerationExact disk := by
  obtain ⟨path, walk⟩ := enumerable.ends
  have based (place : Place) (member : place ∈ path) : Based place :=
    read_based walk.follows (fun place member => enumerable.based place ((isRead_iff walk place).mpr member)) member
  have listable (success : outcome disk path = .success) : Listable disk :=
    enumerable.listable (fun place read => outcome_success.mp success place ((isRead_iff walk place).mp read))
  have room (success : outcome disk path = .success) : (path.flatMap (takenAt disk)).length ≤ maxPartitions := by
    have few := (listable success).room path walk
    rw [List.length_flatMap] at few ⊢
    have lengths : path.map (fun place => (takenAt disk place).length) =
        path.map (fun place => ((goneOver disk place).filter MbrPartitionEntry.hasValidStatus).length) :=
      List.map_congr_left (fun place _ => List.length_map _)
    rwa [lengths]
  refine ⟨?_, enumerable.sums, fun fuel layout succeeds => ?_⟩
  · rcases retrieve_path walk based (Nat.le_refl _) with ⟨_, absent⟩ | ⟨_, _, made⟩ | ⟨success, many, _⟩
    · exact ⟨_, _, absent⟩
    · exact ⟨_, _, made⟩
    · exact absurd (room success) (Nat.not_le_of_lt many)
  · have enough : path.length ≤ fuel := by
      cases counting : diskRetrievePartitionsFromDiskStartingAtOffset disk fuel masterBootRecord {} with
      | none =>
        rw [diskRetrievePartitionsFromDisk, counting] at succeeds
        cases succeeds
      | some counted =>
        cases counted with
        | error text =>
          rw [diskRetrievePartitionsFromDisk, counting] at succeeds
          cases succeeds
        | ok counted =>
          obtain ⟨other, also, _, length⟩ := retrieve_returns counting
          rwa [walk.unique also]
    rcases retrieve_path walk based enough with ⟨_, absent⟩ | ⟨success, _, made⟩ | ⟨_, _, text, fails⟩
    · rw [absent] at succeeds
      cases succeeds
    · rw [made] at succeeds
      obtain ⟨chain, tour⟩ := linked_tour disk
      refine ⟨_, chain, (Prod.mk.inj (Except.ok.inj (Option.some.inj succeeds))).2.symm, tour, ?_⟩
      exact (lists_made _ _).mpr (same_of_listable walk enumerable.sums (listable success) tour)
    · rw [fails] at succeeds
      cases succeeds

theorem enumeration_exact_iff (disk : Nat -> Mbr) : EnumerationExact disk ↔ Enumerable disk :=
  ⟨enumerable_of_exact, exact_of_enumerable⟩

def fourPartitions (sector : Nat) : Mbr where
  partitions :=
    if sector = 0 then
      ![{ status := 0x80, partitionType := 0xB, firstSectorLBA := 63, numberOfSectors := 100 },
        { partitionType := 0xB, firstSectorLBA := 163, numberOfSectors := 100 },
        { partitionType := 0x82, firstSectorLBA := 263, numberOfSectors := 100 },
        { partitionType := 5, firstSectorLBA := 363, numberOfSectors := 200 }]
    else ![{ partitionType := 0xC, firstSectorLBA := 63, numberOfSectors := 137 }, {}, {}, {}]
  bootSignature := mbrBootSignature

theorem enumeration_exact_sample : EnumerationExact fourPartitions := by
  let logical : Place := { diskOffset := 363, extendedPartition := true, firstExtendedPartitionLBA := 363 }
  have walk : Walk (nextRead fourPartitions) masterBootRecord [masterBootRecord, logical] :=
    .step (by decide) (.last (by decide))
  have linked : Walk (linkedRecord fourPartitions) masterBootRecord [masterBootRecord, logical] :=
    .step (by decide) (.last (by decide))
  have records (property : Place -> Prop) (first : property masterBootRecord) (second : property logical)
      (place : Place) (read : IsRead fourPartitions place) : property place := by
    rcases List.mem_cons.mp ((isRead_iff walk place).mp read) with rfl | behind
    · exact first
    · rwa [List.mem_singleton.mp behind]
  refine (enumeration_exact_iff fourPartitions).mpr ⟨⟨_, walk⟩, ?_, ?_, fun _ => ⟨?_, ?_, ?_⟩⟩
  · exact records _ (by decide) (by decide)
  · exact records _ ⟨by decide, by decide⟩ ⟨by decide, by decide⟩
  · intro reads other
    rw [other.unique walk]
    decide
  · exact records _ (by decide) (by decide)
  · intro place reached _
    have member := linked.tour.mem_of_reaches reached
    refine ⟨(isRead_iff walk place).mpr member, ?_⟩
    exact records (fun place => forall entry, entry ∈ leftOver fourPartitions place -> entry.isPartition = false)
      (by decide) (by decide) place ((isRead_iff walk place).mpr member)

end Exactness

section Inexact

variable {disk : Nat -> Mbr}

theorem retrieve_cycle {place : Place} (based : Based place) (signed : hasSignature disk place = true)
    (nothing : takenAt disk place = []) (leads : nextRead disk place = some place) (fuel : Nat) (pass : Pass) :
    diskRetrievePartitionsFromDiskStartingAtOffset disk fuel place pass = none := by
  induction fuel with
  | zero => rfl
  | succ fuel ih =>
    rcases retrieve_step disk fuel place pass with ⟨never, _⟩ | ⟨_, unsigned, _⟩ | ⟨_, _, result⟩
    · exact absurd based never
    · rw [signed] at unsigned
      cases unsigned
    · rw [result, nothing, leads]
      exact ih

def onePartition (_ : Nat) : Mbr where
  partitions := ![{ status := 0x80, partitionType := 0xB, firstSectorLBA := 2048, numberOfSectors := 4096 }, {}, {}, {}]
  bootSignature := mbrBootSignature

def linkedToItself (sector : Nat) : Mbr where
  partitions := ![{ partitionType := 5, firstSectorLBA := if sector = 0 then 63 else 0, numberOfSectors := 1 }, {}, {}, {}]
  bootSignature := mbrBootSignature

def firstLogical : Place := { diskOffset := 63, extendedPartition := true, firstExtendedPartitionLBA := 63 }

theorem enumeration_inexact :
    (∃ made, diskRetrievePartitionsFromDisk onePartition 1 = some (.ok (.success, some made)) ∧
      made.numberOfPartitions = 4 ∧ (made.partitions 3).partitionType = 0 ∧ ¬ EnumerationExact onePartition) ∧
    (forall fuel, diskRetrievePartitionsFromDisk linkedToItself fuel = none) ∧ ¬ EnumerationExact linkedToItself := by
  have never (fuel : Nat) : diskRetrievePartitionsFromDisk linkedToItself fuel = none := by
    have counting : diskRetrievePartitionsFromDiskStartingAtOffset linkedToItself fuel masterBootRecord {} = none := by
      cases fuel with
      | zero => rfl
      | succ fuel =>
        have based : Based firstLogical := by decide
        exact retrieve_cycle based (by decide) (by decide) (by decide) fuel {}
    rw [diskRetrievePartitionsFromDisk, counting]
  refine ⟨?_, never, fun exact_ => ?_⟩
  · have walk : Walk (nextRead onePartition) masterBootRecord [masterBootRecord] := .last (by decide)
    rcases retrieve_path walk (by decide) (Nat.le_refl _) with ⟨absent, _⟩ | ⟨_, _, made⟩ | ⟨_, many, _⟩
    · exact absurd absent (by decide)
    · refine ⟨_, made, by decide, by decide, fun exact_ => ?_⟩
      have listable := (enumerable_of_exact exact_).listable (fun place read => by
        rw [List.mem_singleton.mp ((isRead_iff walk place).mp read)]
        decide)
      exact listable.used masterBootRecord ((isRead_iff walk _).mpr (List.mem_singleton_self _)) {} (by decide)
        (by decide) rfl
    · exact absurd many (by decide)
  · obtain ⟨fuel, outcome, returns⟩ := exact_.returns
    rw [never fuel] at returns
    cases returns

end Inexact

end Hal9000.Disk
