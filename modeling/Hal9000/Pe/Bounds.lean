import Hal9000.Pe.Parser

set_option autoImplicit false

namespace Hal9000.Pe

open Lib Reading

section

variable (mem : Lib.Memory) (buffer : ImageBuffer)

def ntBase : Nat := ptrOffset buffer.imageBase (signExtend (mem.load 4 (ptrOffset buffer.imageBase Offset.eLfanew)))

def ntField (width offset : Nat) : Nat := mem.load width (ptrOffset (ntBase mem buffer) offset)

def statedSections : Nat :=
  sectionTable (ntBase mem buffer) (ntField mem buffer 2 Offset.sizeOfOptionalHeader)

def sectionField (sectionIndex offset : Nat) : Nat :=
  mem.load 4 (ptrOffset (ptrOffset (statedSections mem buffer) (sizeofImageSectionHeader * sectionIndex)) offset)

def directoryField (dataDirectory offset : Nat) : Nat :=
  mem.load 4 (ptrOffset (ptrOffset (ntBase mem buffer)
    (Offset.dataDirectory + sizeofImageDataDirectory * dataDirectory)) offset)

-- A range that passes the check against the image's own SizeOfImage.
def acceptedBySizeOfImage (address count : Nat) : Bool :=
  checkBounds address count buffer.imageBase (ntField mem buffer 4 Offset.sizeOfImage)

-- SizeOfImage lets no more of the section table and of the sections through than ImageSize would.
def SectionsSized : Prop :=
  forall sectionIndex, sectionIndex < ntField mem buffer 2 Offset.numberOfSections ->
    acceptedBySizeOfImage mem buffer (statedSections mem buffer)
      (sizeofImageSectionHeader * ntField mem buffer 2 Offset.numberOfSections) = true ->
    statedSections mem buffer + sizeofImageSectionHeader * ntField mem buffer 2 Offset.numberOfSections ≤
        buffer.imageBase + buffer.imageSize ∧
      (acceptedBySizeOfImage mem buffer
          (ptrOffset buffer.imageBase (sectionField mem buffer sectionIndex Offset.virtualAddress))
          (sectionField mem buffer sectionIndex Offset.virtualSize) = true ->
        sectionField mem buffer sectionIndex Offset.virtualSize = 0 ∨
          sectionField mem buffer sectionIndex Offset.virtualAddress +
            sectionField mem buffer sectionIndex Offset.virtualSize ≤ buffer.imageSize)

def DirectoriesSized : Prop :=
  forall dataDirectory, dataDirectory ≤ imageDirectoryEntryComDescriptor ->
    dataDirectory < ntField mem buffer 4 Offset.numberOfRvaAndSizes ->
    acceptedBySizeOfImage mem buffer
      (ptrOffset (ntBase mem buffer) (Offset.dataDirectory + sizeofImageDataDirectory * dataDirectory))
      sizeofImageDataDirectory = true ->
    acceptedBySizeOfImage mem buffer
      (ptrOffset buffer.imageBase (directoryField mem buffer dataDirectory Offset.directoryVirtualAddress))
      (directoryField mem buffer dataDirectory Offset.directorySize) = true ->
    directoryField mem buffer dataDirectory Offset.directorySize = 0 ∨
      directoryField mem buffer dataDirectory Offset.directoryVirtualAddress +
        directoryField mem buffer dataDirectory Offset.directorySize ≤ buffer.imageSize

-- A buffer that starts like an executable holds a whole DOS header; the end of an NT header that is
-- let through does not wrap; and what SizeOfImage lets through ends inside ImageSize.
def SizesHold : Prop :=
  buffer.imageBase ≠ 0 -> buffer.imageSize ≠ 0 ->
    2 ≤ buffer.imageSize ∧
    (mem.load 2 (ptrOffset buffer.imageBase Offset.eMagic) = mzSignature ->
      64 ≤ buffer.imageSize ∧
      (checkBounds (ntBase mem buffer) sizeofImageNtHeaders64 buffer.imageBase buffer.imageSize = true ->
        ntBase mem buffer + 4 ≤ buffer.imageBase + buffer.imageSize ∧
        (ntField mem buffer 4 Offset.signature = ntSignature ->
          ntBase mem buffer + sizeofImageNtHeaders64 < 2 ^ 64 ∧
          (ntField mem buffer 2 Offset.machine = imageFileMachineAmd64 ->
            SectionsSized mem buffer ∧ DirectoriesSized mem buffer))))

end

theorem ptrOffset_zero {address : Nat} (bound : address < 2 ^ 64) : ptrOffset address 0 = address := by
  rw [ptrOffset, Nat.add_zero, qword_of_lt bound]

theorem checkBounds_eq_true {p ps b s : Nat} :
    checkBounds p ps b s = true ↔ qword b ≤ qword p ∧ qword (p + ps) ≤ qword (b + s) := by
  simp [checkBounds]

-- An offset of 32 bits that takes the sum around the address space puts it below the image, where no
-- check accepts it.
theorem accepted_no_wrap {buffer : ImageBuffer} {offset count size : Nat} (small : offset < 2 ^ 32)
    (accepted : checkBounds (ptrOffset buffer.imageBase offset) count buffer.imageBase size = true) :
    ptrOffset buffer.imageBase offset = buffer.imageBase + offset := by
  have bound := buffer.end_lt
  rw [checkBounds_eq_true] at accepted
  simp only [ptrOffset, qword] at accepted ⊢
  omega

theorem range_contained_iff {buffer : ImageBuffer} {offset count size : Nat} (small : offset < 2 ^ 32)
    (accepted : checkBounds (ptrOffset buffer.imageBase offset) count buffer.imageBase size = true) :
    buffer.region.Contains (ptrOffset buffer.imageBase offset) count ↔
      count = 0 ∨ offset + count ≤ buffer.imageSize := by
  rw [accepted_no_wrap small accepted, Region.contains_iff]
  simp only [ImageBuffer.region]
  omega

-- What PeRetrieveNtHeader stored, and that the header it was stored from lies in the buffer.
structure Describes (mem : Lib.Memory) (buffer : ImageBuffer) (info : NtHeaderInfo) : Prop where
  imageBase : info.imageBase = buffer.imageBase
  ntBase : info.ntBase = ntBase mem buffer
  size : info.size = ntField mem buffer 4 Offset.sizeOfImage
  machine : info.machine = ntField mem buffer 2 Offset.machine
  numberOfSections : info.numberOfSections = ntField mem buffer 2 Offset.numberOfSections

structure HeaderInside (mem : Lib.Memory) (buffer : ImageBuffer) : Prop where
  lower : buffer.imageBase ≤ ntBase mem buffer
  upper : ntBase mem buffer + sizeofImageNtHeaders64 ≤ buffer.imageBase + buffer.imageSize

section

variable {mem : Lib.Memory} {buffer : ImageBuffer} {info : NtHeaderInfo}

theorem ptrOffset_inside {offset : Nat} (inside : HeaderInside mem buffer)
    (within : offset < sizeofImageNtHeaders64) :
    ptrOffset (ntBase mem buffer) offset = ntBase mem buffer + offset := by
  have upper := inside.upper
  have bound := buffer.end_lt
  exact qword_of_lt (by omega)

theorem header_read {offset width : Nat} (inside : HeaderInside mem buffer) (positive : 0 < width)
    (within : offset + width ≤ sizeofImageNtHeaders64) :
    buffer.region.Contains (ptrOffset (ntBase mem buffer) offset) width := by
  have lower := inside.lower
  have upper := inside.upper
  rw [ptrOffset_inside inside (by omega), Region.contains_iff]
  simp only [ImageBuffer.region]
  omega

theorem directory_read {entry offset : Nat} (inside : HeaderInside mem buffer)
    (within : entry + sizeofImageDataDirectory ≤ sizeofImageNtHeaders64)
    (field : offset + 4 ≤ sizeofImageDataDirectory) :
    buffer.region.Contains (ptrOffset (ptrOffset (ntBase mem buffer) entry) offset) 4 := by
  have whole : ptrOffset (ptrOffset (ntBase mem buffer) entry) offset =
      ptrOffset (ntBase mem buffer) (entry + offset) := by
    simp only [ptrOffset, qword, Nat.mod_add_mod, Nat.add_assoc]
  rw [whole]
  exact header_read inside (by omega) (by omega)

theorem ntField_lt (width offset : Nat) : ntField mem buffer width offset < 256 ^ width :=
  Memory.load_lt mem width _

theorem peRetrieveSection_within_iff (described : Describes mem buffer info) (sectionIndex : Nat)
    (sectionInfo : Option SectionInfo) :
    ((peRetrieveSection mem (some info) sectionIndex sectionInfo).Confined buffer.region fun result =>
      result.1 = .success -> ∃ found, result.2 = some found ∧
        buffer.region.Contains found.baseAddress found.size) ↔
    (sectionIndex < ntField mem buffer 2 Offset.numberOfSections -> ¬ sectionInfo = none ->
      imageFileMachineAmd64 = ntField mem buffer 2 Offset.machine ->
      buffer.region.Contains (ptrOffset (ntBase mem buffer) Offset.sizeOfOptionalHeader) 2 ∧
      (acceptedBySizeOfImage mem buffer (statedSections mem buffer)
          (sizeofImageSectionHeader * ntField mem buffer 2 Offset.numberOfSections) = true ->
        buffer.region.Contains (ptrOffset (ptrOffset (statedSections mem buffer)
          (sizeofImageSectionHeader * sectionIndex)) Offset.virtualAddress) 4 ∧
        buffer.region.Contains (ptrOffset (ptrOffset (statedSections mem buffer)
          (sizeofImageSectionHeader * sectionIndex)) Offset.virtualSize) 4 ∧
        buffer.region.Contains (ptrOffset (ptrOffset (statedSections mem buffer)
          (sizeofImageSectionHeader * sectionIndex)) Offset.characteristics) 4 ∧
        (acceptedBySizeOfImage mem buffer
            (ptrOffset buffer.imageBase (sectionField mem buffer sectionIndex Offset.virtualAddress))
            (sectionField mem buffer sectionIndex Offset.virtualSize) = true ->
          buffer.region.Contains
            (ptrOffset buffer.imageBase (sectionField mem buffer sectionIndex Offset.virtualAddress))
            (sectionField mem buffer sectionIndex Offset.virtualSize)))) := by
  simp only [peRetrieveSection, confined_ite, confined_bind, confined_load, confined_pure,
    described.imageBase, described.ntBase, described.size, described.machine, described.numberOfSections,
    reduceCtorEq, false_implies, implies_true, true_and, not_le, ne_eq, not_not, Bool.not_eq_false,
    Option.some.injEq, exists_eq_left', true_implies]
  exact Iff.rfl

theorem peRetrieveDataDirectory_within_iff (described : Describes mem buffer info) (dataDirectory : Nat)
    (dataDirectoryInfo : Option DataDirectory) :
    ((peRetrieveDataDirectory mem (some info) dataDirectory dataDirectoryInfo).Confined buffer.region
      fun result => result.1 = .success -> ∃ found, result.2 = some found ∧
        buffer.region.Contains found.baseAddress found.size) ↔
    (dataDirectory ≤ imageDirectoryEntryComDescriptor -> ¬ dataDirectoryInfo = none ->
      imageFileMachineAmd64 = ntField mem buffer 2 Offset.machine ->
      buffer.region.Contains (ptrOffset (ntBase mem buffer) Offset.numberOfRvaAndSizes) 4 ∧
      (dataDirectory < ntField mem buffer 4 Offset.numberOfRvaAndSizes ->
      acceptedBySizeOfImage mem buffer (ptrOffset (ntBase mem buffer)
          (Offset.dataDirectory + sizeofImageDataDirectory * dataDirectory)) sizeofImageDataDirectory = true ->
        buffer.region.Contains (ptrOffset (ptrOffset (ntBase mem buffer)
          (Offset.dataDirectory + sizeofImageDataDirectory * dataDirectory))
          Offset.directoryVirtualAddress) 4 ∧
        buffer.region.Contains (ptrOffset (ptrOffset (ntBase mem buffer)
          (Offset.dataDirectory + sizeofImageDataDirectory * dataDirectory)) Offset.directorySize) 4 ∧
        (acceptedBySizeOfImage mem buffer
            (ptrOffset buffer.imageBase (directoryField mem buffer dataDirectory Offset.directoryVirtualAddress))
            (directoryField mem buffer dataDirectory Offset.directorySize) = true ->
          buffer.region.Contains
            (ptrOffset buffer.imageBase (directoryField mem buffer dataDirectory Offset.directoryVirtualAddress))
            (directoryField mem buffer dataDirectory Offset.directorySize)))) := by
  simp only [peRetrieveDataDirectory, confined_ite, confined_bind, confined_load, confined_pure,
    described.imageBase, described.ntBase, described.size, described.machine,
    reduceCtorEq, false_implies, implies_true, true_and, not_lt, not_le, ne_eq, not_not, Bool.not_eq_false,
    Option.some.injEq, exists_eq_left', true_implies]
  exact Iff.rfl

theorem sectionHeader_read {sectionIndex offset : Nat}
    (below : sectionIndex < ntField mem buffer 2 Offset.numberOfSections)
    (accepted : acceptedBySizeOfImage mem buffer (statedSections mem buffer)
      (sizeofImageSectionHeader * ntField mem buffer 2 Offset.numberOfSections) = true)
    (fits : statedSections mem buffer + sizeofImageSectionHeader * ntField mem buffer 2 Offset.numberOfSections ≤
      buffer.imageBase + buffer.imageSize) (within : offset + 4 ≤ sizeofImageSectionHeader) :
    buffer.region.Contains (ptrOffset (ptrOffset (statedSections mem buffer)
      (sizeofImageSectionHeader * sectionIndex)) offset) 4 := by
  have bound := buffer.end_lt
  simp only [sizeofImageSectionHeader] at accepted fits within ⊢
  have start : buffer.imageBase ≤ statedSections mem buffer := by
    rw [acceptedBySizeOfImage, checkBounds_eq_true, qword_of_lt (by omega), qword_of_lt (by omega)] at accepted
    exact accepted.1
  have header : ptrOffset (statedSections mem buffer) (40 * sectionIndex) =
      statedSections mem buffer + 40 * sectionIndex := qword_of_lt (by omega)
  have field : ptrOffset (statedSections mem buffer + 40 * sectionIndex) offset =
      statedSections mem buffer + 40 * sectionIndex + offset := qword_of_lt (by omega)
  rw [header, field, Region.contains_iff]
  simp only [ImageBuffer.region]
  omega

-- The Characteristics of the last section are the last bytes of the table. The NT header is too close
-- to the table for a table that wraps to come back into the image.
theorem last_sectionHeader_fits (inside : HeaderInside mem buffer)
    (some : 0 < ntField mem buffer 2 Offset.numberOfSections)
    (accepted : acceptedBySizeOfImage mem buffer (statedSections mem buffer)
      (sizeofImageSectionHeader * ntField mem buffer 2 Offset.numberOfSections) = true)
    (read : buffer.region.Contains (ptrOffset (ptrOffset (statedSections mem buffer)
      (sizeofImageSectionHeader * (ntField mem buffer 2 Offset.numberOfSections - 1))) Offset.characteristics) 4) :
    statedSections mem buffer + sizeofImageSectionHeader * ntField mem buffer 2 Offset.numberOfSections ≤
      buffer.imageBase + buffer.imageSize := by
  have bound := buffer.end_lt
  have small := buffer.imageSize_lt
  have lower := inside.lower
  have upper := inside.upper
  have sections : ntField mem buffer 2 Offset.numberOfSections < 256 ^ 2 := ntField_lt 2 _
  have optional : ntField mem buffer 2 Offset.sizeOfOptionalHeader < 256 ^ 2 := ntField_lt 2 _
  rw [acceptedBySizeOfImage, checkBounds_eq_true] at accepted
  rw [Region.contains_iff] at read
  simp only [ImageBuffer.region, statedSections, sectionTable, ptrOffset, qword, sizeofImageSectionHeader,
    sizeofImageNtHeaders64, Offset.characteristics] at *
  omega

theorem sectionWithin_iff (described : Describes mem buffer info) (inside : HeaderInside mem buffer) :
    SectionWithin mem buffer.region info ↔
      (ntField mem buffer 2 Offset.machine = imageFileMachineAmd64 -> SectionsSized mem buffer) := by
  have sizeField : buffer.region.Contains (ptrOffset (ntBase mem buffer) Offset.sizeOfOptionalHeader) 2 :=
    header_read inside (by omega) (by decide)
  have small := fun sectionIndex => Memory.load_lt mem 4 (ptrOffset (ptrOffset (statedSections mem buffer)
    (sizeofImageSectionHeader * sectionIndex)) Offset.virtualAddress)
  constructor
  · intro within amd64 sectionIndex below accepted
    have called := fun index valid => ((peRetrieveSection_within_iff described index (some default)).mp
      (within index (some default)) valid nofun amd64.symm).2 accepted
    have last := called (ntField mem buffer 2 Offset.numberOfSections - 1) (by omega)
    refine ⟨last_sectionHeader_fits inside (by omega) accepted last.2.2.1, fun range => ?_⟩
    exact (range_contained_iff (small sectionIndex) range).mp ((called sectionIndex below).2.2.2 range)
  · intro sized sectionIndex sectionInfo
    rw [peRetrieveSection_within_iff described]
    intro below _ amd64
    refine ⟨sizeField, fun accepted => ?_⟩
    obtain ⟨fits, ranges⟩ := sized amd64.symm sectionIndex below accepted
    refine ⟨?_, ?_, ?_, fun range => ?_⟩
    · exact sectionHeader_read below accepted fits (by decide)
    · exact sectionHeader_read below accepted fits (by decide)
    · exact sectionHeader_read below accepted fits (by decide)
    · exact (range_contained_iff (small sectionIndex) range).mpr (ranges range)

theorem dataDirectoryWithin_iff (described : Describes mem buffer info) (inside : HeaderInside mem buffer) :
    DataDirectoryWithin mem buffer.region info ↔
      (ntField mem buffer 2 Offset.machine = imageFileMachineAmd64 -> DirectoriesSized mem buffer) := by
  have countField : buffer.region.Contains (ptrOffset (ntBase mem buffer) Offset.numberOfRvaAndSizes) 4 :=
    header_read inside (by omega) (by decide)
  have small := fun dataDirectory => Memory.load_lt mem 4 (ptrOffset (ptrOffset (ntBase mem buffer)
    (Offset.dataDirectory + sizeofImageDataDirectory * dataDirectory)) Offset.directoryVirtualAddress)
  constructor
  · intro within amd64 dataDirectory known below accepted range
    have called := ((peRetrieveDataDirectory_within_iff described dataDirectory (some default)).mp
      (within dataDirectory (some default)) known nofun amd64.symm).2 below accepted
    exact (range_contained_iff (small dataDirectory) range).mp (called.2.2 range)
  · intro sized dataDirectory dataDirectoryInfo
    rw [peRetrieveDataDirectory_within_iff described]
    intro known _ amd64
    refine ⟨countField, fun below accepted => ?_⟩
    have entry : Offset.dataDirectory + sizeofImageDataDirectory * dataDirectory + 8 ≤ sizeofImageNtHeaders64 := by
      simp only [imageDirectoryEntryComDescriptor, Offset.dataDirectory, sizeofImageDataDirectory,
        sizeofImageNtHeaders64] at known ⊢
      omega
    refine ⟨?_, ?_, fun range => ?_⟩
    · exact directory_read inside entry (by decide)
    · exact directory_read inside entry (by decide)
    · exact (range_contained_iff (small dataDirectory) range).mpr
        (sized amd64.symm dataDirectory known below accepted range)

theorem headerInside_iff
    (accepted : checkBounds (ntBase mem buffer) sizeofImageNtHeaders64 buffer.imageBase buffer.imageSize = true) :
    HeaderInside mem buffer ↔ ntBase mem buffer + sizeofImageNtHeaders64 < 2 ^ 64 := by
  have bound := buffer.end_lt
  have lower : qword (ntBase mem buffer) = ntBase mem buffer := Nat.mod_mod _ _
  rw [checkBounds_eq_true, lower, qword_of_lt (by omega), qword_of_lt bound] at accepted
  constructor
  · intro inside
    have upper := inside.upper
    omega
  · intro fits
    rw [qword_of_lt fits] at accepted
    exact ⟨accepted.1, accepted.2⟩

-- What PeRetrieveNtHeader stores when it succeeds.
def retrievedInfo (mem : Lib.Memory) (buffer : ImageBuffer) : NtHeaderInfo where
  imageBase := buffer.imageBase
  ntBase := ntBase mem buffer
  addressOfEntryPoint := ptrOffset buffer.imageBase (ntField mem buffer 4 Offset.addressOfEntryPoint)
  imageAlignment := ntField mem buffer 4 Offset.sectionAlignment
  fileAlignment := ntField mem buffer 4 Offset.fileAlignment
  preferredImageBase := ntField mem buffer 8 Offset.imageBase
  preferredAddressOfEntryPoint :=
    ptrOffset (ntField mem buffer 8 Offset.imageBase) (ntField mem buffer 4 Offset.addressOfEntryPoint)
  size := ntField mem buffer 4 Offset.sizeOfImage
  machine := ntField mem buffer 2 Offset.machine
  subsystem := ntField mem buffer 2 Offset.subsystem
  sizeOfHeaders := ntField mem buffer 4 Offset.sizeOfHeaders
  numberOfSections := ntField mem buffer 2 Offset.numberOfSections

theorem retrievedInfo_describes : Describes mem buffer (retrievedInfo mem buffer) :=
  ⟨rfl, rfl, rfl, rfl, rfl⟩

theorem neverLeavesBuffer_iff (present : buffer.imageBase ≠ 0) (filled : buffer.imageSize ≠ 0) :
    NeverLeavesBuffer mem buffer ↔
      buffer.region.Contains (ptrOffset buffer.imageBase Offset.eMagic) 2 ∧
      (mem.load 2 (ptrOffset buffer.imageBase Offset.eMagic) = mzSignature ->
        buffer.region.Contains (ptrOffset buffer.imageBase Offset.eLfanew) 4 ∧
        (checkBounds (ntBase mem buffer) sizeofImageNtHeaders64 buffer.imageBase buffer.imageSize = true ->
          buffer.region.Contains (ptrOffset (ntBase mem buffer) Offset.signature) 4 ∧
          (ntField mem buffer 4 Offset.signature = ntSignature ->
            HeaderInside mem buffer ∧ SectionWithin mem buffer.region (retrievedInfo mem buffer) ∧
              DataDirectoryWithin mem buffer.region (retrievedInfo mem buffer)))) := by
  simp only [NeverLeavesBuffer, peRetrieveNtHeader, confined_ite, confined_bind, confined_load, confined_pure,
    reduceCtorEq, false_implies, implies_true, true_and, ne_eq, not_not, Bool.not_eq_false,
    Option.some.injEq, exists_eq_left', true_implies]
  constructor
  · intro within
    obtain ⟨magic, rest⟩ := within (some default) present.symm filled.symm nofun
    refine ⟨magic, fun mz => ?_⟩
    obtain ⟨lfanew, rest⟩ := rest mz.symm
    refine ⟨lfanew, fun accepted => ?_⟩
    obtain ⟨signature, rest⟩ := rest accepted
    refine ⟨signature, fun pe => ?_⟩
    obtain ⟨_, _, _, _, _, _, _, _, _, header, parts⟩ := rest pe.symm
    refine ⟨?_, parts⟩
    rcases Region.contains_iff.mp header with empty | inside
    · exact absurd empty (by decide)
    · exact ⟨inside.1, inside.2⟩
  · intro ⟨magic, rest⟩ ntInfo _ _ _
    refine ⟨magic, fun mz => ?_⟩
    obtain ⟨lfanew, rest⟩ := rest mz.symm
    refine ⟨lfanew, fun accepted => ?_⟩
    obtain ⟨signature, rest⟩ := rest accepted
    refine ⟨signature, fun pe => ?_⟩
    obtain ⟨inside, parts⟩ := rest pe.symm
    have read : forall offset width, 0 < width -> offset + width ≤ sizeofImageNtHeaders64 ->
        buffer.region.Contains (ptrOffset (ntBase mem buffer) offset) width :=
      fun _ _ => header_read inside
    refine ⟨read _ 4 ?_ ?_, read _ 2 ?_ ?_, read _ 2 ?_ ?_, read _ 4 ?_ ?_, read _ 4 ?_ ?_, read _ 2 ?_ ?_,
      read _ 4 ?_ ?_, read _ 4 ?_ ?_, read _ 8 ?_ ?_, ?_, parts⟩
    all_goals try decide
    exact Region.contains_iff.mpr (.inr ⟨inside.lower, inside.upper⟩)

end

theorem magic_read_iff {buffer : ImageBuffer} :
    buffer.region.Contains (ptrOffset buffer.imageBase Offset.eMagic) 2 ↔ 2 ≤ buffer.imageSize := by
  have bound := buffer.end_lt
  have start : buffer.imageBase < 2 ^ 64 := by omega
  rw [Offset.eMagic, ptrOffset_zero start, Region.contains_iff]
  simp only [ImageBuffer.region]
  omega

theorem lfanew_read_iff {buffer : ImageBuffer} :
    buffer.region.Contains (ptrOffset buffer.imageBase Offset.eLfanew) 4 ↔ 64 ≤ buffer.imageSize := by
  have bound := buffer.end_lt
  rw [Region.contains_iff]
  simp only [ImageBuffer.region, ptrOffset, qword, Offset.eLfanew]
  omega

theorem signature_read_iff {mem : Lib.Memory} {buffer : ImageBuffer}
    (accepted : checkBounds (ntBase mem buffer) sizeofImageNtHeaders64 buffer.imageBase buffer.imageSize = true) :
    buffer.region.Contains (ptrOffset (ntBase mem buffer) Offset.signature) 4 ↔
      ntBase mem buffer + 4 ≤ buffer.imageBase + buffer.imageSize := by
  have bound := buffer.end_lt
  have start : ntBase mem buffer < 2 ^ 64 := qword_lt _
  rw [checkBounds_eq_true, qword_of_lt start, qword_of_lt (by omega)] at accepted
  rw [Offset.signature, ptrOffset_zero start, Region.contains_iff]
  simp only [ImageBuffer.region]
  omega

theorem buffer_never_left (mem : Lib.Memory) (buffer : ImageBuffer) :
    NeverLeavesBuffer mem buffer ↔ SizesHold mem buffer := by
  by_cases present : buffer.imageBase = 0
  · have refused : NeverLeavesBuffer mem buffer := by
      intro ntInfo
      rw [peRetrieveNtHeader, if_pos present.symm, confined_pure]
      nofun
    exact iff_of_true refused fun nonzero => absurd present nonzero
  by_cases filled : buffer.imageSize = 0
  · have refused : NeverLeavesBuffer mem buffer := by
      intro ntInfo
      rw [peRetrieveNtHeader, if_neg (Ne.symm present), if_pos filled.symm, confined_pure]
      nofun
    exact iff_of_true refused fun _ nonzero => absurd filled nonzero
  rw [neverLeavesBuffer_iff present filled, magic_read_iff, lfanew_read_iff]
  simp only [SizesHold, ne_eq, present, filled, not_false_eq_true, true_implies]
  refine and_congr_right fun _ => forall_congr' fun _ => and_congr_right fun _ => forall_congr' fun accepted => ?_
  rw [signature_read_iff accepted, headerInside_iff accepted]
  refine and_congr_right fun _ => forall_congr' fun _ => and_congr_right fun fits => ?_
  have inside := (headerInside_iff accepted).mpr fits
  rw [sectionWithin_iff retrievedInfo_describes inside, dataDirectoryWithin_iff retrievedInfo_describes inside]
  exact forall_and.symm

-- A one-byte file: its magic is read from two bytes.
theorem buffer_left : ¬ forall mem buffer, NeverLeavesBuffer mem buffer := by
  intro always
  let file : ImageBuffer := ⟨0x10000, 1, by decide, by decide⟩
  have present : file.imageBase ≠ 0 := by decide
  have filled : file.imageSize ≠ 0 := by decide
  have left := (neverLeavesBuffer_iff present filled).mp (always (fun _ => 0x4D) file)
  exact absurd (magic_read_iff.mp left.1) (by decide)

end Hal9000.Pe
