import Hal9000.CommonLib.Base
import Hal9000.Lib.Reading

set_option autoImplicit false

namespace Hal9000.Pe

open Lib Reading

inductive Status where
  | success
  | invalidParameter1
  | invalidParameter2
  | invalidParameter3
  | invalidMzImage
  | invalidPeImage
  | invalidImageSize
  | unsupported
  deriving DecidableEq, Repr

def mzSignature : Nat := 0x5A4D

def ntSignature : Nat := 0x00004550

def imageFileMachineAmd64 : Nat := 0x8664

def imageDirectoryEntryComDescriptor : Nat := 14

def sizeofImageNtHeaders64 : Nat := 264

def sizeofImageSectionHeader : Nat := 40

def sizeofImageDataDirectory : Nat := 8

namespace Offset

def eMagic : Nat := 0
def eLfanew : Nat := 60

def signature : Nat := 0
def machine : Nat := 4
def numberOfSections : Nat := 6
def sizeOfOptionalHeader : Nat := 20
def addressOfEntryPoint : Nat := 40
def imageBase : Nat := 48
def sectionAlignment : Nat := 56
def fileAlignment : Nat := 60
def sizeOfImage : Nat := 80
def sizeOfHeaders : Nat := 84
def subsystem : Nat := 92
def numberOfRvaAndSizes : Nat := 132
def dataDirectory : Nat := 136

def virtualSize : Nat := 8
def virtualAddress : Nat := 12
def characteristics : Nat := 36

def directoryVirtualAddress : Nat := 0
def directorySize : Nat := 4

end Offset

structure NtHeaderInfo where
  imageBase : Nat
  ntBase : Nat
  addressOfEntryPoint : Nat
  imageAlignment : Nat
  fileAlignment : Nat
  preferredImageBase : Nat
  preferredAddressOfEntryPoint : Nat
  size : Nat
  machine : Nat
  subsystem : Nat
  sizeOfHeaders : Nat
  numberOfSections : Nat
  deriving DecidableEq, Repr, Inhabited

structure SectionInfo where
  baseAddress : Nat
  size : Nat
  characteristics : Nat
  deriving DecidableEq, Repr, Inhabited

structure DataDirectory where
  baseAddress : Nat
  size : Nat
  deriving DecidableEq, Repr, Inhabited

-- e_lfanew is a signed 32-bit value, added to a pointer.
def signExtend (value : Nat) : Nat :=
  if value < 2 ^ 31 then value else 2 ^ 64 - 2 ^ 32 + value

def peRetrieveNtHeader (mem : Lib.Memory) (imageBase imageSize : Nat) (ntInfo : Option NtHeaderInfo) :
    Reading (Status × Option NtHeaderInfo) :=
  if 0 = imageBase then pure (.invalidParameter1, ntInfo)
  else if 0 = imageSize then pure (.invalidParameter2, ntInfo)
  else if ntInfo = none then pure (.invalidParameter3, ntInfo)
  else do
    let magic <- load mem 2 (ptrOffset imageBase Offset.eMagic)
    if mzSignature ≠ magic then pure (.invalidMzImage, ntInfo)
    else do
      let lfanew <- load mem 4 (ptrOffset imageBase Offset.eLfanew)
      let nt := ptrOffset imageBase (signExtend lfanew)
      if checkBounds nt sizeofImageNtHeaders64 imageBase imageSize = false then
        pure (.invalidImageSize, ntInfo)
      else do
        let signature <- load mem 4 (ptrOffset nt Offset.signature)
        if ntSignature ≠ signature then pure (.invalidPeImage, ntInfo)
        else do
          let sizeOfImage <- load mem 4 (ptrOffset nt Offset.sizeOfImage)
          let machine <- load mem 2 (ptrOffset nt Offset.machine)
          let subsystem <- load mem 2 (ptrOffset nt Offset.subsystem)
          let addressOfEntryPoint <- load mem 4 (ptrOffset nt Offset.addressOfEntryPoint)
          let sizeOfHeaders <- load mem 4 (ptrOffset nt Offset.sizeOfHeaders)
          let numberOfSections <- load mem 2 (ptrOffset nt Offset.numberOfSections)
          let sectionAlignment <- load mem 4 (ptrOffset nt Offset.sectionAlignment)
          let fileAlignment <- load mem 4 (ptrOffset nt Offset.fileAlignment)
          let preferredImageBase <- load mem 8 (ptrOffset nt Offset.imageBase)
          pure (.success, some {
            imageBase := imageBase
            ntBase := nt
            addressOfEntryPoint := ptrOffset imageBase addressOfEntryPoint
            imageAlignment := sectionAlignment
            fileAlignment := fileAlignment
            preferredImageBase := preferredImageBase
            preferredAddressOfEntryPoint := ptrOffset preferredImageBase addressOfEntryPoint
            size := sizeOfImage
            machine := machine
            subsystem := subsystem
            sizeOfHeaders := sizeOfHeaders
            numberOfSections := numberOfSections })

-- sizeof(DWORD) + sizeof(IMAGE_FILE_HEADER) + SizeOfOptionalHeader bytes after the NT header's start.
def sectionTable (ntBase sizeOfOptionalHeader : Nat) : Nat :=
  ptrOffset ntBase (4 + 20 + sizeOfOptionalHeader)

def peRetrieveSection (mem : Lib.Memory) (ntInfo : Option NtHeaderInfo) (sectionIndex : Nat)
    (sectionInfo : Option SectionInfo) : Reading (Status × Option SectionInfo) :=
  match ntInfo with
  | none => pure (.invalidParameter1, sectionInfo)
  | some info =>
    if info.numberOfSections ≤ sectionIndex then pure (.invalidParameter2, sectionInfo)
    else if sectionInfo = none then pure (.invalidParameter3, sectionInfo)
    else if imageFileMachineAmd64 ≠ info.machine then pure (.unsupported, sectionInfo)
    else do
      let sizeOfOptionalHeader <- load mem 2 (ptrOffset info.ntBase Offset.sizeOfOptionalHeader)
      let sections := sectionTable info.ntBase sizeOfOptionalHeader
      if checkBounds sections (sizeofImageSectionHeader * info.numberOfSections) info.imageBase info.size =
          false then
        pure (.invalidImageSize, sectionInfo)
      else do
        let header := ptrOffset sections (sizeofImageSectionHeader * sectionIndex)
        let virtualAddress <- load mem 4 (ptrOffset header Offset.virtualAddress)
        let virtualSize <- load mem 4 (ptrOffset header Offset.virtualSize)
        let characteristics <- load mem 4 (ptrOffset header Offset.characteristics)
        let result : SectionInfo :=
          { baseAddress := ptrOffset info.imageBase virtualAddress
            size := virtualSize
            characteristics := characteristics }
        if checkBounds result.baseAddress result.size info.imageBase info.size = false then
          pure (.invalidImageSize, some result)
        else pure (.success, some result)

def peRetrieveDataDirectory (mem : Lib.Memory) (ntInfo : Option NtHeaderInfo) (dataDirectory : Nat)
    (dataDirectoryInfo : Option DataDirectory) : Reading (Status × Option DataDirectory) :=
  match ntInfo with
  | none => pure (.invalidParameter1, dataDirectoryInfo)
  | some info =>
    if imageDirectoryEntryComDescriptor < dataDirectory then pure (.invalidParameter2, dataDirectoryInfo)
    else if dataDirectoryInfo = none then pure (.invalidParameter3, dataDirectoryInfo)
    else if imageFileMachineAmd64 ≠ info.machine then pure (.unsupported, dataDirectoryInfo)
    else do
      let numberOfRvaAndSizes <- load mem 4 (ptrOffset info.ntBase Offset.numberOfRvaAndSizes)
      if numberOfRvaAndSizes ≤ dataDirectory then pure (.invalidParameter2, dataDirectoryInfo)
      else do
        let directory := ptrOffset info.ntBase (Offset.dataDirectory + sizeofImageDataDirectory * dataDirectory)
        if checkBounds directory sizeofImageDataDirectory info.imageBase info.size = false then
          pure (.invalidImageSize, dataDirectoryInfo)
        else do
          let virtualAddress <- load mem 4 (ptrOffset directory Offset.directoryVirtualAddress)
          let size <- load mem 4 (ptrOffset directory Offset.directorySize)
          let result : DataDirectory :=
            { baseAddress := ptrOffset info.imageBase virtualAddress, size := size }
          if checkBounds result.baseAddress result.size info.imageBase info.size = false then
            pure (.invalidImageSize, some result)
          else pure (.success, some result)

-- ImageSize bytes at ImageBase; like every object of the language it ends before the address space does.
structure ImageBuffer where
  imageBase : Nat
  imageSize : Nat
  imageSize_lt : imageSize < 2 ^ 32
  end_lt : imageBase + imageSize < 2 ^ 64

def ImageBuffer.region (buffer : ImageBuffer) : Region :=
  { base := buffer.imageBase, size := buffer.imageSize }

def SectionWithin (mem : Lib.Memory) (region : Region) (info : NtHeaderInfo) : Prop :=
  forall sectionIndex sectionInfo,
    (peRetrieveSection mem (some info) sectionIndex sectionInfo).Confined region fun result =>
      result.1 = .success -> ∃ found, result.2 = some found ∧ region.Contains found.baseAddress found.size

def DataDirectoryWithin (mem : Lib.Memory) (region : Region) (info : NtHeaderInfo) : Prop :=
  forall dataDirectory dataDirectoryInfo,
    (peRetrieveDataDirectory mem (some info) dataDirectory dataDirectoryInfo).Confined region fun result =>
      result.1 = .success -> ∃ found, result.2 = some found ∧ region.Contains found.baseAddress found.size

-- The header is parsed first; the sections and directories are those of what it produced.
def NeverLeavesBuffer (mem : Lib.Memory) (buffer : ImageBuffer) : Prop :=
  forall ntInfo,
    (peRetrieveNtHeader mem buffer.imageBase buffer.imageSize ntInfo).Confined buffer.region fun result =>
      result.1 = .success -> ∃ info, result.2 = some info ∧
        buffer.region.Contains info.ntBase sizeofImageNtHeaders64 ∧
        SectionWithin mem buffer.region info ∧ DataDirectoryWithin mem buffer.region info

end Hal9000.Pe
