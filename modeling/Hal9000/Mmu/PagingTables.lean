import Hal9000.CommonLib.Base
import Mathlib.Tactic.IntervalCases

set_option autoImplicit false

namespace Hal9000.Mmu

instance neZero_frames : NeZero (2 ^ 40) := ⟨by decide⟩

-- An entry of a paging structure; bit 7 is `PageSize` above the last level and `PAT` there.
structure PtEntry where
  present : Bool := false
  readWrite : Bool := false
  userSupervisor : Bool := false
  pwt : Bool := false
  pcd : Bool := false
  pat : Bool := false
  global : Bool := false
  physicalAddress : Fin (2 ^ 40) := 0
  xd : Bool := false
  deriving DecidableEq, Repr

def pagingTablesLastLevel : Nat := 4

-- The bits of an address that choose an entry of the given level, those of the levels above included.
def tableIndex (level virtualAddress : Nat) : Nat :=
  virtualAddress % 2 ^ 48 / 2 ^ (48 - 9 * level)

-- The tree below a PML4: the entry that a walk meets at a level, by the address bits used so far.
structure PagingTables where
  entry : Nat -> Nat -> PtEntry

def PagingTables.lookUp (tables : PagingTables) (level virtualAddress : Nat) : PtEntry :=
  tables.entry level (tableIndex level virtualAddress)

def pteGetPhysicalAddress (entry : PtEntry) : Nat := entry.physicalAddress.val * 2 ^ 12

def pteLargePageGetPhysicalAddress (entry : PtEntry) : Nat := entry.physicalAddress.val / 2 ^ 9 * 2 ^ 21

-- `AddressOffset`: `(QWORD)(addr) & ((alig)-1)`
def addressOffset (addr alig : Nat) : Nat := qword addr &&& (alig - 1)

section Walk

variable {Context : Type}

abbrev PageWalkCallback (Context : Type) : Type :=
  Nat -> Nat -> PagingTables -> Context -> Kernel (Bool × PagingTables × Context)

def walkLevels (walkCallback : PageWalkCallback Context) (currentVa : Nat) :
    List Nat -> PagingTables -> Context -> Kernel (PagingTables × Context)
  | [], tables, context => pure (tables, context)
  | level :: rest, tables, context => do
    let (down, tables, context) <- walkCallback level currentVa tables context
    if down then
      assert (level == pagingTablesLastLevel || !(tables.lookUp level currentVa).pat)
        "((PD_ENTRY_PT*)pCurrentEntry)->PageSize == 0"
      walkLevels walkCallback currentVa rest tables context
    else pure (tables, context)

def walkPages (walkCallback : PageWalkCallback Context) (baseAddress : Nat) :
    List Nat -> PagingTables -> Context -> Kernel (PagingTables × Context)
  | [], tables, context => pure (tables, context)
  | offset :: rest, tables, context => do
    let (tables, context) <- walkLevels walkCallback (ptrOffset baseAddress offset) [1, 2, 3, 4] tables context
    walkPages walkCallback baseAddress rest tables context

-- for (QWORD offset = 0; offset < Size; offset = offset + PAGE_SIZE)
def pageOffsets (size : Nat) : List Nat :=
  (List.range ((size + (pageSize - 1)) / pageSize)).map (fun page => page * pageSize)

def vmWalkPagingTables (tables : PagingTables) (baseAddress size : Nat) (walkCallback : PageWalkCallback Context)
    (context : Context) : Kernel (PagingTables × Context) :=
  walkPages walkCallback baseAddress (pageOffsets size) tables context

end Walk

def vmRetrievePhyAccess : PageWalkCallback Nat := fun pageLevel virtualAddress tables physicalAddress => do
  assert (virtualAddress != 0) "VirtualAddress != NULL"
  let entry := tables.lookUp pageLevel virtualAddress
  if !entry.present then pure (false, tables, 0)
  else if pageLevel < pagingTablesLastLevel - 1 then pure (true, tables, physicalAddress)
  else if pageLevel = pagingTablesLastLevel - 1 then
    if entry.pat then
      pure (false, tables, ptrOffset (pteLargePageGetPhysicalAddress entry) (addressOffset virtualAddress (2 ^ 21)))
    else pure (true, tables, physicalAddress)
  else pure (false, tables, pteGetPhysicalAddress entry)

def vmmGetPhysicalAddressEx (tables : PagingTables) (virtualAddress : Nat) : Kernel Nat := do
  assert (0 != virtualAddress) "NULL != VirtualAddress"
  assert (isAddressAligned virtualAddress pageSize) "IsAddressAligned(VirtualAddress, PAGE_SIZE)"
  let (_, physicalAddress) <- vmWalkPagingTables tables virtualAddress pageSize vmRetrievePhyAccess 0
  pure physicalAddress

-- `Cr3Base` or the base address in `PagingData` is the root of the tables.
def mmuGetPhysicalAddressEx (tables : PagingTables) (virtualAddress : Nat) : Kernel Nat :=
  if virtualAddress = 0 then pure 0
  else do
    let pa <- vmmGetPhysicalAddressEx tables (alignAddressLower virtualAddress pageSize)
    pure (ptrOffset pa (addressOffset virtualAddress pageSize))

def PagingTables.translate (tables : PagingTables) (virtualAddress : Nat) : Option Nat :=
  if !(tables.lookUp 1 virtualAddress).present || (tables.lookUp 1 virtualAddress).pat then none
  else if !(tables.lookUp 2 virtualAddress).present then none
  else if (tables.lookUp 2 virtualAddress).pat then
    some ((tables.lookUp 2 virtualAddress).physicalAddress.val / 2 ^ 18 * 2 ^ 30 + virtualAddress % 2 ^ 30)
  else if !(tables.lookUp 3 virtualAddress).present then none
  else if (tables.lookUp 3 virtualAddress).pat then
    some (pteLargePageGetPhysicalAddress (tables.lookUp 3 virtualAddress) + virtualAddress % 2 ^ 21)
  else if !(tables.lookUp 4 virtualAddress).present then none
  else some (pteGetPhysicalAddress (tables.lookUp 4 virtualAddress) + virtualAddress % 2 ^ 12)

-- A present entry with bit 7 set in the first two levels, which the walk of the kernel does not accept.
def PagingTables.Refused (tables : PagingTables) (virtualAddress : Nat) : Prop :=
  (tables.lookUp 1 virtualAddress).present = true ∧
    ((tables.lookUp 1 virtualAddress).pat = true ∨
      (tables.lookUp 2 virtualAddress).present = true ∧ (tables.lookUp 2 virtualAddress).pat = true)

instance (tables : PagingTables) (virtualAddress : Nat) : Decidable (tables.Refused virtualAddress) :=
  inferInstanceAs (Decidable (_ ∧ _))

section Translation

variable {tables : PagingTables} {virtualAddress : Nat}

theorem addressOffset_two_pow (k : Nat) (bound : virtualAddress < 2 ^ 64) :
    addressOffset virtualAddress (2 ^ k) = virtualAddress % 2 ^ k := by
  rw [addressOffset, qword_of_lt bound, Nat.and_two_pow_sub_one_eq_mod]

theorem isAddressAligned_page (bound : virtualAddress < 2 ^ 64) :
    isAddressAligned virtualAddress pageSize = decide (virtualAddress % pageSize = 0) :=
  isAddressAligned_two_pow virtualAddress 12 (by decide) bound

theorem lookUp_offset {level offset : Nat} (below : level ≤ 4) (within : virtualAddress % 2 ^ 12 + offset < 2 ^ 12) :
    tables.lookUp level (virtualAddress + offset) = tables.lookUp level virtualAddress := by
  have same : tableIndex level (virtualAddress + offset) = tableIndex level virtualAddress := by
    unfold tableIndex
    interval_cases level <;> omega
  rw [PagingTables.lookUp, same, PagingTables.lookUp]

theorem translate_offset {offset : Nat} (within : virtualAddress % 2 ^ 12 + offset < 2 ^ 12) :
    tables.translate (virtualAddress + offset) = (tables.translate virtualAddress).map (fun pa => pa + offset) := by
  have large : (virtualAddress + offset) % 2 ^ 21 = virtualAddress % 2 ^ 21 + offset := by omega
  have huge : (virtualAddress + offset) % 2 ^ 30 = virtualAddress % 2 ^ 30 + offset := by omega
  have small : (virtualAddress + offset) % 2 ^ 12 = virtualAddress % 2 ^ 12 + offset := by omega
  unfold PagingTables.translate
  simp only [lookUp_offset (show 1 ≤ 4 by decide) within, lookUp_offset (show 2 ≤ 4 by decide) within,
    lookUp_offset (show 3 ≤ 4 by decide) within, lookUp_offset (show 4 ≤ 4 by decide) within, large, huge, small]
  split_ifs <;> simp only [Option.map_none, Option.map_some, Nat.add_assoc]

theorem translate_mod {pa : Nat} (mapped : tables.translate virtualAddress = some pa) :
    pa % 2 ^ 12 = virtualAddress % 2 ^ 12 := by
  unfold PagingTables.translate pteGetPhysicalAddress pteLargePageGetPhysicalAddress at mapped
  split_ifs at mapped <;> simp only [Option.some.injEq] at mapped <;> omega

theorem translate_lt {pa : Nat} (mapped : tables.translate virtualAddress = some pa) : pa < 2 ^ 52 := by
  unfold PagingTables.translate pteGetPhysicalAddress pteLargePageGetPhysicalAddress at mapped
  have second := (tables.lookUp 2 virtualAddress).physicalAddress.isLt
  have third := (tables.lookUp 3 virtualAddress).physicalAddress.isLt
  have fourth := (tables.lookUp 4 virtualAddress).physicalAddress.isLt
  split_ifs at mapped <;> simp only [Option.some.injEq] at mapped <;> omega

theorem retrieve_upper {level context : Nat} (rest : List Nat) (nonNull : virtualAddress ≠ 0) (upper : level < 3) :
    walkLevels vmRetrievePhyAccess virtualAddress (level :: rest) tables context =
      if (tables.lookUp level virtualAddress).present then
        if (tables.lookUp level virtualAddress).pat then .error "((PD_ENTRY_PT*)pCurrentEntry)->PageSize == 0"
        else walkLevels vmRetrievePhyAccess virtualAddress rest tables context
      else .ok (tables, 0) := by
  have pointer : (virtualAddress != 0) = true := bne_iff_ne.mpr nonNull
  have high : level < pagingTablesLastLevel - 1 := upper
  have other : (level == pagingTablesLastLevel) = false := by
    rw [beq_eq_false_iff_ne]
    unfold pagingTablesLastLevel
    omega
  simp only [walkLevels, vmRetrievePhyAccess, pointer, assert_true, Kernel.ok_bind, if_pos high, other]
  cases (tables.lookUp level virtualAddress).present <;>
    cases pat : (tables.lookUp level virtualAddress).pat <;>
      simp [Kernel.pure_eq, Kernel.ok_bind, Kernel.error_bind, pat]

theorem retrieve_directory {context : Nat} (rest : List Nat) (nonNull : virtualAddress ≠ 0) :
    walkLevels vmRetrievePhyAccess virtualAddress (3 :: rest) tables context =
      if (tables.lookUp 3 virtualAddress).present then
        if (tables.lookUp 3 virtualAddress).pat then
          .ok (tables, ptrOffset (pteLargePageGetPhysicalAddress (tables.lookUp 3 virtualAddress))
            (addressOffset virtualAddress (2 ^ 21)))
        else walkLevels vmRetrievePhyAccess virtualAddress rest tables context
      else .ok (tables, 0) := by
  have pointer : (virtualAddress != 0) = true := bne_iff_ne.mpr nonNull
  have notUpper : ¬ 3 < pagingTablesLastLevel - 1 := by decide
  have directory : 3 = pagingTablesLastLevel - 1 := rfl
  simp only [walkLevels, vmRetrievePhyAccess, pointer, assert_true, Kernel.ok_bind, if_neg notUpper, if_pos directory]
  cases (tables.lookUp 3 virtualAddress).present <;>
    cases pat : (tables.lookUp 3 virtualAddress).pat <;> simp [Kernel.pure_eq, Kernel.ok_bind, pat]

theorem retrieve_page {context : Nat} (nonNull : virtualAddress ≠ 0) :
    walkLevels vmRetrievePhyAccess virtualAddress [4] tables context =
      if (tables.lookUp 4 virtualAddress).present then
        .ok (tables, pteGetPhysicalAddress (tables.lookUp 4 virtualAddress))
      else .ok (tables, 0) := by
  have pointer : (virtualAddress != 0) = true := bne_iff_ne.mpr nonNull
  have notUpper : ¬ 4 < pagingTablesLastLevel - 1 := by decide
  have notDirectory : ¬ 4 = pagingTablesLastLevel - 1 := by decide
  simp only [walkLevels, vmRetrievePhyAccess, pointer, assert_true, Kernel.ok_bind, if_neg notUpper,
    if_neg notDirectory]
  cases (tables.lookUp 4 virtualAddress).present <;> rfl

theorem vmmGetPhysicalAddressEx_eq (nonNull : virtualAddress ≠ 0) (bound : virtualAddress < 2 ^ 64)
    (aligned : virtualAddress % 2 ^ 12 = 0) :
    vmmGetPhysicalAddressEx tables virtualAddress =
      if tables.Refused virtualAddress then .error "((PD_ENTRY_PT*)pCurrentEntry)->PageSize == 0"
      else .ok ((tables.translate virtualAddress).getD 0) := by
  have pointer : (0 != virtualAddress) = true := bne_iff_ne.mpr (Ne.symm nonNull)
  have pageAligned : isAddressAligned virtualAddress pageSize = true := by
    rw [show pageSize = 2 ^ 12 by rfl, isAddressAligned_two_pow _ 12 (by decide) bound, aligned]
    rfl
  have offsets : pageOffsets pageSize = [0] := rfl
  have start : ptrOffset virtualAddress 0 = virtualAddress := qword_of_lt bound
  have large : ptrOffset (pteLargePageGetPhysicalAddress (tables.lookUp 3 virtualAddress))
      (virtualAddress % 2 ^ 21) =
        pteLargePageGetPhysicalAddress (tables.lookUp 3 virtualAddress) + virtualAddress % 2 ^ 21 := by
    have bound := (tables.lookUp 3 virtualAddress).physicalAddress.isLt
    refine qword_of_lt ?_
    unfold pteLargePageGetPhysicalAddress
    omega
  simp only [vmmGetPhysicalAddressEx, pointer, pageAligned, assert_true, Kernel.ok_bind, vmWalkPagingTables, offsets,
    walkPages, start, retrieve_upper _ nonNull (show 1 < 3 by decide), retrieve_upper _ nonNull (show 2 < 3 by decide),
    retrieve_directory _ nonNull, retrieve_page nonNull, addressOffset_two_pow 21 bound, large,
    PagingTables.Refused, PagingTables.translate, aligned, Nat.add_zero]
  cases (tables.lookUp 1 virtualAddress).present <;> cases (tables.lookUp 1 virtualAddress).pat <;> try rfl
  cases (tables.lookUp 2 virtualAddress).present <;> cases (tables.lookUp 2 virtualAddress).pat <;> try rfl
  cases (tables.lookUp 3 virtualAddress).present <;> cases (tables.lookUp 3 virtualAddress).pat <;> try rfl
  cases (tables.lookUp 4 virtualAddress).present <;> rfl

theorem refused_offset {offset : Nat} (within : virtualAddress % 2 ^ 12 + offset < 2 ^ 12) :
    tables.Refused (virtualAddress + offset) ↔ tables.Refused virtualAddress := by
  unfold PagingTables.Refused
  simp only [lookUp_offset (show 1 ≤ 4 by decide) within, lookUp_offset (show 2 ≤ 4 by decide) within]

theorem mmuGetPhysicalAddressEx_eq (bound : virtualAddress < 2 ^ 64) :
    mmuGetPhysicalAddressEx tables virtualAddress =
      if virtualAddress = 0 then .ok 0
      else if virtualAddress < pageSize then .error "NULL != VirtualAddress"
      else if tables.Refused virtualAddress then .error "((PD_ENTRY_PT*)pCurrentEntry)->PageSize == 0"
      else .ok ((tables.translate virtualAddress).getD (virtualAddress % pageSize)) := by
  have base : alignAddressLower virtualAddress pageSize = virtualAddress / 2 ^ 12 * 2 ^ 12 :=
    alignAddressLower_two_pow virtualAddress 12 (by decide) bound
  have offset : addressOffset virtualAddress pageSize = virtualAddress % pageSize :=
    addressOffset_two_pow 12 bound
  have within : virtualAddress / 2 ^ 12 * 2 ^ 12 % 2 ^ 12 + virtualAddress % 2 ^ 12 < 2 ^ 12 := by omega
  have whole : virtualAddress / 2 ^ 12 * 2 ^ 12 + virtualAddress % 2 ^ 12 = virtualAddress := Nat.div_add_mod' _ _
  have refused := @refused_offset tables _ _ within
  have translated := @translate_offset tables _ _ within
  rw [whole] at refused translated
  rw [mmuGetPhysicalAddressEx, base, offset]
  by_cases null : virtualAddress = 0
  · rw [if_pos null, if_pos null]
    rfl
  rw [if_neg null, if_neg null]
  by_cases low : virtualAddress < pageSize
  · have zero : virtualAddress / 2 ^ 12 * 2 ^ 12 = 0 := by
      rw [show virtualAddress / 2 ^ 12 = 0 from Nat.div_eq_of_lt low, Nat.zero_mul]
    rw [zero, if_pos low]
    rfl
  have high : 4096 ≤ virtualAddress := Nat.le_of_not_lt low
  rw [if_neg low, vmmGetPhysicalAddressEx_eq (by omega) (by omega) (Nat.mul_mod_left _ _), translated]
  by_cases rejected : tables.Refused virtualAddress
  · rw [if_pos rejected, if_pos (refused.mp rejected)]
    rfl
  rw [if_neg rejected, if_neg (fun base => rejected (refused.mpr base)), Kernel.ok_bind, Kernel.pure_eq]
  cases mapped : tables.translate (virtualAddress / 2 ^ 12 * 2 ^ 12) with
  | none =>
    simp only [Option.getD_none, Option.map_none, ptrOffset, Nat.zero_add]
    rw [qword_of_lt (by simp only [pageSize]; omega)]
  | some pa =>
    have small := translate_lt mapped
    simp only [Option.getD_some, Option.map_some, ptrOffset, pageSize]
    rw [qword_of_lt (by omega)]
    rfl

end Translation

end Hal9000.Mmu
