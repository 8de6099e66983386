import Hal9000.CommonLib.Base

set_option autoImplicit false

namespace Hal9000

-- The ReferenceCount of a REF_COUNT; RfcDereference leaves the call of FreeFunction at 0 to its caller.
def rfcInit : Nat := 1

def rfcReference (referenceCount : Nat) : Kernel Nat := do
  let newRefCount := dword (referenceCount + 1)
  assert (decide (newRefCount < maxDword)) "MAX_DWORD > newRefCount"
  assert (decide (1 ≤ newRefCount)) "1 <= newRefCount"
  return newRefCount

def rfcDereference (referenceCount : Nat) : Kernel Nat := do
  let newRefCount := dword (referenceCount + maxDword)
  assert (newRefCount != maxDword) "MAX_DWORD != newRefCount"
  return newRefCount

theorem rfcReference_eq_ok {referenceCount newRefCount : Nat} (small : referenceCount < maxDword) :
    rfcReference referenceCount = .ok newRefCount ↔
      newRefCount = referenceCount + 1 ∧ referenceCount + 1 < maxDword := by
  have exact_count : dword (referenceCount + 1) = referenceCount + 1 := dword_of_lt (by
    simp only [maxDword] at small
    omega)
  simp only [rfcReference, Kernel.assert_bind_eq_ok, decide_eq_true_eq, exact_count, Kernel.pure_eq, Except.ok.injEq]
  omega

theorem rfcDereference_eq {referenceCount : Nat} (positive : 0 < referenceCount) (small : referenceCount ≤ maxDword) :
    rfcDereference referenceCount = .ok (referenceCount - 1) := by
  have exact_count : dword (referenceCount + maxDword) = referenceCount - 1 := by
    simp only [dword, maxDword] at small ⊢
    omega
  have different : (referenceCount - 1 != maxDword) = true := bne_iff_ne.mpr (by
    simp only [maxDword] at small ⊢
    omega)
  simp only [rfcDereference, exact_count, different, assert_true, Kernel.ok_bind, Kernel.pure_eq]

end Hal9000
