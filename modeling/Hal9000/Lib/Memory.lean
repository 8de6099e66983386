import Mathlib.Tactic.Common
import Mathlib.Algebra.Order.Ring.Nat

set_option autoImplicit false

namespace Hal9000.Lib

def Memory := Nat -> UInt8

namespace Memory

def load (mem : Memory) : (width address : Nat) -> Nat
  | 0, _ => 0
  | width + 1, address => (mem address).toNat + 256 * load mem width (address + 1)

def store (mem : Memory) (width address value : Nat) : Memory := fun place =>
  if address ≤ place ∧ place < address + width then UInt8.ofNat (value / 256 ^ (place - address)) else mem place

def fill (mem : Memory) (address count : Nat) (byte : UInt8) : Memory := fun place =>
  if address ≤ place ∧ place < address + count then byte else mem place

def put (mem : Memory) (address : Nat) (byte : UInt8) : Memory := fun place =>
  if place = address then byte else mem place

def text (bytes : List UInt8) : Memory := fun place => bytes.getD place 0

variable {mem other : Memory} {width address value : Nat}

theorem load_lt (mem : Memory) (width address : Nat) : load mem width address < 256 ^ width := by
  induction width generalizing address with
  | zero => simp [load]
  | succ width ih =>
    have byte := (mem address).toNat_lt
    have rest := ih (address + 1)
    rw [load, pow_succ]
    omega

def Agrees (mem other : Memory) (address count : Nat) : Prop :=
  forall place, address ≤ place -> place < address + count -> mem place = other place

theorem Agrees.trans {third : Memory} {count : Nat} (one : Agrees mem other address count)
    (two : Agrees other third address count) : Agrees mem third address count :=
  fun place lower upper => (one place lower upper).trans (two place lower upper)

theorem load_congr (same : Agrees mem other address width) :
    load mem width address = load other width address := by
  induction width generalizing address with
  | zero => rfl
  | succ width ih =>
    have first : mem address = other address := same address (by omega) (by omega)
    have rest : load mem width (address + 1) = load other width (address + 1) :=
      ih fun place lower upper => same place (by omega) (by omega)
    rw [load, load, first, rest]

theorem store_agrees {start count : Nat} (apart : start + count ≤ address ∨ address + width ≤ start) :
    Agrees (mem.store width address value) mem start count := by
  intro place lower upper
  rw [store, if_neg (by omega)]

theorem fill_agrees {start count filled : Nat} {byte : UInt8}
    (apart : start + count ≤ address ∨ address + filled ≤ start) :
    Agrees (mem.fill address filled byte) mem start count := by
  intro place lower upper
  rw [fill, if_neg (by omega)]

theorem fill_elsewhere {count place : Nat} {byte : UInt8}
    (outside : ¬ (address ≤ place ∧ place < address + count)) : mem.fill address count byte place = mem place :=
  if_neg outside

theorem load_store_apart {width' address' : Nat}
    (apart : address' + width' ≤ address ∨ address + width ≤ address') :
    load (mem.store width address value) width' address' = load mem width' address' :=
  load_congr (store_agrees apart)

theorem load_fill_apart {width' address' count : Nat} {byte : UInt8}
    (apart : address' + width' ≤ address ∨ address + count ≤ address') :
    load (mem.fill address count byte) width' address' = load mem width' address' :=
  load_congr (fill_agrees apart)

theorem load_store_suffix {count : Nat} (inside : count ≤ width) :
    load (mem.store width address value) count (address + (width - count)) =
      value / 256 ^ (width - count) % 256 ^ count := by
  induction count with
  | zero => simp [load, Nat.mod_one]
  | succ count ih =>
    have position : address + (width - (count + 1)) + 1 = address + (width - count) := by omega
    have byte : (mem.store width address value (address + (width - (count + 1)))).toNat =
        value / 256 ^ (width - (count + 1)) % 256 := by
      rw [store, if_pos (by omega), UInt8.toNat_ofNat']
      simp
    have split : 256 ^ (width - count) = 256 ^ (width - (count + 1)) * 256 := by
      rw [← pow_succ]
      congr 1
      omega
    rw [load, byte, position, ih (by omega), split, ← Nat.div_div_eq_div_mul, pow_succ', Nat.mod_mul]

theorem load_store (bound : value < 256 ^ width) :
    load (mem.store width address value) width address = value := by
  have whole : load (mem.store width address value) width (address + (width - width)) = _ :=
    load_store_suffix (Nat.le_refl width)
  simpa [Nat.mod_eq_of_lt bound] using whole

def slice (mem : Memory) (address count : Nat) : Memory := fun place =>
  if place < count then mem (address + place) else 0

def copy (mem : Memory) (address count : Nat) (source : Memory) : Memory := fun place =>
  if address ≤ place ∧ place < address + count then source (place - address) else mem place

theorem slice_apply {count place : Nat} (inside : place < count) :
    mem.slice address count place = mem (address + place) := if_pos inside

theorem slice_beyond {count place : Nat} (outside : ¬ place < count) : mem.slice address count place = 0 :=
  if_neg outside

theorem copy_inside {count place : Nat} {source : Memory} (lower : address ≤ place)
    (upper : place < address + count) : mem.copy address count source place = source (place - address) :=
  if_pos ⟨lower, upper⟩

theorem copy_elsewhere {count place : Nat} {source : Memory}
    (outside : ¬ (address ≤ place ∧ place < address + count)) : mem.copy address count source place = mem place :=
  if_neg outside

theorem copy_agrees {start count copied : Nat} {source : Memory}
    (apart : start + count ≤ address ∨ address + copied ≤ start) :
    Agrees (mem.copy address copied source) mem start count := by
  intro place lower upper
  exact copy_elsewhere (by omega)

theorem store_elsewhere {place : Nat} (outside : ¬ (address ≤ place ∧ place < address + width)) :
    mem.store width address value place = mem place :=
  if_neg outside

theorem load_slice {count start : Nat} (inside : start + width ≤ count) :
    load (mem.slice address count) width start = load mem width (address + start) := by
  induction width generalizing start with
  | zero => rfl
  | succ width ih =>
    have next : address + (start + 1) = address + start + 1 := by omega
    rw [load, load, slice_apply (by omega), ih (by omega), next]

theorem slice_congr {count : Nat} (same : Agrees mem other address count) :
    mem.slice address count = other.slice address count := by
  funext place
  by_cases inside : place < count
  · rw [slice_apply inside, slice_apply inside, same (address + place) (by omega) (by omega)]
  · rw [slice, if_neg inside, slice, if_neg inside]

theorem load_copy {count start : Nat} {source : Memory} (inside : start + width ≤ count) :
    load (mem.copy address count source) width (address + start) = load source width start := by
  induction width generalizing start with
  | zero => rfl
  | succ width ih =>
    have next : address + start + 1 = address + (start + 1) := by omega
    have first : mem.copy address count source (address + start) = source start := by
      rw [copy_inside (by omega) (by omega), Nat.add_sub_cancel_left]
    rw [load, load, first, next, ih (by omega)]

theorem copy_store_slice {count start : Nat} (inside : start + width ≤ count) :
    mem.copy address count ((mem.slice address count).store width start value) =
      mem.store width (address + start) value := by
  funext place
  by_cases within : address ≤ place ∧ place < address + count
  · rw [copy_inside within.1 within.2]
    by_cases word : address + start ≤ place ∧ place < address + start + width
    · rw [store, if_pos (by omega), store, if_pos word, Nat.sub_sub]
    · rw [store_elsewhere (by omega), store_elsewhere word, slice_apply (by omega),
        Nat.add_sub_cancel' within.1]
  · rw [copy_elsewhere within, store_elsewhere (by omega)]

@[simp] theorem put_same {byte : UInt8} : mem.put address byte address = byte := if_pos rfl

theorem put_elsewhere {place : Nat} {byte : UInt8} (outside : place ≠ address) :
    mem.put address byte place = mem place :=
  if_neg outside

@[simp] theorem text_apply {place : Nat} (bytes : List UInt8) : text bytes place = bytes.getD place 0 := rfl

@[simp] theorem load_byte (mem : Memory) (address : Nat) : load mem 1 address = (mem address).toNat := by
  simp [load]

theorem load_mod (mem : Memory) (width address : Nat) :
    load mem (width + 1) address % 256 = (mem address).toNat := by
  have byte := (mem address).toNat_lt
  rw [load]
  omega

theorem copy_zero {source : Memory} : mem.copy address 0 source = mem := by
  funext place
  exact copy_elsewhere (by omega)

theorem put_copy_text {byte : UInt8} {bytes : List UInt8} :
    (mem.put address byte).copy (address + 1) bytes.length (text bytes) =
      mem.copy address (bytes.length + 1) (text (byte :: bytes)) := by
  funext place
  by_cases within : address ≤ place ∧ place < address + (bytes.length + 1)
  · rw [copy_inside within.1 within.2, text_apply]
    obtain rfl | later := within.1.eq_or_lt
    · rw [copy_elsewhere (by omega), put_same, Nat.sub_self, List.getD_cons_zero]
    · obtain ⟨position, same⟩ : ∃ position, place - address = position + 1 := ⟨place - address - 1, by omega⟩
      have before : place - (address + 1) = position := by omega
      rw [copy_inside (by omega) (by omega), text_apply, same, before, List.getD_cons_succ]
  · rw [copy_elsewhere within, copy_elsewhere (by omega), put_elsewhere (by omega)]

-- From here on only the lemmas above are used.
attribute [irreducible] load store fill slice copy put text

end Memory

end Hal9000.Lib
