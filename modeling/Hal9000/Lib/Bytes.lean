import Mathlib.Tactic.Common
import Mathlib.Logic.Function.Basic

set_option autoImplicit false

namespace Hal9000.Lib

inductive Fault where
  | outOfBounds (address : Nat)
  | assertion (text : String)
  | unfinished
  deriving DecidableEq, Repr

abbrev Access (α : Type) := Except Fault α

def Access.assert (condition : Bool) (text : String) : Access Unit :=
  if condition then .ok () else .error (.assertion text)

@[simp] theorem Access.assert_true (text : String) : Access.assert true text = .ok () := rfl

@[simp] theorem Access.assert_false (text : String) : Access.assert false text = .error (.assertion text) := rfl

theorem Access.ok_bind {α β : Type} (value : α) (rest : α -> Access β) :
    ((.ok value : Access α) >>= rest) = rest value := rfl

theorem Access.error_bind {α β : Type} (fault : Fault) (rest : α -> Access β) :
    ((.error fault : Access α) >>= rest) = .error fault := rfl

theorem Access.bind_eq_ok {α β : Type} {first : Access α} {rest : α -> Access β} {result : β} :
    (first >>= rest) = .ok result ↔ ∃ value, first = .ok value ∧ rest value = .ok result := by
  cases first <;> simp [bind, Except.bind]

-- A run with fuel returns a value: from some fuel on it always does.
def Access.Returns {α : Type} (run : Nat -> Access α) (value : α) : Prop :=
  ∃ enough, forall fuel, enough ≤ fuel -> run fuel = .ok value

theorem Access.Returns.unique {α : Type} {run : Nat -> Access α} {value other : α} (returns : Returns run value)
    {enough : Nat} (runs : forall fuel, enough ≤ fuel -> run fuel = .ok other) : value = other := by
  obtain ⟨least, always⟩ := returns
  have both := (always (max least enough) (Nat.le_max_left ..)).symm.trans (runs _ (Nat.le_max_right ..))
  exact Except.ok.inj both

def Bytes := Nat -> Option UInt8

namespace Bytes

def load (bytes : Bytes) (address : Nat) : Access UInt8 :=
  match bytes address with
  | none => .error (.outOfBounds address)
  | some byte => .ok byte

def put (bytes : Bytes) (address : Nat) (byte : UInt8) : Bytes := Function.update bytes address (some byte)

def store (bytes : Bytes) (address : Nat) (byte : UInt8) : Access Bytes :=
  match bytes address with
  | none => .error (.outOfBounds address)
  | some _ => .ok (bytes.put address byte)

def Accessible (bytes : Bytes) (address count : Nat) : Prop :=
  forall i, i < count -> ∃ byte, bytes (address + i) = some byte

def Holds (bytes : Bytes) (address : Nat) (text : List UInt8) : Prop :=
  forall i byte, text[i]? = some byte -> bytes (address + i) = some byte

def object (address : Nat) (text : List UInt8) : Bytes :=
  fun place => if address ≤ place then text[place - address]? else none

def beside (one other : Bytes) : Bytes := fun place => (one place).or (other place)

variable {bytes : Bytes} {address count place : Nat} {byte : UInt8} {text : List UInt8}

theorem load_eq (here : bytes address = some byte) : bytes.load address = .ok byte := by
  rw [load, here]

theorem load_eq_ok : bytes.load address = .ok byte ↔ bytes address = some byte := by
  rw [load]
  cases bytes address <;> simp

theorem store_eq (inside : ∃ byte, bytes address = some byte) : bytes.store address byte = .ok (bytes.put address byte) := by
  obtain ⟨old, here⟩ := inside
  rw [store, here]

theorem store_eq_ok {after : Bytes} :
    bytes.store address byte = .ok after ↔ (∃ old, bytes address = some old) ∧ after = bytes.put address byte := by
  rw [store]
  cases here : bytes address with
  | none => simp
  | some old => simp [eq_comm]

@[simp] theorem put_self : bytes.put address byte address = some byte := Function.update_self ..

theorem put_elsewhere (other : place ≠ address) : bytes.put address byte place = bytes place :=
  Function.update_of_ne other ..

theorem put_some (inside : ∃ old, bytes address = some old) (here : ∃ value, bytes.put address byte place = some value) :
    ∃ value, bytes place = some value := by
  by_cases same : place = address
  · rw [same]
    exact inside
  · rwa [put_elsewhere same] at here

theorem Accessible.put {start : Nat} (accessible : bytes.Accessible start count) :
    (bytes.put address byte).Accessible start count := by
  intro i inside
  by_cases here : start + i = address
  · exact ⟨byte, by rw [here, put_self]⟩
  · rw [put_elsewhere here]
    exact accessible i inside

theorem Accessible.at_ (accessible : bytes.Accessible address count) (lower : address ≤ place)
    (upper : place < address + count) : ∃ byte, bytes place = some byte := by
  obtain ⟨i, rfl⟩ := Nat.exists_eq_add_of_le lower
  exact accessible i (by omega)

theorem Holds.accessible (holds : bytes.Holds address text) : bytes.Accessible address text.length :=
  fun i inside => ⟨text[i], holds i _ (List.getElem?_eq_getElem inside)⟩

theorem Holds.load (holds : bytes.Holds address text) {i : Nat} (here : text[i]? = some byte) :
    bytes.load (address + i) = .ok byte := load_eq (holds i byte here)

theorem Holds.append {front back : List UInt8} :
    bytes.Holds address (front ++ back) ↔ bytes.Holds address front ∧ bytes.Holds (address + front.length) back := by
  constructor
  · intro holds
    constructor
    · intro i byte here
      have inside := (List.getElem?_eq_some_iff.mp here).1
      exact holds i byte (by rw [List.getElem?_append_left inside, here])
    · intro i byte here
      have shifted := holds (front.length + i) byte
        (by rw [List.getElem?_append_right (Nat.le_add_right _ _), Nat.add_sub_cancel_left, here])
      rwa [Nat.add_assoc]
  · rintro ⟨first, second⟩ i byte here
    rcases Nat.lt_or_ge i front.length with inside | behind
    · exact first i byte (by rwa [List.getElem?_append_left inside] at here)
    · rw [List.getElem?_append_right behind] at here
      have there := second _ byte here
      rwa [Nat.add_assoc, Nat.add_sub_cancel' behind] at there

theorem Holds.congr {other : Bytes} (holds : bytes.Holds address text)
    (same : forall i, i < text.length -> other (address + i) = bytes (address + i)) : other.Holds address text := by
  intro i byte here
  rw [same i (List.getElem?_eq_some_iff.mp here).1, holds i byte here]

theorem object_holds (address : Nat) (text : List UInt8) : (object address text).Holds address text := by
  intro i byte here
  rw [object, if_pos (Nat.le_add_right _ _), Nat.add_sub_cancel_left, here]

theorem object_none (beyond : text.length ≤ count) : object address text (address + count) = none := by
  rw [object, if_pos (Nat.le_add_right _ _), Nat.add_sub_cancel_left, List.getElem?_eq_none beyond]

def write (bytes : Bytes) (address : Nat) (text : List UInt8) : Bytes := fun place =>
  if address ≤ place ∧ place < address + text.length then text[place - address]? else bytes place

theorem beside_left {one other : Bytes} (holds : one.Holds address text) : (one.beside other).Holds address text := by
  intro i byte here
  rw [beside, holds i byte here]
  rfl

theorem beside_right {one other : Bytes} (holds : other.Holds address text)
    (apart : forall i, i < text.length -> one (address + i) = none) : (one.beside other).Holds address text := by
  intro i byte here
  rw [beside, apart i (List.getElem?_eq_some_iff.mp here).1, holds i byte here]
  rfl

theorem object_outside (outside : ¬ (address ≤ place ∧ place < address + text.length)) : object address text place = none := by
  rw [object]
  split
  next within => exact List.getElem?_eq_none (by omega)
  next => rfl

theorem write_nil : bytes.write address [] = bytes := by
  funext place
  rw [write, List.length_nil, if_neg (by omega)]

theorem write_at {i : Nat} (inside : i < text.length) : bytes.write address text (address + i) = text[i]? := by
  rw [write, if_pos (by omega), Nat.add_sub_cancel_left]

theorem write_elsewhere (outside : ¬ (address ≤ place ∧ place < address + text.length)) :
    bytes.write address text place = bytes place := if_neg outside

theorem write_holds : (bytes.write address text).Holds address text := by
  intro i byte here
  rw [write_at (List.getElem?_eq_some_iff.mp here).1, here]

theorem put_write : (bytes.write address text).put (address + text.length) byte = bytes.write address (text ++ [byte]) := by
  funext place
  by_cases last : place = address + text.length
  · rw [last, put_self, write_at (by rw [List.length_append, List.length_singleton]; omega), List.getElem?_concat_length]
  · rw [put_elsewhere last]
    by_cases inside : address ≤ place ∧ place < address + text.length
    · rw [write, if_pos inside, write, if_pos (by rw [List.length_append]; omega),
        List.getElem?_append_left (by omega)]
    · rw [write_elsewhere inside, write_elsewhere (by rw [List.length_append, List.length_singleton]; omega)]

theorem write_append {front back : List UInt8} :
    (bytes.write address front).write (address + front.length) back = bytes.write address (front ++ back) := by
  funext place
  simp only [write, List.length_append]
  by_cases first : address ≤ place ∧ place < address + front.length
  · rw [if_neg (by omega), if_pos first, if_pos (by omega), List.getElem?_append_left (by omega)]
  · by_cases second : address + front.length ≤ place ∧ place < address + front.length + back.length
    · rw [if_pos second, if_pos (by omega), List.getElem?_append_right (by omega), Nat.sub_sub]
    · rw [if_neg second, if_neg first, if_neg (by omega)]

theorem write_put : (bytes.put (address + text.length) byte).write address text = bytes.write address (text ++ [byte]) := by
  rw [← put_write]
  funext place
  by_cases inside : address ≤ place ∧ place < address + text.length
  · rw [write, if_pos inside, put_elsewhere (by omega), write, if_pos inside]
  · rw [write_elsewhere inside]
    by_cases last : place = address + text.length
    · rw [last, put_self, put_self]
    · rw [put_elsewhere last, put_elsewhere last, write_elsewhere inside]

theorem put_write_set {i : Nat} (inside : i < text.length) :
    (bytes.write address text).put (address + i) byte = bytes.write address (text.set i byte) := by
  funext place
  by_cases here : place = address + i
  · rw [here, put_self, write_at (by rwa [List.length_set]), List.getElem?_set_self inside]
  · rw [put_elsewhere here, write, write, List.length_set]
    split
    next within => rw [List.getElem?_set_ne (by omega)]
    next => rfl

theorem write_accessible {start : Nat} (accessible : bytes.Accessible start count) :
    (bytes.write address text).Accessible start count := by
  intro i inside
  rw [write]
  split
  next within => exact ⟨_, List.getElem?_eq_getElem (by omega)⟩
  next => exact accessible i inside

theorem store_write (accessible : bytes.Accessible address count) (room : text.length < count) :
    (bytes.write address text).store (address + text.length) byte = .ok (bytes.write address (text ++ [byte])) := by
  rw [store_eq (write_accessible accessible _ room), put_write]

def Total (bytes : Bytes) : Prop := forall place, ∃ byte, bytes place = some byte

theorem Total.accessible (total : bytes.Total) (address count : Nat) : bytes.Accessible address count :=
  fun _ _ => total _

theorem Total.put (total : bytes.Total) : (bytes.put address byte).Total := by
  intro place
  by_cases here : place = address
  · exact ⟨byte, by rw [here, put_self]⟩
  · rw [put_elsewhere here]
    exact total place

theorem Total.write (total : bytes.Total) : (bytes.write address text).Total := by
  intro place
  rw [Bytes.write]
  split
  next within => exact ⟨_, List.getElem?_eq_getElem (by omega)⟩
  next => exact total place

theorem write_single : bytes.write address [byte] = bytes.put address byte := by
  have last := @put_write bytes address byte []
  rw [write_nil] at last
  exact last.symm

theorem put_cons : (bytes.put address byte).write (address + 1) text = bytes.write address (byte :: text) := by
  rw [← write_single]
  exact write_append

theorem cons_put : (bytes.write (address + 1) text).put address byte = bytes.write address (byte :: text) := by
  funext place
  by_cases first : place = address
  · rw [first, put_self]
    exact (@write_at bytes address (byte :: text) 0 (Nat.succ_pos _)).symm
  · rw [put_elsewhere first, ← put_cons, write, write]
    split
    next => rfl
    next => rw [put_elsewhere first]

theorem Holds.put_at {front back : List UInt8} {d c : UInt8} (holds : bytes.Holds address (front ++ d :: back)) :
    (bytes.put (address + front.length) c).Holds address (front ++ c :: back) := by
  obtain ⟨before, behind⟩ := Holds.append.mp holds
  refine Holds.append.mpr ⟨before.congr fun i inside => put_elsewhere (by omega), ?_⟩
  intro i byte here
  cases i with
  | zero =>
    rw [← show some c = some byte from here]
    exact put_self
  | succ i =>
    rw [put_elsewhere (by omega)]
    exact behind (i + 1) byte here

end Bytes

end Hal9000.Lib
