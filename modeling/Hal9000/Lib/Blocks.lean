import Hal9000.Lib.Memory
import Mathlib.Tactic.Ring

set_option autoImplicit false

namespace Hal9000.Lib

structure Gathered (size : Nat) (source before after : Memory) (start : Nat) (blocks : List Nat) : Prop where
  inside : forall index block, blocks[index]? = some block -> forall offset, offset < size ->
    after (start + (index * size + offset)) = source (block * size + offset)
  outside : forall place, ¬ (start ≤ place ∧ place < start + blocks.length * size) -> after place = before place

structure Scattered (size : Nat) (kept : Nat -> Prop) (source before after : Memory) (start : Nat)
    (blocks : List Nat) : Prop where
  inside : forall index block, blocks[index]? = some block -> forall offset, offset < size ->
    after (block * size + offset) = source (start + (index * size + offset))
  outside : forall block, kept block -> block ∉ blocks -> forall offset, offset < size ->
    after (block * size + offset) = before (block * size + offset)

def SameBlocks (size : Nat) (kept : Nat -> Prop) (before after : Memory) : Prop :=
  forall block, kept block -> forall offset, offset < size ->
    after (block * size + offset) = before (block * size + offset)

section Position

variable {size index count offset : Nat}

theorem block_lt (within : index < count) (inside : offset < size) : index * size + offset < count * size := by
  have next := Nat.mul_le_mul_right size (Nat.succ_le_of_lt within)
  rw [Nat.succ_mul] at next
  omega

theorem range'_block {first block : Nat} (found : (List.range' first count)[index]? = some block) :
    index < count ∧ block = first + index := by
  obtain ⟨within, same⟩ := List.getElem?_eq_some_iff.mp found
  rw [List.getElem_range', Nat.one_mul] at same
  rw [List.length_range'] at within
  exact ⟨within, same.symm⟩

end Position

theorem agrees_blocks {size first count : Nat} {mem other : Memory} (positive : 0 < size)
    (same : forall block, block ∈ List.range' first count -> forall offset, offset < size ->
      mem (block * size + offset) = other (block * size + offset)) :
    Memory.Agrees mem other (first * size) (count * size) := by
  intro place lower upper
  have position := Nat.div_add_mod' place size
  have least := (Nat.le_div_iff_mul_le positive).mpr lower
  have most : place / size < first + count := by
    rw [Nat.div_lt_iff_lt_mul positive, Nat.add_mul]
    exact upper
  have here := same (place / size) (List.mem_range'_1.mpr ⟨least, most⟩) (place % size) (Nat.mod_lt _ positive)
  rwa [position] at here

section Gather

variable {size start : Nat} {source before middle after : Memory} {one two : List Nat}

theorem Gathered.nil : Gathered size source before before start [] where
  inside _ _ found := by simp at found
  outside _ _ := rfl

theorem Gathered.append (first : Gathered size source before middle start one)
    (second : Gathered size source middle after (start + one.length * size) two) :
    Gathered size source before after start (one ++ two) where
  inside index block found offset within := by
    by_cases early : index < one.length
    · have place := block_lt early within
      rw [List.getElem?_append_left early] at found
      rw [second.outside _ (by omega), first.inside index block found offset within]
    · rw [List.getElem?_append_right (not_lt.mp early)] at found
      have position : start + (index * size + offset) =
          start + one.length * size + ((index - one.length) * size + offset) := by
        have split : index = one.length + (index - one.length) := by omega
        conv => lhs; rw [split]
        ring
      rw [position, second.inside _ block found offset within]
  outside place away := by
    rw [List.length_append, Nat.add_mul] at away
    rw [second.outside place (by omega), first.outside place (by omega)]

theorem Gathered.run (first count : Nat) :
    Gathered size source before
      (before.copy start (count * size) (source.slice (first * size) (count * size))) start
      (List.range' first count) where
  inside index block found offset within := by
    obtain ⟨early, rfl⟩ := range'_block found
    have place := block_lt early within
    rw [Memory.copy_inside (by omega) (by omega), Nat.add_sub_cancel_left, Memory.slice_apply place]
    congr 1
    ring
  outside place away := by
    rw [List.length_range'] at away
    exact Memory.copy_elsewhere away

theorem Gathered.congr {other : Memory} {blocks : List Nat} (gathered : Gathered size source before after start blocks)
    (same : forall block, block ∈ blocks -> forall offset, offset < size ->
      source (block * size + offset) = other (block * size + offset)) :
    Gathered size other before after start blocks where
  inside index block found offset within := by
    rw [gathered.inside index block found offset within, same block (List.mem_of_getElem? found) offset within]
  outside := gathered.outside

end Gather

section Scatter

variable {size start : Nat} {kept : Nat -> Prop} {source before middle after : Memory} {one two : List Nat}

theorem SameBlocks.refl : SameBlocks size kept before before := fun _ _ _ _ => rfl

theorem SameBlocks.trans (first : SameBlocks size kept before middle) (second : SameBlocks size kept middle after) :
    SameBlocks size kept before after :=
  fun block inside offset within =>
    (second block inside offset within).trans (first block inside offset within)

theorem Scattered.nil : Scattered size kept source before before start [] where
  inside _ _ found := by simp at found
  outside _ _ _ _ _ := rfl

theorem Scattered.append (first : Scattered size kept source before middle start one)
    (second : Scattered size kept source middle after (start + one.length * size) two)
    (held : forall block, block ∈ one -> kept block) (apart : List.Disjoint one two) :
    Scattered size kept source before after start (one ++ two) where
  inside index block found offset within := by
    by_cases early : index < one.length
    · rw [List.getElem?_append_left early] at found
      have member := List.mem_of_getElem? found
      rw [second.outside block (held block member) (apart member) offset within,
        first.inside index block found offset within]
    · rw [List.getElem?_append_right (not_lt.mp early)] at found
      have position : start + (index * size + offset) =
          start + one.length * size + ((index - one.length) * size + offset) := by
        have split : index = one.length + (index - one.length) := by omega
        conv => lhs; rw [split]
        ring
      rw [position, second.inside _ block found offset within]
  outside block inside away offset within := by
    rw [List.mem_append, not_or] at away
    rw [second.outside block inside away.2 offset within, first.outside block inside away.1 offset within]

theorem Scattered.of_same (same : SameBlocks size kept before middle)
    (second : Scattered size kept source middle after start two) :
    Scattered size kept source before after start two where
  inside := second.inside
  outside block inside away offset within := by
    rw [second.outside block inside away offset within, same block inside offset within]

theorem Scattered.run (first count : Nat) :
    Scattered size kept source before
      (before.copy (first * size) (count * size) (source.slice start (count * size))) start
      (List.range' first count) where
  inside index block found offset within := by
    obtain ⟨early, rfl⟩ := range'_block found
    have place := block_lt early within
    have position : (first + index) * size + offset = first * size + (index * size + offset) := by ring
    rw [position, Memory.copy_inside (by omega) (by omega), Nat.add_sub_cancel_left, Memory.slice_apply place]
  outside block _ away offset within := by
    apply Memory.copy_elsewhere
    rintro ⟨lower, upper⟩
    apply away
    rw [List.mem_range'_1]
    rw [← Nat.add_mul] at upper
    constructor
    · by_contra below
      have place := block_lt (not_le.mp below) within
      omega
    · by_contra above
      have least := Nat.mul_le_mul_right size (not_lt.mp above)
      omega

theorem Gathered.scattered {target buffer : Memory} {begin : Nat} {blocks : List Nat}
    (written : Scattered size kept source before after start blocks)
    (read : Gathered size after target buffer begin blocks) {place : Nat} (inside : place < blocks.length * size) :
    buffer (begin + place) = source (start + place) := by
  have positive : 0 < size := Nat.pos_of_mul_pos_left (Nat.zero_lt_of_lt inside)
  have within := Nat.mod_lt place positive
  have early : place / size < blocks.length := (Nat.div_lt_iff_lt_mul positive).mpr inside
  have found : blocks[place / size]? = some blocks[place / size] := List.getElem?_eq_getElem early
  have position : place / size * size + place % size = place := Nat.div_add_mod' place size
  have first := read.inside _ _ found _ within
  have second := written.inside _ _ found _ within
  rw [position] at first second
  rw [first, second]

end Scatter

end Hal9000.Lib
