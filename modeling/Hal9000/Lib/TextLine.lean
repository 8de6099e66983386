import Mathlib.Data.List.Basic
import Mathlib.Data.List.InsertIdx
import Mathlib.Tactic.Common

set_option autoImplicit false

namespace Hal9000.Lib

structure TextLine (α : Type) (bound : Nat) where
  text : List α
  cursor : Nat
  fits : text.length ≤ bound
  within : cursor ≤ text.length

namespace TextLine

variable {α : Type} {bound : Nat}

def empty : TextLine α bound where
  text := []
  cursor := 0
  fits := Nat.zero_le _
  within := Nat.le_refl _

def insert (line : TextLine α bound) (c : α) : TextLine α bound :=
  if room : line.text.length < bound then
    { text := line.text.insertIdx line.cursor c
      cursor := line.cursor + 1
      fits := by rwa [List.length_insertIdx_of_le_length line.within]
      within := by
        rw [List.length_insertIdx_of_le_length line.within]
        exact Nat.succ_le_succ line.within }
  else line

def backspace (line : TextLine α bound) : TextLine α bound :=
  if first : line.cursor = 0 then line
  else
    { text := line.text.eraseIdx (line.cursor - 1)
      cursor := line.cursor - 1
      fits := Nat.le_trans (List.length_eraseIdx_le ..) line.fits
      within := by
        have within := line.within
        rw [List.length_eraseIdx_of_lt (by omega)]
        omega }

def left (line : TextLine α bound) : TextLine α bound :=
  { line with
    cursor := line.cursor - 1
    within := Nat.le_trans (Nat.sub_le _ _) line.within }

def right (line : TextLine α bound) : TextLine α bound :=
  if more : line.cursor < line.text.length ∧ line.cursor + 1 < bound then
    { line with
      cursor := line.cursor + 1
      within := more.1 }
  else line

def home (line : TextLine α bound) : TextLine α bound :=
  { line with
    cursor := 0
    within := Nat.zero_le _ }

def toEnd (line : TextLine α bound) : TextLine α bound :=
  { line with
    cursor := line.text.length
    within := Nat.le_refl _ }

def replace (text : List α) : TextLine α bound where
  text := text.take bound
  cursor := (text.take bound).length
  fits := List.length_take_le _ _
  within := Nat.le_refl _

variable {line : TextLine α bound} {c : α}

theorem insert_room (room : line.text.length < bound) :
    (line.insert c).text = line.text.insertIdx line.cursor c ∧ (line.insert c).cursor = line.cursor + 1 := by
  rw [insert, dif_pos room]
  exact ⟨rfl, rfl⟩

theorem insert_full (full : ¬ line.text.length < bound) : line.insert c = line := dif_neg full

theorem backspace_first (first : line.cursor = 0) : line.backspace = line := dif_pos first

theorem backspace_behind (behind : line.cursor ≠ 0) :
    line.backspace.text = line.text.eraseIdx (line.cursor - 1) ∧ line.backspace.cursor = line.cursor - 1 := by
  rw [backspace, dif_neg behind]
  exact ⟨rfl, rfl⟩

theorem insertIdx_length (front back : List α) : (front ++ back).insertIdx front.length c = front ++ c :: back := by
  induction front with
  | nil => rfl
  | cons d front ih => rw [List.cons_append, List.length_cons, List.insertIdx_succ_cons, ih, List.cons_append]

theorem insert_cut (room : line.text.length < bound) :
    ∃ front back, line.text = front ++ back ∧ line.cursor = front.length ∧
      (line.insert c).text = front ++ c :: back ∧ (line.insert c).cursor = front.length + 1 := by
  have size : (line.text.take line.cursor).length = line.cursor := List.length_take_of_le line.within
  have whole : line.text.take line.cursor ++ line.text.drop line.cursor = line.text := List.take_append_drop ..
  have placed := @insertIdx_length α c (line.text.take line.cursor) (line.text.drop line.cursor)
  rw [whole, size] at placed
  obtain ⟨text, cursor⟩ := @insert_room α bound line c room
  exact ⟨_, _, whole.symm, size.symm, text.trans placed, by rw [cursor, size]⟩

theorem backspace_cut (behind : line.cursor ≠ 0) :
    ∃ front d back, line.text = front ++ d :: back ∧ line.cursor = front.length + 1 ∧
      line.backspace.text = front ++ back ∧ line.backspace.cursor = front.length := by
  have within := line.within
  have inside : line.cursor - 1 < line.text.length := by omega
  have size : (line.text.take (line.cursor - 1)).length = line.cursor - 1 := List.length_take_of_le (Nat.le_of_lt inside)
  have next : line.cursor - 1 + 1 = line.cursor := Nat.sub_add_cancel (Nat.one_le_iff_ne_zero.mpr behind)
  have whole : line.text = line.text.take (line.cursor - 1) ++ line.text[line.cursor - 1] :: line.text.drop (line.cursor - 1 + 1) := by
    rw [← List.drop_eq_getElem_cons inside, List.take_append_drop]
  obtain ⟨text, cursor⟩ := backspace_behind behind
  rw [List.eraseIdx_eq_take_drop_succ] at text
  exact ⟨_, _, _, whole, by rw [size, next], text, by rw [cursor, size]⟩

theorem right_text : line.right.text = line.text := by
  rw [right]
  split <;> rfl

theorem right_cursor :
    line.right.cursor = if line.cursor < line.text.length ∧ line.cursor + 1 < bound then line.cursor + 1 else line.cursor := by
  rw [right]
  split <;> rfl

end TextLine

end Hal9000.Lib
