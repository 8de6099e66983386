import Hal9000.CommonLib.MemoryCopy
import Hal9000.CommonLib.Formatting

set_option autoImplicit false

namespace Hal9000.Kernel

open Lib (Bytes Access)
open Formatting (out storeAll_out memsetFrom_eq)

def charsPerLine : Nat := 80
def bytesPerChar : Nat := 2
def bytesPerLine : Nat := 160
def whiteColor : UInt8 := 7

structure DisplayData where
  mappedScreenAddress : Nat
  startOfUsableScreen : Nat
  totalUsableCharacters : Nat
  totalUsableBytes : Nat
  currentColumn : Nat
  currentLine : Nat
  currentColor : UInt8
  indexOfFirstValidLine : Nat
  indexOfFirstInvalidLine : Nat

structure Screen where
  data : DisplayData
  memory : Bytes

def dispSetColor (color : UInt8) (s : Screen) : Screen := { s with data := { s.data with currentColor := color } }

def dispPutChar (character : UInt8) (line column : Nat) (s : Screen) : Access Screen := do
  let screenAddress := s.data.mappedScreenAddress + line * bytesPerLine + column * bytesPerChar
  let memory <- s.memory.store (screenAddress + 1) s.data.currentColor
  let memory <- memory.store screenAddress character
  pure { s with memory }

def dispClearLine (line : Nat) (s : Screen) : Access Screen := do
  let memory <- clMemset s.memory (s.data.mappedScreenAddress + line * bytesPerLine) 0 bytesPerLine
  pure { s with memory }

def dispScrollScreen (s : Screen) : Access Screen := do
  let start := s.data.startOfUsableScreen
  let memory <- clMemmove s.memory start (start + bytesPerLine) (dword (s.data.totalUsableBytes + 2 ^ 32 - bytesPerLine))
  let currentLine := (s.data.currentLine + 255) % 256
  dispClearLine currentLine { data := { s.data with currentLine }, memory }

def dispClearScreen (s : Screen) : Access Screen := do
  let memory <- clMemset s.memory s.data.startOfUsableScreen 0 s.data.totalUsableBytes
  pure { data := { s.data with currentLine := s.data.indexOfFirstValidLine }, memory }

def dispPreinitScreen (videoAddress : Nat) (indexOfFirstUsableRow indexOfFirstUnusableRow : UInt8) (memory : Bytes) :
    Access Screen := do
  let first := indexOfFirstUsableRow.toNat
  let unusable := indexOfFirstUnusableRow.toNat
  let totalUsableCharacters := dword ((unusable + 2 ^ 32 - first) * charsPerLine)
  let data :=
    { mappedScreenAddress := videoAddress
      startOfUsableScreen := videoAddress + first * bytesPerLine
      totalUsableCharacters
      totalUsableBytes := dword (bytesPerChar * totalUsableCharacters)
      currentColumn := 0
      currentLine := first
      currentColor := 0
      indexOfFirstValidLine := first
      indexOfFirstInvalidLine := unusable }
  dispClearScreen (dispSetColor whiteColor { data, memory })

def dispNewLine (s : Screen) : Screen :=
  { s with data := { s.data with currentLine := (s.data.currentLine + 1) % 256, currentColumn := 0 } }

def dispMakeRoom (s : Screen) : Access Screen :=
  if s.data.indexOfFirstInvalidLine = s.data.currentLine then dispScrollScreen s else pure s

-- The loop of DispPrintString from an index on, with the call that it makes of itself for a tab.
def dispPrintFrom (printTab : Nat -> Screen -> Access Screen) (buffer : CString) :
    (fuel index : Nat) -> Screen -> Access Screen
  | 0, _, _ => .error .unfinished
  | fuel + 1, index, s =>
    let c := buffer.at_ index
    if c = 0 then pure s
    else do
      let s <- dispMakeRoom s
      if c = 0x0A then dispPrintFrom printTab buffer fuel (dword (index + 1)) (dispNewLine s)
      else if c = 0x09 then do
        let s <- printTab fuel s
        dispPrintFrom printTab buffer fuel (dword (index + 1)) s
      else do
        let s <- dispPutChar c s.data.currentLine s.data.currentColumn s
        let currentColumn := (s.data.currentColumn + 1) % 256
        let s := { s with data := { s.data with currentColumn } }
        if charsPerLine = currentColumn then dispPrintFrom printTab buffer fuel (dword (index + 1)) (dispNewLine s)
        else dispPrintFrom printTab buffer fuel (dword (index + 1)) s

def blanks : CString := CString.of [0x20, 0x20, 0x20, 0x20]

def dispPrintString (fuel : Nat) (buffer : CString) (s : Screen) : Access Screen :=
  dispPrintFrom (fun fuel => dispPrintFrom (fun _ _ => .error .unfinished) blanks fuel 0) buffer fuel 0 s

inductive DisplayCall where
  | print (buffer : CString)
  | clear
  | setColor (color : UInt8)

def Screen.call (fuel : Nat) (s : Screen) : DisplayCall -> Access Screen
  | .print buffer => dispPrintString fuel buffer s
  | .clear => dispClearScreen s
  | .setColor color => pure (dispSetColor color s)

abbrev Cell := UInt8 × UInt8

structure Terminal where
  cells : Nat -> Nat -> Cell
  row : Nat
  column : Nat
  color : UInt8
  last : Nat

namespace Terminal

def initial : Terminal where
  cells _ _ := (0, 0)
  row := 0
  column := 0
  color := whiteColor
  last := 0

def put (t : Terminal) (c : UInt8) : Terminal :=
  if c = 0x0A then { t with row := t.row + 1, column := 0, last := t.row }
  else
    let cells := Function.update t.cells t.row (Function.update (t.cells t.row) t.column (c, t.color))
    if t.column + 1 = charsPerLine then { t with cells, row := t.row + 1, column := 0, last := t.row }
    else { t with cells, column := t.column + 1, last := t.row }

def print (t : Terminal) (text : List UInt8) : Terminal :=
  (text.flatMap (fun c => if c = 0x09 then blanks.chars else [c])).foldl put t

def call (t : Terminal) : DisplayCall -> Terminal
  | .print buffer => t.print buffer.chars
  | .clear => { t with cells := fun _ _ => (0, 0), row := 0, last := 0 }
  | .setColor color => { t with color }

-- The first row that is shown, with the last character in the last row of the screen.
def top (t : Terminal) (height : Nat) : Nat := t.last + 1 - height

end Terminal

structure Area where
  videoAddress : Nat
  firstUsable : UInt8
  firstUnusable : UInt8
  nonNull : videoAddress ≠ 0
  rows : firstUsable < firstUnusable

namespace Area

def height (area : Area) : Nat := area.firstUnusable.toNat - area.firstUsable.toNat

def start (area : Area) : Nat := area.videoAddress + area.firstUsable.toNat * bytesPerLine

def Contains (area : Area) (place : Nat) : Prop :=
  area.start ≤ place ∧ place < area.start + area.height * bytesPerLine

theorem height_pos (area : Area) : 0 < area.height := by
  have rows := UInt8.lt_iff_toNat_lt.mp area.rows
  rw [height]
  omega

theorem line_height (area : Area) : area.firstUsable.toNat + area.height = area.firstUnusable.toNat := by
  have rows := UInt8.lt_iff_toNat_lt.mp area.rows
  rw [height]
  omega

end Area

structure Screen.Shows (s : Screen) (before : Bytes) (area : Area) (t : Terminal) : Prop where
  cells : forall i column, i < area.height -> column < charsPerLine ->
    s.memory (area.start + i * bytesPerLine + column * bytesPerChar) =
        some (t.cells (t.top area.height + i) column).1 ∧
      s.memory (area.start + i * bytesPerLine + column * bytesPerChar + 1) =
        some (t.cells (t.top area.height + i) column).2
  line : s.data.currentLine = area.firstUsable.toNat + (t.row - t.top area.height)
  lines : area.firstUsable.toNat ≤ s.data.currentLine ∧ s.data.currentLine ≤ area.firstUnusable.toNat
  column : s.data.currentColumn = t.column ∧ s.data.currentColumn < charsPerLine
  elsewhere : forall place, ¬ area.Contains place -> s.memory place = before place

structure Terminal.Fresh (t : Terminal) : Prop where
  row : t.row = t.last ∨ t.row = t.last + 1 ∧ t.column = 0
  blank : forall row column, t.row < row ∨ row = t.row ∧ t.column ≤ column -> t.cells row column = (0, 0)

structure DisplayData.For (data : DisplayData) (area : Area) : Prop where
  mapped : data.mappedScreenAddress = area.videoAddress
  start : data.startOfUsableScreen = area.start
  bytes : data.totalUsableBytes = area.height * bytesPerLine
  first : data.indexOfFirstValidLine = area.firstUsable.toNat
  unusable : data.indexOfFirstInvalidLine = area.firstUnusable.toNat

structure Screen.Holds (s : Screen) (before : Bytes) (area : Area) (t : Terminal) : Prop extends
    s.Shows before area t where
  data : s.data.For area
  fresh : t.Fresh
  color : s.data.currentColor = t.color

section Memory

variable {memory : Bytes} {address size : Nat}

def zeroed (memory : Bytes) (address size : Nat) : Bytes := fun place =>
  if address ≤ place ∧ place < address + size then some 0 else memory place

theorem clMemset_zeroed (nonNull : address ≠ 0) (accessible : memory.Accessible address size) :
    clMemset memory address 0 size = .ok (zeroed memory address size) := by
  have whole := @storeAll_out memory address size [] false accessible (List.replicate size 0)
    (by rw [List.length_nil, List.length_replicate, Nat.zero_add])
  have nothing : out memory address [] false = memory := by
    rw [out, if_neg Bool.false_ne_true, List.append_nil, Bytes.write_nil]
  rw [clMemset, if_neg (Ne.symm nonNull), memsetFrom_eq, Nat.add_zero]
  rw [nothing, List.length_nil, Nat.add_zero, Bool.false_and, List.nil_append] at whole
  rw [whole]
  congr 1
  funext place
  rw [out, if_neg Bool.false_ne_true, List.append_nil, Bytes.write, zeroed, List.length_replicate]
  split_ifs with inside
  next => exact List.getElem?_replicate_of_lt (by omega)
  next => rfl

theorem movedTo_ahead {source count place : Nat} (ahead : address ≤ source) :
    movedTo memory address source count place =
      if address ≤ place ∧ place < address + count then memory (source + (place - address)) else memory place := by
  rw [movedTo, movedByte, if_neg (Nat.not_lt.mpr ahead)]

theorem scroll_memory {start height : Nat} (nonNull : start ≠ 0) (positive : 0 < height)
    (accessible : memory.Accessible start (height * 160)) :
    ∃ middle after, clMemmove memory start (start + 160) ((height - 1) * 160) = .ok middle ∧
      clMemset middle (start + (height - 1) * 160) 0 160 = .ok after ∧
      forall place, after place =
        if start ≤ place ∧ place < start + (height - 1) * 160 then memory (place + 160)
        else if start ≤ place ∧ place < start + height * 160 then some 0
        else memory place := by
  have target : memory.Accessible start ((height - 1) * 160) := fun i inside => accessible i (by omega)
  have source : memory.Accessible (start + 160) ((height - 1) * 160) := by
    intro i inside
    rw [Nat.add_assoc]
    exact accessible (160 + i) (by omega)
  have moved := clMemmove_eq ⟨nonNull, by omega⟩ target source
  generalize result : movedTo memory start (start + 160) ((height - 1) * 160) = middle at moved
  have byte : forall place, middle place =
      if start ≤ place ∧ place < start + (height - 1) * 160 then memory (place + 160) else memory place := by
    intro place
    rw [← result, movedTo_ahead (Nat.le_add_right _ _)]
    split_ifs with inside
    next =>
      have there : start + 160 + (place - start) = place + 160 := by omega
      rw [there]
    next => rfl
  have line : middle.Accessible (start + (height - 1) * 160) 160 := by
    intro i inside
    rw [byte, if_neg (by omega), Nat.add_assoc]
    exact accessible _ (by omega)
  refine ⟨middle, _, moved, clMemset_zeroed (by omega) line, fun place => ?_⟩
  rw [zeroed, byte]
  by_cases up : start ≤ place ∧ place < start + (height - 1) * 160
  next => rw [if_neg (by omega), if_pos up, if_pos up]
  next =>
    rw [if_neg up, if_neg up]
    congr 1
    rw [eq_iff_iff]
    omega

end Memory

namespace Terminal

variable {t : Terminal}

def arrive (t : Terminal) : Terminal := { t with last := t.row }

theorem put_arrive (c : UInt8) : t.arrive.put c = t.put c := rfl

theorem Fresh.arrive (fresh : t.Fresh) : t.arrive.Fresh := ⟨.inl rfl, fresh.blank⟩

theorem Fresh.top_le (fresh : t.Fresh) {height : Nat} (positive : 0 < height) :
    t.top height ≤ t.row ∧ t.row - t.top height ≤ height := by
  simp only [top]
  rcases fresh.row with here | ⟨behind, _⟩
  all_goals omega

theorem put_last (c : UInt8) : (t.put c).last = t.row := by
  simp only [put]
  split_ifs <;> rfl

theorem put_color (c : UInt8) : (t.put c).color = t.color := by
  simp only [put]
  split_ifs <;> rfl

theorem put_newline : t.put 0x0A = { t with row := t.row + 1, column := 0, last := t.row } := rfl

theorem put_cell {c : UInt8} (printed : c ≠ 0x0A) (row column : Nat) :
    (t.put c).cells row column = if row = t.row ∧ column = t.column then (c, t.color) else t.cells row column := by
  have cells : (t.put c).cells =
      Function.update t.cells t.row (Function.update (t.cells t.row) t.column (c, t.color)) := by
    simp only [put, if_neg printed]
    split_ifs <;> rfl
  rw [cells]
  by_cases sameRow : row = t.row
  next =>
    rw [sameRow, Function.update_self]
    by_cases sameColumn : column = t.column
    next => rw [sameColumn, Function.update_self, if_pos ⟨rfl, rfl⟩]
    next => rw [Function.update_of_ne sameColumn, if_neg (fun both => sameColumn both.2)]
  next => rw [Function.update_of_ne sameRow, if_neg (fun both => sameRow both.1)]

theorem put_position {c : UInt8} (printed : c ≠ 0x0A) :
    t.column + 1 = charsPerLine ∧ (t.put c).row = t.row + 1 ∧ (t.put c).column = 0 ∨
      t.column + 1 ≠ charsPerLine ∧ (t.put c).row = t.row ∧ (t.put c).column = t.column + 1 := by
  simp only [put, if_neg printed]
  by_cases wraps : t.column + 1 = charsPerLine
  next => exact .inl ⟨wraps, by rw [if_pos wraps], by rw [if_pos wraps]⟩
  next => exact .inr ⟨wraps, by rw [if_neg wraps], by rw [if_neg wraps]⟩

theorem Fresh.put (fresh : t.Fresh) (c : UInt8) : (t.put c).Fresh := by
  by_cases newline : c = 0x0A
  next =>
    rw [newline, put_newline]
    refine ⟨.inr ⟨rfl, rfl⟩, fun row column beyond => fresh.blank row column (.inl ?_)⟩
    simp only at beyond
    omega
  next =>
    have position := @put_position t c newline
    constructor
    next =>
      rw [put_last]
      omega
    next =>
      intro row column beyond
      rw [put_cell newline, if_neg (by omega)]
      exact fresh.blank row column (by omega)

end Terminal

section Calls

variable {s : Screen} {before : Bytes} {area : Area} {t : Terminal}

theorem Screen.Shows.accessible (shows : s.Shows before area t) :
    s.memory.Accessible area.start (area.height * bytesPerLine) := by
  intro k inside
  have cells := shows.cells (k / 160) (k % 160 / 2)
  simp only [bytesPerLine, bytesPerChar, charsPerLine] at inside cells
  obtain ⟨character, color⟩ := cells (by omega) (by omega)
  rcases Nat.mod_two_eq_zero_or_one (k % 160) with even | odd
  next =>
    have here : area.start + k / 160 * 160 + k % 160 / 2 * 2 = area.start + k := by omega
    exact ⟨_, here ▸ character⟩
  next =>
    have here : area.start + k / 160 * 160 + k % 160 / 2 * 2 + 1 = area.start + k := by omega
    exact ⟨_, here ▸ color⟩

theorem Area.start_ne_zero (area : Area) : area.start ≠ 0 := by
  have nonNull := area.nonNull
  rw [Area.start]
  omega

theorem lines_of_line (fresh : t.Fresh) {line : Nat}
    (here : line = area.firstUsable.toNat + (t.row - t.top area.height)) :
    area.firstUsable.toNat ≤ line ∧ line ≤ area.firstUnusable.toNat := by
  have within := (fresh.top_le area.height_pos).2
  have height := area.line_height
  omega

theorem holds_newLine (held : s.Holds before area t) (arrived : t.row = t.last) :
    (dispNewLine s).Holds before area (t.put 0x0A) := by
  have top : (t.put 0x0A).top area.height = t.top area.height := by
    rw [Terminal.top, Terminal.put_last, arrived, Terminal.top]
  have line : (dispNewLine s).data.currentLine =
      area.firstUsable.toNat + ((t.put 0x0A).row - (t.put 0x0A).top area.height) := by
    have within := held.fresh.top_le area.height_pos
    have height := area.line_height
    have bound := area.firstUnusable.toNat_lt
    have positive := area.height_pos
    have here := held.line
    rw [top]
    simp only [dispNewLine, Terminal.put_newline, Terminal.top] at within here ⊢
    omega
  have fresh := held.fresh.put 0x0A
  refine ⟨⟨?_, line, lines_of_line fresh line, ⟨rfl, Nat.succ_pos 79⟩, held.elsewhere⟩, ?_, fresh, held.color⟩
  next =>
    rw [top]
    exact held.cells
  next => exact ⟨held.data.mapped, held.data.start, held.data.bytes, held.data.first, held.data.unusable⟩

theorem cell_address (line row column : Nat) (here : line = area.firstUsable.toNat + row) :
    area.videoAddress + line * bytesPerLine + column * bytesPerChar =
      area.start + row * bytesPerLine + column * bytesPerChar := by
  rw [here, Area.start, Nat.add_mul]
  omega

theorem holds_putChar (held : s.Holds before area t) (arrived : t.row = t.last) {c : UInt8} (printed : c ≠ 0x0A) :
    ∃ memory, dispPutChar c s.data.currentLine s.data.currentColumn s = .ok { s with memory } ∧
      (forall i column, i < area.height -> column < charsPerLine ->
        memory (area.start + i * bytesPerLine + column * bytesPerChar) =
            some ((t.put c).cells (t.top area.height + i) column).1 ∧
          memory (area.start + i * bytesPerLine + column * bytesPerChar + 1) =
            some ((t.put c).cells (t.top area.height + i) column).2) ∧
      forall place, ¬ area.Contains place -> memory place = before place := by
  have within := held.fresh.top_le area.height_pos
  have below : t.row - t.top area.height < area.height := by
    have positive := area.height_pos
    simp only [Terminal.top] at within ⊢
    omega
  have inLine : t.column < charsPerLine := held.column.1 ▸ held.column.2
  have address := @cell_address area s.data.currentLine (t.row - t.top area.height) t.column held.line
  have old := held.cells _ _ below inLine
  have place : area.Contains (area.start + (t.row - t.top area.height) * bytesPerLine + t.column * bytesPerChar) ∧
      area.Contains (area.start + (t.row - t.top area.height) * bytesPerLine + t.column * bytesPerChar + 1) := by
    simp only [Area.Contains, bytesPerLine, bytesPerChar, charsPerLine] at inLine ⊢
    omega
  generalize spot : area.start + (t.row - t.top area.height) * bytesPerLine + t.column * bytesPerChar = screenAddress
    at address old place
  have first : s.memory.store (screenAddress + 1) s.data.currentColor = .ok (s.memory.put (screenAddress + 1) t.color) := by
    rw [Bytes.store_eq ⟨_, old.2⟩, held.color]
  have second : (s.memory.put (screenAddress + 1) t.color).store screenAddress c =
      .ok ((s.memory.put (screenAddress + 1) t.color).put screenAddress c) :=
    Bytes.store_eq ⟨_, (Bytes.put_elsewhere (by omega)).trans old.1⟩
  refine ⟨(s.memory.put (screenAddress + 1) t.color).put screenAddress c, ?_, ?_, ?_⟩
  next =>
    rw [dispPutChar]
    simp only [held.data.mapped, held.column.1, address]
    rw [first, Access.ok_bind, second, Access.ok_bind]
    rfl
  next =>
    intro i column inside short
    have cell := held.cells i column inside short
    rw [Terminal.put_cell printed]
    by_cases here : t.top area.height + i = t.row ∧ column = t.column
    next =>
      have row : i = t.row - t.top area.height := by omega
      rw [if_pos here, here.2, row, spot, Bytes.put_self, Bytes.put_elsewhere (by omega), Bytes.put_self]
      exact ⟨rfl, rfl⟩
    next =>
      have apart : i ≠ t.row - t.top area.height ∨ column ≠ t.column := by omega
      simp only [bytesPerLine, bytesPerChar, charsPerLine] at spot cell short inLine ⊢
      rw [if_neg here, Bytes.put_elsewhere (by omega), Bytes.put_elsewhere (by omega), Bytes.put_elsewhere (by omega),
        Bytes.put_elsewhere (by omega)]
      exact cell
  next =>
    intro other outside
    have character : other ≠ screenAddress := fun same => outside (same.symm ▸ place.1)
    have color : other ≠ screenAddress + 1 := fun same => outside (same.symm ▸ place.2)
    rw [Bytes.put_elsewhere character, Bytes.put_elsewhere color]
    exact held.elsewhere other outside

theorem holds_character (held : s.Holds before area t) (arrived : t.row = t.last) {c : UInt8} (printed : c ≠ 0x0A) :
    ∃ after, dispPutChar c s.data.currentLine s.data.currentColumn s = .ok after ∧
      (let currentColumn := (after.data.currentColumn + 1) % 256
      let moved : Screen := { after with data := { after.data with currentColumn } }
      if charsPerLine = currentColumn then dispNewLine moved else moved).Holds before area (t.put c) := by
  obtain ⟨memory, result, cells, elsewhere⟩ := holds_putChar held arrived printed
  refine ⟨_, result, ?_⟩
  have inLine : s.data.currentColumn < 80 := held.column.2
  have column : (s.data.currentColumn + 1) % 256 = t.column + 1 := by
    rw [Nat.mod_eq_of_lt (by omega), held.column.1]
  have top : (t.put c).top area.height = t.top area.height := by
    rw [Terminal.top, Terminal.put_last, arrived, Terminal.top]
  have within := held.fresh.top_le area.height_pos
  have height := area.line_height
  have bound := area.firstUnusable.toNat_lt
  have positive := area.height_pos
  have color : s.data.currentColor = (t.put c).color := held.color.trans (Terminal.put_color c).symm
  have fresh := held.fresh.put c
  rw [← top] at cells
  simp only [column]
  rcases @Terminal.put_position t c printed with ⟨wraps, row, first⟩ | ⟨stays, row, next⟩
  next =>
    rw [if_pos wraps.symm]
    have line : (s.data.currentLine + 1) % 256 =
        area.firstUsable.toNat + ((t.put c).row - (t.put c).top area.height) := by
      have here := held.line
      simp only [Terminal.top] at within here
      rw [row, top, Terminal.top]
      omega
    refine ⟨⟨cells, line, lines_of_line fresh line, ⟨first.symm, Nat.succ_pos 79⟩, elsewhere⟩, ?_, fresh, color⟩
    exact ⟨held.data.mapped, held.data.start, held.data.bytes, held.data.first, held.data.unusable⟩
  next =>
    rw [if_neg (Ne.symm stays)]
    have line : s.data.currentLine = area.firstUsable.toNat + ((t.put c).row - (t.put c).top area.height) := by
      rw [row, top, held.line]
    have short : t.column + 1 < charsPerLine := by
      have here := held.column.1
      rw [charsPerLine] at stays ⊢
      omega
    refine ⟨⟨cells, line, lines_of_line fresh line, ⟨next.symm, short⟩, elsewhere⟩, ?_, fresh, color⟩
    exact ⟨held.data.mapped, held.data.start, held.data.bytes, held.data.first, held.data.unusable⟩

theorem holds_scroll (held : s.Holds before area t) (below : s.data.indexOfFirstInvalidLine = s.data.currentLine) :
    ∃ after, dispScrollScreen s = .ok after ∧ after.Holds before area t.arrive := by
  have positive := area.height_pos
  have height := area.line_height
  have bound := area.firstUnusable.toNat_lt
  have here := held.line
  have full : t.row = t.top area.height + area.height := by
    have unusable := held.data.unusable
    omega
  have begun : t.column = 0 := by
    rcases held.fresh.row with last | behind
    next =>
      simp only [Terminal.top] at full
      omega
    next => exact behind.2
  have top : t.arrive.top area.height = t.top area.height + 1 := by
    have within := held.fresh.row
    simp only [Terminal.top, Terminal.arrive] at full ⊢
    omega
  obtain ⟨middle, after, moved, cleared, result⟩ := scroll_memory area.start_ne_zero positive held.accessible
  have lastLine : (s.data.currentLine + 255) % 256 = area.firstUsable.toNat + (area.height - 1) := by omega
  have move : clMemmove s.memory s.data.startOfUsableScreen (s.data.startOfUsableScreen + bytesPerLine)
      (dword (s.data.totalUsableBytes + 2 ^ 32 - bytesPerLine)) = .ok middle := by
    have size : dword (area.height * bytesPerLine + 2 ^ 32 - bytesPerLine) = (area.height - 1) * bytesPerLine := by
      rw [dword, bytesPerLine]
      omega
    rw [held.data.start, held.data.bytes, size]
    exact moved
  have clear : clMemset middle (s.data.mappedScreenAddress + (s.data.currentLine + 255) % 256 * bytesPerLine) 0
      bytesPerLine = .ok after := by
    rw [held.data.mapped, lastLine, Nat.add_mul, ← Nat.add_assoc]
    exact cleared
  have line : (s.data.currentLine + 255) % 256 =
      area.firstUsable.toNat + (t.arrive.row - t.arrive.top area.height) := by
    have row : t.arrive.row = t.row := rfl
    omega
  refine ⟨{ data := { s.data with currentLine := (s.data.currentLine + 255) % 256 }, memory := after }, ?_,
    ⟨⟨?_, line, lines_of_line held.fresh.arrive line, held.column, ?_⟩, ?_, held.fresh.arrive, held.color⟩⟩
  next => simp only [dispScrollScreen, move, Access.ok_bind, dispClearLine, clear, pure, Except.pure]
  next =>
    intro i column inside short
    rw [top]
    simp only [result, bytesPerLine, bytesPerChar, charsPerLine] at short ⊢
    rcases Nat.lt_or_ge i (area.height - 1) with kept | last
    next =>
      have cell := held.cells (i + 1) column (by omega) short
      simp only [bytesPerLine, bytesPerChar] at cell
      have row : t.top area.height + 1 + i = t.top area.height + (i + 1) := by omega
      have character : area.start + i * 160 + column * 2 + 160 = area.start + (i + 1) * 160 + column * 2 := by omega
      have color : area.start + i * 160 + column * 2 + 1 + 160 = area.start + (i + 1) * 160 + column * 2 + 1 := by omega
      have up : area.start + i * 160 + column * 2 + 1 < area.start + (area.height - 1) * 160 := by omega
      rw [if_pos ⟨by omega, by omega⟩, if_pos ⟨by omega, up⟩, row, character, color]
      exact cell
    next =>
      have row : t.top area.height + 1 + i = t.row := by omega
      rw [if_neg (by omega), if_pos (by omega), if_neg (by omega), if_pos (by omega), row]
      have blank := held.fresh.blank t.row column (.inr ⟨rfl, by omega⟩)
      exact ⟨congrArg (some ·.1) blank.symm, congrArg (some ·.2) blank.symm⟩
  next =>
    intro place outside
    simp only [Area.Contains, bytesPerLine] at outside
    have kept := result place
    rw [if_neg (by omega), if_neg outside] at kept
    exact kept.trans (held.elsewhere place outside)
  next => exact ⟨held.data.mapped, held.data.start, held.data.bytes, held.data.first, held.data.unusable⟩

theorem holds_arrive (held : s.Holds before area t) :
    ∃ after, dispMakeRoom s = .ok after ∧ after.Holds before area t.arrive := by
  rw [dispMakeRoom]
  by_cases below : s.data.indexOfFirstInvalidLine = s.data.currentLine
  next =>
    rw [if_pos below]
    exact holds_scroll held below
  next =>
    rw [if_neg below]
    have top : t.arrive.top area.height = t.top area.height := by
      have here := held.line
      have unusable := held.data.unusable
      have height := area.line_height
      have within := held.fresh.row
      simp only [Terminal.top, Terminal.arrive] at here ⊢
      omega
    have line : s.data.currentLine = area.firstUsable.toNat + (t.arrive.row - t.arrive.top area.height) := by
      rw [top]
      exact held.line
    refine ⟨s, rfl, ⟨?_, line, held.lines, held.column, held.elsewhere⟩, held.data, held.fresh.arrive, held.color⟩
    rw [top]
    exact held.cells

theorem Terminal.print_cons (c : UInt8) (rest : List UInt8) :
    t.print (c :: rest) = Terminal.print ((if c = 0x09 then blanks.chars else [c]).foldl Terminal.put t) rest := by
  rw [Terminal.print, List.flatMap_cons, List.foldl_append, Terminal.print]

theorem print_drop {buffer : CString} {index : Nat} (inside : index < buffer.length) :
    t.print (buffer.chars.drop index) =
      Terminal.print ((if buffer.at_ index = 0x09 then blanks.chars else [buffer.at_ index]).foldl Terminal.put t)
        (buffer.chars.drop (index + 1)) := by
  rw [(drop_at inside).2, Terminal.print_cons]

attribute [local simp] dispPrintFrom in
theorem holds_printFrom {printTab : Nat -> Screen -> Access Screen} {buffer : CString} (short : buffer.length < 2 ^ 32)
    (tabs : 0x09 ∈ buffer.chars -> forall (s : Screen) (t : Terminal), s.Holds before area t ->
      ∃ after, Access.Returns (fun fuel => printTab fuel s) after ∧
        after.Holds before area (blanks.chars.foldl Terminal.put t))
    (remaining : Nat) {index : Nat} (total : index + remaining = buffer.length) (held : s.Holds before area t) :
    ∃ after, Access.Returns (fun fuel => dispPrintFrom printTab buffer fuel index s) after ∧
      after.Holds before area (t.print (buffer.chars.drop index)) := by
  induction remaining generalizing index s t with
  | zero =>
    have zero : buffer.at_ index = 0 := CString.at_eq_zero.mpr (by omega)
    refine ⟨s, ⟨1, fun fuel enough => ?_⟩, ?_⟩
    next =>
      obtain ⟨fuel, rfl⟩ := Nat.exists_eq_add_of_le' enough
      simp only [dispPrintFrom, zero, if_true]
      rfl
    next =>
      rw [List.drop_eq_nil_of_le (by rw [CString.length] at total; omega)]
      exact held
  | succ remaining ih =>
    obtain ⟨ready, room, held⟩ := holds_arrive held
    have inside : index < buffer.length := by omega
    have char : buffer.at_ index ≠ 0 := fun zero => absurd (CString.at_eq_zero.mp zero) (by omega)
    have next : dword (index + 1) = index + 1 := dword_of_lt (by omega)
    have member : buffer.at_ index ∈ buffer.chars := List.mem_of_getElem? (CString.chars_getElem? inside)
    have later := fun {s : Screen} {t : Terminal} => @ih s t (index + 1) (by omega)
    rw [print_drop inside]
    by_cases newline : buffer.at_ index = 0x0A
    next =>
      have held := holds_newLine held rfl
      rw [Terminal.put_arrive, ← newline] at held
      rw [if_neg (by rw [newline]; decide)]
      obtain ⟨after, ⟨enough, returns⟩, held⟩ := later held
      refine ⟨after, ⟨enough + 1, fun fuel big => ?_⟩, held⟩
      obtain ⟨fuel, rfl⟩ := Nat.exists_eq_add_of_le' (Nat.le_trans (Nat.le_add_left 1 enough) big)
      simp only [dispPrintFrom, if_neg char, room, Access.ok_bind, if_pos newline, next]
      exact returns fuel (by omega)
    next =>
      by_cases tab : buffer.at_ index = 0x09
      next =>
        have same : blanks.chars.foldl Terminal.put t.arrive = blanks.chars.foldl Terminal.put t := rfl
        obtain ⟨middle, ⟨least, printed⟩, held⟩ := tabs (tab ▸ member) ready _ held
        rw [if_pos tab, ← same]
        obtain ⟨after, ⟨enough, returns⟩, held⟩ := later held
        refine ⟨after, ⟨max least enough + 1, fun fuel big => ?_⟩, held⟩
        obtain ⟨fuel, rfl⟩ := Nat.exists_eq_add_of_le' (Nat.le_trans (Nat.le_add_left 1 _) big)
        simp only [dispPrintFrom, if_neg char, room, Access.ok_bind, if_neg newline, if_pos tab, next]
        have inner : printTab fuel ready = .ok middle := printed fuel (by omega)
        rw [inner, Access.ok_bind]
        exact returns fuel (by omega)
      next =>
        obtain ⟨middle, printed, held⟩ := holds_character held rfl newline
        rw [Terminal.put_arrive] at held
        rw [if_neg tab]
        obtain ⟨after, ⟨enough, returns⟩, held⟩ := later held
        refine ⟨after, ⟨enough + 1, fun fuel big => ?_⟩, held⟩
        obtain ⟨fuel, rfl⟩ := Nat.exists_eq_add_of_le' (Nat.le_trans (Nat.le_add_left 1 enough) big)
        simp only [dispPrintFrom, if_neg char, room, Access.ok_bind, if_neg newline, if_neg tab, printed, next]
        rw [← returns fuel (by omega)]
        simp only
        split_ifs
        all_goals rfl

theorem holds_print (held : s.Holds before area t) {buffer : CString} (short : buffer.length < 2 ^ 32) :
    ∃ after, Access.Returns (fun fuel => dispPrintString fuel buffer s) after ∧
      after.Holds before area (t.print buffer.chars) := by
  refine holds_printFrom short (fun _ s t held => ?_) buffer.length (Nat.zero_add _) held
  have plain : (0x09 : UInt8) ∉ blanks.chars := by decide
  exact holds_printFrom (by decide) (fun tab => absurd tab plain) blanks.length (Nat.zero_add _) held

-- The index comes back to the start before it meets the terminator.
theorem dispPrintFrom_long {printTab : Nat -> Screen -> Access Screen} {buffer : CString} (long : 2 ^ 32 ≤ buffer.length)
    (fuel index : Nat) (inside : index < 2 ^ 32) (s after : Screen) :
    dispPrintFrom printTab buffer fuel index s ≠ .ok after := by
  induction fuel generalizing index s with
  | zero =>
    intro result
    cases result
  | succ fuel ih =>
    have char : buffer.at_ index ≠ 0 := fun zero => absurd (CString.at_eq_zero.mp zero) (by omega)
    have later := fun s => ih (dword (index + 1)) (dword_lt _) s
    simp only [dispPrintFrom, if_neg char]
    intro result
    obtain ⟨ready, _, result⟩ := Access.bind_eq_ok.mp result
    split_ifs at result
    next => exact later _ result
    next =>
      obtain ⟨middle, _, result⟩ := Access.bind_eq_ok.mp result
      exact later _ result
    next =>
      obtain ⟨middle, _, result⟩ := Access.bind_eq_ok.mp result
      split_ifs at result
      all_goals exact later _ result

theorem holds_clear (data : s.data.For area) (inLine : s.data.currentColumn < charsPerLine)
    (usable : s.memory.Accessible area.start (area.height * bytesPerLine))
    (elsewhere : forall place, ¬ area.Contains place -> s.memory place = before place)
    (column : s.data.currentColumn = t.column) (color : s.data.currentColor = t.color) :
    ∃ after, dispClearScreen s = .ok after ∧ after.Holds before area (t.call .clear) := by
  have cleared := clMemset_zeroed area.start_ne_zero usable
  have fresh : (t.call .clear).Fresh := ⟨.inl rfl, fun _ _ _ => rfl⟩
  have line : s.data.indexOfFirstValidLine =
      area.firstUsable.toNat + ((t.call .clear).row - (t.call .clear).top area.height) := by
    rw [data.first]
    simp only [Terminal.call]
    omega
  refine ⟨⟨{ s.data with currentLine := s.data.indexOfFirstValidLine },
      zeroed s.memory area.start (area.height * bytesPerLine)⟩, ?_,
    ⟨⟨?_, line, lines_of_line fresh line, ⟨column, inLine⟩, ?_⟩, ?_, fresh, color⟩⟩
  next =>
    rw [dispClearScreen, data.start, data.bytes, cleared]
    rfl
  next =>
    intro i column inside short
    simp only [bytesPerLine, bytesPerChar, charsPerLine] at short ⊢
    exact ⟨if_pos ⟨by omega, by omega⟩, if_pos ⟨by omega, by omega⟩⟩
  next =>
    intro place outside
    exact (if_neg outside).trans (elsewhere place outside)
  next => exact ⟨data.mapped, data.start, data.bytes, data.first, data.unusable⟩

attribute [local simp] Screen.call in
theorem holds_call (held : s.Holds before area t) (call : DisplayCall)
    (short : forall buffer, call = .print buffer -> buffer.length < 2 ^ 32) :
    ∃ after, Access.Returns (fun fuel => s.call fuel call) after ∧ after.Holds before area (t.call call) := by
  cases call with
  | print buffer => exact holds_print held (short buffer rfl)
  | clear =>
    obtain ⟨after, result, held⟩ :=
      holds_clear held.data held.column.2 held.accessible held.elsewhere held.column.1 held.color
    exact ⟨after, ⟨0, fun _ _ => result⟩, held⟩
  | setColor color =>
    refine ⟨dispSetColor color s, ⟨0, fun _ _ => rfl⟩,
      ⟨held.cells, held.line, held.lines, held.column, held.elsewhere⟩, ?_, ?_, rfl⟩
    next => exact ⟨held.data.mapped, held.data.start, held.data.bytes, held.data.first, held.data.unusable⟩
    next => exact ⟨held.fresh.row, held.fresh.blank⟩

theorem holds_calls (calls : List DisplayCall) (held : s.Holds before area t)
    (short : forall buffer, .print buffer ∈ calls -> buffer.length < 2 ^ 32) :
    ∃ after, Access.Returns (fun fuel => calls.foldlM (Screen.call fuel) s) after ∧
      after.Holds before area (calls.foldl Terminal.call t) := by
  induction calls generalizing s t with
  | nil => exact ⟨s, ⟨0, fun _ _ => rfl⟩, held⟩
  | cons call calls ih =>
    obtain ⟨middle, ⟨least, first⟩, held⟩ :=
      holds_call held call (fun buffer here => short buffer (here ▸ List.mem_cons_self))
    obtain ⟨after, ⟨enough, rest⟩, held⟩ := ih held (fun buffer here => short buffer (List.mem_cons_of_mem _ here))
    refine ⟨after, ⟨max least enough, fun fuel big => ?_⟩, held⟩
    have called : Screen.call fuel s call = .ok middle := first fuel (Nat.le_trans (Nat.le_max_left ..) big)
    simp only [List.foldlM_cons, called, Access.ok_bind]
    exact rest fuel (Nat.le_trans (Nat.le_max_right ..) big)

theorem calls_short {fuel : Nat} {calls : List DisplayCall} {after : Screen}
    (result : calls.foldlM (Screen.call fuel) s = .ok after) {buffer : CString} (printed : .print buffer ∈ calls) :
    buffer.length < 2 ^ 32 := by
  induction calls generalizing s with
  | nil => cases printed
  | cons call calls ih =>
    rw [List.foldlM_cons] at result
    obtain ⟨middle, first, rest⟩ := Access.bind_eq_ok.mp result
    rcases List.mem_cons.mp printed with here | later
    next =>
      subst here
      by_contra long
      exact dispPrintFrom_long (Nat.le_of_not_lt long) fuel 0 (Nat.two_pow_pos 32) s middle first
    next => exact ih rest later

theorem holds_preinit (usable : before.Accessible area.start (area.height * bytesPerLine)) :
    ∃ after, dispPreinitScreen area.videoAddress area.firstUsable area.firstUnusable before = .ok after ∧
      after.Holds before area Terminal.initial := by
  have bytes : dword (bytesPerChar * dword ((area.firstUnusable.toNat + 2 ^ 32 - area.firstUsable.toNat) *
      charsPerLine)) = area.height * bytesPerLine := by
    have height := area.line_height
    have bound := area.firstUnusable.toNat_lt
    simp only [dword, bytesPerChar, charsPerLine, bytesPerLine]
    omega
  exact @holds_clear _ before area Terminal.initial ⟨rfl, rfl, bytes, rfl, rfl⟩ (Nat.succ_pos 79) usable
    (fun _ _ => rfl) rfl rfl

end Calls

-- DispPreinitScreen and then the calls in their order.
def displayRun (fuel : Nat) (area : Area) (memory : Bytes) (calls : List DisplayCall) : Access Screen := do
  let screen <- dispPreinitScreen area.videoAddress area.firstUsable area.firstUnusable memory
  calls.foldlM (Screen.call fuel) screen

theorem displayRun_shows {area : Area} {memory : Bytes}
    (usable : memory.Accessible area.start (area.height * bytesPerLine)) {calls : List DisplayCall}
    (short : forall buffer, .print buffer ∈ calls -> buffer.length < 2 ^ 32) :
    ∃ screen, Access.Returns (fun fuel => displayRun fuel area memory calls) screen ∧
      screen.Shows memory area (calls.foldl Terminal.call Terminal.initial) := by
  obtain ⟨first, result, held⟩ := holds_preinit usable
  obtain ⟨screen, ⟨enough, ran⟩, held⟩ := holds_calls calls held short
  refine ⟨screen, ⟨enough, fun fuel big => ?_⟩, held.toShows⟩
  simp only [displayRun, result, Access.ok_bind]
  exact ran fuel big

theorem displayRun_short {area : Area} {memory : Bytes} {calls : List DisplayCall} {screen : Screen}
    (returns : Access.Returns (fun fuel => displayRun fuel area memory calls) screen) (buffer : CString)
    (printed : .print buffer ∈ calls) : buffer.length < 2 ^ 32 := by
  obtain ⟨enough, always⟩ := returns
  obtain ⟨first, _, result⟩ := Access.bind_eq_ok.mp (always enough (Nat.le_refl _))
  exact calls_short result printed

theorem display_shows_iff (area : Area) (memory : Bytes)
    (usable : memory.Accessible area.start (area.height * bytesPerLine)) (calls : List DisplayCall) :
    (∃ screen, Access.Returns (fun fuel => displayRun fuel area memory calls) screen ∧
      screen.Shows memory area (calls.foldl Terminal.call Terminal.initial)) ↔
      forall buffer, .print buffer ∈ calls -> buffer.length < 2 ^ 32 := by
  constructor
  next =>
    rintro ⟨screen, returns, _⟩
    exact displayRun_short returns
  next => exact displayRun_shows usable

def sampleArea : Area where
  videoAddress := 0xB8000
  firstUsable := 1
  firstUnusable := 24
  nonNull := by decide
  rows := by decide

def sampleLine : CString := CString.of [0x61, 0x09, 0x62, 0x0A]

theorem display_shows_sample :
    ∃ screen, Access.Returns (fun fuel => displayRun fuel sampleArea numberedMemory [.print sampleLine, .clear]) screen ∧
      screen.Shows numberedMemory sampleArea ([.print sampleLine, .clear].foldl Terminal.call Terminal.initial) := by
  refine (display_shows_iff sampleArea numberedMemory (numberedMemory_accessible _ _) _).mpr fun buffer printed => ?_
  simp only [List.mem_cons, DisplayCall.print.injEq, List.not_mem_nil, or_false, reduceCtorEq] at printed
  rw [printed]
  decide

def overlongString : CString where
  chars := List.replicate (2 ^ 32) 0x61
  nonZero char member := by
    rw [List.eq_of_mem_replicate member]
    decide

theorem display_never_returns :
    ¬ forall (area : Area) (memory : Bytes), memory.Accessible area.start (area.height * bytesPerLine) ->
      forall calls : List DisplayCall, ∃ screen,
        Access.Returns (fun fuel => displayRun fuel area memory calls) screen ∧
          screen.Shows memory area (calls.foldl Terminal.call Terminal.initial) := by
  intro claimed
  obtain ⟨screen, returns, _⟩ :=
    claimed sampleArea numberedMemory (numberedMemory_accessible _ _) [.print overlongString]
  have short := displayRun_short returns overlongString List.mem_cons_self
  rw [CString.length, overlongString, List.length_replicate] at short
  exact Nat.lt_irrefl _ short

end Hal9000.Kernel
