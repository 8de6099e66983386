import Hal9000.CommonLib.StringTrim
import Hal9000.Kernel.Display
import Hal9000.Kernel.Keyboard
import Hal9000.Lib.TextLine

set_option autoImplicit false

namespace Hal9000.Kernel

open Lib (Bytes Access TextLine Tracks Meets Tracker)

def cmdShellSize : Nat := 3
def cmdHistoryMaxSize : Nat := 16

-- What gets_s is called with. What lies around the buffer can be read.
structure Buffer where
  memory : Bytes
  address : Nat
  bufferSize : Nat
  nonNull : address ≠ 0
  large : 1 < bufferSize
  readable : forall place, ∃ byte, memory place = some byte

def Buffer.maxBufferSize (buffer : Buffer) : Nat := min buffer.bufferSize (charsPerLine - cmdShellSize + 1)

def historyLine : Nat := 1

structure CommandHistory where
  cmdHistory : Nat -> Bytes
  firstIndex : Nat
  size : Nat

-- The variables of a call of gets_s that waits for a key.
structure LineInput where
  buffer : Buffer
  memory : Bytes
  i : Nat
  column : Nat
  cmdHistoryIndex : Nat

structure KeyPress where
  keyCode : KeyCode
  keyboardData : KeyboardData

-- The branches of gets_s.
inductive EditKey where
  | enter
  | backspace
  | ignored
  | up
  | down
  | left
  | right
  | home
  | toEnd
  | character (c : UInt8) (char : c ≠ 0)
  | other
  deriving DecidableEq

def KeyPress.editKey (press : KeyPress) : EditKey :=
  if press.keyCode = .returnKey then .enter
  else if press.keyCode = .backspace then .backspace
  else if press.keyCode = .delete then .ignored
  else if press.keyCode = .up then .up
  else if press.keyCode = .down then .down
  else if press.keyCode = .left then .left
  else if press.keyCode = .right then .right
  else if press.keyCode = .home then .home
  else if press.keyCode = .endKey then .toEnd
  else if press.keyCode = .tab then .ignored
  else
    let c := keyboardKeyToAscii press.keyboardData press.keyCode
    if char : c ≠ 0 then .character c char else .other

def strlenFrom (memory : Bytes) (str : Nat) : (i remaining : Nat) -> Access Nat
  | i, 0 => pure i
  | i, remaining + 1 => do
    let c <- memory.load (str + i)
    if c = 0 then pure i else strlenFrom memory str (i + 1) remaining

def clStrlenS (memory : Bytes) (str maxLen : Nat) : Access Nat :=
  if 0 = str then pure maxDword else strlenFrom memory str 0 maxLen

def shiftRight (address i : Nat) : (count : Nat) -> Bytes -> Access Bytes
  | 0, memory => pure memory
  | count + 1, memory => do
    let c <- memory.load (address + (i + count))
    let memory <- memory.store (address + (i + count + 1)) c
    shiftRight address i count memory

def shiftLeft (address maxLen : Nat) : (fuel j : Nat) -> Bytes -> Access Bytes
  | 0, _, _ => .error .unfinished
  | fuel + 1, j, memory => do
    let length <- clStrlenS memory address maxLen
    if j ≤ length then do
      let c <- memory.load (address + j)
      let memory <- memory.store (address + (j - 1)) c
      shiftLeft address maxLen fuel (j + 1) memory
    else pure memory

def CommandHistory.last (history : CommandHistory) : Nat :=
  dword (history.firstIndex + history.size + (2 ^ 32 - 1)) % cmdHistoryMaxSize

def CommandHistory.advance (history : CommandHistory) : CommandHistory :=
  if cmdHistoryMaxSize = history.size then { history with firstIndex := (history.firstIndex + 1) % cmdHistoryMaxSize }
  else { history with size := history.size + 1 }

def getsEnter (history : CommandHistory) (line : LineInput) : Access (CommandHistory × LineInput) := do
  let length <- clStrlenS line.memory line.buffer.address line.buffer.maxBufferSize
  if 0 = length then pure (history, line)
  else do
    let history := history.advance
    let memory <- clStrtrim (2 ^ 32) line.memory line.buffer.address
    let copied <- clStrncpy (history.cmdHistory history.last) historyLine memory line.buffer.address
      (line.buffer.maxBufferSize - 1)
    pure ({ history with cmdHistory := Function.update history.cmdHistory history.last copied }, { line with memory })

def getsBackspace (line : LineInput) : Access LineInput :=
  if 0 ≠ line.i then do
    let maxLen := line.buffer.maxBufferSize - 1
    let memory <- shiftLeft line.buffer.address maxLen (maxLen + 2) line.i line.memory
    pure { line with memory, column := (line.column + 255) % 256, i := line.i - 1 }
  else pure line

def getsRecall (history : CommandHistory) (line : LineInput) (cmdHistoryIndex : Nat) : Access LineInput := do
  let memory <- clStrncpy line.memory line.buffer.address
    (history.cmdHistory cmdHistoryIndex) historyLine (line.buffer.maxBufferSize - 1)
  let i <- clStrlenS memory line.buffer.address line.buffer.maxBufferSize
  pure { line with memory, i, column := (cmdShellSize + i % 256) % 256, cmdHistoryIndex }

def getsUp (history : CommandHistory) (line : LineInput) : Access LineInput :=
  if 0 = history.size then pure line
  else
    let cmdHistoryIndex :=
      if maxDword = line.cmdHistoryIndex then history.last
      else if line.cmdHistoryIndex ≠ history.firstIndex then
        dword (line.cmdHistoryIndex + (2 ^ 32 - 1)) % cmdHistoryMaxSize
      else line.cmdHistoryIndex
    getsRecall history line cmdHistoryIndex

def getsDown (history : CommandHistory) (line : LineInput) : Access LineInput :=
  if 0 = history.size then pure line
  else if maxDword = line.cmdHistoryIndex then pure line
  else
    let cmdHistoryIndex :=
      if line.cmdHistoryIndex ≠ history.last then dword (line.cmdHistoryIndex + 1) % cmdHistoryMaxSize
      else line.cmdHistoryIndex
    getsRecall history line cmdHistoryIndex

def getsLeft (line : LineInput) : LineInput :=
  if 0 ≠ line.i then { line with column := (line.column + 255) % 256, i := line.i - 1 } else line

def getsRight (line : LineInput) : Access LineInput :=
  if line.i < line.buffer.maxBufferSize - 2 then do
    let c <- line.memory.load (line.buffer.address + line.i)
    pure (if 0 ≠ c then { line with column := (line.column + 1) % 256, i := line.i + 1 } else line)
  else pure line

def getsHome (line : LineInput) : LineInput :=
  if 0 ≠ line.i then { line with column := (line.column + (256 - line.i % 256)) % 256, i := 0 } else line

def getsEnd (line : LineInput) : Access LineInput := do
  let i <- clStrlenS line.memory line.buffer.address line.buffer.maxBufferSize
  pure { line with i, column := (cmdShellSize + i % 256) % 256 }

def getsCharacter (line : LineInput) (c : UInt8) : Access LineInput := do
  let length <- clStrlenS line.memory line.buffer.address (line.buffer.maxBufferSize - 1)
  let memory <- shiftRight line.buffer.address line.i (length + 1 - line.i) line.memory
  let memory <- memory.store (line.buffer.address + line.i) c
  pure { line with memory, i := line.i + 1, column := (line.column + 1) % 256 }

def LineInput.full (line : LineInput) : Bool := decide (line.buffer.maxBufferSize - 1 ≤ line.i)

def getsKey (history : CommandHistory) (line : LineInput) : EditKey -> Access (CommandHistory × LineInput × Bool)
  | .enter => do
    let (history, line) <- getsEnter history line
    pure (history, line, false)
  | .backspace => do
    let line <- getsBackspace line
    pure (history, line, true)
  | .ignored => pure (history, line, true)
  | .up => do
    let line <- getsUp history line
    pure (history, line, true)
  | .down => do
    let line <- getsDown history line
    pure (history, line, true)
  | .left => pure (history, getsLeft line, true)
  | .right => do
    let line <- getsRight line
    pure (history, line, true)
  | .home => pure (history, getsHome line, true)
  | .toEnd => do
    let line <- getsEnd line
    pure (history, line, true)
  | .character c _ => do
    let line <- getsCharacter line c
    pure (history, line, !line.full)
  | .other => pure (history, line, !line.full)

-- The history, the call that runs, and the last one that has returned: i is its *UsedSize.
structure Console where
  history : CommandHistory
  input : Option LineInput
  returned : Option LineInput

inductive ConsoleEvent where
  | gets (buffer : Buffer)
  | key (press : KeyPress)

def getsStart (buffer : Buffer) : Access LineInput := do
  let memory <- clMemset buffer.memory buffer.address 0 buffer.bufferSize
  pure { buffer, memory, i := 0, column := cmdShellSize, cmdHistoryIndex := maxDword }

-- There is one call at a time, and getch drops KEY_UNKNOWN.
def Console.step (console : Console) : ConsoleEvent -> Option Console
  | .gets buffer =>
    match console.input with
    | some _ => some console
    | none => (getsStart buffer).toOption.map fun line => { console with input := some line }
  | .key press =>
    match console.input with
    | none => some console
    | some line =>
      if press.keyCode = .unknown then some console
      else
        (getsKey console.history line press.editKey).toOption.map fun (history, line, more) =>
          if more then { console with history, input := some line }
          else { history, input := none, returned := some line }

def Console.initial : Console where
  history :=
    { cmdHistory := fun _ => Bytes.object historyLine (List.replicate charsPerLine 0)
      firstIndex := 0
      size := 0 }
  input := none
  returned := none

structure Editing where
  buffer : Buffer
  line : TextLine UInt8 (buffer.maxBufferSize - 1)
  recalled : Option Nat

-- The editor that gets_s is to be: the lines it remembers, the call that runs, and what the last one has returned.
structure Editor where
  lines : List (List UInt8)
  editing : Option Editing
  returned : Option (Buffer × List UInt8)

def remember (lines : List (List UInt8)) (text : List UInt8) : List (List UInt8) :=
  if text = [] then lines else (lines ++ [text]).drop (lines.length + 1 - cmdHistoryMaxSize)

def older (lines : List (List UInt8)) : Option Nat -> Option Nat
  | none => if lines = [] then none else some (lines.length - 1)
  | some k => some (k - 1)

def newer (lines : List (List UInt8)) (recalled : Option Nat) : Option Nat :=
  recalled.map fun k => min (k + 1) (lines.length - 1)

def Editing.recall (lines : List (List UInt8)) (editing : Editing) : Option Nat -> Editing
  | none => editing
  | some k => { editing with line := TextLine.replace (lines.getD k []), recalled := some k }

def Editing.key (lines : List (List UInt8)) (editing : Editing) : EditKey -> Editing
  | .backspace => { editing with line := editing.line.backspace }
  | .up => editing.recall lines (older lines editing.recalled)
  | .down => editing.recall lines (newer lines editing.recalled)
  | .left => { editing with line := editing.line.left }
  | .right => { editing with line := editing.line.right }
  | .home => { editing with line := editing.line.home }
  | .toEnd => { editing with line := editing.line.toEnd }
  | .character c _ => { editing with line := editing.line.insert c }
  | .enter | .ignored | .other => editing

def EditKey.typed : EditKey -> Bool
  | .character _ _ | .other => true
  | _ => false

def Editor.enter (editor : Editor) (editing : Editing) : Editor :=
  let text := trimmed editing.line.text
  { lines := remember editor.lines text
    editing := none
    returned := some (editing.buffer, text) }

def Editor.key (editor : Editor) (editing : Editing) (key : EditKey) : Editor :=
  if key = .enter then editor.enter editing
  else
    let editing := editing.key editor.lines key
    if key.typed ∧ editing.buffer.maxBufferSize - 1 ≤ editing.line.cursor then
      { editor with editing := none, returned := some (editing.buffer, editing.line.text) }
    else { editor with editing := some editing }

def Editor.follow (editor : Editor) : ConsoleEvent -> Editor
  | .gets buffer =>
    match editor.editing with
    | some _ => editor
    | none => { editor with editing := some ⟨buffer, TextLine.empty, none⟩ }
  | .key press =>
    match editor.editing with
    | none => editor
    | some editing => if press.keyCode = .unknown then editor else editor.key editing press.editKey

def Editor.initial : Editor := ⟨[], none, none⟩

def Buffer.Contains (buffer : Buffer) (place : Nat) : Prop :=
  buffer.address ≤ place ∧ place < buffer.address + buffer.bufferSize

structure Buffer.HasText (buffer : Buffer) (memory : Bytes) (text : List UInt8) : Prop where
  text : memory.Holds buffer.address (text ++ [0])
  outside : forall place, ¬ buffer.Contains place -> memory place = buffer.memory place

structure LineInput.Follows (line : LineInput) (editing : Editing) : Prop where
  buffer : line.buffer = editing.buffer
  hasText : editing.buffer.HasText line.memory editing.line.text
  i : line.i = editing.line.cursor
  column : line.column = cmdShellSize + editing.line.cursor

structure LineInput.Returned (line : LineInput) (result : Buffer × List UInt8) : Prop where
  buffer : line.buffer = result.1
  hasText : result.1.HasText line.memory result.2
  i : line.i = result.2.length

def CommandHistory.slot (history : CommandHistory) (k : Nat) : Nat := (history.firstIndex + k) % cmdHistoryMaxSize

structure CommandHistory.Follows (history : CommandHistory) (lines : List (List UInt8)) : Prop where
  size : history.size = lines.length
  slots : forall k line, lines[k]? = some line ->
    (history.cmdHistory (history.slot k)).Holds historyLine (line ++ [0])

structure Console.Follows (console : Console) (editor : Editor) : Prop where
  history : console.history.Follows editor.lines
  input : Option.Rel LineInput.Follows console.input editor.editing
  returned : Option.Rel LineInput.Returned console.returned editor.returned

-- A line that is full takes no character. Return is pressed on no line that is blank but not empty, and with the
-- cursor where the trimmed text ends.
def Editing.Met (editing : Editing) : EditKey -> Prop
  | .character _ _ => editing.line.text.length < editing.buffer.maxBufferSize - 1
  | .enter => editing.line.text = [] ∨
      trimmed editing.line.text ≠ [] ∧ editing.line.cursor = (trimmed editing.line.text).length
  | _ => True

def Editor.Met (editor : Editor) : ConsoleEvent -> Prop
  | .gets _ => True
  | .key press => forall editing, editor.editing = some editing -> press.keyCode ≠ .unknown -> editing.Met press.editKey

section Effects

variable {memory : Bytes} {address : Nat} {string : CString}

theorem strlenFrom_eq (holds : memory.Holds address string.bytes) (i remaining : Nat) (inside : i ≤ string.length)
    (enough : string.length ≤ i + remaining) : strlenFrom memory address i remaining = .ok string.length := by
  induction remaining generalizing i with
  | zero =>
    rw [Nat.le_antisymm enough inside]
    rfl
  | succ remaining ih =>
    rw [strlenFrom, load_string holds inside, Access.ok_bind]
    rcases Nat.eq_or_lt_of_le inside with rfl | before
    · rw [if_pos CString.at_length]
      rfl
    · rw [if_neg (drop_at before).1]
      exact ih (i + 1) before (by omega)

theorem clStrlenS_eq (holds : memory.Holds address string.bytes) (nonNull : address ≠ 0) {maxLen : Nat}
    (enough : string.length ≤ maxLen) : clStrlenS memory address maxLen = .ok string.length := by
  rw [clStrlenS, if_neg (Ne.symm nonNull)]
  exact strlenFrom_eq holds 0 maxLen (Nat.zero_le _) (by omega)

theorem shiftRight_eq {i : Nat} {back : List UInt8} (total : memory.Total) (holds : memory.Holds (address + i) back) :
    shiftRight address i back.length memory = .ok (memory.write (address + i + 1) back) := by
  induction back using List.reverseRecOn generalizing memory with
  | nil =>
    rw [Bytes.write_nil]
    rfl
  | append_singleton back c ih =>
    obtain ⟨front, last⟩ := Bytes.Holds.append.mp holds
    have here : memory.load (address + (i + back.length)) = .ok c := by
      rw [← Nat.add_assoc]
      exact @Bytes.Holds.load _ _ _ _ last 0 rfl
    have moved : (memory.put (address + (i + back.length + 1)) c).Holds (address + i) back :=
      front.congr fun k inside => Bytes.put_elsewhere (by omega)
    have place : address + (i + back.length + 1) = address + i + 1 + back.length := by omega
    rw [List.length_append, List.length_singleton, shiftRight, here, Access.ok_bind, Bytes.store_eq (total _), Access.ok_bind,
      ih total.put moved, place, Bytes.write_put]

theorem shiftLeft_pass {front rest : List UInt8} {d c : UInt8} {maxLen length : Nat} (total : memory.Total)
    (holds : memory.Holds address (front ++ d :: c :: rest)) (measured : clStrlenS memory address maxLen = .ok length)
    (inside : front.length + 1 ≤ length) (fuel : Nat) :
    shiftLeft address maxLen (fuel + 1) (front.length + 1) memory =
      shiftLeft address maxLen fuel (front.length + 2) (memory.put (address + front.length) c) := by
  have here : memory.load (address + (front.length + 1)) = .ok c := holds.load (by simp)
  rw [shiftLeft, measured, Access.ok_bind, if_pos inside, here, Access.ok_bind, Nat.add_sub_cancel, Bytes.store_eq (total _),
    Access.ok_bind]

theorem shiftLeft_eq {front back : List UInt8} {d : UInt8} {maxLen : Nat} (nonNull : address ≠ 0) (total : memory.Total)
    (nonZero : forall c, c ∈ front ++ d :: back -> c ≠ 0) (fits : front.length + 1 + back.length ≤ maxLen)
    (holds : memory.Holds address (front ++ d :: (back ++ [0]))) {fuel : Nat} (enough : back.length + 2 ≤ fuel) :
    shiftLeft address maxLen fuel (front.length + 1) memory = .ok (memory.write (address + front.length) (back ++ [0])) := by
  induction back generalizing front d memory fuel with
  | nil =>
    obtain ⟨fuel, rfl⟩ : ∃ more, fuel = more + 1 + 1 := Nat.exists_eq_add_of_le' enough
    have measured := @clStrlenS_eq memory address ⟨front ++ [d], nonZero⟩ (by rwa [CString.bytes, List.append_assoc]) nonNull
      maxLen (by simpa [CString.length] using fits)
    have kept := @Bytes.Holds.put_at memory address front [0] d 0 holds
    have ended := @clStrlenS_eq (memory.put (address + front.length) 0) address
      ⟨front, fun c member => nonZero c (List.mem_append_left _ member)⟩
      (Bytes.Holds.append.mp (by rwa [CString.bytes, List.append_assoc])).1 nonNull maxLen
      (Nat.le_trans (Nat.le_succ _) fits)
    rw [shiftLeft_pass total holds measured (by simp [CString.length]), shiftLeft, ended, Access.ok_bind,
      if_neg (by simp only [CString.length]; omega), List.nil_append, Bytes.write_single]
    rfl
  | cons e back ih =>
    rw [List.length_cons] at enough fits
    rw [List.cons_append] at holds
    obtain ⟨fuel, rfl⟩ := Nat.exists_eq_add_of_le' (Nat.le_trans (Nat.le_add_left 1 _) enough)
    have measured := @clStrlenS_eq memory address ⟨front ++ d :: e :: back, nonZero⟩ (by rwa [CString.bytes, List.append_assoc])
      nonNull maxLen (by simp only [CString.length, List.length_append, List.length_cons]; omega)
    have kept := @Bytes.Holds.put_at memory address front (e :: (back ++ [0])) d e holds
    have place : address + (front ++ [e]).length = address + front.length + 1 := by
      rw [List.length_append, List.length_singleton, Nat.add_assoc]
    have others : forall c, c ∈ (front ++ [e]) ++ e :: back -> c ≠ 0 := fun c member => nonZero c (by
      simp only [List.mem_append, List.mem_cons, List.not_mem_nil, or_false] at member ⊢
      tauto)
    have rest := @ih (memory.put (address + front.length) e) (front ++ [e]) e total.put others
      (by simp only [List.length_append, List.length_singleton]; omega) (by rwa [List.append_assoc]) fuel (by omega)
    rw [place, List.length_append, List.length_singleton, Bytes.put_cons] at rest
    rw [shiftLeft_pass total holds measured (by simp only [CString.length, List.length_append, List.length_cons]; omega)]
    exact rest

end Effects

end Hal9000.Kernel
