import Hal9000.Kernel.LineEditor

set_option autoImplicit false

namespace Hal9000.Kernel

open Lib (Bytes Access TextLine Tracks Meets Tracker)

theorem Buffer.HasText.write {buffer : Buffer} {memory : Bytes} {front old new : List UInt8}
    (has : buffer.HasText memory (front ++ old)) (room : front.length + new.length < buffer.bufferSize) :
    buffer.HasText (memory.write (buffer.address + front.length) (new ++ [0])) (front ++ new) := by
  constructor
  next =>
    have before := (Bytes.Holds.append.mp (Bytes.Holds.append.mp has.text).1).1
    rw [List.append_assoc]
    exact Bytes.Holds.append.mpr
      ⟨before.congr fun i inside => Bytes.write_elsewhere (by omega), Bytes.write_holds⟩
  next =>
    intro place outside
    rw [Bytes.write_elsewhere, has.outside place outside]
    rw [List.length_append, List.length_singleton]
    simp only [Buffer.Contains] at outside
    omega

def CommandHistory.Recalls (history : CommandHistory) (lines : List (List UInt8)) (cmdHistoryIndex : Nat) : Option Nat -> Prop
  | none => cmdHistoryIndex = maxDword
  | some k => k < lines.length ∧ cmdHistoryIndex = history.slot k

structure CommandHistory.Holds (history : CommandHistory) (lines : List (List UInt8)) : Prop where
  follows : history.Follows lines
  chars : forall line, line ∈ lines -> line ≠ [] ∧ forall c, c ∈ line -> c ≠ 0
  atMost : lines.length ≤ cmdHistoryMaxSize
  first : history.firstIndex < cmdHistoryMaxSize
  start : lines.length < cmdHistoryMaxSize -> history.firstIndex = 0
  room : forall slot, (history.cmdHistory slot).Accessible historyLine charsPerLine

structure LineInput.Holds (line : LineInput) (history : CommandHistory) (lines : List (List UInt8)) (editing : Editing) : Prop where
  follows : line.Follows editing
  total : line.memory.Total
  nonZero : forall c, c ∈ editing.line.text -> c ≠ 0
  recalls : history.Recalls lines line.cmdHistoryIndex editing.recalled

theorem Buffer.maxBufferSize_bounds (buffer : Buffer) :
    2 ≤ buffer.maxBufferSize ∧ buffer.maxBufferSize ≤ 78 ∧ buffer.maxBufferSize ≤ buffer.bufferSize := by
  have large := buffer.large
  have line : charsPerLine - cmdShellSize + 1 = 78 := rfl
  rw [Buffer.maxBufferSize, line]
  omega

theorem Editing.bounds (editing : Editing) : editing.line.cursor ≤ editing.line.text.length ∧
    editing.line.text.length ≤ editing.buffer.maxBufferSize - 1 ∧ 2 ≤ editing.buffer.maxBufferSize ∧
      editing.buffer.maxBufferSize ≤ 78 ∧ editing.buffer.maxBufferSize ≤ editing.buffer.bufferSize :=
  ⟨editing.line.within, editing.line.fits, editing.buffer.maxBufferSize_bounds⟩

section Keys

variable {history : CommandHistory} {lines : List (List UInt8)} {line : LineInput} {editing : Editing}

theorem LineInput.set_same {i column : Nat} (cursor : line.i = i) (shown : line.column = column) :
    { line with i := i, column := column } = line := by
  subst cursor shown
  rfl

namespace LineInput.Holds

variable (held : line.Holds history lines editing)

include held

theorem strlen_eq {maxLen : Nat} (enough : editing.line.text.length ≤ maxLen) :
    clStrlenS line.memory line.buffer.address maxLen = .ok editing.line.text.length := by
  rw [held.follows.buffer]
  exact @clStrlenS_eq line.memory _ ⟨editing.line.text, held.nonZero⟩ held.follows.hasText.text editing.buffer.nonNull _ enough

theorem moved {moved : TextLine UInt8 (editing.buffer.maxBufferSize - 1)} (text : moved.text = editing.line.text) :
    ({ line with i := moved.cursor, column := cmdShellSize + moved.cursor } : LineInput).Holds history lines
      { editing with line := moved } where
  follows :=
    { buffer := held.follows.buffer
      hasText := by
        have has := held.follows.hasText
        rwa [← text] at has
      i := rfl
      column := rfl }
  total := held.total
  nonZero := by
    have nonZero := held.nonZero
    rwa [← text] at nonZero
  recalls := held.recalls

theorem written {front old new : List UInt8} {moved : TextLine UInt8 (editing.buffer.maxBufferSize - 1)} {index : Nat}
    {recalled : Option Nat} (whole : editing.line.text = front ++ old) (text : moved.text = front ++ new)
    (nonZero : forall c, c ∈ new -> c ≠ 0) (recalls : history.Recalls lines index recalled) :
    (⟨line.buffer, line.memory.write (editing.buffer.address + front.length) (new ++ [0]), moved.cursor,
      cmdShellSize + moved.cursor, index⟩ : LineInput).Holds history lines ⟨editing.buffer, moved, recalled⟩ where
  follows :=
    { buffer := held.follows.buffer
      hasText := by
        have fits := moved.fits
        have bounds := editing.bounds
        have has := held.follows.hasText
        rw [whole] at has
        rw [text, List.length_append] at fits
        simp only [text]
        exact has.write (by omega)
      i := rfl
      column := rfl }
  total := held.total.write
  nonZero := by
    intro c member
    have before := held.nonZero c
    simp only [text, whole, List.mem_append] at member before
    exact member.elim (fun front => before (.inl front)) (nonZero c)
  recalls := recalls

theorem getsLeft_holds : (getsLeft line).Holds history lines { editing with line := editing.line.left } := by
  have bounds := editing.bounds
  have next : getsLeft line =
      { line with i := editing.line.left.cursor, column := cmdShellSize + editing.line.left.cursor } := by
    rw [getsLeft, TextLine.left]
    split
    next behind =>
      simp only [held.follows.i, held.follows.column, cmdShellSize, LineInput.mk.injEq, true_and, and_true] at behind ⊢
      omega
    next first =>
      refine (LineInput.set_same ?_ ?_).symm
      all_goals simp only [held.follows.i, held.follows.column, cmdShellSize] at first ⊢; omega
  rw [next]
  exact held.moved rfl

theorem getsHome_holds : (getsHome line).Holds history lines { editing with line := editing.line.home } := by
  have bounds := editing.bounds
  have next : getsHome line =
      { line with i := editing.line.home.cursor, column := cmdShellSize + editing.line.home.cursor } := by
    rw [getsHome, TextLine.home]
    split
    next behind =>
      simp only [held.follows.i, held.follows.column, cmdShellSize, LineInput.mk.injEq, true_and, and_true] at behind ⊢
      omega
    next first =>
      refine (LineInput.set_same ?_ ?_).symm
      all_goals simp only [held.follows.i, held.follows.column, cmdShellSize] at first ⊢; omega
  rw [next]
  exact held.moved rfl

theorem getsEnd_holds : ∃ after, getsEnd line = .ok after ∧ after.Holds history lines { editing with line := editing.line.toEnd } := by
  have bounds := editing.bounds
  have measured := @strlen_eq _ _ _ _ held line.buffer.maxBufferSize (by rw [held.follows.buffer]; omega)
  have column : (cmdShellSize + editing.line.text.length % 256) % 256 = cmdShellSize + editing.line.text.length := by
    simp only [cmdShellSize]
    omega
  refine ⟨_, by rw [getsEnd, measured, Access.ok_bind, column]; rfl, ?_⟩
  exact @moved _ _ _ _ held editing.line.toEnd rfl

theorem getsRight_holds :
    ∃ after, getsRight line = .ok after ∧ after.Holds history lines { editing with line := editing.line.right } := by
  have bounds := editing.bounds
  let string : CString := ⟨editing.line.text, held.nonZero⟩
  have read : line.memory.load (line.buffer.address + line.i) = .ok (string.at_ editing.line.cursor) := by
    rw [held.follows.buffer, held.follows.i]
    exact load_string held.follows.hasText.text bounds.1
  have zero : string.at_ editing.line.cursor = 0 ↔ editing.line.text.length ≤ editing.line.cursor := CString.at_eq_zero
  have next : getsRight line =
      .ok { line with i := editing.line.right.cursor, column := cmdShellSize + editing.line.right.cursor } := by
    have limit : line.i < line.buffer.maxBufferSize - 2 ↔ editing.line.cursor + 1 < editing.buffer.maxBufferSize - 1 := by
      rw [held.follows.buffer, held.follows.i]
      omega
    have stays : line = { line with i := editing.line.cursor, column := cmdShellSize + editing.line.cursor } :=
      (LineInput.set_same held.follows.i held.follows.column).symm
    rw [getsRight, TextLine.right_cursor]
    by_cases room : line.i < line.buffer.maxBufferSize - 2
    next =>
      rw [if_pos room, read, Access.ok_bind]
      by_cases ended : string.at_ editing.line.cursor = 0
      next =>
        have past := zero.mp ended
        rw [if_neg (not_not_intro ended.symm), if_neg (by omega), ← stays]
        rfl
      next =>
        have column : (cmdShellSize + editing.line.cursor + 1) % 256 = cmdShellSize + (editing.line.cursor + 1) := by
          simp only [cmdShellSize]
          omega
        have more := Nat.lt_of_not_le (mt zero.mpr ended)
        rw [if_pos (Ne.symm ended), if_pos ⟨more, limit.mp room⟩, held.follows.i, held.follows.column, column]
        rfl
    next =>
      have last : ¬ (editing.line.cursor < editing.line.text.length ∧ editing.line.cursor + 1 < editing.buffer.maxBufferSize - 1) :=
        fun more => room (limit.mpr more.2)
      rw [if_neg room, if_neg last, ← stays]
      rfl
  exact ⟨_, next, held.moved TextLine.right_text⟩

theorem getsBackspace_holds :
    ∃ after, getsBackspace line = .ok after ∧ after.Holds history lines { editing with line := editing.line.backspace } := by
  have bounds := editing.bounds
  by_cases first : editing.line.cursor = 0
  next =>
    rw [getsBackspace, if_neg (by rw [held.follows.i]; omega), TextLine.backspace_first first]
    exact ⟨line, rfl, held⟩
  next =>
    obtain ⟨front, d, back, whole, behind, text, cursor⟩ := TextLine.backspace_cut first
    have lengths := congrArg List.length whole
    rw [List.length_append, List.length_cons] at lengths
    have holds := held.follows.hasText.text
    rw [whole, List.append_assoc, List.cons_append] at holds
    have shifted := @shiftLeft_eq line.memory editing.buffer.address front back d (editing.buffer.maxBufferSize - 1)
      editing.buffer.nonNull held.total (by rw [← whole]; exact held.nonZero) (by omega) holds
      (editing.buffer.maxBufferSize - 1 + 2) (by omega)
    have column : (line.column + 255) % 256 = cmdShellSize + front.length := by
      rw [held.follows.column, behind]
      simp only [cmdShellSize]
      omega
    have zero : forall c, c ∈ back -> c ≠ 0 := fun c member => held.nonZero c (by
      rw [whole]
      exact List.mem_append_right _ (List.mem_cons_of_mem _ member))
    have i : line.i = front.length + 1 := by rw [held.follows.i, behind]
    refine ⟨_, ?_, held.written whole text zero held.recalls⟩
    rw [getsBackspace, if_pos (by omega), held.follows.buffer, column, i, cursor]
    dsimp only
    rw [shifted]
    rfl

theorem getsCharacter_eq (c : UInt8) {front back : List UInt8} (whole : editing.line.text = front ++ back)
    (cursor : editing.line.cursor = front.length) :
    getsCharacter line c =
      .ok ⟨line.buffer, line.memory.write (editing.buffer.address + front.length) (c :: back ++ [0]), front.length + 1,
        cmdShellSize + (front.length + 1), line.cmdHistoryIndex⟩ := by
  have bounds := editing.bounds
  have measured := @strlen_eq _ _ _ _ held (line.buffer.maxBufferSize - 1) (by rw [held.follows.buffer]; omega)
  have count : editing.line.text.length + 1 - line.i = (back ++ [0]).length := by
    rw [held.follows.i, cursor, whole]
    simp only [List.length_append, List.length_singleton]
    omega
  have holds := held.follows.hasText.text
  rw [whole, List.append_assoc] at holds
  have shifted := @shiftRight_eq line.memory editing.buffer.address front.length _ held.total (Bytes.Holds.append.mp holds).2
  have column : (line.column + 1) % 256 = cmdShellSize + (front.length + 1) := by
    rw [held.follows.column, cursor]
    simp only [cmdShellSize]
    omega
  rw [getsCharacter, measured, Access.ok_bind, count, column, held.follows.i, cursor, held.follows.buffer, shifted,
    Access.ok_bind, Bytes.store_eq (held.total.write _), Access.ok_bind, Bytes.cons_put]
  rfl

theorem getsCharacter_holds {c : UInt8} (char : c ≠ 0) (room : editing.line.text.length < editing.buffer.maxBufferSize - 1) :
    ∃ after, getsCharacter line c = .ok after ∧ after.Holds history lines { editing with line := editing.line.insert c } := by
  obtain ⟨front, back, whole, behind, text, cursor⟩ := @TextLine.insert_cut _ _ editing.line c room
  have zero : forall d, d ∈ c :: back -> d ≠ 0 := by
    intro d member
    rcases List.mem_cons.mp member with rfl | old
    next => exact char
    next =>
      refine held.nonZero d ?_
      rw [whole]
      exact List.mem_append_right _ old
  have written := held.written whole text zero held.recalls
  rw [cursor] at written
  exact ⟨_, held.getsCharacter_eq c whole behind, written⟩

theorem getsRecall_holds {k : Nat} (histories : history.Holds lines) (inside : k < lines.length) :
    ∃ after, getsRecall history line (history.slot k) = .ok after ∧
      after.Holds history lines (editing.recall lines (some k)) := by
  have bounds := editing.bounds
  have member : lines[k] ∈ lines := List.getElem_mem inside
  let old : CString := ⟨lines[k], (histories.chars _ member).2⟩
  have slot : (history.cmdHistory (history.slot k)).Holds historyLine old.bytes :=
    histories.follows.slots k _ (List.getElem?_eq_getElem inside)
  have copied := @Formatting.clStrncpy_write _ line.memory historyLine (editing.buffer.maxBufferSize) old slot editing.buffer.address
    (editing.buffer.maxBufferSize - 1) editing.buffer.nonNull (by decide) (by omega) (held.total.accessible _ _) (by omega)
  have zero : forall c, c ∈ old.chars.take (editing.buffer.maxBufferSize - 1) -> c ≠ 0 := fun c here =>
    old.nonZero c (List.mem_of_mem_take here)
  have same : lines.getD k [] = lines[k] := List.getD_eq_getElem _ _ inside
  have after := @written _ _ _ _ held [] editing.line.text _ (TextLine.replace lines[k]) (history.slot k) (some k) rfl rfl zero
    ⟨inside, rfl⟩
  rw [List.length_nil, Nat.add_zero] at after
  have size : (old.chars.take (editing.buffer.maxBufferSize - 1)).length ≤ editing.buffer.maxBufferSize - 1 :=
    List.length_take_le _ _
  have measured := @strlen_eq _ _ _ _ after editing.buffer.maxBufferSize (Nat.le_trans size (Nat.sub_le _ _))
  have column : (cmdShellSize + (old.chars.take (editing.buffer.maxBufferSize - 1)).length % 256) % 256 =
      cmdShellSize + (old.chars.take (editing.buffer.maxBufferSize - 1)).length := by
    simp only [cmdShellSize]
    omega
  rw [held.follows.buffer] at measured
  refine ⟨_, ?_, by rw [Editing.recall, same]; exact after⟩
  rw [getsRecall, held.follows.buffer, copied, Access.ok_bind, measured, Access.ok_bind, TextLine.replace, column]
  rfl

end LineInput.Holds

section Slots

variable (histories : history.Holds lines)

include histories

theorem CommandHistory.Holds.last_eq (some_ : lines ≠ []) : history.last = history.slot (lines.length - 1) := by
  have positive := List.length_pos_iff.mpr some_
  have atMost := histories.atMost
  have first := histories.first
  simp only [CommandHistory.last, CommandHistory.slot, histories.follows.size, dword, cmdHistoryMaxSize] at atMost first ⊢
  omega

theorem CommandHistory.Holds.slot_inj {j k : Nat} (one : j < lines.length) (other : k < lines.length) :
    history.slot j = history.slot k ↔ j = k := by
  have atMost := histories.atMost
  simp only [CommandHistory.slot, cmdHistoryMaxSize] at atMost ⊢
  omega

end Slots

namespace LineInput.Holds

variable (held : line.Holds history lines editing) (histories : history.Holds lines)

include held histories

theorem getsUp_holds :
    ∃ after, getsUp history line = .ok after ∧ after.Holds history lines (editing.recall lines (older lines editing.recalled)) := by
  have size := histories.follows.size
  have first := histories.first
  have atMost := histories.atMost
  have recalls := held.recalls
  rw [getsUp]
  by_cases nothing : lines = []
  next =>
    have none_ : editing.recalled = none := by
      cases recalled : editing.recalled with
      | none => rfl
      | some k =>
        rw [recalled, nothing] at recalls
        exact absurd recalls.1 (Nat.not_lt_zero k)
    rw [if_pos (by rw [size, nothing]; rfl), none_, older, if_pos nothing]
    exact ⟨line, rfl, held⟩
  next =>
    have positive := List.length_pos_iff.mpr nothing
    rw [if_neg (by omega)]
    cases recalled : editing.recalled with
    | none =>
      rw [recalled] at recalls
      rw [older, if_neg nothing, if_pos (show maxDword = line.cmdHistoryIndex from recalls.symm), histories.last_eq nothing]
      exact held.getsRecall_holds histories (Nat.sub_lt positive Nat.one_pos)
    | some k =>
      rw [recalled] at recalls
      obtain ⟨inside, index⟩ := recalls
      have before : (if line.cmdHistoryIndex ≠ history.firstIndex then
          dword (line.cmdHistoryIndex + (2 ^ 32 - 1)) % cmdHistoryMaxSize else line.cmdHistoryIndex) = history.slot (k - 1) := by
        rw [index]
        by_cases oldest : history.slot k = history.firstIndex
        next =>
          rw [if_neg (not_not_intro oldest)]
          simp only [CommandHistory.slot, cmdHistoryMaxSize] at first atMost oldest ⊢
          omega
        next =>
          rw [if_pos oldest]
          simp only [CommandHistory.slot, cmdHistoryMaxSize, dword] at first atMost oldest ⊢
          omega
      have valid : maxDword ≠ line.cmdHistoryIndex := by
        rw [index]
        simp only [CommandHistory.slot, cmdHistoryMaxSize, maxDword]
        omega
      rw [older, if_neg valid, before]
      exact held.getsRecall_holds histories (by omega)

theorem getsDown_holds :
    ∃ after, getsDown history line = .ok after ∧ after.Holds history lines (editing.recall lines (newer lines editing.recalled)) := by
  have size := histories.follows.size
  have first := histories.first
  have atMost := histories.atMost
  have recalls := held.recalls
  rw [getsDown, newer]
  cases recalled : editing.recalled with
  | none =>
    rw [recalled] at recalls
    have stays : (if 0 = history.size then pure line else if maxDword = line.cmdHistoryIndex then pure line
        else getsRecall history line (if line.cmdHistoryIndex ≠ history.last then
          dword (line.cmdHistoryIndex + 1) % cmdHistoryMaxSize else line.cmdHistoryIndex) : Access LineInput) = .ok line := by
      rw [if_pos (show maxDword = line.cmdHistoryIndex from recalls.symm), ite_self]
      rfl
    exact ⟨line, stays, held⟩
  | some k =>
    rw [recalled] at recalls
    obtain ⟨inside, index⟩ := recalls
    have some_ : lines ≠ [] := List.length_pos_iff.mp (Nat.zero_lt_of_lt inside)
    have behind : (if line.cmdHistoryIndex ≠ history.last then
        dword (line.cmdHistoryIndex + 1) % cmdHistoryMaxSize else line.cmdHistoryIndex) =
          history.slot (min (k + 1) (lines.length - 1)) := by
      rw [index, histories.last_eq some_]
      have latest := @histories.slot_inj _ _ k (lines.length - 1) inside (by omega)
      by_cases last : k = lines.length - 1
      next => rw [if_neg (not_not_intro (latest.mpr last)), Nat.min_eq_right (by omega), last]
      next =>
        rw [if_pos (mt latest.mp last), Nat.min_eq_left (by omega)]
        simp only [CommandHistory.slot, cmdHistoryMaxSize, dword] at first atMost ⊢
        omega
    have valid : maxDword ≠ line.cmdHistoryIndex := by
      rw [index]
      simp only [CommandHistory.slot, cmdHistoryMaxSize, maxDword]
      omega
    rw [if_neg (by omega), if_neg valid]
    dsimp only
    rw [behind]
    exact held.getsRecall_holds histories (by omega)

end LineInput.Holds

def CommandHistory.record (history : CommandHistory) (text : List UInt8) : CommandHistory :=
  { history with
    cmdHistory := Function.update history.cmdHistory history.last
      ((history.cmdHistory history.last).write historyLine (text ++ [0])) }

theorem CommandHistory.record_cmdHistory (history : CommandHistory) (text : List UInt8) :
    (history.record text).cmdHistory = Function.update history.cmdHistory history.last
      ((history.cmdHistory history.last).write historyLine (text ++ [0])) := rfl

theorem CommandHistory.record_slot (history : CommandHistory) (text : List UInt8) (k : Nat) :
    (history.record text).slot k = history.slot k := rfl

theorem clStrtrim_hasText (held : line.Holds history lines editing) :
    ∃ memory, clStrtrim (2 ^ 32) line.memory editing.buffer.address = .ok memory ∧
      editing.buffer.HasText memory (trimmed editing.line.text) := by
  have bounds := editing.bounds
  let string : CString := ⟨editing.line.text, held.nonZero⟩
  have small : string.length < 2 ^ 32 := by
    simp only [string, CString.length]
    omega
  have holds : line.memory.Holds editing.buffer.address string.bytes := held.follows.hasText.text
  have size : string.length + 1 ≤ editing.buffer.bufferSize := by
    simp only [string, CString.length]
    omega
  by_cases blank : trimmed editing.line.text = []
  next =>
    refine ⟨_, clStrtrim_blank holds small (trimmed_blank blank) small editing.buffer.nonNull, ?_⟩
    rw [blank]
    refine ⟨put_terminator, fun place outside => ?_⟩
    simp only [Buffer.Contains] at outside
    rw [Bytes.put_elsewhere (by omega), held.follows.hasText.outside place outside]
  next =>
    obtain ⟨lead, core, trail, parts⟩ := parts_exist blank
    obtain ⟨memory, run, text, others⟩ :=
      @clStrtrim_core string lead core trail parts _ _ holds small _ small editing.buffer.nonNull (held.total.accessible _ _)
    refine ⟨memory, run, ?_⟩
    rw [parts.trimmed_eq]
    refine ⟨text, fun place outside => ?_⟩
    simp only [Buffer.Contains] at outside
    rw [others place (by omega), held.follows.hasText.outside place outside]

theorem trimmed_mem {text : List UInt8} {c : UInt8} (member : c ∈ trimmed text) : c ∈ text :=
  (List.dropWhile_sublist _).subset ((List.rdropWhile_prefix _ _).sublist.subset member)

theorem trimmed_length (text : List UInt8) : (trimmed text).length ≤ text.length :=
  (List.rdropWhile_prefix _ _).length_le.trans (List.dropWhile_sublist _).length_le

theorem getsEnter_eq (held : line.Holds history lines editing) (histories : history.Holds lines)
    (some_ : editing.line.text ≠ []) :
    ∃ memory, getsEnter history line = .ok (history.advance.record (trimmed editing.line.text), { line with memory := memory }) ∧
      editing.buffer.HasText memory (trimmed editing.line.text) := by
  have bounds := editing.bounds
  have positive := List.length_pos_iff.mpr some_
  have shorter := trimmed_length editing.line.text
  obtain ⟨memory, trims, has⟩ := clStrtrim_hasText held
  let text : CString := ⟨trimmed editing.line.text, fun c member => held.nonZero c (trimmed_mem member)⟩
  have measured := @LineInput.Holds.strlen_eq _ _ _ _ held line.buffer.maxBufferSize (by rw [held.follows.buffer]; omega)
  have room : history.advance.cmdHistory = history.cmdHistory := by
    rw [CommandHistory.advance]
    split <;> rfl
  have copied := @Formatting.clStrncpy_write memory (history.advance.cmdHistory history.advance.last) editing.buffer.address
    charsPerLine text has.text historyLine (editing.buffer.maxBufferSize - 1) (by decide) editing.buffer.nonNull (by omega)
    (by rw [room]; exact histories.room _) (by simp only [text, CString.length, charsPerLine]; omega)
  have whole : text.chars.take (editing.buffer.maxBufferSize - 1) = trimmed editing.line.text :=
    List.take_of_length_le (show (trimmed editing.line.text).length ≤ _ by omega)
  rw [whole] at copied
  refine ⟨memory, ?_, has⟩
  rw [getsEnter, measured, Access.ok_bind, if_neg (by omega), held.follows.buffer]
  dsimp only
  rw [trims, Access.ok_bind, copied]
  rfl

theorem remember_eq {text : List UInt8} (atMost : lines.length ≤ cmdHistoryMaxSize) (some_ : text ≠ []) :
    remember lines text = lines.drop (lines.length + 1 - cmdHistoryMaxSize) ++ [text] := by
  rw [remember, if_neg some_, List.drop_append_of_le_length (by simp only [cmdHistoryMaxSize] at atMost ⊢; omega)]

theorem advance_slots (histories : history.Holds lines) {kept : Nat}
    (size : (lines.drop (lines.length + 1 - cmdHistoryMaxSize)).length = kept) :
    history.advance.size = kept + 1 ∧ history.advance.firstIndex < cmdHistoryMaxSize ∧
      (kept + 1 < cmdHistoryMaxSize -> history.advance.firstIndex = 0) ∧
      history.advance.last = history.advance.slot kept ∧
      forall k, history.advance.slot k = history.slot (lines.length + 1 - cmdHistoryMaxSize + k) := by
  have count := histories.follows.size
  have atMost := histories.atMost
  have first := histories.first
  have start := histories.start
  rw [List.length_drop] at size
  rw [CommandHistory.advance]
  by_cases full : cmdHistoryMaxSize = history.size
  next =>
    rw [if_pos full]
    simp only [CommandHistory.last, CommandHistory.slot, dword, cmdHistoryMaxSize] at atMost first start size full ⊢
    exact ⟨by omega, by omega, by omega, by omega, fun k => by omega⟩
  next =>
    rw [if_neg full]
    simp only [CommandHistory.last, CommandHistory.slot, dword, cmdHistoryMaxSize] at atMost first start size full ⊢
    exact ⟨by omega, by omega, by omega, by omega, fun k => by omega⟩

theorem advance_holds (histories : history.Holds lines) {text : List UInt8} (some_ : text ≠ [])
    (nonZero : forall c, c ∈ text -> c ≠ 0) : (history.advance.record text).Holds (remember lines text) := by
  have atMost := histories.atMost
  generalize size : (lines.drop (lines.length + 1 - cmdHistoryMaxSize)).length = kept
  have limit : kept < cmdHistoryMaxSize := by
    rw [← size, List.length_drop]
    simp only [cmdHistoryMaxSize] at atMost ⊢
    omega
  obtain ⟨count, first, start, last, slots⟩ := advance_slots histories size
  have whole := remember_eq atMost some_
  have lengths : (remember lines text).length = kept + 1 := by
    rw [whole, List.length_append, List.length_singleton, size]
  have old : history.advance.cmdHistory = history.cmdHistory := by
    rw [CommandHistory.advance]
    split <;> rfl
  constructor
  next =>
    refine ⟨count.trans lengths.symm, fun k line here => ?_⟩
    rw [CommandHistory.record_cmdHistory, CommandHistory.record_slot]
    have inside := (List.getElem?_eq_some_iff.mp here).1
    rw [lengths] at inside
    rw [whole] at here
    by_cases newest : k = kept
    next =>
      rw [newest, ← size, List.getElem?_concat_length] at here
      rw [newest, ← last, Function.update_self, ← Option.some.inj here]
      exact Bytes.write_holds
    next =>
      have other : history.advance.slot k ≠ history.advance.last := by
        rw [last]
        simp only [CommandHistory.slot, cmdHistoryMaxSize] at limit ⊢
        omega
      rw [List.getElem?_append_left (by omega), List.getElem?_drop] at here
      rw [Function.update_of_ne other, old, slots]
      exact histories.follows.slots _ line here
  next =>
    intro line member
    rw [whole] at member
    rcases List.mem_append.mp member with before | new
    next => exact histories.chars line (List.mem_of_mem_drop before)
    next =>
      rw [List.mem_singleton.mp new]
      exact ⟨some_, nonZero⟩
  next => omega
  next => exact first
  next =>
    rw [lengths]
    exact start
  next =>
    intro slot
    rw [CommandHistory.record_cmdHistory]
    by_cases same : slot = history.advance.last
    next =>
      rw [same, Function.update_self, old]
      exact Bytes.write_accessible (histories.room _)
    next =>
      rw [Function.update_of_ne same, old]
      exact histories.room slot

theorem getsKey_holds (held : line.Holds history lines editing) (histories : history.Holds lines) {key : EditKey}
    (other : key ≠ .enter) (met : editing.Met key) :
    ∃ after, getsKey history line key = .ok (history, after, !(key.typed && after.full)) ∧
      after.Holds history lines (editing.key lines key) := by
  cases key with
  | enter => exact absurd rfl other
  | backspace =>
    obtain ⟨after, run, kept⟩ := held.getsBackspace_holds
    exact ⟨after, by rw [getsKey, run]; rfl, kept⟩
  | ignored => exact ⟨line, rfl, held⟩
  | up =>
    obtain ⟨after, run, kept⟩ := held.getsUp_holds histories
    exact ⟨after, by rw [getsKey, run]; rfl, kept⟩
  | down =>
    obtain ⟨after, run, kept⟩ := held.getsDown_holds histories
    exact ⟨after, by rw [getsKey, run]; rfl, kept⟩
  | left => exact ⟨_, rfl, held.getsLeft_holds⟩
  | right =>
    obtain ⟨after, run, kept⟩ := held.getsRight_holds
    exact ⟨after, by rw [getsKey, run]; rfl, kept⟩
  | home => exact ⟨_, rfl, held.getsHome_holds⟩
  | toEnd =>
    obtain ⟨after, run, kept⟩ := held.getsEnd_holds
    exact ⟨after, by rw [getsKey, run]; rfl, kept⟩
  | character c char =>
    obtain ⟨after, run, kept⟩ := held.getsCharacter_holds char met
    exact ⟨after, by rw [getsKey, run]; rfl, kept⟩
  | other => exact ⟨line, rfl, held⟩

theorem LineInput.Holds.full_iff (held : line.Holds history lines editing) :
    line.full = true ↔ editing.buffer.maxBufferSize - 1 ≤ editing.line.cursor := by
  rw [LineInput.full, decide_eq_true_iff, held.follows.buffer, held.follows.i]

theorem LineInput.Holds.returned (held : line.Holds history lines editing)
    (full : editing.buffer.maxBufferSize - 1 ≤ editing.line.cursor) : line.Returned (editing.buffer, editing.line.text) where
  buffer := held.follows.buffer
  hasText := held.follows.hasText
  i := by
    have bounds := editing.bounds
    have cursor := held.follows.i
    simp only
    omega

theorem getsStart_holds (history : CommandHistory) (lines : List (List UInt8)) (buffer : Buffer) :
    ∃ line, getsStart buffer = .ok line ∧ line.Holds history lines ⟨buffer, TextLine.empty, none⟩ := by
  have large := buffer.large
  have total : buffer.memory.Total := buffer.readable
  refine ⟨_, by rw [getsStart, clMemset_zeroed buffer.nonNull (total.accessible _ _)]; rfl, ?_⟩
  constructor
  next =>
    refine ⟨rfl, ⟨?_, fun place outside => if_neg outside⟩, rfl, rfl⟩
    intro i byte here
    cases i with
    | zero =>
      rw [← show some (0 : UInt8) = some byte from here]
      exact if_pos ⟨Nat.le_refl _, Nat.lt_add_of_pos_right (Nat.zero_lt_of_lt large)⟩
    | succ i => cases here
  next =>
    intro place
    by_cases inside : buffer.Contains place
    next => exact ⟨0, if_pos inside⟩
    next =>
      obtain ⟨byte, here⟩ := buffer.readable place
      exact ⟨byte, (if_neg inside).trans here⟩
  next => exact fun c member => absurd member List.not_mem_nil
  next => rfl

theorem getsEnter_holds (held : line.Holds history lines editing) (histories : history.Holds lines)
    (met : editing.Met .enter) :
    ∃ after line', getsEnter history line = .ok (after, line') ∧ after.Holds (remember lines (trimmed editing.line.text)) ∧
      line'.Returned (editing.buffer, trimmed editing.line.text) := by
  have cursor := held.follows.i
  have bounds := editing.bounds
  by_cases empty : editing.line.text = []
  next =>
    have has := held.follows.hasText
    have measured := held.strlen_eq (Nat.le_trans bounds.2.1 (Nat.sub_le _ 1))
    rw [empty] at bounds has measured
    have first : line.i = 0 := by
      rw [cursor]
      exact Nat.le_zero.mp bounds.1
    have nothing : trimmed [] = [] := rfl
    refine ⟨history, line, ?_, ?_, ?_⟩
    next =>
      rw [getsEnter, held.follows.buffer]
      rw [held.follows.buffer] at measured
      rw [measured]
      rfl
    next =>
      rw [empty, nothing, remember, if_pos rfl]
      exact histories
    next =>
      rw [empty, nothing]
      exact ⟨held.follows.buffer, has, first⟩
  next =>
    obtain ⟨some_, last⟩ := met.resolve_left empty
    obtain ⟨memory, run, has⟩ := getsEnter_eq held histories empty
    have nonZero : forall c, c ∈ trimmed editing.line.text -> c ≠ 0 := fun c member => held.nonZero c (trimmed_mem member)
    exact ⟨_, _, run, advance_holds histories some_ nonZero, ⟨held.follows.buffer, has, cursor.trans last⟩⟩

end Keys

structure Console.Holds (console : Console) (editor : Editor) : Prop where
  history : console.history.Holds editor.lines
  input : Option.Rel (fun line editing => line.Holds console.history editor.lines editing) console.input editor.editing
  returned : Option.Rel LineInput.Returned console.returned editor.returned

section Step

theorem gets_holds {console : Console} {editor : Editor} (held : console.Holds editor) (buffer : Buffer) :
    ∃ after, console.step (.gets buffer) = some after ∧ after.Holds (editor.follow (.gets buffer)) := by
  obtain ⟨history, input, returned⟩ := console
  obtain ⟨lines, editing, results⟩ := editor
  obtain ⟨histories, inputs, outputs⟩ := held
  cases inputs with
  | some line => exact ⟨_, rfl, ⟨histories, .some line, outputs⟩⟩
  | none =>
    obtain ⟨line, start, kept⟩ := getsStart_holds history lines buffer
    have next : Console.step ⟨history, none, returned⟩ (.gets buffer) = some ⟨history, some line, returned⟩ := by
      simp only [Console.step, start]
      rfl
    exact ⟨_, next, ⟨histories, .some kept, outputs⟩⟩

theorem key_holds {console : Console} {editor : Editor} (held : console.Holds editor) {press : KeyPress}
    (met : editor.Met (.key press)) :
    ∃ after, console.step (.key press) = some after ∧ after.Holds (editor.follow (.key press)) := by
  obtain ⟨history, input, returned⟩ := console
  obtain ⟨lines, editing, results⟩ := editor
  obtain ⟨histories, inputs, outputs⟩ := held
  cases inputs with
  | none => exact ⟨_, rfl, ⟨histories, .none, outputs⟩⟩
  | @some line editing kept =>
    rw [Console.step, Editor.follow]
    dsimp only at kept histories ⊢
    by_cases dropped : press.keyCode = .unknown
    next =>
      rw [if_pos dropped, if_pos dropped]
      exact ⟨_, rfl, ⟨histories, .some kept, outputs⟩⟩
    next =>
      have met := met editing rfl dropped
      rw [if_neg dropped, if_neg dropped, Editor.key]
      by_cases enter : press.editKey = .enter
      next =>
        rw [enter] at met ⊢
        obtain ⟨after, line', run, histories', returned'⟩ := getsEnter_holds kept histories met
        refine ⟨⟨after, none, some line'⟩, ?_, ⟨histories', .none, .some returned'⟩⟩
        rw [getsKey, run]
        rfl
      next =>
        obtain ⟨after, run, kept'⟩ := getsKey_holds kept histories enter met
        have full := kept'.full_iff
        rw [if_neg enter, run]
        by_cases ends : press.editKey.typed ∧
            (editing.key lines press.editKey).buffer.maxBufferSize - 1 ≤ (editing.key lines press.editKey).line.cursor
        next =>
          refine ⟨⟨history, none, some after⟩, ?_, ?_⟩
          next =>
            rw [ends.1, full.mpr ends.2]
            rfl
          next =>
            dsimp only
            rw [if_pos ends]
            exact ⟨histories, .none, .some (kept'.returned ends.2)⟩
        next =>
          refine ⟨⟨history, some after, returned⟩, ?_, ?_⟩
          next =>
            have goes : (!(press.editKey.typed && after.full)) = true := by
              rw [Bool.not_eq_true', Bool.eq_false_iff, ne_eq, Bool.and_eq_true, full]
              exact ends
            rw [goes]
            rfl
          next =>
            dsimp only
            rw [if_neg ends]
            exact ⟨histories, .some kept', outputs⟩

variable {history : CommandHistory} {lines : List (List UInt8)} {line : LineInput} {editing : Editing}

theorem getsCharacter_lost (held : line.Holds history lines editing) {c : UInt8} (char : c ≠ 0) :
    ∃ after, getsCharacter line c = .ok after ∧ ¬ editing.buffer.HasText after.memory editing.line.text := by
  have size : (editing.line.text.take editing.line.cursor).length = editing.line.cursor :=
    List.length_take_of_le editing.line.within
  have whole := (@List.take_append_drop _ editing.line.cursor editing.line.text).symm
  have zero : forall d, d ∈ editing.line.text.drop editing.line.cursor -> d ≠ 0 := fun d member =>
    held.nonZero d (List.mem_of_mem_drop member)
  refine ⟨_, held.getsCharacter_eq c whole size.symm, fun has => ?_⟩
  have ended := has.text editing.line.text.length 0 List.getElem?_concat_length
  generalize editing.line.text.take editing.line.cursor = front at whole ended
  generalize editing.line.text.drop editing.line.cursor = back at whole ended zero
  have inside : back.length < (c :: back).length := Nat.lt_succ_self _
  have written := @Bytes.write_holds line.memory (editing.buffer.address + front.length) (c :: back ++ [0]) back.length
    (c :: back)[back.length] (by rw [List.getElem?_append_left inside, List.getElem?_eq_getElem inside])
  have place : editing.buffer.address + editing.line.text.length = editing.buffer.address + front.length + back.length := by
    rw [whole, List.length_append, Nat.add_assoc]
  rw [place] at ended
  have member : (c :: back)[back.length] ∈ c :: back := List.getElem_mem inside
  rw [Option.some.inj (written.symm.trans ended)] at member
  rcases List.mem_cons.mp member with same | old
  next => exact char same.symm
  next => exact zero 0 old rfl

theorem blank_lost (histories : history.Holds lines) : ¬ (history.advance.record []).Follows lines := by
  intro follows
  generalize size : (lines.drop (lines.length + 1 - cmdHistoryMaxSize)).length = kept
  obtain ⟨count, _, _, last, _⟩ := advance_slots histories size
  have lengths : kept + 1 = lines.length := count.symm.trans follows.size
  have inside : kept < lines.length := by omega
  have here := follows.slots kept _ (List.getElem?_eq_getElem inside)
  rw [CommandHistory.record_cmdHistory, CommandHistory.record_slot, last, Function.update_self] at here
  obtain ⟨some_, nonZero⟩ := histories.chars _ (List.getElem_mem inside)
  obtain ⟨c, rest, split⟩ := List.exists_cons_of_ne_nil some_
  rw [split] at here nonZero
  have zero := (@Bytes.write_holds (history.advance.cmdHistory (history.advance.slot kept)) historyLine ([] ++ [0])) 0 0 rfl
  rw [here 0 c rfl] at zero
  exact nonZero c List.mem_cons_self (Option.some.inj zero)

theorem getsEnter_lost (held : line.Holds history lines editing) (histories : history.Holds lines)
    (unmet : ¬ editing.Met .enter) :
    ∃ after line', getsEnter history line = .ok (after, line') ∧
      ¬ (after.Follows (remember lines (trimmed editing.line.text)) ∧ line'.Returned (editing.buffer, trimmed editing.line.text)) := by
  obtain ⟨memory, run, _⟩ := getsEnter_eq held histories (fun empty => unmet (.inl empty))
  refine ⟨_, _, run, fun both => ?_⟩
  by_cases blank : trimmed editing.line.text = []
  next =>
    have follows := both.1
    rw [blank, remember, if_pos rfl] at follows
    exact blank_lost histories follows
  next => exact unmet (.inr ⟨blank, held.follows.i.symm.trans both.2.i⟩)

theorem lost {console after : Console} {editor : Editor} {event : ConsoleEvent} (held : console.Holds editor)
    (unmet : ¬ editor.Met event) (next : console.step event = some after) : ¬ after.Follows (editor.follow event) := by
  cases event with
  | gets buffer => exact absurd trivial unmet
  | key press =>
    obtain ⟨history, input, returned⟩ := console
    obtain ⟨lines, editing, results⟩ := editor
    obtain ⟨histories, inputs, outputs⟩ := held
    simp only [Editor.Met, not_forall] at unmet
    obtain ⟨editing', running, pressed, unmet⟩ := unmet
    subst running
    cases inputs with
    | @some line _ kept =>
      rw [Console.step] at next
      rw [Editor.follow]
      dsimp only at kept histories next ⊢
      rw [if_neg pressed] at next ⊢
      rw [Editor.key]
      generalize press.editKey = key at next unmet
      cases key with
      | character c char =>
        obtain ⟨line', run, differs⟩ := getsCharacter_lost kept char
        have full : editing'.line.insert c = editing'.line := TextLine.insert_full unmet
        have same : editing'.key lines (.character c char) = editing' := by rw [Editing.key, full]
        rw [getsKey, run, Access.ok_bind] at next
        rw [if_neg (by simp)]
        dsimp only
        rw [same]
        intro follows
        have inputs := follows.input
        have outputs := follows.returned
        split at inputs
        next ends =>
          rw [if_pos ends] at outputs
          cases full : line'.full with
          | true =>
            rw [full] at next
            obtain rfl := Option.some.inj next
            cases outputs with
            | some result => exact differs result.hasText
          | false =>
            rw [full] at next
            obtain rfl := Option.some.inj next
            cases inputs
        next goes =>
          cases full : line'.full with
          | true =>
            rw [full] at next
            obtain rfl := Option.some.inj next
            cases inputs
          | false =>
            rw [full] at next
            obtain rfl := Option.some.inj next
            cases inputs with
            | some result => exact differs result.hasText
      | enter =>
        obtain ⟨after', line', run, differs⟩ := getsEnter_lost kept histories unmet
        rw [getsKey, run, Access.ok_bind] at next
        obtain rfl := Option.some.inj next
        intro follows
        cases follows.returned with
        | some result => exact differs ⟨follows.history, result⟩
      | _ => exact absurd trivial unmet

end Step

theorem Console.Holds.follows {console : Console} {editor : Editor} (held : console.Holds editor) : console.Follows editor where
  history := held.history.follows
  input := by
    have input := held.input
    generalize console.input = line, editor.editing = editing at input ⊢
    cases input with
    | none => exact .none
    | some kept => exact .some kept.follows
  returned := held.returned

theorem initial_holds : Console.initial.Holds Editor.initial where
  history :=
    { follows := ⟨rfl, fun k line here => by cases here⟩
      chars := fun line member => absurd member List.not_mem_nil
      atMost := Nat.zero_le _
      first := by decide
      start := fun _ => rfl
      room := fun slot i inside =>
        ⟨0, Bytes.object_holds _ _ i 0 (List.getElem?_replicate_of_lt inside)⟩ }
  input := .none
  returned := .none

theorem line_tracker :
    Tracker Console.step Editor.follow Console.Follows Editor.Met Console.Holds where
  agreed _ _ held := held.follows
  kept console editor event held met := by
    cases event with
    | gets buffer => exact gets_holds held buffer
    | key press => exact key_holds held met
  lost _ _ _ _ held unmet next := lost held unmet next

theorem line_editor_iff (events : List ConsoleEvent) :
    Tracks Console.step Editor.follow Console.Follows Console.initial Editor.initial events ↔
      Meets Editor.follow Editor.Met Editor.initial events :=
  line_tracker.tracks_iff initial_holds events

def sampleBuffer : Buffer where
  memory := fun _ => some 0
  address := 1
  bufferSize := charsPerLine
  nonNull := by decide
  large := by decide
  readable := fun _ => ⟨0, rfl⟩

def samplePress (keyCode : KeyCode) : ConsoleEvent := .key ⟨keyCode, keyboardInitialize.data⟩

-- A letter, home and return: the line is one character long, and the used size is zero.
theorem home_then_return :
    ¬ Tracks Console.step Editor.follow Console.Follows Console.initial Editor.initial
      [.gets sampleBuffer, samplePress (.ascii 'a'), samplePress .home, samplePress .returnKey] := by
  rw [line_tracker.tracks_iff initial_holds]
  intro meets
  have met := meets [.gets sampleBuffer, samplePress (.ascii 'a'), samplePress .home] (samplePress .returnKey) List.prefix_rfl
  rcases met _ rfl (by decide) with empty | ⟨_, cursor⟩
  next => cases empty
  next => cases cursor

end Hal9000.Kernel
