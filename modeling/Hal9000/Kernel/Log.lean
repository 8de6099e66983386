import Hal9000.CommonLib.FormattingExact

set_option autoImplicit false

namespace Hal9000.Log

open Lib (Bytes Access)
open Formatting

def logBufMaxSize : Nat := 512
def screenBufferSize : Nat := 260

def whiteColor : Nat := 0x7
def yellowColor : Nat := 0xE
def redColor : Nat := 0x4

inductive LogLevel where
  | trace | info | warning | error
  deriving DecidableEq

def LogLevel.order : LogLevel -> Nat
  | .trace => 0
  | .info => 1
  | .warning => 2
  | .error => 3

structure LogData where
  enabled : Bool
  loggingLevel : LogLevel
  loggingComponents : Nat

def isFlagOn (flags flag : Nat) : Bool := 0 != flags &&& flag

def infoLevelModifier : CString := CString.empty
def warningLevelModifier : CString := .of [0x5B, 0x57, 0x41, 0x52, 0x4E, 0x49, 0x4E, 0x47, 0x5D]
def errorLevelModifier : CString := .of [0x5B, 0x45, 0x52, 0x52, 0x4F, 0x52, 0x5D]

-- What DispPrintString is passed, with the color that is set, and m_printBuffer.
structure Screen where
  color : Nat
  text : CString
  printBuffer : Bytes

-- A print function has its va_list and the stack array of vsnprintf.
abbrev PrintFunction := (fuel : Nat) -> (temp printBuffer : Bytes) -> (address : Nat) -> CString -> List Argument -> Access Screen

def vprintColor (color : Nat) : PrintFunction := fun fuel temp printBuffer address format args => do
  let (_, printBuffer) <- clVsnprintf fuel temp printBuffer address screenBufferSize (some format) args
  let text <- readString printBuffer fuel address
  pure ⟨color, text, printBuffer⟩

def perror : PrintFunction := vprintColor redColor
def pwarn : PrintFunction := vprintColor yellowColor
def printf : PrintFunction := vprintColor whiteColor

def pLevelModifier : LogLevel -> CString
  | .trace | .info => infoLevelModifier
  | .warning => warningLevelModifier
  | .error => errorLevelModifier

def printFunction : LogLevel -> PrintFunction
  | .trace | .info => printf
  | .warning => pwarn
  | .error => perror

-- The two outputs: what is printed, and the string that SerialCommWriteBuffer is passed.
structure Outputs where
  screen : Screen
  serial : CString

-- The function is called with the text as its format and no argument.
def logBufferInternal (fuel : Nat) (temp logBuffer : Bytes) (buffer : Nat) (printBuffer : Bytes) (address : Nat)
    (print : PrintFunction) : Access Outputs := do
  Access.assert (0 != buffer) "NULL != Buffer"
  let format <- readString logBuffer fuel buffer
  let screen <- print fuel temp printBuffer address format []
  let serial <- readString logBuffer fuel buffer
  pure ⟨screen, serial⟩

def LogData.enables (data : LogData) (level : LogLevel) (component : Nat) : Bool :=
  data.enabled && !decide (level.order < data.loggingLevel.order) &&
    !(decide (level = .trace) && !isFlagOn data.loggingComponents component)

def logEx (fuel : Nat) (data : LogData) (temp other : Bytes) (logBuffer : Bytes) (buffer : Nat) (printBuffer : Bytes)
    (address : Nat) (level : LogLevel) (component : Nat) (formatBuffer : CString) (va : List Argument) :
    Access (Option Outputs) :=
  if !data.enabled then pure none
  else if level.order < data.loggingLevel.order then pure none
  else if level = .trace && !isFlagOn data.loggingComponents component then pure none
  else do
    let modifierLength := (pLevelModifier level).length
    let logBuffer <- clStrcpy fuel logBuffer buffer (Bytes.object 1 (pLevelModifier level).bytes) 1
    let (_, logBuffer) <- clVsnprintf fuel temp logBuffer (buffer + modifierLength) (logBufMaxSize - modifierLength)
      (some formatBuffer) va
    let outputs <- logBufferInternal fuel other logBuffer buffer printBuffer address (printFunction level)
    pure (some outputs)

def message (level : LogLevel) (pieces : List Piece) : List UInt8 := (pLevelModifier level).chars ++ expansions pieces

def Logs (data : LogData) (level : LogLevel) (component : Nat) (format : CString) (arguments : List Argument)
    (pieces : List Piece) : Prop :=
  forall (buffer address : Nat) (logContents printContents : List UInt8) (temp other : Bytes), buffer ≠ 0 -> address ≠ 0 ->
    logContents.length = logBufMaxSize -> printContents.length = screenBufferSize -> temp.Accessible 1 65 ->
    other.Accessible 1 65 -> ∃ outputs,
      Access.Returns (fun fuel => logEx fuel data temp other (Bytes.object buffer logContents) buffer
        (Bytes.object address printContents) address level component format arguments) (some outputs) ∧
      outputs.screen.text.chars = message level pieces ∧ outputs.serial.chars = message level pieces

def logRoom (level : LogLevel) : Nat := logBufMaxSize - (pLevelModifier level).length

-- The condition: the log buffer is formatted as it is meant, and the screen buffer has room for a text that is no
-- format.
structure Loggable (level : LogLevel) (pieces : List Piece) : Prop where
  safe : Safe (logRoom level) 0 0 true pieces
  right : forall digits value, .printed digits value ∈ passed (logRoom level) 0 pieces -> Right digits value
  rest : forall behind, pieces = passed (logRoom level) 0 pieces ++ behind -> expansions behind = []
  unformatted : 0x25 ∉ message level pieces
  short : (message level pieces).length < screenBufferSize

section Plain

variable {chars : List UInt8} {arguments : List Argument} {count index outBufferOffset : Nat} {terminated : Bool}

theorem parses_plain (unformatted : 0x25 ∉ chars) : Parses chars arguments (chars.map .plain) := by
  induction chars with
  | nil => exact .done arguments
  | cons c rest ih =>
    exact .plain (Ne.symm (List.ne_of_not_mem_cons unformatted)) (ih (List.not_mem_of_not_mem_cons unformatted))

theorem reaches_plain (short : outBufferOffset + chars.length < count) : Reaches count outBufferOffset (chars.map .plain) := by
  induction chars generalizing outBufferOffset with
  | nil => trivial
  | cons c rest ih =>
    rw [List.length_cons] at short
    exact ⟨by omega, ih (by omega)⟩

theorem safe_plain (indexed : index + chars.length < 2 ^ 32) :
    Safe count index outBufferOffset terminated (chars.map .plain) := by
  induction chars generalizing index outBufferOffset terminated with
  | nil => trivial
  | cons c rest ih =>
    rw [List.length_cons] at indexed
    exact fun _ => ⟨by omega, ih (by omega)⟩

theorem outputs_plain (chars : List UInt8) : outputs (chars.map .plain) = chars := by
  induction chars with
  | nil => rfl
  | cons c rest ih => rw [List.map_cons, outputs, ih]

theorem vprintColor_plain {text : CString} {contents : List UInt8} {address : Nat} {temp : Bytes}
    (unformatted : 0x25 ∉ text.chars) (short : text.length < screenBufferSize) (nonNull : address ≠ 0)
    (length : contents.length = screenBufferSize) (inside : temp.Accessible 1 65) (color : Nat) :
    ∃ least, forall fuel, least ≤ fuel -> vprintColor color fuel temp (Bytes.object address contents) address text [] =
      .ok ⟨color, text, out (Bytes.object address contents) address text.chars true⟩ := by
  have size : screenBufferSize = 260 := rfl
  change text.chars.length < _ at short
  have reaches : Reaches screenBufferSize 0 (text.chars.map .plain) := reaches_plain (by omega)
  have safe : Safe screenBufferSize 0 0 false (text.chars.map .plain) := safe_plain (by omega)
  obtain ⟨least, enough⟩ := call_reaches (@parses_plain text.chars [] unformatted) (by decide) (by decide) nonNull length inside safe reaches
  rw [outputs_plain] at enough
  refine ⟨max least (text.length + 1), fun fuel more => ?_⟩
  have held := @out_holds (Bytes.object address contents) address text.chars
  have length : text.length < fuel := by omega
  rw [vprintColor, enough fuel (by omega), Access.ok_bind]
  simp only [readString_eq held length, Access.ok_bind]
  rfl

end Plain

section Bare

variable {format : CString} {initial temp : Bytes} {buffer count limit : Nat}

theorem printFrom_unargued {fuel index paramIndex outBufferOffset status : Nat} {memory after : Bytes}
    (here : format.at_ index = 0x25)
    (run : printFrom limit format buffer count fuel index paramIndex outBufferOffset [] temp memory = .ok (status, after)) :
    after = memory := by
  cases fuel with
  | zero => cases run
  | succ fuel =>
    rw [printFrom, here, if_neg (by decide), if_pos rfl] at run
    obtain ⟨⟨index, digits, fillChar, next⟩, _, run⟩ := Access.bind_eq_ok.mp run
    cases known : conversion next with
    | none =>
      simp only [known] at run
      exact (congrArg Prod.snd (Except.ok.inj run)).symm
    | some asked =>
      simp only [known] at run
      obtain ⟨text, read, _⟩ := Access.bind_eq_ok.mp run
      cases asked <;> cases read

theorem printFrom_bare (accessible : initial.Accessible buffer count) (small : count < 2 ^ 32)
    (indexed : format.length < 2 ^ 32) {chars : List UInt8} {fuel index paramIndex : Nat} {printed : List UInt8}
    (here : format.chars.drop index = chars) (room : printed.length < count) (nonZero : forall c, c ∈ printed -> c ≠ 0)
    {status : Nat} {after : Bytes}
    (run : printFrom limit format buffer count fuel index paramIndex printed.length [] temp (out initial buffer printed false) =
      .ok (status, after)) :
    ∃ text, (forall c, c ∈ text -> c ≠ 0) ∧ (after = out initial buffer text false ∨
      after = out initial buffer text true ∧ text.length < count ∧ (text = printed ++ chars -> 0x25 ∉ chars)) := by
  induction chars generalizing fuel index printed with
  | nil =>
    cases fuel with
    | zero => cases run
    | succ fuel =>
      rw [printFrom_end accessible room here] at run
      exact ⟨printed, nonZero, .inr ⟨(congrArg Prod.snd (Except.ok.inj run)).symm, room, fun _ => List.not_mem_nil⟩⟩
  | cons c rest ih =>
    have char := char_of_drop here
    have lengths := congrArg List.length here
    rw [List.length_drop, List.length_cons] at lengths
    change format.length - index = _ at lengths
    by_cases percent : c = 0x25
    · rw [percent] at here
      exact ⟨printed, nonZero, .inl (printFrom_unargued (at_of_drop here) run)⟩
    · cases fuel with
      | zero => cases run
      | succ fuel =>
        by_cases less : printed.length + 1 < count
        · have longer : (printed ++ [c]).length = printed.length + 1 := by rw [List.length_append, List.length_singleton]
          rw [printFrom_plain accessible here percent char small less, dword_of_lt (by omega)] at run
          obtain ⟨text, texts, cases_⟩ := ih (drop_succ here) (by rwa [longer])
            (List.forall_mem_append.mpr ⟨nonZero, List.forall_mem_singleton.mpr char⟩) run
          refine ⟨text, texts, cases_.imp_right (fun ⟨same, inner, goes⟩ => ⟨same, inner, fun whole => ?_⟩)⟩
          rw [List.append_assoc, List.singleton_append] at goes
          exact List.not_mem_cons_of_ne_of_not_mem (Ne.symm percent) (goes whole)
        · rw [printFrom_full accessible here percent char small room less] at run
          cases run
          refine ⟨printed, nonZero, .inr ⟨rfl, room, fun whole => ?_⟩⟩
          have lengths := congrArg List.length whole
          rw [List.length_append, List.length_cons] at lengths
          omega

end Bare

section Calls

variable {data : LogData} {level : LogLevel} {component : Nat} {format : CString} {arguments : List Argument}
  {pieces : List Piece} {buffer address : Nat} {logContents printContents : List UInt8} {temp other : Bytes}

theorem modifier_short (level : LogLevel) : (pLevelModifier level).length ≤ 9 := by
  cases level <;> decide

theorem copied_modifier (nonNull : buffer ≠ 0) (length : logContents.length = logBufMaxSize) (level : LogLevel) {fuel : Nat}
    (enough : 9 < fuel) :
    clStrcpy fuel (Bytes.object buffer logContents) buffer (Bytes.object 1 (pLevelModifier level).bytes) 1 =
      .ok (out ((Bytes.object buffer logContents).write buffer (pLevelModifier level).chars)
        (buffer + (pLevelModifier level).length) [] true) := by
  have short := modifier_short level
  have accessible := @buffer_accessible logBufMaxSize buffer logContents length
  have size : logBufMaxSize = 512 := rfl
  have chars : (pLevelModifier level).length = (pLevelModifier level).chars.length := rfl
  have fresh : out (Bytes.object buffer logContents) buffer [] false = Bytes.object buffer logContents := Bytes.write_nil
  have stored := @storeAll_out (Bytes.object buffer logContents) buffer logBufMaxSize [] false accessible
    (pLevelModifier level).chars (by rw [List.length_nil]; omega)
  have ended := @out_terminate (Bytes.object buffer logContents) buffer logBufMaxSize (pLevelModifier level).chars false
    accessible (by omega)
  rw [fresh, List.nil_append, Bool.false_and, List.length_nil, Nat.add_zero] at stored
  rw [clStrcpy_eq (Bytes.object_holds 1 _) (by omega) nonNull (by decide) (by omega), stored,
    Access.ok_bind]
  change Bytes.store _ (buffer + (pLevelModifier level).chars.length) 0 = .ok (out _ (buffer + (pLevelModifier level).chars.length) _ _)
  rw [ended, out_front, List.append_nil]

theorem room_accessible (length : logContents.length = logBufMaxSize) (level : LogLevel) :
    ((Bytes.object buffer logContents).write buffer (pLevelModifier level).chars).Accessible
      (buffer + (pLevelModifier level).length) (logRoom level) := by
  have short := modifier_short level
  have size : logBufMaxSize = 512 := rfl
  refine Bytes.write_accessible (fun i inside => ?_)
  rw [logRoom] at inside
  rw [Nat.add_assoc]
  exact @buffer_accessible logBufMaxSize buffer logContents length _ (by omega)

theorem logEx_eq (enabled : data.enables level component = true) (nonNull : buffer ≠ 0)
    (length : logContents.length = logBufMaxSize) {fuel : Nat} (enough : 9 < fuel) :
    logEx fuel data temp other (Bytes.object buffer logContents) buffer (Bytes.object address printContents) address level
        component format arguments = (do
      let (_, logBuffer) <- clVsnprintf fuel temp (out ((Bytes.object buffer logContents).write buffer
        (pLevelModifier level).chars) (buffer + (pLevelModifier level).length) [] true)
        (buffer + (pLevelModifier level).length) (logRoom level) (some format) arguments
      let outputs <- logBufferInternal fuel other logBuffer buffer (Bytes.object address printContents) address
        (printFunction level)
      pure (some outputs)) := by
  simp only [LogData.enables, Bool.and_eq_true, Bool.not_eq_true', decide_eq_false_iff_not] at enabled
  obtain ⟨⟨on, high⟩, traced⟩ := enabled
  rw [logEx, on, if_neg (by decide), if_neg high, traced, if_neg Bool.false_ne_true]
  simp only [copied_modifier nonNull length level enough, Access.ok_bind]
  rfl

theorem behind_modifier (text : List UInt8) (terminated : Bool) :
    out ((Bytes.object buffer logContents).write buffer (pLevelModifier level).chars) (buffer + (pLevelModifier level).length)
        text terminated =
      out (Bytes.object buffer logContents) buffer ((pLevelModifier level).chars ++ text) terminated := out_front

theorem printFunction_plain (level : LogLevel) : ∃ color, printFunction level = vprintColor color := by
  cases level <;> exact ⟨_, rfl⟩

theorem logs_of_loggable (enabled : data.enables level component = true) (parses : Parses format.chars arguments pieces)
    (loggable : Loggable level pieces) : Logs data level component format arguments pieces := by
  intro buffer address logContents printContents temp other nonNull otherNonNull logLength printLength inside otherInside
  have short := modifier_short level
  have size : logRoom level = 512 - (pLevelModifier level).length := rfl
  obtain ⟨status, always⟩ := @printFrom_ended format _ (buffer + (pLevelModifier level).length) _
    (room_accessible logLength level) (by omega) (by omega) arguments pieces parses true (by omega) loggable.safe
  have room := passed_room loggable.safe (by omega)
  have whole := passed_whole (logRoom level) 0 pieces
  obtain ⟨behind, split⟩ := passed_append (logRoom level) 0 pieces
  have same : (pLevelModifier level).chars ++ outputs (passed (logRoom level) 0 pieces) = message level pieces := by
    have meant := expansions_append whole behind
    rw [← split, loggable.rest behind split, List.append_nil, expansions_eq (by omega) loggable.right] at meant
    rw [message, meant]
  obtain ⟨text, text_eq⟩ : ∃ text : CString, text.chars = message level pieces := by
    refine ⟨⟨message level pieces, ?_⟩, rfl⟩
    rw [← same]
    exact List.forall_mem_append.mpr ⟨(pLevelModifier level).nonZero, passed_nonZero parses format.nonZero _ _⟩
  have unformatted := loggable.unformatted
  have fitting := loggable.short
  rw [← text_eq] at same unformatted fitting ⊢
  obtain ⟨color, print⟩ := printFunction_plain level
  obtain ⟨large, printed⟩ := vprintColor_plain unformatted fitting otherNonNull printLength otherInside color
  obtain ⟨least, enough⟩ := enough_exists format pieces
  refine ⟨⟨⟨color, text, out (Bytes.object address printContents) address text.chars true⟩, text⟩,
    ⟨max (max large least) (text.length + 10), fun fuel more => ?_⟩, rfl, rfl⟩
  obtain ⟨fits, fewer⟩ := enough fuel (by omega)
  have held : (out (Bytes.object buffer logContents) buffer text.chars true).Holds buffer text.bytes := out_holds
  have read := @readString_eq _ fuel buffer text held (by omega)
  have first := always fuel fuel temp fits fewer inside
  rw [behind_modifier (outputs (passed (logRoom level) 0 pieces)), same] at first
  have call : clVsnprintf fuel temp (out ((Bytes.object buffer logContents).write buffer (pLevelModifier level).chars)
      (buffer + (pLevelModifier level).length) [] true) (buffer + (pLevelModifier level).length) (logRoom level) (some format)
      arguments = .ok (status, out (Bytes.object buffer logContents) buffer text.chars true) := by
    rw [clVsnprintf, if_neg (by omega), if_neg (by omega)]
    exact first
  simp only [logEx_eq enabled nonNull logLength (by omega : 9 < fuel), call, Access.ok_bind, logBufferInternal,
    bne_iff_ne.mpr (Ne.symm nonNull), Access.assert_true, read, print, printed fuel (by omega)]
  rfl

theorem loggable_of_reaches (safe : Safe (logRoom level) 0 0 true pieces) (reaches : Reaches (logRoom level) 0 pieces)
    (right : forall digits value, .printed digits value ∈ pieces -> Right digits value)
    (unformatted : 0x25 ∉ message level pieces) (short : (message level pieces).length < screenBufferSize) :
    Loggable level pieces := by
  refine ⟨safe, ?_, ?_, unformatted, short⟩
  · rwa [reaches.passed_eq]
  · intro behind split
    rw [reaches.passed_eq] at split
    rw [List.self_eq_append_right.mp split, expansions]

theorem readString_full {count fuel : Nat} {text : List UInt8} {terminated : Bool} {string : CString}
    (nonZero : forall c, c ∈ text -> c ≠ 0)
    (read : readString (out (Bytes.object 1 (full count)) 1 text terminated) fuel 1 = .ok string) :
    terminated = true ∧ string.chars = text := by
  have holds := readString_eq_ok read
  cases terminated with
  | false =>
    have ended := holds string.length 0 (by rw [CString.bytes_getElem? (Nat.le_refl _), CString.at_length])
    exact absurd ended (out_full nonZero)
  | true => exact ⟨rfl, holds_full nonZero holds⟩

theorem loggable_of_logs (enabled : data.enables level component = true) (parses : Parses format.chars arguments pieces)
    (indexed : format.length < 2 ^ 32) (logs : Logs data level component format arguments pieces) : Loggable level pieces := by
  have short := modifier_short level
  have size : logRoom level = 512 - (pLevelModifier level).length := rfl
  have logLength : (full logBufMaxSize).length = logBufMaxSize := List.length_replicate
  have printLength : (full screenBufferSize).length = screenBufferSize := List.length_replicate
  have inside : (Bytes.object 1 (full 65)).Accessible 1 65 := (Bytes.object_holds 1 (full 65)).accessible
  obtain ⟨outputs_, ⟨least, returns⟩, screen, serial⟩ := logs 1 1 (full logBufMaxSize) (full screenBufferSize) _ _ (by decide)
    (by decide) logLength printLength inside inside
  obtain ⟨large, enough⟩ := enough_exists format pieces
  obtain ⟨fits, fewer⟩ := enough (max (max least large) 10) (by omega)
  have run := returns (max (max least large) 10) (by omega)
  simp only [logEx_eq enabled (by decide : 1 ≠ 0) logLength (by omega : 9 < max (max least large) 10)] at run
  obtain ⟨⟨status, logBuffer⟩, first, run⟩ := Access.bind_eq_ok.mp run
  obtain ⟨shown, second, same⟩ := Access.bind_eq_ok.mp run
  cases same
  rw [clVsnprintf, if_neg (by omega), if_neg (by omega)] at first
  obtain ⟨_, _, second⟩ := Access.bind_eq_ok.mp second
  obtain ⟨text, read, second⟩ := Access.bind_eq_ok.mp second
  obtain ⟨screen_, print, second⟩ := Access.bind_eq_ok.mp second
  obtain ⟨again, reread, same⟩ := Access.bind_eq_ok.mp second
  rw [read] at reread
  cases reread
  cases same
  have modified := (pLevelModifier level).nonZero
  have putOut := passed_nonZero parses format.nonZero (logRoom level) 0
  have safe : Safe (logRoom level) 0 0 true pieces := by
    by_contra unsafe_
    have beyond : ((Bytes.object 1 (full logBufMaxSize)).write 1 (pLevelModifier level).chars)
        (1 + (pLevelModifier level).length + logRoom level) = none := by
      have there : 1 + (pLevelModifier level).length + logRoom level = 1 + 512 := by omega
      rw [there, Bytes.write_elsewhere (by change ¬ (_ ∧ _ < _ + (pLevelModifier level).length); omega)]
      exact Bytes.object_none (Nat.le_of_eq logLength)
    obtain ⟨nonZero, rfl⟩ := @printFrom_unended format _ (1 + (pLevelModifier level).length) (logRoom level)
      (room_accessible logLength level) beyond (by omega) (by omega) indexed format.chars arguments pieces parses 0 1 [] true rfl
      (by rw [List.length_nil]; omega) (fun c member => absurd member List.not_mem_nil) unsafe_ _ _ fits
      (by omega) _ inside status logBuffer first
    rw [behind_modifier] at read
    exact absurd (readString_full (List.forall_mem_append.mpr ⟨modified, nonZero⟩) read).1 Bool.false_ne_true
  have room := passed_room safe (by omega)
  obtain ⟨_, always⟩ := @printFrom_ended format _ (1 + (pLevelModifier level).length) _
    (room_accessible logLength level) (by omega) (by omega) arguments pieces parses true (by omega) safe
  have ended := always _ _ _ fits (by omega : pieces.length < max (max least large) 10) inside
  rw [ended] at first
  cases first
  rw [behind_modifier] at read
  obtain ⟨_, text_eq⟩ := readString_full (List.forall_mem_append.mpr ⟨modified, putOut⟩) read
  obtain ⟨behind, split⟩ := passed_append (logRoom level) 0 pieces
  have all : outputs (passed (logRoom level) 0 pieces) = expansions pieces :=
    List.append_cancel_left (text_eq.symm.trans serial)
  have complete : forall behind, pieces = passed (logRoom level) 0 pieces ++ behind ->
      (forall digits value, .printed digits value ∈ passed (logRoom level) 0 pieces -> Right digits value) ∧
        expansions behind = [] := by
    intro behind split
    refine right_of_front (passed_whole (logRoom level) 0 pieces) (by omega) ?_
    rw [← split, all]
  obtain ⟨color, function⟩ := printFunction_plain level
  rw [function, vprintColor] at print
  obtain ⟨⟨_, printBuffer⟩, copied, print⟩ := Access.bind_eq_ok.mp print
  obtain ⟨string, shown, same⟩ := Access.bind_eq_ok.mp print
  cases same
  rw [clVsnprintf_eq (by decide) (by decide)] at copied
  have length : text.length = (message level pieces).length := congrArg List.length serial
  have bounded : text.length < 2 ^ 32 := by
    have lengths := congrArg List.length text_eq
    rw [List.length_append] at lengths
    change text.length = (pLevelModifier level).length + _ at lengths
    omega
  obtain ⟨printed, nonZero, same⟩ := @printFrom_bare text (Bytes.object 1 (full screenBufferSize)) _ 1 screenBufferSize _
    (buffer_accessible printLength) (by decide) bounded text.chars _ 0 1 [] rfl (by decide)
    (fun c member => absurd member List.not_mem_nil) _ _ copied
  rcases same with rfl | ⟨rfl, fitting, unformatted⟩
  · exact absurd (readString_full nonZero shown).1 Bool.false_ne_true
  · have whole := (readString_full nonZero shown).2
    change string.chars = _ at screen
    rw [screen] at whole
    rw [serial, List.nil_append] at unformatted
    exact ⟨safe, (complete behind split).1, fun behind split => (complete behind split).2, unformatted whole.symm,
      by rwa [whole]⟩

end Calls

theorem logging_exact {data : LogData} {level : LogLevel} {component : Nat} {format : CString} {arguments : List Argument}
    {pieces : List Piece} (enabled : data.enables level component = true) (parses : Parses format.chars arguments pieces) :
    (Loggable level pieces -> Logs data level component format arguments pieces) ∧
      (format.length < 2 ^ 32 -> Logs data level component format arguments pieces -> Loggable level pieces) :=
  ⟨logs_of_loggable enabled parses, loggable_of_logs enabled parses⟩

theorem logging_exact_sample :
    Logs ⟨true, .info, 1⟩ .warning 1 (.of [0x25, 0x73]) [.string (.of [0x6F, 0x6B])]
        [.printed [] (.string false (.of [0x6F, 0x6B]))] ∧
      ¬ Logs ⟨true, .info, 1⟩ .warning 1 (.of [0x25, 0x73]) [.string (.of [0x35, 0x30, 0x25])]
        [.printed [] (.string false (.of [0x35, 0x30, 0x25]))] := by
  have parses : forall text : CString, Parses [0x25, 0x73] [.string text] [.printed [] (.string false text)] :=
    fun text => @Parses.printed [] [] 0x73 _ (.string text) _ [] [] (List.all_eq_true.mp rfl) rfl rfl (.done [])
  refine ⟨(logging_exact (by decide) (parses _)).1 (loggable_of_reaches (by decide) (by decide) (fun digits value member => ?_)
    (by decide) (by decide)), fun logs => ?_⟩
  · obtain ⟨rfl, rfl⟩ := Piece.printed.inj (List.mem_singleton.mp member)
    exact ⟨by decide, fun limited => absurd limited Bool.false_ne_true⟩
  · exact absurd ((logging_exact (by decide) (parses _)).2 (by decide) logs).unformatted (by decide)

-- The string "100%" reaches the serial line, but the screen loses its last character; with "%d" an argument is
-- read that was not passed.
theorem logging_reformats :
    (logEx 70 ⟨true, .info, 1⟩ (Bytes.object 1 (full 65)) (Bytes.object 1 (full 65)) (Bytes.object 1 (List.replicate 512 0)) 1
        (Bytes.object 1 (List.replicate 260 0)) 1 .info 1 (.of [0x25, 0x73])
        [.string (.of [0x31, 0x30, 0x30, 0x25])]).map (Option.map fun outputs =>
          (outputs.screen.text.chars, outputs.serial.chars)) =
        .ok (some ([0x31, 0x30, 0x30], [0x31, 0x30, 0x30, 0x25])) ∧
      (logEx 70 ⟨true, .info, 1⟩ (Bytes.object 1 (full 65)) (Bytes.object 1 (full 65)) (Bytes.object 1 (List.replicate 512 0)) 1
        (Bytes.object 1 (List.replicate 260 0)) 1 .info 1 (.of [0x25, 0x73])
        [.string (.of [0x25, 0x64])]).map (Option.map fun outputs =>
          (outputs.screen.text.chars, outputs.serial.chars)) = .error (.outOfBounds 0) ∧
      ¬ Logs ⟨true, .info, 1⟩ .info 1 (.of [0x25, 0x73]) [.string (.of [0x31, 0x30, 0x30, 0x25])]
        [.printed [] (.string false (.of [0x31, 0x30, 0x30, 0x25]))] := by
  refine ⟨by decide +kernel, by decide +kernel, fun logs => ?_⟩
  have parses : Parses [0x25, 0x73] [.string (.of [0x31, 0x30, 0x30, 0x25])]
      [.printed [] (.string false (.of [0x31, 0x30, 0x30, 0x25]))] :=
    @Parses.printed [] [] 0x73 _ (.string _) _ [] [] (List.all_eq_true.mp rfl) rfl rfl (.done [])
  exact absurd (loggable_of_logs (by decide) parses (by decide) logs).unformatted (by decide)

end Hal9000.Log
