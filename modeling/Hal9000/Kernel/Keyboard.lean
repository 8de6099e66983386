import Hal9000.Lib.Tracking
import Mathlib.Logic.Function.Basic

set_option autoImplicit false

namespace Hal9000.Kernel

open Lib (Tracks Meets Tracker)

abbrev KeyCode := Nat

namespace KeyCode

def ascii (c : Char) : KeyCode := c.toNat

def backspace : KeyCode := 0x08
def returnKey : KeyCode := 0x0d
def quote : KeyCode := 0x27
def backslash : KeyCode := 0x5c
def grave : KeyCode := 0x60
def escape : KeyCode := 0x1001
def up : KeyCode := 0x1100
def down : KeyCode := 0x1101
def left : KeyCode := 0x1102
def right : KeyCode := 0x1103
def f1 : KeyCode := 0x1201
def f2 : KeyCode := 0x1202
def f3 : KeyCode := 0x1203
def f4 : KeyCode := 0x1204
def f5 : KeyCode := 0x1205
def f6 : KeyCode := 0x1206
def f7 : KeyCode := 0x1207
def f8 : KeyCode := 0x1208
def f9 : KeyCode := 0x1209
def f10 : KeyCode := 0x120a
def f11 : KeyCode := 0x120b
def f12 : KeyCode := 0x120b
def kpNumlock : KeyCode := 0x300f
def kpEnter : KeyCode := 0x3010
def tab : KeyCode := 0x4000
def capslock : KeyCode := 0x4001
def lshift : KeyCode := 0x4002
def lctrl : KeyCode := 0x4003
def lalt : KeyCode := 0x4004
def rshift : KeyCode := 0x4006
def rctrl : KeyCode := 0x4007
def ralt : KeyCode := 0x4008
def delete : KeyCode := 0x400b
def home : KeyCode := 0x400c
def endKey : KeyCode := 0x400d
def scrolllock : KeyCode := 0x4010
def unknown : KeyCode := 0x4012

end KeyCode

-- Array index == make code
def kkybrdScancodeStd : List KeyCode := [
  .unknown, .escape, .ascii '1', .ascii '2', .ascii '3', .ascii '4', .ascii '5', .ascii '6',            -- 0x00
  .ascii '7', .ascii '8', .ascii '9', .ascii '0', .ascii '-', .ascii '=', .backspace, .tab,             -- 0x08
  .ascii 'q', .ascii 'w', .ascii 'e', .ascii 'r', .ascii 't', .ascii 'y', .ascii 'u', .ascii 'i',       -- 0x10
  .ascii 'o', .ascii 'p', .ascii '[', .ascii ']', .returnKey, .lctrl, .ascii 'a', .ascii 's',           -- 0x18
  .ascii 'd', .ascii 'f', .ascii 'g', .ascii 'h', .ascii 'j', .ascii 'k', .ascii 'l', .ascii ';',       -- 0x20
  .quote, .grave, .lshift, .backslash, .ascii 'z', .ascii 'x', .ascii 'c', .ascii 'v',                  -- 0x28
  .ascii 'b', .ascii 'n', .ascii 'm', .ascii ',', .ascii '.', .ascii '/', .rshift, .ascii '*',          -- 0x30
  .ralt, .ascii ' ', .capslock, .f1, .f2, .f3, .f4, .f5,                                                -- 0x38
  .f6, .f7, .f8, .f9, .f10, .kpNumlock, .scrolllock, .ascii '7',                                        -- 0x40
  .ascii '8', .ascii '9', .ascii '-', .ascii '4', .ascii '5', .ascii '6', .ascii '+', .ascii '1',       -- 0x48
  .ascii '2', .ascii '3', .ascii '0', .ascii '.', .unknown, .unknown, .unknown, .f11,                   -- 0x50
  .f12]                                                                                                 -- 0x58

def kkybrdScancodeExt : List KeyCode := [
  .unknown, .unknown, .unknown, .unknown, .unknown, .unknown, .unknown, .unknown,                       -- 0x00
  .unknown, .unknown, .unknown, .unknown, .unknown, .unknown, .unknown, .unknown,                       -- 0x08
  .unknown, .unknown, .unknown, .unknown, .unknown, .unknown, .unknown, .unknown,                       -- 0x10
  .unknown, .unknown, .unknown, .unknown, .kpEnter, .unknown, .unknown, .unknown,                       -- 0x18
  .unknown, .unknown, .unknown, .unknown, .unknown, .unknown, .unknown, .unknown,                       -- 0x20
  .unknown, .unknown, .unknown, .unknown, .unknown, .unknown, .unknown, .unknown,                       -- 0x28
  .unknown, .unknown, .unknown, .unknown, .unknown, .unknown, .unknown, .unknown,                       -- 0x30
  .unknown, .unknown, .unknown, .unknown, .unknown, .unknown, .unknown, .unknown,                       -- 0x38
  .unknown, .unknown, .unknown, .unknown, .unknown, .unknown, .unknown, .home,                          -- 0x40
  .up, .unknown, .unknown, .left, .unknown, .right, .unknown, .endKey,                                  -- 0x48
  .down, .unknown, .unknown, .delete, .unknown, .unknown, .unknown, .unknown,                           -- 0x50
  .unknown]                                                                                             -- 0x58

structure KeyboardData where
  keycode : KeyCode
  numLock : Bool
  scrollLock : Bool
  capsLock : Bool
  shift : Bool
  alt : Bool
  ctrl : Bool
  keyPressedEvt : Bool
  deriving DecidableEq, Repr

-- With the static of the interrupt routine, the bytes sent to the encoder and the number of calls of
-- KeyboardDiscardLastKey that are between their two statements.
structure Keyboard where
  data : KeyboardData
  extendedCode : Bool
  encoder : List UInt8
  discarding : Nat
  deriving DecidableEq, Repr

def keyboardInitialize : Keyboard where
  data :=
    { keycode := .unknown
      numLock := false
      scrollLock := false
      capsLock := false
      shift := false
      alt := false
      ctrl := false
      keyPressedEvt := false }
  extendedCode := false
  encoder := [0xED, 0x00]
  discarding := 0

def KeyboardData.leds (data : KeyboardData) : UInt8 :=
  data.scrollLock.toUInt8 ||| data.numLock.toUInt8 <<< 1 ||| data.capsLock.toUInt8 <<< 2

def keyboardUpdateLEDs (k : Keyboard) : Keyboard :=
  { k with encoder := k.encoder ++ [0xED, k.data.leds] }

def KeyboardData.keyBreak (key : KeyCode) (data : KeyboardData) : KeyboardData :=
  if key = .lctrl ∨ key = .rctrl then { data with ctrl := false }
  else if key = .lshift ∨ key = .rshift then { data with shift := false }
  else if key = .lalt ∨ key = .ralt then { data with alt := false }
  else data

def KeyboardData.keyMake (key : KeyCode) (data : KeyboardData) : KeyboardData × Bool :=
  let data := { data with keycode := key }
  if key = .lctrl ∨ key = .rctrl then ({ data with ctrl := true }, false)
  else if key = .lshift ∨ key = .rshift then ({ data with shift := true }, false)
  else if key = .lalt ∨ key = .ralt then ({ data with alt := true }, false)
  else if key = .capslock then ({ data with capsLock := !data.capsLock }, true)
  else if key = .kpNumlock then ({ data with numLock := !data.numLock }, true)
  else if key = .scrolllock then ({ data with scrollLock := !data.scrollLock }, true)
  else (data, false)

def scancodeTable (extendedCode : Bool) : List KeyCode :=
  if extendedCode then kkybrdScancodeExt else kkybrdScancodeStd

def keyboardIsr (code : UInt8) (k : Keyboard) : Option Keyboard :=
  if code = 0xE0 ∨ code = 0xE1 then
    some { k with extendedCode := true }
  else
    let keyBreak := code &&& 0x80 ≠ 0
    let code := if keyBreak then code - 0x80 else code
    match (scancodeTable k.extendedCode)[code.toNat]? with
    | none => none
    | some key =>
      let k :=
        if keyBreak then { k with data := k.data.keyBreak key }
        else
          let (data, updateLEDs) := k.data.keyMake key
          if updateLEDs then keyboardUpdateLEDs { k with data := data } else { k with data := data }
      some { k with data := { k.data with keyPressedEvt := true }, extendedCode := false }

def shiftedKeys : List (KeyCode × KeyCode) := [
  (.ascii '0', .ascii ')'), (.ascii '1', .ascii '!'), (.ascii '2', .ascii '@'), (.ascii '3', .ascii '!'),
  (.ascii '4', .ascii '#'), (.ascii '5', .ascii '%'), (.ascii '6', .ascii '^'), (.ascii '7', .ascii '&'),
  (.ascii '8', .ascii '*'), (.ascii '9', .ascii '('),
  (.ascii ',', .ascii '<'), (.ascii '.', .ascii '>'), (.ascii '/', .ascii '?'), (.ascii ';', .ascii ':'),
  (.quote, 0x22), (.ascii '[', 0x7b), (.ascii ']', 0x7d), (.grave, .ascii '~'), (.ascii '-', .ascii '_'),
  (.ascii '+', .ascii '='), (.backslash, .ascii '|')]

def keyboardKeyToAscii (data : KeyboardData) (keyCode : KeyCode) : UInt8 :=
  if keyCode = .unknown ∨ ¬ (0x1F < keyCode ∧ keyCode < 0x80) then 0
  else
    let result :=
      if (data.shift ^^ data.capsLock) ∧ .ascii 'a' ≤ keyCode ∧ keyCode ≤ .ascii 'z' then
        keyCode - (.ascii 'a' - .ascii 'A')
      else keyCode
    UInt8.ofNat (if data.shift then (shiftedKeys.lookup result).getD result else result)

-- KeyboardDiscardLastKey is two statements, and an interrupt can come between them.
inductive KeyboardEvent where
  | isr (code : UInt8)
  | clearSignal
  | forgetKey
  deriving DecidableEq, Repr

def Keyboard.step (k : Keyboard) : KeyboardEvent -> Option Keyboard
  | .isr code => keyboardIsr code k
  | .clearSignal => some { k with data := { k.data with keyPressedEvt := false }, discarding := k.discarding + 1 }
  | .forgetKey =>
    if k.discarding = 0 then some k
    else some { k with data := { k.data with keycode := .unknown }, discarding := k.discarding - 1 }

-- What the keyboard sends: two bytes follow 0xE1, and both belong to the Pause key.
inductive Sequence where
  | plain
  | extended
  | pause
  | pauseTail
  deriving DecidableEq, Repr

inductive Lead where
  | plain
  | extended
  | pause
  deriving DecidableEq, Repr

structure Key where
  lead : Lead
  code : Nat
  deriving DecidableEq, Repr

def Sequence.lead : Sequence -> Lead
  | .plain => .plain
  | .extended => .extended
  | .pause | .pauseTail => .pause

def Sequence.next : Sequence -> Sequence
  | .pause => .pauseTail
  | _ => .plain

def Key.keycode (key : Key) : Option KeyCode :=
  let entry :=
    match key.lead with
    | .plain => kkybrdScancodeStd[key.code]?
    | .extended => kkybrdScancodeExt[key.code]?
    | .pause => none
  entry.filter (fun keycode => keycode ≠ .unknown)

inductive Modifier where
  | shift
  | alt
  | ctrl
  deriving DecidableEq, Repr

inductive LockKey where
  | numLock
  | scrollLock
  | capsLock
  deriving DecidableEq, Repr

def Modifier.keys : Modifier -> List Key
  | .shift => [⟨.plain, 0x2a⟩, ⟨.plain, 0x36⟩]
  | .alt => [⟨.plain, 0x38⟩, ⟨.extended, 0x38⟩]
  | .ctrl => [⟨.plain, 0x1d⟩, ⟨.extended, 0x1d⟩]

def LockKey.key : LockKey -> Key
  | .numLock => ⟨.plain, 0x45⟩
  | .scrollLock => ⟨.plain, 0x46⟩
  | .capsLock => ⟨.plain, 0x3a⟩

def KeyboardData.modifier (data : KeyboardData) : Modifier -> Bool
  | .shift => data.shift
  | .alt => data.alt
  | .ctrl => data.ctrl

def KeyboardData.lockKey (data : KeyboardData) : LockKey -> Bool
  | .numLock => data.numLock
  | .scrollLock => data.scrollLock
  | .capsLock => data.capsLock

structure Keys where
  sequence : Sequence
  held : Key -> Bool
  makes : Key -> Nat
  last : Option Key
  discarding : Nat

def Keys.initial : Keys where
  sequence := .plain
  held _ := false
  makes _ := 0
  last := none
  discarding := 0

def isBreak (byte : UInt8) : Prop := 0x80 ≤ byte.toNat

instance (byte : UInt8) : Decidable (isBreak byte) := inferInstanceAs (Decidable (_ ≤ _))

def Keys.key (keys : Keys) (byte : UInt8) : Key := ⟨keys.sequence.lead, byte.toNat % 0x80⟩

def Keys.receive (keys : Keys) (byte : UInt8) : Keys :=
  if byte = 0xE0 then { keys with sequence := .extended }
  else if byte = 0xE1 then { keys with sequence := .pause }
  else
    let key := keys.key byte
    let keys := { keys with sequence := keys.sequence.next }
    if isBreak byte then { keys with held := Function.update keys.held key false }
    else
      { keys with
        held := Function.update keys.held key true
        makes := Function.update keys.makes key (keys.makes key + 1)
        last := some key }

def Keys.follow (keys : Keys) : KeyboardEvent -> Keys
  | .isr code => keys.receive code
  | .clearSignal => { keys with last := none, discarding := keys.discarding + 1 }
  | .forgetKey => { keys with discarding := keys.discarding - 1 }

structure Keyboard.Follows (k : Keyboard) (keys : Keys) : Prop where
  modifiers : forall modifier, k.data.modifier modifier = modifier.keys.any keys.held
  locks : forall lock, k.data.lockKey lock = decide (keys.makes lock.key % 2 = 1)
  pressed : k.data.keyPressedEvt = true -> ∃ key, keys.last = some key ∧ key.keycode = some k.data.keycode

def modifierOf (keycode : KeyCode) : Option Modifier :=
  if keycode = .lctrl ∨ keycode = .rctrl then some .ctrl
  else if keycode = .lshift ∨ keycode = .rshift then some .shift
  else if keycode = .lalt ∨ keycode = .ralt then some .alt
  else none

def Sequence.table (sequence : Sequence) : List KeyCode :=
  scancodeTable (sequence = .extended ∨ sequence = .pause)

-- A make code has to be that of a key of the tables. A break code has to be inside the table and to come while
-- a pressed key waits, and no other key of the modifier that it releases is held.
def Keys.Met (keys : Keys) : KeyboardEvent -> Prop
  | .isr code =>
    code = 0xE0 ∨ code = 0xE1 ∨
      if isBreak code then
        keys.last ≠ none ∧
          ∃ keycode, keys.sequence.table[code.toNat % 0x80]? = some keycode ∧
            forall modifier, modifierOf keycode = some modifier ->
              forall key, key ∈ modifier.keys -> key ≠ keys.key code -> keys.held key = false
      else (keys.key code).keycode ≠ none
  | .clearSignal => True
  | .forgetKey => keys.discarding = 0 ∨ keys.last = none

section Codes

theorem break_iff (byte : UInt8) : byte &&& 0x80 ≠ 0 ↔ isBreak byte := by
  have bits : forall n, n < 256 -> (n &&& 0x80 ≠ 0 ↔ 0x80 ≤ n) := by decide +kernel
  have here := bits byte.toNat byte.toNat_lt
  have value : (byte &&& 0x80).toNat = byte.toNat &&& 0x80 := UInt8.toNat_and ..
  rw [isBreak, ← here, ← value, ne_eq, ne_eq, ← UInt8.toNat_inj]
  rfl

theorem makeCode_toNat (byte : UInt8) :
    (if byte &&& 0x80 ≠ 0 then byte - 0x80 else byte).toNat = byte.toNat % 0x80 := by
  have bound := byte.toNat_lt
  by_cases broken : isBreak byte
  next =>
    have least : (0x80 : UInt8) ≤ byte := UInt8.le_iff_toNat_le.mpr broken
    rw [if_pos ((break_iff byte).mpr broken), UInt8.toNat_sub_of_le _ _ least]
    simp only [isBreak] at broken
    have mask : (0x80 : UInt8).toNat = 0x80 := rfl
    omega
  next =>
    rw [if_neg (mt (break_iff byte).mp broken)]
    simp only [isBreak] at broken
    omega

end Codes

section Switches

def lockKeyOf (keycode : KeyCode) : Option LockKey :=
  if keycode = .capslock then some .capsLock
  else if keycode = .kpNumlock then some .numLock
  else if keycode = .scrolllock then some .scrollLock
  else none

variable (keycode : KeyCode) (data : KeyboardData)

theorem modifier_signal (signalled : Bool) (modifier : Modifier) :
    ({ data with keyPressedEvt := signalled } : KeyboardData).modifier modifier = data.modifier modifier := by
  cases modifier <;> rfl

theorem lockKey_signal (signalled : Bool) (lock : LockKey) :
    ({ data with keyPressedEvt := signalled } : KeyboardData).lockKey lock = data.lockKey lock := by
  cases lock <;> rfl

theorem modifier_unknown (modifier : Modifier) :
    ({ data with keycode := .unknown } : KeyboardData).modifier modifier = data.modifier modifier := by
  cases modifier <;> rfl

theorem lockKey_unknown (lock : LockKey) :
    ({ data with keycode := .unknown } : KeyboardData).lockKey lock = data.lockKey lock := by
  cases lock <;> rfl

theorem keyBreak_modifier (modifier : Modifier) :
    (data.keyBreak keycode).modifier modifier =
      if modifierOf keycode = some modifier then false else data.modifier modifier := by
  simp only [KeyboardData.keyBreak, modifierOf]
  split_ifs <;> cases modifier <;> simp_all [KeyboardData.modifier]

theorem keyBreak_lockKey (lock : LockKey) : (data.keyBreak keycode).lockKey lock = data.lockKey lock := by
  simp only [KeyboardData.keyBreak]
  split_ifs <;> cases lock <;> rfl

theorem keyBreak_keycode : (data.keyBreak keycode).keycode = data.keycode := by
  simp only [KeyboardData.keyBreak]
  split_ifs <;> rfl

theorem keyMake_modifier (modifier : Modifier) :
    (data.keyMake keycode).1.modifier modifier =
      if modifierOf keycode = some modifier then true else data.modifier modifier := by
  simp only [KeyboardData.keyMake, modifierOf]
  split_ifs <;> cases modifier <;> simp_all [KeyboardData.modifier]

theorem modifier_or_lockKey (some_lock : (lockKeyOf keycode).isSome) : modifierOf keycode = none := by
  simp only [lockKeyOf] at some_lock
  split_ifs at some_lock with caps num scroll
  all_goals simp_all [modifierOf, KeyCode.capslock, KeyCode.kpNumlock, KeyCode.scrolllock, KeyCode.lctrl, KeyCode.rctrl,
    KeyCode.lshift, KeyCode.rshift, KeyCode.lalt, KeyCode.ralt]

theorem keyMake_lockKey (lock : LockKey) :
    (data.keyMake keycode).1.lockKey lock =
      if lockKeyOf keycode = some lock then !data.lockKey lock else data.lockKey lock := by
  have apart := modifier_or_lockKey keycode
  simp only [modifierOf, lockKeyOf] at apart
  simp only [KeyboardData.keyMake, lockKeyOf]
  split_ifs at apart ⊢ <;> cases lock <;> simp_all [KeyboardData.lockKey]

theorem keyMake_keycode : (data.keyMake keycode).1.keycode = keycode := by
  simp only [KeyboardData.keyMake]
  split_ifs <;> rfl

end Switches

section Tables

theorem key_named {key : Key} {keycode : KeyCode} (named : key.keycode = some keycode) :
    keycode ≠ .unknown ∧
      (key.lead = .plain ∧ kkybrdScancodeStd[key.code]? = some keycode ∨
        key.lead = .extended ∧ kkybrdScancodeExt[key.code]? = some keycode) := by
  obtain ⟨lead, code⟩ := key
  simp only [Key.keycode, Option.filter_eq_some_iff, decide_eq_true_eq] at named
  refine ⟨named.2, ?_⟩
  cases lead with
  | plain => exact .inl ⟨rfl, named.1⟩
  | extended => exact .inr ⟨rfl, named.1⟩
  | pause => exact absurd named.1 (by simp)

theorem modifier_mem (modifier : Modifier) : modifier ∈ [Modifier.shift, .alt, .ctrl] := by
  cases modifier <;> simp

theorem lockKey_mem (lock : LockKey) : lock ∈ [LockKey.numLock, .scrollLock, .capsLock] := by
  cases lock <;> simp

theorem std_modifiers : forall code, code < 0x59 -> forall keycode, keycode ∈ kkybrdScancodeStd[code]? ->
    forall modifier, modifier ∈ [Modifier.shift, .alt, .ctrl] ->
      (modifierOf keycode = some modifier ↔ ⟨.plain, code⟩ ∈ modifier.keys) := by
  decide +kernel

theorem std_lockKeys : forall code, code < 0x59 -> forall keycode, keycode ∈ kkybrdScancodeStd[code]? ->
    forall lock, lock ∈ [LockKey.numLock, .scrollLock, .capsLock] ->
      (lockKeyOf keycode = some lock ↔ ⟨.plain, code⟩ = lock.key) := by
  decide +kernel

theorem ext_entries : forall code, code < 0x59 -> forall keycode, keycode ∈ kkybrdScancodeExt[code]? ->
    modifierOf keycode = none ∧ lockKeyOf keycode = none ∧
      (keycode = .unknown ∨ forall modifier, modifier ∈ [Modifier.shift, .alt, .ctrl] ->
        ⟨.extended, code⟩ ∉ modifier.keys) := by
  decide +kernel

theorem keycode_modifier {key : Key} {keycode : KeyCode} (named : key.keycode = some keycode)
    (modifier : Modifier) : modifierOf keycode = some modifier ↔ key ∈ modifier.keys := by
  obtain ⟨known, entry⟩ := key_named named
  obtain ⟨lead, code⟩ := key
  rcases entry with ⟨rfl, entry⟩ | ⟨rfl, entry⟩
  next =>
    have inside : code < 0x59 := (List.getElem?_eq_some_iff.mp entry).1
    exact std_modifiers code inside keycode entry modifier (modifier_mem modifier)
  next =>
    have inside : code < 0x59 := (List.getElem?_eq_some_iff.mp entry).1
    obtain ⟨none, _, unnamed⟩ := ext_entries code inside keycode entry
    refine iff_of_false (by simp [none]) ?_
    exact unnamed.resolve_left known modifier (modifier_mem modifier)

theorem keycode_lockKey {key : Key} {keycode : KeyCode} (named : key.keycode = some keycode) (lock : LockKey) :
    lockKeyOf keycode = some lock ↔ key = lock.key := by
  obtain ⟨known, entry⟩ := key_named named
  obtain ⟨lead, code⟩ := key
  rcases entry with ⟨rfl, entry⟩ | ⟨rfl, entry⟩
  next =>
    have inside : code < 0x59 := (List.getElem?_eq_some_iff.mp entry).1
    exact std_lockKeys code inside keycode entry lock (lockKey_mem lock)
  next =>
    have inside : code < 0x59 := (List.getElem?_eq_some_iff.mp entry).1
    obtain ⟨_, none, _⟩ := ext_entries code inside keycode entry
    refine iff_of_false (by simp [none]) ?_
    cases lock <;> simp [LockKey.key]

end Tables

section Isr

variable {code : UInt8} {k : Keyboard}

theorem keyboardIsr_lead (lead : code = 0xE0 ∨ code = 0xE1) :
    keyboardIsr code k = some { k with extendedCode := true } := by
  rw [keyboardIsr, if_pos lead]

theorem keyboardIsr_outside (other : ¬ (code = 0xE0 ∨ code = 0xE1))
    (outside : (scancodeTable k.extendedCode)[code.toNat % 0x80]? = none) : keyboardIsr code k = none := by
  simp only [keyboardIsr, if_neg other, makeCode_toNat, outside]

theorem keyboardIsr_inside (other : ¬ (code = 0xE0 ∨ code = 0xE1)) {keycode : KeyCode}
    (entry : (scancodeTable k.extendedCode)[code.toNat % 0x80]? = some keycode) :
    ∃ after, keyboardIsr code k = some after ∧ after.extendedCode = false ∧ after.discarding = k.discarding ∧
      after.data = { (if isBreak code then k.data.keyBreak keycode else (k.data.keyMake keycode).1) with
        keyPressedEvt := true } := by
  simp only [keyboardIsr, if_neg other, makeCode_toNat, entry]
  refine ⟨_, rfl, rfl, ?_⟩
  by_cases broken : isBreak code
  next =>
    simp only [if_pos ((break_iff code).mpr broken), if_pos broken]
    exact ⟨trivial, trivial⟩
  next =>
    simp only [if_neg (mt (break_iff code).mp broken), if_neg broken]
    split_ifs
    all_goals exact ⟨rfl, rfl⟩

end Isr

section Leds

theorem keyBreak_leds (keycode : KeyCode) (data : KeyboardData) : (data.keyBreak keycode).leds = data.leds := by
  simp only [KeyboardData.keyBreak]
  split_ifs <;> rfl

theorem keyMake_leds (keycode : KeyCode) (data : KeyboardData) (still : (data.keyMake keycode).2 = false) :
    (data.keyMake keycode).1.leds = data.leds := by
  simp only [KeyboardData.keyMake] at still ⊢
  split_ifs at still ⊢
  all_goals rfl

def Keyboard.Shown (k : Keyboard) : Prop := k.encoder.getLast? = some k.data.leds

theorem keyboardIsr_shown {code : UInt8} {k after : Keyboard} (shown : k.Shown)
    (taken : keyboardIsr code k = some after) : after.Shown := by
  simp only [keyboardIsr] at taken
  split_ifs at taken with lead broken
  next => exact Option.some.inj taken ▸ shown
  next =>
    split at taken
    next => cases taken
    next keycode _ =>
      rw [← Option.some.inj taken]
      exact shown.trans (congrArg some (keyBreak_leds keycode k.data).symm)
  next =>
    split at taken
    next => cases taken
    next keycode _ =>
      rw [← Option.some.inj taken]
      by_cases update : (k.data.keyMake keycode).2 = true
      next =>
        simp only [update, if_true, keyboardUpdateLEDs, Keyboard.Shown, List.getLast?_append]
        rfl
      next =>
        have still := keyMake_leds keycode k.data (Bool.eq_false_iff.mpr update)
        simp only [update]
        exact shown.trans (congrArg some still.symm)

theorem keyboard_leds (events : List KeyboardEvent) {after : Keyboard}
    (ran : events.foldlM Keyboard.step keyboardInitialize = some after) : after.Shown := by
  have initially : keyboardInitialize.Shown := rfl
  generalize keyboardInitialize = k at ran initially
  induction events generalizing k with
  | nil => exact Option.some.inj ran ▸ initially
  | cons event events ih =>
    obtain ⟨middle, taken, rest⟩ := Option.bind_eq_some_iff.mp ran
    refine ih middle rest ?_
    cases event with
    | isr code => exact keyboardIsr_shown initially taken
    | clearSignal => exact Option.some.inj taken ▸ initially
    | forgetKey =>
      simp only [Keyboard.step] at taken
      split_ifs at taken
      all_goals exact Option.some.inj taken ▸ initially

end Leds

structure Keyboard.Holds (k : Keyboard) (keys : Keys) : Prop extends k.Follows keys where
  extendedCode : k.extendedCode = decide (keys.sequence = .extended ∨ keys.sequence = .pause)
  signalled : k.data.keyPressedEvt = keys.last.isSome
  discarding : k.discarding = keys.discarding
  named : forall key, keys.held key = true -> key.keycode ≠ none

section Held

variable (held : Key -> Bool) (list : List Key) (key : Key)

theorem any_update_true :
    list.any (Function.update held key true) = if key ∈ list then true else list.any held := by
  split_ifs with inside
  next => exact List.any_eq_true.mpr ⟨key, inside, Function.update_self ..⟩
  next =>
    rw [Bool.eq_iff_iff, List.any_eq_true, List.any_eq_true]
    refine exists_congr fun other => and_congr_right fun mem => ?_
    rw [Function.update_of_ne (ne_of_mem_of_not_mem mem inside)]

theorem any_update_false :
    list.any (Function.update held key false) = true ↔ ∃ other, other ∈ list ∧ other ≠ key ∧ held other = true := by
  rw [List.any_eq_true]
  refine exists_congr fun other => and_congr_right fun _ => ?_
  by_cases same : other = key <;> simp [same, Function.update_of_ne]

theorem any_update_idle (idle : key ∈ list -> held key = false) :
    list.any (Function.update held key false) = list.any held := by
  rw [Bool.eq_iff_iff, any_update_false, List.any_eq_true]
  refine exists_congr fun other => and_congr_right fun mem => ?_
  constructor
  next => exact And.right
  next =>
    intro down
    refine ⟨?_, down⟩
    rintro rfl
    rw [idle mem] at down
    cases down

end Held

namespace Keyboard

variable {k after : Keyboard} {keys : Keys} {code : UInt8}

theorem Holds.table (held : k.Holds keys) : scancodeTable k.extendedCode = keys.sequence.table := by
  rw [held.extendedCode, Sequence.table]

theorem receive_break (other : ¬ (code = 0xE0 ∨ code = 0xE1)) (broken : isBreak code) :
    keys.receive code =
      { keys with
        sequence := keys.sequence.next
        held := Function.update keys.held (keys.key code) false } := by
  rw [Keys.receive, if_neg (fun lead => other (.inl lead)), if_neg (fun lead => other (.inr lead)), if_pos broken]

theorem receive_make (other : ¬ (code = 0xE0 ∨ code = 0xE1)) (made : ¬ isBreak code) :
    keys.receive code =
      { keys with
        sequence := keys.sequence.next
        held := Function.update keys.held (keys.key code) true
        makes := Function.update keys.makes (keys.key code) (keys.makes (keys.key code) + 1)
        last := some (keys.key code) } := by
  rw [Keys.receive, if_neg (fun lead => other (.inl lead)), if_neg (fun lead => other (.inr lead)), if_neg made]

theorem next_plain (sequence : Sequence) :
    decide (sequence.next = .extended ∨ sequence.next = .pause) = false := by
  cases sequence <;> rfl

theorem named_entry {keycode : KeyCode} (named : (keys.key code).keycode = some keycode) :
    keys.sequence.table[code.toNat % 0x80]? = some keycode := by
  have entry := (key_named named).2
  simp only [Keys.key] at entry
  cases sequence : keys.sequence <;> simp_all [Sequence.lead, Sequence.table, scancodeTable]

theorem holds_lead (held : k.Holds keys) (lead : code = 0xE0 ∨ code = 0xE1) :
    Holds { k with extendedCode := true } (keys.receive code) := by
  rcases lead with rfl | rfl
  all_goals
    refine ⟨⟨held.modifiers, held.locks, held.pressed⟩, ?_, held.signalled, held.discarding, held.named⟩
    rfl

theorem parity_succ (count : Nat) : (!decide (count % 2 = 1)) = decide ((count + 1) % 2 = 1) := by
  rw [Bool.eq_iff_iff]
  simp only [Bool.not_eq_true', decide_eq_false_iff_not, decide_eq_true_eq]
  omega

theorem holds_make (held : k.Holds keys) (other : ¬ (code = 0xE0 ∨ code = 0xE1)) (made : ¬ isBreak code)
    (named : (keys.key code).keycode ≠ none) :
    ∃ after, keyboardIsr code k = some after ∧ after.Holds (keys.receive code) := by
  obtain ⟨keycode, named⟩ := Option.ne_none_iff_exists'.mp named
  have entry : (scancodeTable k.extendedCode)[code.toNat % 0x80]? = some keycode := by
    rw [held.table]
    exact named_entry named
  obtain ⟨after, result, extendedCode, discarding, data⟩ := keyboardIsr_inside other entry
  rw [if_neg made] at data
  refine ⟨after, result, ?_⟩
  rw [receive_make other made]
  refine ⟨⟨?_, ?_, ?_⟩, ?_, ?_, ?_, ?_⟩
  next =>
    intro modifier
    rw [data, modifier_signal, keyMake_modifier, held.modifiers, any_update_true]
    simp only [keycode_modifier named modifier]
  next =>
    intro lock
    rw [data, lockKey_signal, keyMake_lockKey, held.locks]
    by_cases here : keys.key code = lock.key
    next =>
      simp only [(keycode_lockKey named lock).mpr here, if_true, here, Function.update_self, parity_succ]
    next =>
      simp only [mt (keycode_lockKey named lock).mp here, if_false, Function.update_of_ne (Ne.symm here)]
  next =>
    intro _
    refine ⟨_, rfl, ?_⟩
    rw [named, data]
    exact congrArg some (keyMake_keycode keycode k.data).symm
  next => rw [extendedCode, next_plain]
  next => rw [data]; rfl
  next => rw [discarding]; exact held.discarding
  next =>
    intro key down
    by_cases same : key = keys.key code
    next =>
      rw [same, named]
      simp
    next =>
      simp only [Function.update_of_ne same] at down
      exact held.named key down

theorem holds_break (held : k.Holds keys) (other : ¬ (code = 0xE0 ∨ code = 0xE1)) (broken : isBreak code)
    (waits : keys.last ≠ none) {keycode : KeyCode}
    (entry : keys.sequence.table[code.toNat % 0x80]? = some keycode)
    (alone : forall modifier, modifierOf keycode = some modifier ->
      forall key, key ∈ modifier.keys -> key ≠ keys.key code -> keys.held key = false) :
    ∃ after, keyboardIsr code k = some after ∧ after.Holds (keys.receive code) := by
  rw [← held.table] at entry
  obtain ⟨after, result, extendedCode, discarding, data⟩ := keyboardIsr_inside other entry
  rw [if_pos broken] at data
  refine ⟨after, result, ?_⟩
  rw [receive_break other broken]
  have signalled : k.data.keyPressedEvt = true := by
    rw [held.signalled, Option.isSome_iff_ne_none]
    exact waits
  refine ⟨⟨?_, ?_, ?_⟩, ?_, ?_, ?_, ?_⟩
  next =>
    intro modifier
    rw [data, modifier_signal, keyBreak_modifier]
    split_ifs with released
    next =>
      symm
      rw [Bool.eq_false_iff, ne_eq, any_update_false]
      rintro ⟨key, mem, differs, down⟩
      rw [alone modifier released key mem differs] at down
      cases down
    next =>
      rw [any_update_idle, held.modifiers]
      intro mem
      by_contra down
      obtain ⟨keycode', named⟩ := Option.ne_none_iff_exists'.mp (held.named _ (by simpa using down))
      rw [held.table, named_entry named] at entry
      have found : keycode' = keycode := Option.some.inj entry
      subst found
      exact released ((keycode_modifier named modifier).mpr mem)
  next =>
    intro lock
    rw [data, lockKey_signal, keyBreak_lockKey, held.locks]
  next =>
    intro _
    obtain ⟨key, last, named⟩ := held.pressed signalled
    refine ⟨key, last, ?_⟩
    rw [named, data]
    exact congrArg some (keyBreak_keycode keycode k.data).symm
  next => rw [extendedCode, next_plain]
  next =>
    rw [data, ← held.signalled]
    exact signalled.symm
  next => rw [discarding]; exact held.discarding
  next =>
    intro key down
    by_cases same : key = keys.key code
    next => simp [same] at down
    next =>
      simp only [Function.update_of_ne same] at down
      exact held.named key down

theorem lost_make (other : ¬ (code = 0xE0 ∨ code = 0xE1)) (made : ¬ isBreak code)
    (unnamed : (keys.key code).keycode = none) (taken : keyboardIsr code k = some after) :
    ¬ after.Follows (keys.receive code) := by
  intro follows
  rw [receive_make other made] at follows
  cases entry : (scancodeTable k.extendedCode)[code.toNat % 0x80]? with
  | none =>
    rw [keyboardIsr_outside other entry] at taken
    cases taken
  | some keycode =>
    obtain ⟨after', result, _, _, data⟩ := keyboardIsr_inside other entry
    obtain rfl : after' = after := Option.some.inj (result.symm.trans taken)
    obtain ⟨key, last, named⟩ := follows.pressed (by rw [data])
    rw [← Option.some.inj last, unnamed] at named
    cases named

theorem lost_break (held : k.Holds keys) (other : ¬ (code = 0xE0 ∨ code = 0xE1)) (broken : isBreak code)
    (taken : keyboardIsr code k = some after) (follows : after.Follows (keys.receive code)) :
    keys.last ≠ none ∧
      ∃ keycode, keys.sequence.table[code.toNat % 0x80]? = some keycode ∧
        forall modifier, modifierOf keycode = some modifier ->
          forall key, key ∈ modifier.keys -> key ≠ keys.key code -> keys.held key = false := by
  rw [receive_break other broken] at follows
  rw [← held.table]
  cases entry : (scancodeTable k.extendedCode)[code.toNat % 0x80]? with
  | none =>
    rw [keyboardIsr_outside other entry] at taken
    cases taken
  | some keycode =>
    obtain ⟨after', result, _, _, data⟩ := keyboardIsr_inside other entry
    obtain rfl : after' = after := Option.some.inj (result.symm.trans taken)
    rw [if_pos broken] at data
    constructor
    next =>
      obtain ⟨key, last, _⟩ := follows.pressed (by rw [data])
      simp only at last
      simp [last]
    next =>
      refine ⟨keycode, rfl, fun modifier released key mem differs => ?_⟩
      have flag := follows.modifiers modifier
      rw [data, modifier_signal, keyBreak_modifier, if_pos released] at flag
      by_contra down
      have pressed := (any_update_false keys.held modifier.keys (keys.key code)).mpr
        ⟨key, mem, differs, by simpa using down⟩
      rw [← flag] at pressed
      cases pressed

theorem tracker : Tracker step Keys.follow Follows Keys.Met Holds where
  agreed _ _ held := held.toFollows
  kept k keys event held met := by
    cases event with
    | isr code =>
      by_cases lead : code = 0xE0 ∨ code = 0xE1
      next => exact ⟨_, keyboardIsr_lead lead, holds_lead held lead⟩
      next =>
        have served := met.resolve_left (fun here => lead (.inl here))
        have served := served.resolve_left (fun here => lead (.inr here))
        by_cases broken : isBreak code
        next =>
          rw [if_pos broken] at served
          obtain ⟨waits, keycode, entry, alone⟩ := served
          exact holds_break held lead broken waits entry alone
        next =>
          rw [if_neg broken] at served
          exact holds_make held lead broken served
    | clearSignal =>
      refine ⟨_, rfl, ⟨?_, ?_, ?_⟩, held.extendedCode, rfl, congrArg (· + 1) held.discarding, held.named⟩
      next => intro modifier; exact (modifier_signal k.data false modifier).trans (held.modifiers modifier)
      next => intro lock; exact (lockKey_signal k.data false lock).trans (held.locks lock)
      next => intro signalled; cases signalled
    | forgetKey =>
      by_cases idle : k.discarding = 0
      next =>
        have same : keys.discarding - 1 = k.discarding := by
          rw [← held.discarding, idle]
        refine ⟨k, if_pos idle, ⟨held.modifiers, held.locks, held.pressed⟩, held.extendedCode, held.signalled, same.symm,
          held.named⟩
      next =>
        have last := met.resolve_left (by rwa [← held.discarding])
        have quiet : k.data.keyPressedEvt = false := by rw [held.signalled, last]; rfl
        refine ⟨_, if_neg idle, ⟨?_, ?_, ?_⟩, held.extendedCode, held.signalled, congrArg (· - 1) held.discarding,
          held.named⟩
        next => intro modifier; exact (modifier_unknown k.data modifier).trans (held.modifiers modifier)
        next => intro lock; exact (lockKey_unknown k.data lock).trans (held.locks lock)
        next => intro signalled; rw [quiet] at signalled; cases signalled
  lost k keys event after held failed taken follows := by
    cases event with
    | isr code =>
      refine failed ?_
      by_cases lead : code = 0xE0 ∨ code = 0xE1
      next => exact lead.elim .inl (fun here => .inr (.inl here))
      next =>
        refine .inr (.inr ?_)
        by_cases broken : isBreak code
        next =>
          rw [if_pos broken]
          exact lost_break held lead broken taken follows
        next =>
          rw [if_neg broken]
          intro unnamed
          exact lost_make lead broken unnamed taken follows
    | clearSignal => exact failed trivial
    | forgetKey =>
      simp only [Keys.Met, not_or, ← held.discarding] at failed
      simp only [step, if_neg failed.1, Option.some.injEq] at taken
      subst taken
      have signalled : k.data.keyPressedEvt = true := by
        rw [held.signalled, Option.isSome_iff_ne_none]
        exact failed.2
      obtain ⟨key, _, named⟩ := follows.pressed signalled
      exact (key_named named).1 rfl

theorem holds_initial : Holds keyboardInitialize Keys.initial := by
  refine ⟨⟨?_, ?_, ?_⟩, rfl, rfl, rfl, ?_⟩
  next => intro modifier; cases modifier <;> rfl
  next => intro lock; cases lock <;> rfl
  next => intro signalled; cases signalled
  next => intro key down; cases down

end Keyboard

theorem keyboard_follows_iff (events : List KeyboardEvent) :
    Tracks Keyboard.step Keys.follow Keyboard.Follows keyboardInitialize Keys.initial events ↔
      Meets Keys.follow Keys.Met Keys.initial events :=
  Keyboard.tracker.tracks_iff Keyboard.holds_initial events

-- The 'a' key is pressed, the key is taken and discarded, and then it is released.
theorem keyboard_signals_release :
    ¬ forall events, Tracks Keyboard.step Keys.follow Keyboard.Follows keyboardInitialize Keys.initial events := by
  intro claimed
  obtain ⟨after, ran, follows⟩ := claimed [.isr 0x1E, .clearSignal, .forgetKey, .isr 0x9E] _ List.prefix_rfl
  have result : ([.isr 0x1E, .clearSignal, .forgetKey, .isr 0x9E] : List KeyboardEvent).foldlM Keyboard.step
      keyboardInitialize = some { keyboardInitialize with data.keyPressedEvt := true } := by decide
  obtain rfl := Option.some.inj (result.symm.trans ran)
  obtain ⟨key, last, _⟩ := follows.pressed rfl
  cases last

end Hal9000.Kernel
