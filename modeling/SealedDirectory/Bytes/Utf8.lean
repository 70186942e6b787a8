import SealedDirectory.Bytes.Basic

/-!
# Malformed UTF-8

A byte string that is not the UTF-8 form of a text has a first place where
reading must stop.  Either the bytes there can begin no character, and then the
longest start of a character among them is counted, or the string ends inside a
character that could still have been completed.
-/

namespace SealedDirectory.Utf8

inductive Fault where
  /-- No character begins with the counted bytes at this place. -/
  | invalid (place length : Nat)
  /-- The string ends inside a character that begins at this place. -/
  | incomplete (place : Nat)
  deriving DecidableEq, Repr

def Fault.message : Fault → String
  | .invalid place length =>
      s!"invalid utf-8 sequence of {length} bytes from index {place}"
  | .incomplete place => s!"incomplete utf-8 byte sequence from index {place}"

def isContinuation (byte : UInt8) : Bool :=
  0x80 ≤ byte && byte ≤ 0xbf

/-- The second bytes that may follow a leading byte; none follows a byte that leads nothing. -/
def mayFollow (lead second : UInt8) : Bool :=
  if 0xc2 ≤ lead && lead ≤ 0xdf then isContinuation second
  else if lead == 0xe0 then 0xa0 ≤ second && second ≤ 0xbf
  else if lead == 0xed then 0x80 ≤ second && second ≤ 0x9f
  else if 0xe1 ≤ lead && lead ≤ 0xef then isContinuation second
  else if lead == 0xf0 then 0x90 ≤ second && second ≤ 0xbf
  else if 0xf1 ≤ lead && lead ≤ 0xf3 then isContinuation second
  else if lead == 0xf4 then 0x80 ≤ second && second ≤ 0x8f
  else false

/-- The number of bytes of a character by its leading byte, zero if it leads none. -/
def width (lead : UInt8) : Nat :=
  if lead ≤ 0x7f then 1
  else if 0xc2 ≤ lead && lead ≤ 0xdf then 2
  else if 0xe0 ≤ lead && lead ≤ 0xef then 3
  else if 0xf0 ≤ lead && lead ≤ 0xf4 then 4
  else 0

/--
Checks the continuations of one character: `seen` bytes of it are accepted and
`wanted` are still to come.
-/
def checkTail (place seen : Nat) : (wanted : Nat) → Bytes → Except Fault Unit
  | 0, _ => .ok ()
  | _ + 1, [] => .error (.incomplete place)
  | wanted + 1, byte :: rest =>
      if isContinuation byte then checkTail place (seen + 1) wanted rest
      else .error (.invalid place seen)

/-- Checks the character at the head of the string. -/
def checkHead (place : Nat) (lead : UInt8) (rest : Bytes) : Except Fault Unit :=
  match width lead with
  | 0 => .error (.invalid place 1)
  | 1 => .ok ()
  | count =>
      match rest with
      | [] => .error (.incomplete place)
      | second :: more =>
          if mayFollow lead second then checkTail place 2 (count - 2) more
          else .error (.invalid place 1)

/-- The first fault of a byte string, reading from the given place on. -/
def faultFrom (place : Nat) (bytes : Bytes) : Option Fault :=
  match bytes with
  | [] => none
  | lead :: rest =>
      match checkHead place lead rest with
      | .error fault => some fault
      | .ok () => faultFrom (place + width lead) (rest.drop (width lead - 1))
termination_by bytes.length
decreasing_by simp only [List.length_drop, List.length_cons]; omega

/-- The text of a byte string, or the place where reading it stops. -/
def decode (bytes : Bytes) : Except Fault String :=
  match Bytes.toText? bytes with
  | some text => .ok text
  | none => .error ((faultFrom 0 bytes).getD (.incomplete bytes.length))

end SealedDirectory.Utf8
