import SealedDirectory.Calendar.Date
import SealedDirectory.Json.Codec
import SealedDirectory.Text.Blank

/-!
# Moments in universal time

A moment is a second with a fraction in billionths.  A leap second is the second
before it with a fraction of one or more.  Moments are written in the internet date
and time format with the mark `Z` and with no, three, six or nine places of the
fraction, as few as are enough.

Reading is more lenient: blanks between the parts, a blank in place of the `T`, an
offset in place of the `Z`, and fractions of any length are accepted.
-/

namespace SealedDirectory.Calendar

structure Moment where
  seconds : Int
  /-- The billionths of a second; a leap second has one second more. -/
  nanos : Nat
  deriving DecidableEq, Repr

/-- The places of a fraction, with the point, or nothing for a fraction of zero. -/
def fractionText (nanos : Nat) : String :=
  if nanos = 0 then ""
  else if nanos % 1000000 = 0 then "." ++ padded 3 (nanos / 1000000)
  else if nanos % 1000 = 0 then "." ++ padded 6 (nanos / 1000)
  else "." ++ padded 9 nanos

namespace Moment

/-- Date, time of day and fraction with a mark between date and time. -/
def textWith (between : String) (moment : Moment) : String :=
  let days := moment.seconds.fdiv dayLength
  let second := (moment.seconds - days * dayLength).toNat
  let shown := second % 60 + moment.nanos / 1000000000
  (Date.ofDays days).text ++ between ++ padded 2 (second / 3600) ++ ":" ++
    padded 2 (second / 60 % 60) ++ ":" ++ padded 2 shown ++
    fractionText (moment.nanos % 1000000000)

def text (moment : Moment) : String :=
  moment.textWith "T" ++ "Z"

def display (moment : Moment) : String :=
  moment.textWith " " ++ " UTC"

inductive Fault where
  | outOfRange
  | foreign
  | short
  | trailing
  /-- In universal time the moment lies outside the calendar. -/
  | impossible
  deriving DecidableEq, Repr

def Fault.message : Fault → String
  | .outOfRange => "input is out of range"
  | .foreign => "input contains invalid characters"
  | .short => "premature end of input"
  | .trailing => "trailing input"
  | .impossible => "no possible date and time matching input"

def skipBlanks (chars : List Char) : List Char :=
  chars.dropWhile Text.isBlank

def valueOf (digits : List Char) : Nat :=
  digits.foldl (fun total digit => total * 10 + (digit.toNat - 48)) 0

/-- Reads a number of at most so many digits, of which there must be one. -/
def readNumber (most : Nat) (chars : List Char) : Except Fault (Nat × List Char) :=
  match chars with
  | [] => .error .short
  | char :: _ =>
      if char.isDigit then
        let digits := (chars.take most).takeWhile Char.isDigit
        if 9223372036854775807 < valueOf digits then .error .outOfRange
        else .ok (valueOf digits, chars.drop digits.length)
      else .error .foreign

/-- Reads a number of two digits within a range. -/
def readPart (least greatest : Nat) (chars : List Char) : Except Fault (Nat × List Char) := do
  let (value, rest) ← readNumber 2 (skipBlanks chars)
  if least ≤ value ∧ value ≤ greatest then .ok (value, rest) else .error .outOfRange

/-- Reads a year, which may have a sign and then any number of digits. -/
def readYear (chars : List Char) : Except Fault (Int × List Char) := do
  let chars := skipBlanks chars
  let signed (negative : Bool) (rest : List Char) : Except Fault (Int × List Char) := do
    let (value, rest) ← readNumber rest.length rest
    if (if negative then 2147483648 else 2147483647) < value then .error .outOfRange
    else .ok (if negative then -(value : Int) else value, rest)
  match chars with
  | '-' :: rest => signed true rest
  | '+' :: rest => signed false rest
  | _ => do
      let (value, rest) ← readNumber 4 chars
      .ok ((value : Int), rest)

/-- Reads a character that must stand there, after blanks. -/
def readMark (mark : Char) (chars : List Char) : Except Fault (List Char) :=
  match skipBlanks chars with
  | [] => .error .short
  | char :: rest => if char = mark then .ok rest else .error .foreign

/-- Reads a fraction, if there is one, in billionths. -/
def readFraction (chars : List Char) : Except Fault (Nat × List Char) :=
  match chars with
  | '.' :: rest => do
      let (value, after) ← readNumber 9 rest
      let places := rest.length - after.length
      .ok (value * Nat.pow 10 (9 - places), after.dropWhile Char.isDigit)
  | _ => .ok (0, chars)

/-- Reads two digits as an hour or a minute of an offset. -/
def readPair (chars : List Char) : Except Fault (Nat × List Char) :=
  match chars with
  | first :: second :: rest =>
      if first.isDigit ∧ second.isDigit then .ok (valueOf [first, second], rest)
      else .error .foreign
  | [char] => if char.utf8Size < 2 then .error .short else .error .foreign
  | [] => .error .short

def readOffset (chars : List Char) : Except Fault (Int × List Char) := do
  if (chars.take 3).map Char.toUpper = ['U', 'T', 'C'] then return (0, chars.drop 3)
  let amount (negative : Bool) (rest : List Char) : Except Fault (Int × List Char) := do
    let (hours, rest) ← readPair rest
    let (minutes, rest) ←
      readPair (rest.dropWhile fun char => char == ':' || Text.isBlank char)
    if 59 < minutes then throw .outOfRange
    let seconds : Int := hours * 3600 + minutes * 60
    return (if negative then -seconds else seconds, rest)
  match chars with
  | [] => throw .short
  | 'Z' :: rest => return (0, rest)
  | 'z' :: rest => return (0, rest)
  | '+' :: rest => amount false rest
  | '-' :: rest => amount true rest
  | '−' :: rest => amount true rest
  | _ => throw .foreign

def parse (text : String) : Except Fault Moment := do
  let (year, rest) ← readYear text.toList
  let rest ← readMark '-' rest
  let (month, rest) ← readPart 1 12 rest
  let rest ← readMark '-' rest
  let (day, rest) ← readPart 1 31 rest
  let rest ← match rest with
    | [] => throw .short
    | char :: rest =>
        if char = 't' ∨ char = 'T' ∨ char = ' ' then pure rest else throw .foreign
  let (hour, rest) ← readPart 0 23 rest
  let rest ← readMark ':' rest
  let (minute, rest) ← readPart 0 59 rest
  let rest ← readMark ':' rest
  let (second, rest) ← readPart 0 60 rest
  let (fraction, rest) ← readFraction rest
  let (offset, rest) ← readOffset (skipBlanks rest)
  if !(skipBlanks rest).isEmpty then throw .trailing
  let date : Date := { year, month, day }
  if !date.isValid ∨ dayLength ≤ offset.natAbs then throw .outOfRange
  let whole := if second = 60 then 59 else second
  let leap := if second = 60 then 1000000000 else 0
  let seconds :=
    date.toDays * dayLength + ((hour * 3600 + minute * 60 + whole : Nat) : Int) - offset
  if !(Date.ofDays (seconds.fdiv dayLength)).isValid then throw .impossible
  return { seconds, nanos := fraction + leap }

/-- Moments are written in the internet format. -/
def codec : Json.Codec Moment :=
  Json.Codec.textForm "an RFC 3339 formatted date and time string" text fun content =>
    (parse content).mapError Fault.message

end Moment

end SealedDirectory.Calendar
