import Reel.Value.Number
import Reel.Value.Spelling

/-!
# Timecodes

A time is a number of seconds or a text `[[HH:]MM:]SS` whose fields are decimals. It is read
exactly. In filter graphs a number of seconds is written with at most six places, without
trailing zeros and never with an exponent, so that it means the same in every locale.
-/
namespace Reel.Timecode

/-- Reads one field; any text that is no decimal refuses the whole timecode. -/
def readField (given : String) (cs : List Char) : Except Error Decimal :=
  match Decimal.read? (String.ofList cs) with
  | some d => .ok d
  | none => reject (.timeText given)

/-- `hours · 3600 + minutes · 60 + seconds`. -/
def combine (hours minutes seconds : Decimal) : Except Decimal.Signal Decimal := do
  let fromHours ← hours.mul (.ofInt 3600)
  let fromMinutes ← minutes.mul (.ofInt 60)
  let whole ← fromHours.add fromMinutes
  whole.add seconds

/-- Reads a timecode. Fields count from the right; fields before the hours are not looked at. -/
def read (given : String) : Except Error Decimal := do
  let fields := (List.splitOn ':' (Text.trim Text.isBlank given.toList)).reverse
  match fields with
  | [] => reject (.timeText given)
  | [only] => readField given only
  | [seconds, minutes] =>
    let seconds ← readField given seconds
    let minutes ← readField given minutes
    Value.ofSignal (combine (.ofInt 0) minutes seconds)
  | seconds :: minutes :: hours :: _ =>
    let seconds ← readField given seconds
    let minutes ← readField given minutes
    let hours ← readField given hours
    Value.ofSignal (combine hours minutes seconds)

/-- The time that a value means: a number of seconds, or a timecode. -/
def ofValue : Value → Except Error Decimal
  | .null => reject .timeMissing
  | .int n => .ok (.ofInt n)
  | .real x =>
    match Decimal.read? x.text with
    | some d => .ok d
    | none => .error (.decimal .invalidOperation)
  | .text s => read s
  | _ => reject .timeKind

/-- Seconds of a field that may be left out or empty. -/
def secondsOr (default : Value) : Value → Except Error Double
  | .null => default.toDouble
  | .text s =>
    if s = "" then default.toDouble
    else do
      let time ← read s
      Value.doubleOfDecimal time
  | v => do
    let time ← ofValue v
    Value.doubleOfDecimal time

def dropTrailing (c : Char) (cs : List Char) : List Char :=
  (cs.reverse.dropWhile (· == c)).reverse

/-- Drops zeros at the end of a fraction, an empty fraction, and the sign of zero. -/
def shorten (s : String) : String :=
  let cs := s.toList
  let cs :=
    if cs.contains '.' then
      let kept := dropTrailing '0' cs
      if kept.getLast? = some '.' then dropTrailing '.' kept else kept
    else cs
  if cs = [] ∨ cs = ['-', '0'] then "0" else String.ofList cs

def formatDecimal (d : Decimal) : Except Error String := do
  let number ← Value.ofSignal (d.quantize 6)
  return shorten number.plainText

/-- Writes the number of seconds that the text of a value stands for. -/
def format (v : Value) : Except Error String := do
  match Decimal.read? (← v.toText) with
  | some d => formatDecimal d
  | none => .error (.decimal .invalidOperation)

end Reel.Timecode
