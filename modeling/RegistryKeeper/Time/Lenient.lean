import RegistryKeeper.Text.Space
import RegistryKeeper.Time.Timestamp

/-!
Timestamps as people write them: as RFC 3339 has them, but with blanks before the parts, without
leading zeros, with any year that has a sign, with `UTC` for the offset zero and without the colon
of an offset. `Lenient.instant` says what stops it: what is read at once is told at once, and
whether there is such a day and such an instant only when all has been read.
-/

namespace RegistryKeeper

inductive TimeFault where
  | outOfRange
  | impossible
  | invalid
  | tooShort
  | tooLong
  deriving DecidableEq, Repr

def TimeFault.message : TimeFault → String
  | .outOfRange => "input is out of range"
  | .impossible => "no possible date and time matching input"
  | .invalid => "input contains invalid characters"
  | .tooShort => "premature end of input"
  | .tooLong => "trailing input"

namespace Lenient

abbrev Reading := StateT (List Char) (Except TimeFault)

def skip (p : Char → Bool) : Reading Unit := modify (·.dropWhile p)

def oneOf (p : Char → Bool) : Reading Char := do
  match ← get with
  | [] => throw .tooShort
  | c :: r => if p c then do set r; return c else throw .invalid

def number (most : Option Nat) : Reading Nat := do
  let cs ← get
  let ds := ((most.map cs.take).getD cs).takeWhile Char.isDigit
  if ds.isEmpty then
    let _ ← oneOf Char.isDigit
  set (cs.drop ds.length)
  return Instant.digitsValue ds

def part (least most : Nat) : Reading Nat := do
  skip Text.isSpace
  let n ← number (some 2)
  if least ≤ n ∧ n ≤ most then return n else throw .outOfRange

def mark (c : Char) : Reading Unit := do
  skip Text.isSpace
  let _ ← oneOf (· = c)

def year : Reading Int := do
  skip Text.isSpace
  match ← get with
  | '-' :: r =>
      set r
      let n ← number none
      if n ≤ Nat.pow 2 31 then return -(n : Int) else throw .outOfRange
  | '+' :: r =>
      set r
      let n ← number none
      if n < Nat.pow 2 31 then return n else throw .outOfRange
  | _ => return (← number (some 4) : Nat)

def fraction : Reading Nat := do
  match ← get with
  | '.' :: r =>
      set r
      let _ ← number none
      let nine := (r.takeWhile Char.isDigit).take 9
      return Instant.digitsValue nine * Nat.pow 10 (9 - nine.length)
  | _ => return 0

/-- Two digits, the text being too short for them if a byte is left or none. -/
def twoDigits : Reading Nat := do
  match ← get with
  | c :: d :: r =>
      if c.isDigit && d.isDigit then do set r; return Instant.digitsValue [c, d]
      else throw .invalid
  | [c] => throw (if c.utf8Size = 1 then .tooShort else .invalid)
  | [] => throw .tooShort

def offset : Reading Int := do
  let c ← oneOf fun c => c = 'Z' || c = 'z' || c = '+' || c = '-' || c = '\u2212'
  if c = 'Z' || c = 'z' then return 0
  else
    let hours ← twoDigits
    skip fun c => c = ':' || Text.isSpace c
    let minutes ← twoDigits
    if 60 ≤ minutes then throw .outOfRange
    let s : Int := (hours * 3600 + minutes * 60 : Nat)
    return if c = '+' then s else -s

def zone : Reading Int := do
  skip Text.isSpace
  let cs ← get
  if (cs.take 3).map Char.toUpper = ['U', 'T', 'C'] then do set (cs.drop 3); return 0
  else offset

def isYear (y : Int) : Bool := -262143 ≤ y && y ≤ 262142

def timestamp : Reading Instant := do
  let y ← year
  mark '-'
  let month ← part 1 12
  mark '-'
  let day ← part 1 31
  let _ ← oneOf fun c => c = 'T' || c = 't' || c = ' '
  let hour ← part 0 23
  mark ':'
  let minute ← part 0 59
  mark ':'
  let second ← part 0 60
  let nanos ← fraction
  let east ← zone
  skip Text.isSpace
  if !(← get).isEmpty then throw .tooLong
  if !(isYear y && Calendar.isDate y month day && east.natAbs < 86400) then throw .outOfRange
  let t := Instant.ofClock y month day hour minute second nanos east
  if isYear (Calendar.yearOf (t.seconds / 86400)) then return t else throw .impossible

def instant (s : String) : Except TimeFault Instant := timestamp.run' s.toList

end Lenient

end RegistryKeeper
