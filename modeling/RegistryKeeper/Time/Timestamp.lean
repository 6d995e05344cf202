import RegistryKeeper.Time.Instant

namespace RegistryKeeper.Instant

def digitsValue (ds : List Char) : Nat := ds.foldl (fun n d => 10 * n + (d.toNat - 48)) 0

def takeNumber (n : Nat) (cs : List Char) : Option (Nat × List Char) :=
  let ds := cs.take n
  if ds.length = n && ds.all Char.isDigit then some (digitsValue ds, cs.drop n) else none

def takeChar (ok : Char → Bool) : List Char → Option (List Char)
  | [] => none
  | c :: r => if ok c then some r else none

def takeFraction : List Char → Option (Nat × List Char)
  | '.' :: r =>
      let ds := r.takeWhile Char.isDigit
      let nine := ds.take 9
      if ds.isEmpty then none
      else some (digitsValue nine * Nat.pow 10 (9 - nine.length), r.dropWhile Char.isDigit)
  | cs => some (0, cs)

def takeOffset : List Char → Option (Int × List Char)
  | [] => none
  | c :: r =>
      if c = 'Z' || c = 'z' then some (0, r)
      else if c = '+' || c = '-' || c = '\u2212' then do
        let (h, r) ← takeNumber 2 r
        let r ← takeChar (· = ':') r
        let (m, r) ← takeNumber 2 r
        if h ≤ 23 && m ≤ 59 then
          let s : Int := (h * 3600 + m * 60 : Nat)
          return (if c = '+' then s else -s, r)
        else none
      else none

def ofText? (s : String) : Option Instant := do
  let (year, r) ← takeNumber 4 s.toList
  let r ← takeChar (· = '-') r
  let (month, r) ← takeNumber 2 r
  let r ← takeChar (· = '-') r
  let (day, r) ← takeNumber 2 r
  let r ← takeChar (fun c => c = 'T' || c = 't' || c = ' ') r
  let (hour, r) ← takeNumber 2 r
  let r ← takeChar (· = ':') r
  let (minute, r) ← takeNumber 2 r
  let r ← takeChar (· = ':') r
  let (second, r) ← takeNumber 2 r
  let (nanos, r) ← takeFraction r
  let (offset, r) ← takeOffset r
  if r.isEmpty && Calendar.isDate year month day && hour ≤ 23 && minute ≤ 59 && second ≤ 60 then
    some (ofClock year month day hour minute second nanos offset)
  else none

def padded : Nat → Nat → List Char
  | 0, _ => []
  | width + 1, n => padded width (n / 10) ++ [Char.ofNat (48 + n % 10)]

def fractionText (n : Nat) : List Char :=
  if n = 0 then []
  else if n % 1000000 = 0 then '.' :: padded 3 (n / 1000000)
  else if n % 1000 = 0 then '.' :: padded 6 (n / 1000)
  else '.' :: padded 9 n

def yearText (y : Int) : List Char :=
  if 0 ≤ y && y ≤ 9999 then padded 4 y.toNat
  else
    (if y < 0 then '-' else '+') :: padded (max 4 (Nat.toDigits 10 y.natAbs).length) y.natAbs

def dateTimeText (t : Instant) : List Char :=
  let (year, month, day) := Calendar.dateOf (t.seconds / 86400)
  let s := t.secondOfDay.toNat
  let second := if t.isLeap then s % 60 + 1 else s % 60
  yearText year ++ '-' :: padded 2 month ++ '-' :: padded 2 day ++ 'T' ::
    padded 2 (s / 3600) ++ ':' :: padded 2 (s / 60 % 60) ++ ':' :: padded 2 second

def text (t : Instant) : String :=
  String.ofList
    (t.dateTimeText ++ fractionText (t.nanos % nanosPerSecond) ++ ['+', '0', '0', ':', '0', '0'])

def secondsText (t : Instant) : String := String.ofList (t.dateTimeText ++ ['Z'])

def microsText (t : Instant) : String :=
  String.ofList
    (t.dateTimeText ++ '.' :: padded 6 (t.nanos % nanosPerSecond / 1000) ++ ['Z'])

end RegistryKeeper.Instant
