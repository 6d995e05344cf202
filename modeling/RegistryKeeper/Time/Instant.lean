/-!
Instants and the calendar. Years leap as the Gregorian calendar says, also before it was in use;
the year before 1 is 0, and the one before that is -1.
-/

namespace RegistryKeeper

namespace Calendar

def isLeap (y : Int) : Bool := y % 4 = 0 && (y % 100 ≠ 0 || y % 400 = 0)

def monthLength (y : Int) (m : Nat) : Nat :=
  if m = 2 then (if isLeap y then 29 else 28)
  else if m = 4 || m = 6 || m = 9 || m = 11 then 30
  else 31

def daysBeforeYear (y : Int) : Int := 365 * y + (y + 3) / 4 - (y + 99) / 100 + (y + 399) / 400

def daysBeforeMonth (y : Int) : Nat → Nat
  | 0 => 0
  | m + 1 => daysBeforeMonth y m + monthLength y (m + 1)

def dayNumber (y : Int) (m d : Nat) : Int :=
  daysBeforeYear y + (daysBeforeMonth y (m - 1) : Nat) + ((d - 1 : Nat) : Int)

def isDate (y : Int) (m d : Nat) : Bool := 1 ≤ m && m ≤ 12 && 1 ≤ d && d ≤ monthLength y m

def cycleYears : Nat := 400

def cycleDays : Nat := 146097

def yearFrom (day : Int) : Nat → Int → Int
  | 0, y => y
  | fuel + 1, y => if daysBeforeYear (y + 1) ≤ day then yearFrom day fuel (y + 1) else y

def yearOf (day : Int) : Int :=
  cycleYears * (day / cycleDays) + yearFrom (day % cycleDays) cycleYears (day % cycleDays / 366)

def monthsBefore (y : Int) (day : Nat) : Nat → Nat
  | 0 => 0
  | m + 1 => if daysBeforeMonth y (m + 1) ≤ day then m + 1 else monthsBefore y day m

def dateOf (day : Int) : Int × Nat × Nat :=
  let y := yearOf day
  let rest := (day - daysBeforeYear y).toNat
  let m := monthsBefore y rest 11
  (y, m + 1, rest - daysBeforeMonth y m + 1)

end Calendar

def nanosPerSecond : Nat := 1000000000

/-- Seconds since the start of year 0, and nanoseconds; a second and more of them is a leap
second, which counts as part of the second before it. -/
structure Instant where
  seconds : Int
  nanos : Nat
  deriving DecidableEq, Repr, Inhabited

namespace Instant

def ofClock (year : Int) (month day hour minute second nanos : Nat) (offset : Int) : Instant :=
  let ofDay : Nat := hour * 3600 + minute * 60 + min second 59
  ⟨Calendar.dayNumber year month day * 86400 + ofDay - offset,
    if second = 60 then nanos + nanosPerSecond else nanos⟩

def isLeap (t : Instant) : Bool := nanosPerSecond ≤ t.nanos

def secondOfDay (t : Instant) : Int := t.seconds % 86400

/-- Nanoseconds from `u` to `t`. A leap second is counted when the time of day passes over it. -/
def since (t u : Instant) : Int :=
  let leap : Int :=
    if u.secondOfDay < t.secondOfDay then (if u.isLeap then 1 else 0)
    else if t.secondOfDay < u.secondOfDay then (if t.isLeap then -1 else 0)
    else 0
  (t.seconds - u.seconds + leap) * nanosPerSecond + ((t.nanos : Int) - u.nanos)

def later (t : Instant) (n : Nat) : Instant :=
  let k := t.nanos + n
  ⟨t.seconds + (k / nanosPerSecond : Nat), k % nanosPerSecond⟩

def earlier (t : Instant) (s : Int) : Instant := ⟨t.seconds - s, t.nanos⟩

end Instant

end RegistryKeeper
