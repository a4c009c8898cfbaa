import SourceDoc.Text.Basic

/-!
# Moments

A moment is a count of microseconds since the start of 1970.  It is shown as a date and a time of day, in the calendar
that leaves out three leap days in four centuries.
-/

namespace SourceDoc

/-- A day of the calendar. -/
structure Day where
  year : Nat
  month : Nat
  day : Nat
  deriving DecidableEq, Repr

/-- The day that comes some days after the first of January 1970.  Years are counted from March here, so that a leap
day is the last of its year; a year has 153 days in every five months from there. -/
def Day.ofNumber (n : Nat) : Day :=
  let fromYearZero := n + 719468
  let cycle := fromYearZero / 146097
  let ofCycle := fromYearZero % 146097
  let yearOfCycle := (ofCycle - ofCycle / 1460 + ofCycle / 36524 - ofCycle / 146096) / 365
  let ofYear := ofCycle - (365 * yearOfCycle + yearOfCycle / 4 - yearOfCycle / 100)
  let monthFromMarch := (5 * ofYear + 2) / 153
  let month := if monthFromMarch < 10 then monthFromMarch + 3 else monthFromMarch - 9
  { year := yearOfCycle + 400 * cycle + (if month ≤ 2 then 1 else 0)
    month
    day := ofYear - (153 * monthFromMarch + 2) / 5 + 1 }

/-- A moment from 1970 on. -/
structure Moment where
  microseconds : Nat
  deriving DecidableEq, Repr

namespace Moment

/-- A number with zeros in front of it, up to a width. -/
def padded (width n : Nat) : Text :=
  let digits := Text.ofNat n
  List.replicate (width - digits.length) '0' ++ digits

def seconds (m : Moment) : Nat := m.microseconds / 1000000

/-- The microseconds of the second. -/
def fraction (m : Moment) : Nat := m.microseconds % 1000000

/-- Year, month and day. -/
def date (m : Moment) : Text :=
  let d := Day.ofNumber (m.seconds / 86400)
  padded 4 d.year ++ ['-'] ++ padded 2 d.month ++ ['-'] ++ padded 2 d.day

/-- Hour, minute and second. -/
def time (m : Moment) : Text :=
  let s := m.seconds % 86400
  padded 2 (s / 3600) ++ [':'] ++ padded 2 (s / 60 % 60) ++ [':'] ++ padded 2 (s % 60)

/-- The moment on a page; whole seconds are shown without a fraction. -/
def toText (m : Moment) : Text :=
  m.date ++ ['T'] ++ m.time ++ (if m.fraction = 0 then [] else '.' :: padded 6 m.fraction) ++ "+00:00".toList

/-- The moment in front of a line of a log file. -/
def logStamp (m : Moment) : Text :=
  m.date ++ [' '] ++ m.time ++ [','] ++ padded 3 (m.fraction / 1000) ++ [' ']

end Moment

end SourceDoc
