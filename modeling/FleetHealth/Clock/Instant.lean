import FleetHealth.Number.Numeral

/-! # Points in time

An `Instant` counts nanoseconds from the beginning of 1970 in UTC. The calendar
reaches from the first day of the year -262143 to the last of 262142, and instants
outside of it cannot be held.
-/
namespace FleetHealth.Clock

open Number

structure Instant where
  ns : Int
deriving DecidableEq, Repr

def nsPerMs : Int := 1000000

def nsPerSecond : Int := 1000000000

def nsPerDay : Int := 86400 * nsPerSecond

structure Date where
  year : Int
  month : Nat
  day : Nat
deriving DecidableEq, Repr

/-- Days from 1 March of year 0 to 1 March of the year. -/
def daysToMarch (year : Int) : Int := 365 * year + year / 4 - year / 100 + year / 400

def daysToMonth (monthFromMarch : Nat) : Nat := (153 * monthFromMarch + 2) / 5

def daysToEpoch : Int := 719468

def Date.dayNumber (d : Date) : Int :=
  let year := if d.month ≤ 2 then d.year - 1 else d.year
  let monthFromMarch := (d.month + 9) % 12
  daysToMarch year + daysToMonth monthFromMarch + (d.day - 1 : Nat) - daysToEpoch

/-- The year, beginning in March, that a day falls into. In a cycle of 146097 days the
corrections take out the leap days passed so far. -/
def marchYear (daysFromMarch : Int) : Int :=
  let cycle := daysFromMarch / 146097
  let day := daysFromMarch % 146097
  400 * cycle + (day - day / 1460 + day / 36524 - day / 146096) / 365

def Date.ofDayNumber (n : Int) : Date :=
  let days := n + daysToEpoch
  let year := marchYear days
  let dayOfYear := (days - daysToMarch year).toNat
  let monthFromMarch := (5 * dayOfYear + 2) / 153
  { year := if monthFromMarch < 10 then year else year + 1
    month := (monthFromMarch + 2) % 12 + 1
    day := dayOfYear - daysToMonth monthFromMarch + 1 }

namespace Instant

def atMs (ms : Int) : Instant := ⟨ms * nsPerMs⟩

def ofDate (d : Date) : Instant := ⟨d.dayNumber * nsPerDay⟩

def earliest : Instant := ofDate ⟨-262143, 1, 1⟩

def latest : Instant := ⟨(ofDate ⟨262143, 1, 1⟩).ns - 1⟩

def ofMs? (ms : Int) : Option Instant :=
  if earliest.ns ≤ (atMs ms).ns ∧ (atMs ms).ns ≤ latest.ns then some (atMs ms) else none

def date (t : Instant) : Date := Date.ofDayNumber (t.ns / nsPerDay)

def nsOfDay (t : Instant) : Nat := (t.ns % nsPerDay).toNat

/-- Four digits, or a sign and at least four where four unsigned digits do not do. -/
def yearText (year : Int) : List Char :=
  if 0 ≤ year ∧ year ≤ 9999 then padded 4 year.toNat
  else (if year < 0 then '-' else '+') :: padded 4 year.natAbs

def dateText (t : Instant) : List Char :=
  yearText t.date.year ++ '-' :: (padded 2 t.date.month ++ '-' :: padded 2 t.date.day)

/-- Nanoseconds after a point, in as few groups of three digits as hold them. -/
def fractionText (ns : Nat) : List Char :=
  if ns = 0 then []
  else if ns % 1000000 = 0 then '.' :: padded 3 (ns / 1000000)
  else if ns % 1000 = 0 then '.' :: padded 6 (ns / 1000)
  else '.' :: padded 9 ns

def timeText (t : Instant) : List Char :=
  let seconds := t.nsOfDay / 1000000000
  padded 2 (seconds / 3600) ++ ':' :: (padded 2 (seconds / 60 % 60) ++ ':' :: padded 2 (seconds % 60))
    ++ fractionText (t.nsOfDay % 1000000000)

/-- The form of reports: `2023-11-14T22:13:20.500Z`. -/
def reportText (t : Instant) : String :=
  String.ofList (t.dateText ++ 'T' :: (t.timeText ++ ['Z']))

/-- The form of messages: `2023-11-14 22:13:20.500 UTC`. -/
def messageText (t : Instant) : String :=
  String.ofList (t.dateText ++ ' ' :: (t.timeText ++ " UTC".toList))

end Instant

end FleetHealth.Clock
