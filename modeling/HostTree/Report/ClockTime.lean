import HostTree.Text.Decimal

/-!
Times of day with microseconds, as a report shows them.
-/

namespace HostTree

/-- Whether four numbers are a time of day. The last second of a minute may be twice as long. -/
def isClockTime (hour minute second nanosecond : Nat) : Bool :=
  hour < 24 && minute < 60 && second < 60 &&
    nanosecond < (if second = 59 then 2000000000 else 1000000000)

/-- A time of day. A leap second is the second half of a second that is twice as long. -/
structure ClockTime where
  hour : Nat
  minute : Nat
  second : Nat
  nanosecond : Nat
  isValid : isClockTime hour minute second nanosecond
deriving DecidableEq

namespace ClockTime

/-- The time of day that four numbers are, if they are one. -/
def ofParts? (hour minute second nanosecond : Nat) : Option ClockTime :=
  if hValid : isClockTime hour minute second nanosecond then
    some ⟨hour, minute, second, nanosecond, hValid⟩
  else none

/-- A time of day as text. What is shorter than a microsecond is left out. -/
def text (time : ClockTime) : String :=
  Decimal.padded 2 time.hour ++ ":" ++ Decimal.padded 2 time.minute ++ ":" ++
    Decimal.padded 2 (time.second + time.nanosecond / 1000000000) ++ "." ++
    Decimal.padded 6 (time.nanosecond % 1000000000 / 1000)

end ClockTime

end HostTree
