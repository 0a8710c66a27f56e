import EmbeddedC.Toml.Node
import EmbeddedC.Toml.Quotation

/-!
# Dates and times

A date, a time, or both with an optional offset. Days exist in their month, the sixtieth second is
allowed, and fractions of a second are cut to nanoseconds.
-/

namespace EmbeddedC.Toml

def isLeapYear (year : Nat) : Bool :=
  year % 4 == 0 && (year % 100 != 0 || year % 400 == 0)

def daysInMonth (year month : Nat) : Nat :=
  if month = 2 then (if isLeapYear year then 29 else 28)
  else if month ∈ [4, 6, 9, 11] then 30
  else 31

namespace Calendar

open Reader

/-- A number of exactly `n` digits within bounds. -/
private def field (n low high : Nat) : Reader Nat := do
  let value := digitsValue 10 (← times n Char.isDigit)
  if low ≤ value ∧ value ≤ high then pure value else refuse

def date : Reader Date := do
  let year ← field 4 0 9999
  char '-'
  let month ← field 2 1 12
  char '-'
  let day ← field 2 1 31
  if day ≤ daysInMonth year month then pure ⟨year, month, day⟩ else refuse

private def fraction : Reader Nat := do
  char '.'
  let digits := (← takeWhile1 Char.isDigit).take 9
  pure (digitsValue 10 (digits ++ List.replicate (9 - digits.length) '0'))

def time : Reader Time := do
  let hour ← field 2 0 23
  char ':'
  let minute ← field 2 0 59
  char ':'
  let second ← field 2 0 60
  let nanosecond ← maybe fraction
  pure ⟨hour, minute, second, nanosecond.getD 0⟩

def offset : Reader Offset := do
  match ← satisfying fun c => c ∈ ['Z', 'z', '+', '-'] with
  | 'Z' | 'z' => pure .universal
  | mark =>
    let hour ← field 2 0 23
    char ':'
    let minute ← field 2 0 59
    let minutes : Int := (hour * 60 + minute : Nat)
    pure (.ahead (if mark = '-' then -minutes else minutes))

private def timeAfterDate : Reader (Time × Option Offset) := do
  let _ ← satisfying fun c => c ∈ ['T', 't', ' ']
  let t ← time
  pure (t, ← maybe offset)

def dateTime : Reader DateTime :=
  (do
    let d ← date
    match ← maybe timeAfterDate with
    | none => pure ⟨some d, none, none⟩
    | some (t, o) => pure ⟨some d, some t, o⟩) <|>
  (do pure ⟨none, some (← time), none⟩)

end Calendar

/-- A number padded with zeros on the left. -/
private def padded (width n : Nat) : String :=
  let digits := Nat.toDigits 10 n
  String.ofList (List.replicate (width - digits.length) '0' ++ digits)

namespace DateTime

private def dateText (d : Date) : String :=
  padded 4 d.year ++ "-" ++ padded 2 d.month ++ "-" ++ padded 2 d.day

private def fractionText (nanosecond : Nat) : String :=
  if nanosecond = 0 then ""
  else "." ++ String.ofList
    ((padded 9 nanosecond).toList.reverse.dropWhile (· == '0')).reverse

private def timeText (t : Time) : String :=
  padded 2 t.hour ++ ":" ++ padded 2 t.minute ++ ":" ++ padded 2 t.second ++
    fractionText t.nanosecond

private def offsetText : Offset → String
  | .universal => "Z"
  | .ahead minutes =>
    (if minutes < 0 then "-" else "+") ++ padded 2 (minutes.natAbs / 60) ++ ":" ++
      padded 2 (minutes.natAbs % 60)

/-- The one spelling every date and time is given. -/
def text (d : DateTime) : String :=
  (d.date?.map dateText).getD "" ++
    (if d.date?.isSome && d.time?.isSome then "T" else "") ++
    (d.time?.map timeText).getD "" ++ (d.offset?.map offsetText).getD ""

end DateTime

end EmbeddedC.Toml
