import PortableCodex.Js.Text

/-!
Times: milliseconds since 1970 and their ISO text.

`toISOString` is `Date.prototype.toISOString`, and `dateParse` is `Date.parse` on texts of that shape.
Other texts have times that depend on the implementation; none of them is the ISO text of its time.
-/

namespace PortableCodex.Js

/-- The largest magnitude of a time. -/
def maxTime : Int := 8640000000000000

def msPerDay : Int := 86400000

/-- Days since 1970-01-01 of a date in the proleptic Gregorian calendar. -/
def daysFromCivil (year : Int) (month day : Nat) : Int :=
  -- years begin in March, so that a leap day ends its year
  let y := if month ≤ 2 then year - 1 else year
  let era := y / 400
  let yearOfEra := y % 400
  let monthFromMarch : Int := (month + 9) % 12
  let dayOfYear := (153 * monthFromMarch + 2) / 5 + (day - 1)
  era * 146097 + (yearOfEra * 365 + yearOfEra / 4 - yearOfEra / 100 + dayOfYear) - 719468

/-- The year, month and day of a day since 1970-01-01. -/
def civilFromDays (days : Int) : Int × Nat × Nat :=
  let z := days + 719468
  let era := z / 146097
  let dayOfEra := z % 146097
  let yearOfEra := (dayOfEra - dayOfEra / 1460 + dayOfEra / 36524 - dayOfEra / 146096) / 365
  let dayOfYear := dayOfEra - (365 * yearOfEra + yearOfEra / 4 - yearOfEra / 100)
  let monthFromMarch := (5 * dayOfYear + 2) / 153
  let day := dayOfYear - (153 * monthFromMarch + 2) / 5 + 1
  let month := if monthFromMarch < 10 then monthFromMarch + 3 else monthFromMarch - 9
  (yearOfEra + era * 400 + (if month ≤ 2 then 1 else 0), month.toNat, day.toNat)

/-- Decimal digits, padded with zeros to a length. -/
def padDecimal (length n : Nat) : JsString :=
  let digits := decimal n
  List.replicate (length - digits.length) 48 ++ digits

def isoYear (year : Int) : JsString :=
  if 0 ≤ year ∧ year ≤ 9999 then padDecimal 4 year.toNat
  else (if year < 0 then js "-" else js "+") ++ padDecimal 6 year.natAbs

/-- `new Date(time).toISOString()` of a time in range. -/
def toISOString (time : Int) : JsString :=
  let (year, month, day) := civilFromDays (time / msPerDay)
  let ms := (time % msPerDay).toNat
  isoYear year ++ js "-" ++ padDecimal 2 month ++ js "-" ++ padDecimal 2 day ++ js "T" ++
    padDecimal 2 (ms / 3600000) ++ js ":" ++ padDecimal 2 (ms / 60000 % 60) ++ js ":" ++
    padDecimal 2 (ms / 1000 % 60) ++ js "." ++ padDecimal 3 (ms % 1000) ++ js "Z"

/-- The number at a place of a text. -/
def numberAt (s : JsString) (start length : Nat) : Nat := digitsValue ((s.drop start).take length)

/-- `Date.parse` of an ISO text with a year of the given width. -/
def parseTime (year : Int) (s : JsString) : Int :=
  daysFromCivil year (numberAt s 1 2) (numberAt s 4 2) * msPerDay +
    (numberAt s 7 2 * 3600000 + numberAt s 10 2 * 60000 + numberAt s 13 2 * 1000 + numberAt s 16 3)

def dateParse (s : JsString) : Int :=
  match s with
  | 43 :: rest => parseTime (numberAt rest 0 6) (rest.drop 6)
  | 45 :: rest => parseTime (-(numberAt rest 0 6 : Nat)) (rest.drop 6)
  | _ => parseTime (numberAt s 0 4) (s.drop 4)

/-- `value` is the ISO text of the time it is parsed to. -/
def IsIsoTimestamp (s : JsString) : Prop :=
  -maxTime ≤ dateParse s ∧ dateParse s ≤ maxTime ∧ toISOString (dateParse s) = s

instance : DecidablePred IsIsoTimestamp := fun _ => inferInstanceAs (Decidable (_ ∧ _ ∧ _))

example : toISOString 1709210096789 = js "2024-02-29T12:34:56.789Z" ∧
    toISOString (-62198755200000) = js "-000001-01-01T00:00:00.000Z" := by decide +kernel

example : IsIsoTimestamp (js "2024-02-29T12:34:56.789Z") ∧ ¬ IsIsoTimestamp (js "2023-02-29T12:34:56.789Z") ∧
    ¬ IsIsoTimestamp (js "2024-02-29") := by decide +kernel

end PortableCodex.Js
