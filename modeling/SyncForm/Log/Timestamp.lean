import SyncForm.Number.Places
import SyncForm.Value.Number

/-!
# Moments as text

A moment is a number of seconds since the start of 1970, universal time. It is rounded to the
nearest microsecond and written with milliseconds, the rest cut off. Only the years 1 to 9999 can be
written.
-/

namespace SyncForm.Timestamp

/-- A moment in whole seconds and microseconds. -/
structure Moment where
  seconds : Int
  micros : Int

/-- The microseconds in a second. -/
def microsInSecond : Nat := 1000000

/-- A floating-point number rounded to the nearest integer, a tie to the even one. -/
def roundUnits (units : Int) : Int :=
  let size := Binary64.roundQuotient units.natAbs Binary64.unitsInOne
  if units < 0 then -size else size

/-- The fault of a moment whose seconds do not fit a clock. -/
def outOfRange : Fault :=
  .stated "OverflowError" "timestamp out of range for platform time_t"

/-- Whether a clock of 64 bits counts that many seconds. -/
def fitsClock (seconds : Int) : Bool :=
  let bound : Int := Nat.pow 2 63
  decide (-bound ≤ seconds) && decide (seconds < bound)

/-- A moment whose seconds fit the clock. -/
def Moment.checked (m : Moment) : Except Fault Moment :=
  if fitsClock m.seconds then .ok m else .error outOfRange

/-- The moment of a floating-point number of seconds; its fraction is multiplied before it is
rounded to microseconds. -/
def ofReal (x : Binary64) : Except Fault Moment :=
  match x with
  | .nan => .error (.stated "ValueError" "Invalid value NaN (not a number)")
  | .infinity _ => .error outOfRange
  | .finite _ _ _ =>
    let units := x.units?.getD 0
    let whole := units.tdiv Binary64.unitsInOne
    let rest := units - whole * Binary64.unitsInOne
    let scaled := Binary64.ofRatio (rest < 0) (rest.natAbs * microsInSecond) Binary64.unitsInOne
    let micros := roundUnits (scaled.units?.getD 0)
    if microsInSecond ≤ micros then Moment.checked ⟨whole + 1, micros - microsInSecond⟩
    else if micros < 0 then Moment.checked ⟨whole - 1, micros + microsInSecond⟩
    else Moment.checked ⟨whole, micros⟩

/-- The moment of a number of seconds. -/
def ofValue : Value → Except Fault Moment
  | .float x => ofReal x
  | v =>
    match v.whole? with
    | some i => Moment.checked ⟨i, 0⟩
    | none =>
      .error (.stated "TypeError"
        ("'" ++ v.kind ++ "' object cannot be interpreted as an integer"))

/-- A day of the calendar. -/
structure Day where
  year : Int
  month : Nat
  day : Nat

/-- The day that lies a number of days after the start of 1970. Days are counted from a first of
March, in eras of four hundred years, so that a leap day comes last in its year. -/
def dayOf (days : Int) : Day :=
  let shifted := days + 719468
  let era := shifted.fdiv 146097
  let dayOfEra := (shifted - era * 146097).toNat
  let yearOfEra :=
    (dayOfEra - dayOfEra / 1460 + dayOfEra / 36524 - dayOfEra / 146096) / 365
  let dayOfYear := dayOfEra - (365 * yearOfEra + yearOfEra / 4 - yearOfEra / 100)
  let shiftedMonth := (5 * dayOfYear + 2) / 153
  let day := dayOfYear - (153 * shiftedMonth + 2) / 5 + 1
  let month := if shiftedMonth < 10 then shiftedMonth + 3 else shiftedMonth - 9
  let year : Int := yearOfEra + era * 400
  { year := if month ≤ 2 then year + 1 else year, month, day }

/-- A natural in a number of digits at least. -/
def digits (length n : Nat) : String :=
  String.ofList (Binary64.digitsOf length n)

/-- The text of a moment. -/
def Moment.render (m : Moment) : Except Fault String :=
  let day := dayOf (m.seconds.fdiv 86400)
  let second := (m.seconds.fmod 86400).toNat
  if 1 ≤ day.year ∧ day.year ≤ 9999 then
    .ok (digits 4 day.year.toNat ++ "-" ++ digits 2 day.month ++ "-" ++ digits 2 day.day ++ "T" ++
      digits 2 (second / 3600) ++ ":" ++ digits 2 (second / 60 % 60) ++ ":" ++
      digits 2 (second % 60) ++ "." ++ digits 3 (m.micros.toNat / 1000) ++ "Z")
  else if day.year.natAbs < Nat.pow 2 31 then
    .error (.stated "ValueError" ("year " ++ toString day.year ++ " is out of range"))
  else
    .error (.stated "OSError" "[Errno 75] Value too large for defined data type")

end SyncForm.Timestamp
