import AmbientStubs.Text.Line

/-!
Dates and times of TOML.  A date may stand alone, be followed by a time of day, or be
followed by a time of day and its offset; a time of day may stand alone.  The text of a
value is its one written form: `T` between date and time, no zeros at the end of a
fraction, and `Z` or hours and minutes for the offset.
-/

namespace AmbientStubs

open Text

structure Date where
  year : Nat
  month : Nat
  day : Nat
deriving DecidableEq, Repr

/-- A time of day; the second 60 is a leap second. -/
structure TimeOfDay where
  hour : Nat
  minute : Nat
  second : Nat
  nanosecond : Nat
deriving DecidableEq, Repr

inductive TimeOffset where
  | utc
  | minutes (value : Int)
deriving DecidableEq, Repr

inductive DateTime where
  | dateOnly (date : Date)
  | timeOnly (time : TimeOfDay)
  | moment (date : Date) (time : TimeOfDay) (offset : Option TimeOffset)
deriving DecidableEq, Repr

namespace Date

def isLeapYear (year : Nat) : Bool :=
  year % 4 == 0 && (year % 100 != 0 || year % 400 == 0)

def daysInMonth (year month : Nat) : Nat :=
  if month = 2 then if isLeapYear year then 29 else 28
  else if month = 4 ∨ month = 6 ∨ month = 9 ∨ month = 11 then 30
  else 31

def isValid (date : Date) : Bool :=
  decide (1 ≤ date.month) && decide (date.month ≤ 12) && decide (1 ≤ date.day) &&
    decide (date.day ≤ daysInMonth date.year date.month)

def text (date : Date) : String :=
  String.ofList (paddedDigits 4 date.year ++ '-' :: paddedDigits 2 date.month ++
    '-' :: paddedDigits 2 date.day)

end Date

namespace TimeOfDay

/-- A fraction of a second has nine places, of which the last ones are written only if
they are not zero. -/
def fractionText (nanosecond : Nat) : List Char :=
  if nanosecond = 0 then []
  else '.' :: withoutTrailingZeros (paddedDigits 9 nanosecond)

def text (time : TimeOfDay) : String :=
  String.ofList (paddedDigits 2 time.hour ++ ':' :: paddedDigits 2 time.minute ++
    ':' :: paddedDigits 2 time.second ++ fractionText time.nanosecond)

end TimeOfDay

namespace TimeOffset

def text : TimeOffset → String
  | utc => "Z"
  | minutes value =>
      String.ofList ((if value < 0 then '-' else '+') :: paddedDigits 2 (value.natAbs / 60) ++
        ':' :: paddedDigits 2 (value.natAbs % 60))

end TimeOffset

namespace DateTime

def text : DateTime → String
  | dateOnly date => date.text
  | timeOnly time => time.text
  | moment date time offset =>
      date.text ++ "T" ++ time.text ++ (offset.map TimeOffset.text).getD ""

def fixedDigits? (count : Nat) (text : List Char) : Option (Nat × List Char) :=
  let digits := text.take count
  if digits.length = count ∧ digits.all isAsciiDigit then
    some (numberOfDigits 10 digits, text.drop count)
  else none

def date? (text : List Char) : Option (Date × List Char) := do
  let (year, rest) ← fixedDigits? 4 text
  let (month, rest) ← fixedDigits? 2 (← literal? "-" rest)
  let (day, rest) ← fixedDigits? 2 (← literal? "-" rest)
  let date : Date := ⟨year, month, day⟩
  if date.isValid then some (date, rest) else none

def hoursAndMinutes? (text : List Char) : Option (Nat × Nat × List Char) := do
  let (hour, rest) ← fixedDigits? 2 text
  let (minute, rest) ← fixedDigits? 2 (← literal? ":" rest)
  if hour ≤ 23 ∧ minute ≤ 59 then some (hour, minute, rest) else none

/-- The nanoseconds of a fraction, of which only the first nine places count. -/
def nanosecondsOf (digits : List Char) : Nat :=
  let places := digits.take 9
  numberOfDigits 10 (places ++ List.replicate (9 - places.length) '0')

def time? (text : List Char) : Option (TimeOfDay × List Char) := do
  let (hour, minute, rest) ← hoursAndMinutes? text
  let (second, rest) ← fixedDigits? 2 (← literal? ":" rest)
  if second ≤ 60 then
    match (literal? "." rest).bind (run? isAsciiDigit) with
    | some (digits, rest) => some (⟨hour, minute, second, nanosecondsOf digits⟩, rest)
    | none => some (⟨hour, minute, second, 0⟩, rest)
  else none

def offset? : List Char → Option (TimeOffset × List Char)
  | 'Z' :: rest => some (.utc, rest)
  | 'z' :: rest => some (.utc, rest)
  | '+' :: rest => do
      let (hour, minute, rest) ← hoursAndMinutes? rest
      some (.minutes (60 * hour + minute : Nat), rest)
  | '-' :: rest => do
      let (hour, minute, rest) ← hoursAndMinutes? rest
      some (.minutes (-((60 * hour + minute : Nat) : Int)), rest)
  | _ => none

def timeOfDate? : List Char → Option (TimeOfDay × Option TimeOffset × List Char)
  | [] => none
  | delimiter :: rest =>
      if delimiter = 'T' ∨ delimiter = 't' ∨ delimiter = ' ' then do
        let (time, rest) ← time? rest
        match offset? rest with
        | some (offset, rest) => some (time, some offset, rest)
        | none => some (time, none, rest)
      else none

def read? (text : List Char) : Option (DateTime × List Char) :=
  match date? text with
  | some (date, rest) =>
      match timeOfDate? rest with
      | some (time, offset, rest) => some (.moment date time offset, rest)
      | none => some (.dateOnly date, rest)
  | none => (time? text).map fun (time, rest) => (.timeOnly time, rest)

end DateTime

end AmbientStubs
