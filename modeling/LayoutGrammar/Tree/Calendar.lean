import LayoutGrammar.Text.Numeral

/-!
# Dates and moments

The days of the calendar and moments within them, as data files may give them. A moment may be
attached to universal time by an offset; two attached moments are the same if they are the same in
universal time.
-/

namespace LayoutGrammar

open Text

/-- A numeral of at least `width` digits. -/
def paddedNumeral (width n : Nat) : String :=
  let digits := natText n
  String.ofList (List.replicate (width - digits.length) '0' ++ digits)

/-- A day. -/
structure Date where
  year : Nat
  month : Nat
  day : Nat
deriving DecidableEq, Repr

namespace Date

/-- Whether a year has a 29th of February. -/
def isLeap (year : Nat) : Bool := year % 4 == 0 && (year % 100 != 0 || year % 400 == 0)

/-- The days of the months of a common year. -/
def monthLengths : List Nat := [31, 28, 31, 30, 31, 30, 31, 31, 30, 31, 30, 31]

/-- How many days a month has. -/
def monthLength (year month : Nat) : Nat :=
  if month = 2 && isLeap year then 29 else monthLengths.getD (month - 1) 0

/-- A day that the calendar knows, in a year of one to four digits. -/
def valid? (d : Date) : Option Date :=
  if 1 ≤ d.year && d.year ≤ 9999 && 1 ≤ d.month && d.month ≤ 12 && 1 ≤ d.day &&
      d.day ≤ monthLength d.year d.month then some d
  else none

/-- The number of a day, counted from a fixed day on. -/
def number (d : Date) : Nat :=
  let years := d.year - 1
  365 * years + years / 4 - years / 100 + years / 400 +
    (List.range (d.month - 1)).foldl (fun days m => days + monthLength d.year (m + 1)) 0 + d.day

/-- A day as its year, month and day. -/
def text (d : Date) : String :=
  paddedNumeral 4 d.year ++ "-" ++ paddedNumeral 2 d.month ++ "-" ++ paddedNumeral 2 d.day

/-- The numbers of a day between commas. -/
def numbers (d : Date) : List String := [natString d.year, natString d.month, natString d.day]

/-- A day with its kind visible. -/
def shown (d : Date) : String := "datetime.date(" ++ ", ".intercalate d.numbers ++ ")"

end Date

/-- A moment: the time of a day, to millionths of a second, and the offset from universal time in
minutes if it is known. -/
structure Moment where
  date : Date
  hour : Nat
  minute : Nat
  second : Nat
  micro : Nat
  offset : Option Int
deriving DecidableEq, Repr

namespace Moment

/-- A moment that clocks show; an offset stays below a day. -/
def valid? (m : Moment) : Option Moment :=
  if m.hour < 24 && m.minute < 60 && m.second < 60 && m.offset.all (·.natAbs < 24 * 60) then
    m.date.valid?.map fun date => { m with date }
  else none

/-- The millionths of a second that have gone by, by the clock of the moment. -/
def elapsed (m : Moment) : Int :=
  (((m.date.number * 24 + m.hour) * 60 + m.minute) * 60 + m.second) * 1000000 + m.micro

/-- Whether two moments are the same: in universal time if both are attached to it. -/
def same (m n : Moment) : Bool :=
  match m.offset, n.offset with
  | some a, some b => m.elapsed - a * 60000000 == n.elapsed - b * 60000000
  | none, none => m.elapsed == n.elapsed
  | _, _ => false

/-- An offset as a sign, hours and minutes. -/
def offsetText (minutes : Int) : String :=
  (if minutes < 0 then "-" else "+") ++ paddedNumeral 2 (minutes.natAbs / 60) ++ ":" ++
    paddedNumeral 2 (minutes.natAbs % 60)

/-- A moment as its day, its time and its offset. -/
def text (m : Moment) : String :=
  m.date.text ++ " " ++ paddedNumeral 2 m.hour ++ ":" ++ paddedNumeral 2 m.minute ++ ":" ++
    paddedNumeral 2 m.second ++ (if m.micro = 0 then "" else "." ++ paddedNumeral 6 m.micro) ++
    m.offset.elim "" offsetText

/-- The time of a day; what is nothing at the end is left out. -/
def timeNumbers (m : Moment) : List String :=
  [natString m.hour, natString m.minute] ++
    (if m.second = 0 && m.micro = 0 then [] else [natString m.second]) ++
    (if m.micro = 0 then [] else [natString m.micro])

/-- An offset with its kind visible. -/
def shownOffset (minutes : Int) : String :=
  if minutes = 0 then "datetime.timezone.utc"
  else
    let days := if minutes < 0 then "days=-1, " else ""
    "datetime.timezone(datetime.timedelta(" ++ days ++ "seconds=" ++
      intString ((minutes % 1440) * 60) ++ "))"

/-- A moment with its kind visible. -/
def shown (m : Moment) : String :=
  "datetime.datetime(" ++ ", ".intercalate (m.date.numbers ++ m.timeNumbers) ++
    m.offset.elim "" (fun o => ", tzinfo=" ++ shownOffset o) ++ ")"

end Moment

end LayoutGrammar
