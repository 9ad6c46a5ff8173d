import Patchbay.Text.Integer

namespace Patchbay

/-! Points in time, as data files write them: a date, or a date and a time with or without an
offset.  Fields may have one digit where two are usual, the year has four.
-/

structure Instant where
  year : Nat
  month : Nat
  day : Nat
  hour : Nat := 0
  minute : Nat := 0
  second : Nat := 0
  nanosecond : Nat := 0
  /-- Minutes east of Greenwich. -/
  offset : Int := 0
deriving DecidableEq, Repr, Inhabited

namespace Instant

def isLeapYear (year : Nat) : Bool := year % 4 == 0 && (year % 100 != 0 || year % 400 == 0)

def daysIn (year month : Nat) : Nat :=
  if month == 2 then (if isLeapYear year then 29 else 28)
  else if month == 4 || month == 6 || month == 9 || month == 11 then 30
  else 31

/-! Reading -/

/-- Reads one digit or two. -/
def shortNumber? : List Char → Option (Nat × List Char)
  | a :: b :: rest =>
      if !Text.isDigit a then none
      else if Text.isDigit b then some (Text.natOfDigits [a, b], rest)
      else some (Text.natOfDigits [a], b :: rest)
  | [a] => if Text.isDigit a then some (Text.natOfDigits [a], []) else none
  | [] => none

/-- Reads a number of one digit or two up to a limit. -/
def field? (limit : Nat) (text : List Char) : Option (Nat × List Char) := do
  let (value, rest) ← shortNumber? text
  if value ≤ limit then some (value, rest) else none

def mark? (mark : Char) : List Char → Option (List Char)
  | c :: rest => if c == mark then some rest else none
  | [] => none

def date? (text : List Char) : Option (Instant × List Char) := do
  let digits := text.takeWhile Text.isDigit
  if digits.length ≠ 4 then none
  let year := Text.natOfDigits digits
  let rest ← mark? '-' (text.drop 4)
  let (month, rest) ← field? 12 rest
  let rest ← mark? '-' rest
  let (day, rest) ← shortNumber? rest
  if month = 0 ∨ day = 0 ∨ daysIn year month < day then none
  return ({ year, month, day }, rest)

/-- Reads a fraction of a second; digits behind the ninth do not count. -/
def fraction (text : List Char) : Nat × List Char :=
  match text with
  | mark :: rest =>
      let digits := rest.takeWhile Text.isDigit
      if (mark == '.' || mark == ',') && !digits.isEmpty then
        (Text.natOfDigits ((digits ++ List.replicate 9 '0').take 9), rest.drop digits.length)
      else (0, text)
  | [] => (0, text)

def clock? (date : Instant) (text : List Char) : Option (Instant × List Char) := do
  let (hour, rest) ← field? 23 text
  let rest ← mark? ':' rest
  let (minute, rest) ← field? 59 rest
  let rest ← mark? ':' rest
  let (second, rest) ← field? 59 rest
  let (nanosecond, rest) := fraction rest
  return ({ date with hour, minute, second, nanosecond }, rest)

/-- Reads an offset: a letter for none, or hours and minutes of two digits.  A full day and a full
hour are still written that way. -/
def offset? : List Char → Option Int
  | ['Z'] => some 0
  | [sign, a, b, ':', c, d] => do
      let hours ← Text.natOfDigits? [a, b]
      let minutes ← Text.natOfDigits? [c, d]
      if hours > 24 ∨ minutes > 60 then none
      let total : Int := hours * 60 + minutes
      if sign == '+' then some total
      else if sign == '-' then some (-total)
      else none
  | _ => none

/-- Reads a date, or a date and a time: behind blanks without an offset, behind a letter with
one. -/
def read? (text : String) : Option Instant := do
  let (date, rest) ← date? text.toList
  match rest with
  | [] => return date
  | separator :: rest => do
      if separator == ' ' then
        let (instant, rest) ← clock? date (rest.dropWhile (· == ' '))
        if rest.isEmpty then return instant else none
      else if separator == 'T' || separator == 't' then do
        let (instant, rest) ← clock? date rest
        let offset ← offset? rest
        return { instant with offset }
      else none

/-! Order -/

/-- The days from the start of the year zero to the start of a year. -/
def daysBeforeYear (year : Nat) : Nat :=
  365 * year + (year + 3) / 4 - (year + 99) / 100 + (year + 399) / 400

def daysBeforeMonth (year month : Nat) : Nat :=
  ((List.range month).drop 1).foldl (fun days earlier => days + daysIn year earlier) 0

/-- The seconds from the start of the year zero in Greenwich. -/
def seconds (instant : Instant) : Int :=
  let days := daysBeforeYear instant.year + daysBeforeMonth instant.year instant.month +
    instant.day
  let minutes : Int := (days * 24 + instant.hour) * 60 + instant.minute
  (minutes - instant.offset) * 60 + instant.second

/-- The order of points in time as keys: by the fraction of the second, then by the second. -/
def compareKeys (left right : Instant) : Ordering :=
  (compare left.nanosecond right.nanosecond).then <|
    (compare left.seconds right.seconds).then (compare left.offset right.offset)

/-- Whether two points in time are one key.  An offset belongs to the one it was written with. -/
def isSameKey (left right : Instant) : Bool :=
  left.compareKeys right == .eq && left.offset == 0

/-! Writing -/

def padded (width value : Nat) : String :=
  let digits := Text.ofNat value
  String.ofList (List.replicate (width - digits.length) '0') ++ digits

def fractionText (nanosecond : Nat) : String :=
  if nanosecond = 0 then ""
  else
    let digits := (padded 9 nanosecond).toList.reverse.dropWhile (· == '0')
    "." ++ String.ofList digits.reverse

def dayText (instant : Instant) : String :=
  padded 4 instant.year ++ "-" ++ padded 2 instant.month ++ "-" ++ padded 2 instant.day

def clockText (instant : Instant) : String :=
  padded 2 instant.hour ++ ":" ++ padded 2 instant.minute ++ ":" ++ padded 2 instant.second ++
    fractionText instant.nanosecond

def offsetText (separator : String) (offset : Int) : String :=
  let total := offset.natAbs
  (if offset < 0 then "-" else "+") ++ padded 2 (total / 60) ++ separator ++ padded 2 (total % 60)

/-- The form in metadata, which has no offsets of a day or more. -/
def serialised? (instant : Instant) : Option String :=
  if instant.offset.natAbs < 24 * 60 then
    some (instant.dayText ++ "T" ++ instant.clockText ++
      (if instant.offset = 0 then "Z" else offsetText ":" instant.offset))
  else none

/-- The form in listings, with the offset as the name of a zone that has no other. -/
def listed (instant : Instant) : String :=
  let zone := offsetText "" instant.offset
  instant.dayText ++ " " ++ instant.clockText ++ " " ++ zone ++ " " ++
    (if instant.offset = 0 then "UTC" else zone)

end Instant

end Patchbay
