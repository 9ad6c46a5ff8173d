import Patchbay.Number.Binary
import Patchbay.Text.Blank
import Patchbay.Text.Integer

namespace Patchbay.Number

/-! Reading numbers from text.

A number is an optional sign followed by decimal digits with an optional point
and an optional exponent, or by `0x` and hexadecimal digits with an optional
point and a mandatory binary exponent.  Single underscores may separate digits.
`inf`, `infinity` and an unsigned `nan` are read in any case.  The value is the
nearest double; one that is too large is out of range, one that is too small is
zero.
-/

inductive Reading where
  | malformed
  | outOfRange
  | number (value : Float)

/-- A mantissa or exponent field: its digits without separators, and what follows it. -/
def takeDigits (isDigit : Char → Bool) (text : List Char) : List Char × List Char :=
  ((text.takeWhile fun c => isDigit c || c == '_').filter (· != '_'),
    text.dropWhile fun c => isDigit c || c == '_')

inductive SeparatorState where
  | start
  | digit
  | separator
  | other
deriving DecidableEq

/-- Whether every underscore stands between two digits, a base mark counting as a digit. -/
def separatorsAllowed (text : List Char) : Bool :=
  let unsigned := (Text.splitSign text).2
  let (hexadecimal, before, rest) := match unsigned with
    | '0' :: mark :: rest =>
        if Text.asciiLower mark ∈ ['b', 'o', 'x'] then
          (Text.asciiLower mark == 'x', SeparatorState.digit, rest)
        else (false, SeparatorState.start, unsigned)
    | _ => (false, SeparatorState.start, unsigned)
  let isDigit (c : Char) : Bool :=
    Text.isDigit c || (hexadecimal && 'a' ≤ Text.asciiLower c && Text.asciiLower c ≤ 'f')
  let step (state : Option SeparatorState) (c : Char) : Option SeparatorState := do
    let before ← state
    if isDigit c then some .digit
    else if c == '_' then (if before = .digit then some .separator else none)
    else if before = .separator then none
    else some .other
  match rest.foldl step (some before) with
  | some .separator => false
  | some _ => true
  | none => false

/-- A scanned number: `mantissa · base ^ exponent`, where the base is ten or two. -/
structure Scanned where
  mantissa : Nat
  exponent : Int
  hexadecimal : Bool

def hexDigitValue (c : Char) : Nat :=
  if Text.isDigit c then Text.digitValue c else (Text.asciiLower c).toNat - 'a'.toNat + 10

def isHexDigit (c : Char) : Bool :=
  Text.isDigit c || ('a' ≤ Text.asciiLower c && Text.asciiLower c ≤ 'f')

/-- An exponent with an optional sign, which must make up the whole text. -/
def scanExponent? (text : List Char) : Option Int :=
  let (negative, unsigned) := Text.splitSign text
  match unsigned with
  | first :: _ =>
      if Text.isDigit first then
        let (digits, rest) := takeDigits Text.isDigit unsigned
        if rest.isEmpty then
          let size : Int := Text.natOfDigits digits
          some (if negative then -size else size)
        else none
      else none
  | [] => none

/-- Scans an unsigned number that makes up the whole text. -/
def scan? (text : List Char) : Option Scanned := do
  let (hexadecimal, body) := match text with
    | '0' :: mark :: next :: rest =>
        if mark == 'x' || mark == 'X' then (true, next :: rest) else (false, text)
    | _ => (false, text)
  let isDigit := if hexadecimal then isHexDigit else Text.isDigit
  let (whole, afterWhole) := takeDigits isDigit body
  let (fraction, afterFraction) := match afterWhole with
    | '.' :: rest => takeDigits isDigit rest
    | _ => ([], afterWhole)
  let digits := whole ++ fraction
  if digits.isEmpty then none
  let mark := if hexadecimal then 'p' else 'e'
  let exponent ← match afterFraction with
    | [] => if hexadecimal then none else some 0
    | c :: rest => if Text.asciiLower c == mark then scanExponent? rest else none
  let places : Int := fraction.length
  if hexadecimal then
    let mantissa := digits.foldl (fun total c => total * 16 + hexDigitValue c) 0
    return ⟨mantissa, exponent - 4 * places, true⟩
  else return ⟨Text.natOfDigits digits, exponent - places, false⟩

/-- Exponents beyond this many digits decide the result without looking at the mantissa. -/
def exponentLimit : Int := 5000

/-- The unsigned pattern nearest to a scanned number; `none` when it is too large. -/
def Scanned.round (scanned : Scanned) : Option Nat :=
  if scanned.mantissa = 0 then some 0
  else
    let base := if scanned.hexadecimal then 2 else 10
    let size : Int := (Nat.toDigits base scanned.mantissa).length
    let magnitude := size + scanned.exponent
    if magnitude > exponentLimit then none
    else if magnitude < -exponentLimit then some 0
    else
      let (numerator, denominator) := scale base scanned.exponent scanned.mantissa 1
      roundRatio .double numerator denominator

def read (text : String) : Reading :=
  let characters := text.toList
  let (negative, unsigned) := Text.splitSign characters
  let word := unsigned.map Text.asciiLower
  if word = "inf".toList || word = "infinity".toList then .number (infinityOf negative)
  else if characters.map Text.asciiLower = "nan".toList then .number notANumber
  else if characters.contains '_' && !separatorsAllowed characters then .malformed
  else match scan? unsigned with
    | none => .malformed
    | some scanned =>
        match scanned.round with
        | none => .outOfRange
        | some bits => .number (doubleOfBits negative bits)

/-- The number a text spells, if it spells one that is in range. -/
def read? (text : String) : Option Float :=
  match read text with
  | .number value => some value
  | _ => none

end Patchbay.Number
