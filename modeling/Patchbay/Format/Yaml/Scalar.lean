import Patchbay.Format.Yaml.Basic
import Patchbay.Value

namespace Patchbay.Yaml

/-! What scalars mean.

A quoted scalar is text.  A plain one is null, a Boolean, a number or a point in
time when it is spelled like one, and text otherwise.  Underscores between the
digits of a number do not count.
-/

/-- Spellings that have a fixed meaning. -/
def constant? : String → Option Value
  | "" | "~" | "null" | "Null" | "NULL" => some .null
  | "true" | "True" | "TRUE" => some (.bool true)
  | "false" | "False" | "FALSE" => some (.bool false)
  | ".nan" | ".NaN" | ".NAN" => some (.number Number.notANumber)
  | ".inf" | ".Inf" | ".INF" | "+.inf" | "+.Inf" | "+.INF" =>
      some (.number (Number.infinityOf false))
  | "-.inf" | "-.Inf" | "-.INF" => some (.number (Number.infinityOf true))
  | _ => none

def digitIn? (base : Nat) (c : Char) : Option Nat :=
  (Json.hexValue? c).bind fun value => if value < base then some value else none

def naturalIn? (base : Nat) (digits : List Char) : Option Nat :=
  digits.foldlM (fun value digit => (digitIn? base digit).map (value * base + ·)) 0

/-- A natural number with the base its spelling shows: a letter behind a zero, a zero alone for
base eight, or ten. -/
def natural? : List Char → Option Nat
  | [] => none
  | '0' :: rest =>
      match rest with
      | mark :: digit :: digits =>
          if mark == 'b' || mark == 'B' then naturalIn? 2 (digit :: digits)
          else if mark == 'o' || mark == 'O' then naturalIn? 8 (digit :: digits)
          else if mark == 'x' || mark == 'X' then naturalIn? 16 (digit :: digits)
          else naturalIn? 8 rest
      | _ => naturalIn? 8 rest
  | digits => naturalIn? 10 digits

/-- An integer of 64 bits, or a natural number of 64 bits without a sign. -/
def integer? (text : List Char) : Option Value :=
  let (signed, digits) := match text with
    | '-' :: rest => (some true, rest)
    | '+' :: rest => (some false, rest)
    | _ => (none, text)
  match natural? digits with
  | none => none
  | some magnitude =>
      let value : Int := if signed = some true then -magnitude else magnitude
      if Text.fitsWord value then some (.integer .machine value)
      else if signed.isNone && magnitude < Text.wordCount then some (.integer .unsigned64 value)
      else none

def dropDigits (text : List Char) : List Char := text.dropWhile Text.isDigit

def startsWithDigit (text : List Char) : Bool := text.head?.any Text.isDigit

/-- Whether a text spells a decimal number: digits with or without a point, and an exponent. -/
def isDecimal (text : List Char) : Bool :=
  let unsigned := match text with
    | '+' :: rest | '-' :: rest => rest
    | _ => text
  let afterMantissa := match unsigned with
    | '.' :: rest => if startsWithDigit rest then some (dropDigits rest) else none
    | _ =>
        if startsWithDigit unsigned then
          match dropDigits unsigned with
          | '.' :: rest => some (dropDigits rest)
          | rest => some rest
        else none
  match afterMantissa with
  | none => false
  | some [] => true
  | some (mark :: rest) =>
      let digits := match rest with
        | '+' :: more | '-' :: more => more
        | _ => rest
      (mark == 'e' || mark == 'E') && startsWithDigit digits && (dropDigits digits).isEmpty

/-- An integer of 64 bits with its sign behind the letter for base two or eight. -/
def signedBehindBase? : List Char → Option Value
  | '0' :: mark :: sign :: digit :: digits => do
      let base ← if mark == 'b' then some 2 else if mark == 'o' then some 8 else none
      let magnitude ← naturalIn? base (digit :: digits)
      let value : Int ← if sign == '-' then some (-Int.ofNat magnitude)
        else if sign == '+' then some (Int.ofNat magnitude)
        else none
      if Text.fitsWord value then some (.integer .machine value) else none
  | _ => none

/-- The number that a text with a sign or a digit in front spells. -/
def number? (text : String) : Option Value :=
  let plain := text.toList.filter (· != '_')
  let decimal :=
    if isDecimal plain then (Number.read? (String.ofList plain)).map .number else none
  (integer? plain).or (decimal.or (signedBehindBase? plain))

/-- What a plain scalar means. -/
def plainMeaning (text : String) : Value :=
  match constant? text with
  | some value => value
  | none =>
      let spelled : Option Value := match text.toList with
        | '.' :: _ => (Number.read? text).map .number
        | c :: _ =>
            if Text.isDigit c || c == '+' || c == '-' then
              ((Instant.read? text).map .instant).or (number? text)
            else none
        | [] => none
      spelled.getD (.text text)

namespace Scalar

/-- What a scalar means. -/
def meaning (scalar : Scalar) : Value :=
  if scalar.isPlain then plainMeaning scalar.text else .text scalar.text

def isNull (scalar : Scalar) : Bool :=
  match scalar.meaning with
  | .null => true
  | _ => false

def isText (scalar : Scalar) : Bool :=
  match scalar.meaning with
  | .text _ => true
  | _ => false

end Scalar

end Patchbay.Yaml
