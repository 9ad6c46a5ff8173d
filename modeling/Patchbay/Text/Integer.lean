namespace Patchbay.Text

/-! Decimal integers of 64 bits.

A written integer is an optional sign followed by at least one decimal digit;
leading zeros are allowed and nothing else is.  A value outside the signed
64-bit range is no integer.
-/

def isDigit (c : Char) : Bool := '0' ≤ c && c ≤ '9'

def digitValue (c : Char) : Nat := c.toNat - '0'.toNat

def natOfDigits (digits : List Char) : Nat :=
  digits.foldl (fun total c => total * 10 + digitValue c) 0

def natOfDigits? (digits : List Char) : Option Nat :=
  if digits.isEmpty || !digits.all isDigit then none else some (natOfDigits digits)

/-- Splits an optional sign off: `true` stands for a minus sign. -/
def splitSign : List Char → Bool × List Char
  | '-' :: rest => (true, rest)
  | '+' :: rest => (false, rest)
  | unsigned => (false, unsigned)

/-- Two to the 63rd: the words are the integers from its negative up to below it. -/
def wordLimit : Int := 9223372036854775808

/-- Two to the 64th, the number of words. -/
def wordCount : Nat := 18446744073709551616

def fitsWord (value : Int) : Bool := -wordLimit ≤ value && value < wordLimit

def integer? (text : String) : Option Int := do
  let (negative, digits) := splitSign text.toList
  let magnitude ← natOfDigits? digits
  let value : Int := if negative then -(magnitude : Int) else magnitude
  if fitsWord value then some value else none

def ofInt (value : Int) : String :=
  match value with
  | .ofNat magnitude => String.ofList (Nat.toDigits 10 magnitude)
  | .negSucc below => String.ofList ('-' :: Nat.toDigits 10 (below + 1))

def ofNat (value : Nat) : String := String.ofList (Nat.toDigits 10 value)

/-- Lower-case hexadecimal digits, filled with zeros on the left up to a width. -/
def hexDigits (width value : Nat) : List Char :=
  let digits := Nat.toDigits 16 value
  List.replicate (width - digits.length) '0' ++ digits

end Patchbay.Text
