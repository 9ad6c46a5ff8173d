import Patchbay.Number.Shortest

namespace Patchbay.Number

/-! Written forms of numbers.

All forms use the shortest digits that read back and differ only in when they
change from positional digits to an exponent.
-/

structure Layout where
  /-- Decimal exponents below this are written with an exponent. -/
  leastPositional : Option Int
  /-- Decimal exponents from this on are written with an exponent. -/
  firstExponential : Option Int
  exponentWidth : Nat
deriving Repr

/-- Numbers of generated code never have an exponent. -/
def Layout.code : Layout := ⟨none, none, 2⟩

/-- Listings for people: positional from one ten-thousandth to below a million. -/
def Layout.listing : Layout := ⟨some (-4), some 6, 2⟩

/-- Serialised metadata: positional from one millionth to below `10 ^ 21`. -/
def Layout.metadata : Layout := ⟨some (-6), some 21, 1⟩

namespace Decimal

def positional (decimal : Decimal) : List Char :=
  let count := decimal.digits.length
  if decimal.digits.isEmpty then ['0']
  else if decimal.point ≤ 0 then
    '0' :: '.' :: List.replicate (-decimal.point).toNat '0' ++ decimal.digits
  else
    let whole := decimal.point.toNat
    if count ≤ whole then decimal.digits ++ List.replicate (whole - count) '0'
    else decimal.digits.take whole ++ '.' :: decimal.digits.drop whole

def exponential (width : Nat) (decimal : Decimal) : List Char :=
  let exponent : Int := if decimal.digits.isEmpty then 0 else decimal.point - 1
  let mantissa := match decimal.digits with
    | [] => ['0']
    | [digit] => [digit]
    | first :: rest => first :: '.' :: rest
  let size := Nat.toDigits 10 exponent.natAbs
  mantissa ++ 'e' :: (if exponent < 0 then '-' else '+') ::
    (List.replicate (width - size.length) '0' ++ size)

def write (layout : Layout) (decimal : Decimal) : List Char :=
  let exponent : Int := if decimal.digits.isEmpty then 0 else decimal.point - 1
  let small := layout.leastPositional.any (exponent < ·)
  let large := layout.firstExponential.any (· ≤ exponent)
  if small || large then decimal.exponential layout.exponentWidth else decimal.positional

end Decimal

def writeBinary (layout : Layout) (format : Format) : Binary → String
  | .notANumber => "NaN"
  | .infinite negative => if negative then "-Inf" else "+Inf"
  | .finite negative significand exponent =>
      let text := (shortest format significand exponent).write layout
      String.ofList (if negative then '-' :: text else text)

/-- The text of a number in generated code. -/
def toCode (value : Float) : String := writeBinary .code .double (ofDouble value)

/-- The text of a number in a listing. -/
def toListing (value : Float) : String := writeBinary .listing .double (ofDouble value)

/-- The text of a single-precision number in a listing. -/
def singleToListing (value : Float32) : String := writeBinary .listing .single (ofSingle value)

/-- The text of a finite number in serialised metadata. -/
def toMetadata (value : Float) : String := writeBinary .metadata .double (ofDouble value)

end Patchbay.Number
