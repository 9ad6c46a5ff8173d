import Patchbay.Fault
import Patchbay.Format.Yaml.Scalar
import Patchbay.Table

namespace Patchbay.CommandLine

/-! Flags of a command.

A flag has one dash or two.  Its value follows an equals sign or is the next
argument; a switch needs none.  The first argument that is no flag, or two dashes
alone, ends the flags.
-/

inductive FlagValue where
  | text (value : String)
  | integer (value : Int)
  | switch (value : Bool)
deriving DecidableEq, Repr

/-- The flags of a command with their values, at first the defaults. -/
abbrev Flags := Table FlagValue

namespace Flags

def text (flags : Flags) (name : String) : String :=
  match flags.get? name with
  | some (.text value) => value
  | _ => ""

def integer (flags : Flags) (name : String) : Int :=
  match flags.get? name with
  | some (.integer value) => value
  | _ => 0

def switch (flags : Flags) (name : String) : Bool :=
  match flags.get? name with
  | some (.switch value) => value
  | _ => false

end Flags

def switchValue? : String → Option Bool
  | "1" | "t" | "T" | "true" | "TRUE" | "True" => some true
  | "0" | "f" | "F" | "false" | "FALSE" | "False" => some false
  | _ => none

/-- Why a text is no integer. -/
inductive IntegerFault where
  | malformed
  | outOfRange
deriving DecidableEq, Repr

def IntegerFault.reason : IntegerFault → String
  | .malformed => "parse error"
  | .outOfRange => "value out of range"

/-- The base that a spelling shows, whether it shows it by a letter, and the digits. -/
def splitBase : List Char → Nat × Bool × List Char
  | '0' :: rest =>
      match rest with
      | mark :: _ :: _ =>
          match Text.asciiLower mark with
          | 'b' => (2, true, rest.drop 1)
          | 'o' => (8, true, rest.drop 1)
          | 'x' => (16, true, rest.drop 1)
          | _ => (8, false, rest)
      | _ => (8, false, rest)
  | digits => (10, false, digits)

/-- Reads digits up to the first that is wrong or that exceeds 64 bits; underscores do not
count. -/
def readDigits (base value : Nat) : List Char → Except IntegerFault Nat
  | [] => .ok value
  | '_' :: rest => readDigits base value rest
  | c :: rest =>
      match Yaml.digitIn? base c with
      | none => .error .malformed
      | some digit =>
          let next := value * base + digit
          if next < Text.wordCount then readDigits base next rest else .error .outOfRange

/-- Whether every underscore stands between two digits, a base letter counting as one. -/
def underscoresFit (afterDigit : Bool) : List Char → Bool
  | [] => true
  | '_' :: rest =>
      match rest with
      | [] => false
      | next :: _ => afterDigit && next != '_' && underscoresFit false rest
  | _ :: rest => underscoresFit true rest

/-- The integer that a flag's value spells, with a base letter or without. -/
def integerValue (text : String) : Except IntegerFault Int := do
  let (negative, unsigned) := Text.splitSign text.toList
  if unsigned.isEmpty then throw .malformed
  let (base, hasLetter, digits) := splitBase unsigned
  let magnitude ← readDigits base 0 digits
  if !underscoresFit (hasLetter || base == 8) digits then throw .malformed
  let value : Int := if negative then -magnitude else magnitude
  if Text.fitsWord value then return value else throw .outOfRange

/-- What an argument is. -/
inductive Argument where
  | operand
  | endOfFlags
  | malformed
  | flag (name : String) (value : Option String)

def splitAssignment : List Char → List Char × Option (List Char)
  | [] => ([], none)
  | '=' :: rest => ([], some rest)
  | c :: rest =>
      let (name, value) := splitAssignment rest
      (c :: name, value)

def Argument.ofName : List Char → Argument
  | [] | '-' :: _ | '=' :: _ => .malformed
  | first :: rest =>
      let (name, value) := splitAssignment rest
      .flag (String.ofList (first :: name)) (value.map String.ofList)

def Argument.ofText (text : String) : Argument :=
  match text.toList with
  | ['-', '-'] => .endOfFlags
  | '-' :: '-' :: name => .ofName name
  | '-' :: c :: rest => .ofName (c :: rest)
  | _ => .operand

/-- The value of a flag, read in the way of the value it has. -/
def readValue (name text : String) : FlagValue → Outcome FlagValue
  | .text _ => .ok (.text text)
  | .integer _ =>
      match integerValue text with
      | .ok value => .ok (.integer value)
      | .error fault => .error (.malformedFlag text name fault.reason)
  | .switch _ =>
      match switchValue? text with
      | some value => .ok (.switch value)
      | none => .error (.malformedSwitch text name)

def helpNames : List String := ["help", "h"]

/-- Reads flags from arguments, and gives the operands that follow them. -/
def Flags.parse (flags : Flags) : List String → Outcome (Flags × List String)
  | [] => .ok (flags, [])
  | argument :: rest =>
      match Argument.ofText argument with
      | .operand => .ok (flags, argument :: rest)
      | .endOfFlags => .ok (flags, rest)
      | .malformed => .error (.flagSyntax argument)
      | .flag name value =>
          match flags.get? name with
          | none =>
              .error (if helpNames.contains name then .helpRequested else .undefinedFlag name)
          | some old =>
              match value, old with
              | some text, _ =>
                  (readValue name text old).bind fun read =>
                    Flags.parse (flags.set name read) rest
              | none, .switch _ => Flags.parse (flags.set name (.switch true)) rest
              | none, _ =>
                  match rest with
                  | [] => .error (.missingFlagArgument name)
                  | text :: rest =>
                      (readValue name text old).bind fun read =>
                        Flags.parse (flags.set name read) rest

end Patchbay.CommandLine
