import Patchbay.Number.Layout
import Patchbay.Text.Blank
import Patchbay.Text.Integer

namespace Patchbay

/-! JSON documents.

A document keeps the order of its members and the text of its numbers.  The reader
takes the first value of a text and leaves what follows it; a surrogate escape
without its partner stands for the replacement character.  The writer escapes what
must not stand in a script: angle brackets, the ampersand and the two separators
U+2028 and U+2029.
-/

inductive Json where
  | null
  | bool (value : Bool)
  | number (spelling : String)
  | text (value : String)
  | array (items : List Json)
  | object (members : List (String × Json))
deriving Inhabited

namespace Json

/-! Reading -/

def isSpace (c : Char) : Bool := c == ' ' || c == '\t' || c == '\n' || c == '\r'

def skipSpace (text : List Char) : List Char := text.dropWhile isSpace

def hexValue? (c : Char) : Option Nat :=
  if '0' ≤ c && c ≤ '9' then some (c.toNat - '0'.toNat)
  else if 'a' ≤ c && c ≤ 'f' then some (c.toNat - 'a'.toNat + 10)
  else if 'A' ≤ c && c ≤ 'F' then some (c.toNat - 'A'.toNat + 10)
  else none

/-- The unit that four hexadecimal digits stand for. -/
def unit? : List Char → Option (Nat × List Char)
  | a :: b :: c :: d :: rest => do
      let a ← hexValue? a
      let b ← hexValue? b
      let c ← hexValue? c
      let d ← hexValue? d
      return (((a * 16 + b) * 16 + c) * 16 + d, rest)
  | _ => none

def isHighSurrogate (unit : Nat) : Bool := 0xD800 ≤ unit && unit < 0xDC00

def isLowSurrogate (unit : Nat) : Bool := 0xDC00 ≤ unit && unit < 0xE000

def replacement : Char := Char.ofNat 0xFFFD

/-- The character of a unit escape, which may take a second escape to make a pair. -/
def escapedUnit (unit : Nat) (rest : List Char) : Char × List Char :=
  if isHighSurrogate unit then
    match rest with
    | '\\' :: 'u' :: more =>
        match unit? more with
        | some (low, after) =>
            if isLowSurrogate low then
              (Char.ofNat (0x10000 + (unit - 0xD800) * 0x400 + (low - 0xDC00)), after)
            else (replacement, rest)
        | none => (replacement, rest)
    | _ => (replacement, rest)
  else if isLowSurrogate unit then (replacement, rest)
  else (Char.ofNat unit, rest)

def escapeLetter? : Char → Option Char
  | '"' => some '"'
  | '\\' => some '\\'
  | '/' => some '/'
  | 'b' => some '\x08'
  | 'f' => some '\x0c'
  | 'n' => some '\n'
  | 'r' => some '\r'
  | 't' => some '\t'
  | _ => none

/-- Reads the inside of a string up to its closing quote. -/
def readString (fuel : Nat) (text : List Char) (read : List Char) :
    Option (String × List Char) :=
  match fuel, text with
  | 0, _ => none
  | _, [] => none
  | _ + 1, '"' :: rest => some (String.ofList read.reverse, rest)
  | fuel + 1, '\\' :: 'u' :: rest => do
      let (unit, rest) ← unit? rest
      let (c, rest) := escapedUnit unit rest
      readString fuel rest (c :: read)
  | fuel + 1, '\\' :: letter :: rest => do
      let c ← escapeLetter? letter
      readString fuel rest (c :: read)
  | fuel + 1, c :: rest =>
      if c == '\\' || c.toNat < 0x20 then none else readString fuel rest (c :: read)

def takeDigits (text : List Char) : List Char × List Char :=
  (text.takeWhile Text.isDigit, text.dropWhile Text.isDigit)

/-- Reads an integer part: a zero, or digits that do not start with one. -/
def readWhole (text : List Char) : Option (List Char × List Char) :=
  match text with
  | '0' :: rest => some (['0'], rest)
  | _ =>
      let (digits, rest) := takeDigits text
      if digits.isEmpty then none else some (digits, rest)

/-- Reads what a mark introduces, if it is there: a fraction or an exponent. -/
def readFraction (text : List Char) : Option (List Char × List Char) :=
  match text with
  | '.' :: rest =>
      let (digits, rest) := takeDigits rest
      if digits.isEmpty then none else some ('.' :: digits, rest)
  | _ => some ([], text)

def readExponent (text : List Char) : Option (List Char × List Char) :=
  match text with
  | mark :: rest =>
      if mark == 'e' || mark == 'E' then
        let (sign, rest) := match rest with
          | '+' :: more => (['+'], more)
          | '-' :: more => (['-'], more)
          | _ => ([], rest)
        let (digits, rest) := takeDigits rest
        if digits.isEmpty then none else some (mark :: sign ++ digits, rest)
      else some ([], text)
  | [] => some ([], text)

def readNumber (text : List Char) : Option (String × List Char) := do
  let (sign, text) := match text with
    | '-' :: rest => (['-'], rest)
    | _ => ([], text)
  let (whole, text) ← readWhole text
  let (fraction, text) ← readFraction text
  let (exponent, text) ← readExponent text
  return (String.ofList (sign ++ whole ++ fraction ++ exponent), text)

/-- How deep brackets may be nested. -/
def deepest : Nat := 10000

mutual

/-- Reads one value, in which brackets may be nested down to a depth.  The fuel bounds the number of
characters that can be looked at. -/
def readValue (fuel depth : Nat) (text : List Char) : Option (Json × List Char) :=
  match fuel with
  | 0 => none
  | fuel + 1 =>
      match skipSpace text with
      | 'n' :: 'u' :: 'l' :: 'l' :: rest => some (.null, rest)
      | 't' :: 'r' :: 'u' :: 'e' :: rest => some (.bool true, rest)
      | 'f' :: 'a' :: 'l' :: 's' :: 'e' :: rest => some (.bool false, rest)
      | '"' :: rest => (readString (rest.length + 1) rest []).map fun (value, rest) =>
          (.text value, rest)
      | '[' :: rest =>
          match depth, skipSpace rest with
          | 0, _ => none
          | _ + 1, ']' :: rest => some (.array [], rest)
          | depth + 1, rest => (readItems fuel depth rest).map fun (items, rest) =>
              (.array items, rest)
      | '{' :: rest =>
          match depth, skipSpace rest with
          | 0, _ => none
          | _ + 1, '}' :: rest => some (.object [], rest)
          | depth + 1, rest => (readMembers fuel depth rest).map fun (members, rest) =>
              (.object members, rest)
      | rest => (readNumber rest).map fun (spelling, rest) => (.number spelling, rest)

def readItems (fuel depth : Nat) (text : List Char) : Option (List Json × List Char) :=
  match fuel with
  | 0 => none
  | fuel + 1 => do
      let (item, rest) ← readValue fuel depth text
      match skipSpace rest with
      | ',' :: rest => do
          let (items, rest) ← readItems fuel depth rest
          return (item :: items, rest)
      | ']' :: rest => return ([item], rest)
      | _ => none

def readMembers (fuel depth : Nat) (text : List Char) :
    Option (List (String × Json) × List Char) :=
  match fuel with
  | 0 => none
  | fuel + 1 =>
      match skipSpace text with
      | '"' :: rest => do
          let (key, rest) ← readString (rest.length + 1) rest []
          match skipSpace rest with
          | ':' :: rest => do
              let (value, rest) ← readValue fuel depth rest
              match skipSpace rest with
              | ',' :: rest => do
                  let (members, rest) ← readMembers fuel depth rest
                  return ((key, value) :: members, rest)
              | '}' :: rest => return ([(key, value)], rest)
              | _ => none
          | _ => none
      | _ => none

end

/-- The first value of a text. -/
def readFirst? (text : String) : Option Json :=
  let characters := text.toList
  (readValue (2 * characters.length + 2) deepest characters).map Prod.fst

/-! Writing -/

def escapeChar (c : Char) : List Char :=
  let code := c.toNat
  if c = '"' || c = '\\' then ['\\', c]
  else if c = '\n' then ['\\', 'n']
  else if c = '\r' then ['\\', 'r']
  else if c = '\t' then ['\\', 't']
  else if code = 8 then ['\\', 'b']
  else if code = 12 then ['\\', 'f']
  else if code < 0x20 || c = '<' || c = '>' || c = '&' || code = 0x2028 || code = 0x2029 then
    '\\' :: 'u' :: Text.hexDigits 4 code
  else [c]

def quote (value : String) : String :=
  String.ofList ('"' :: value.toList.flatMap escapeChar ++ ['"'])

mutual

/-- The document on one line. -/
def write : Json → String
  | .null => "null"
  | .bool value => if value then "true" else "false"
  | .number spelling => spelling
  | .text value => quote value
  | .array items => "[" ++ String.intercalate "," (writeItems items) ++ "]"
  | .object members => "\x7b" ++ String.intercalate "," (writeMembers members) ++ "\x7d"

def writeItems : List Json → List String
  | [] => []
  | item :: rest => item.write :: writeItems rest

def writeMembers : List (String × Json) → List String
  | [] => []
  | (key, value) :: rest => (quote key ++ ":" ++ value.write) :: writeMembers rest

end

def ofInt (value : Int) : Json := .number (Text.ofInt value)

def ofNat (value : Nat) : Json := .number (Text.ofNat value)

/-- An object with its members in order of their keys. -/
def sorted (members : List (String × Json)) : Json :=
  .object (members.mergeSort fun left right => !decide (right.1 < left.1))

end Json

end Patchbay
