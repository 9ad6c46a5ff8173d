import Patchbay.Text.Integer

namespace Patchbay.Text

/-! Identifiers built from lists of arbitrary texts.

ASCII letters and digits stand for themselves.  Any other character, the
underscore included, is written as its code point in hexadecimal between two
dollar signs, and parts are joined by an underscore.  An underscore of the
result is therefore always a boundary between two parts.
-/

def isPlain (c : Char) : Bool :=
  ('a' ≤ c && c ≤ 'z') || ('A' ≤ c && c ≤ 'Z') || isDigit c

def encodeChar (c : Char) : List Char :=
  if isPlain c then [c] else '$' :: Nat.toDigits 16 c.toNat ++ ['$']

def encodePart (part : String) : List Char := part.toList.flatMap encodeChar

def joinParts : List String → List Char
  | [] => []
  | [part] => encodePart part
  | part :: rest => encodePart part ++ '_' :: joinParts rest

def join (parts : List String) : String := String.ofList (joinParts parts)

end Patchbay.Text
