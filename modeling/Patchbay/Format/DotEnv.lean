import Patchbay.Table
import Patchbay.Text.Blank
import Patchbay.Text.Integer

namespace Patchbay.DotEnv

/-! Environment files: a key and a value a line, with an equals sign or a colon between them.

A value may be quoted.  Without quotes it ends at its line or at the last comment
sign on it that has a blank before it.  Outside single quotes a dollar sign and a name stand for a value
that was given further up.
-/

/-- Blanks that do not end a line. -/
def isSpace (c : Char) : Bool :=
  c == '\t' || c == ' ' || c == '\r' || c.toNat == 0x0B || c.toNat == 0x0C ||
    c.toNat == 0x85 || c.toNat == 0xA0

def isLineEnd (c : Char) : Bool := c == '\n' || c == '\r'

def trimStart (text : List Char) : List Char := text.dropWhile isSpace

def trimBoth (text : List Char) : List Char := Text.trimList isSpace text

/-- One line end for a carriage return with a line feed. -/
def joinLineEnds : List Char → List Char
  | '\r' :: '\n' :: rest => '\n' :: joinLineEnds rest
  | c :: rest => c :: joinLineEnds rest
  | [] => []

/-- Moves to the next line that has more than a comment. -/
def statement? (fuel : Nat) (text : List Char) : Option (List Char) :=
  match fuel with
  | 0 => none
  | fuel + 1 =>
      match text.dropWhile Text.isBlank with
      | [] => none
      | '#' :: rest => statement? fuel (rest.dropWhile (· != '\n'))
      | text => some text

def exportWord : List Char := "export".toList

/-- Drops the word that marks a key for export, if a blank follows it. -/
def dropExport (text : List Char) : List Char :=
  if exportWord.isPrefixOf text then
    let rest := text.drop exportWord.length
    if rest.head?.any isSpace then trimStart rest else text
  else text

/-- Letters and digits of the first 256 characters. -/
def isWordByte (byte : Nat) : Bool :=
  let c := Char.ofNat byte
  c.isAlphanum || [0xAA, 0xB2, 0xB3, 0xB5, 0xB9, 0xBA, 0xBC, 0xBD, 0xBE].contains byte ||
    (0xC0 ≤ byte && byte ≤ 0xFF && byte != 0xD7 && byte != 0xF7)

/-- Whether a character may stand in a key.  Other characters than ASCII are judged by the bytes
that encode them. -/
def isKeyChar (c : Char) : Bool :=
  if c.toNat < 0x80 then c == '_' || c == '.' || isSpace c || isWordByte c.toNat
  else (String.singleton c).toUTF8.toList.all fun byte =>
    byte == 0x85 || byte == 0xA0 || isWordByte byte.toNat

/-- Splits a statement behind its key.  A statement without a separator is a value without key. -/
def splitKey (text : List Char) : Option (String × List Char) :=
  let text := dropExport (trimStart text)
  let key := text.takeWhile isKeyChar
  match text.drop key.length with
  | [] => if text.isEmpty then none else some ("", text)
  | c :: rest =>
      if c == '=' || c == ':' then
        let trimmed := (key.reverse.dropWhile Text.isBlank).reverse
        some (String.ofList trimmed, trimStart rest)
      else none

/-- The part of a line in front of the last comment sign that has a blank before it. -/
def beforeComment? (previous : Char) : List Char → Option (List Char)
  | [] => none
  | c :: rest =>
      match beforeComment? c rest with
      | some kept => some (c :: kept)
      | none => if c == '#' && isSpace previous then some [] else none

/-- Cuts a line at its comment.  A sign in front of the line begins none. -/
def cutComment : List Char → List Char
  | [] => []
  | first :: rest => first :: (beforeComment? first rest).getD rest

def isNameChar (c : Char) : Bool := ('A' ≤ c && c ≤ 'Z') || Text.isDigit c || c == '_'

def dropIf (mark : Char) (text : List Char) : List Char :=
  match text with
  | c :: rest => if c == mark then rest else text
  | [] => []

/-- Replaces names behind dollar signs; a backslash in front keeps the dollar sign. -/
def expand (fuel : Nat) (known : Table String) (text : List Char) : List Char :=
  match fuel, text with
  | 0, _ | _, [] => text
  | fuel + 1, '\\' :: '$' :: rest =>
      let (written, _, after) := reference rest
      '$' :: written ++ expand fuel known after
  | fuel + 1, '$' :: rest =>
      let (written, name, after) := reference rest
      if name.isEmpty then '$' :: written ++ expand fuel known after
      else (known.getD (String.ofList name) "").toList ++ expand fuel known after
  | fuel + 1, c :: rest => c :: expand fuel known rest
where
  /-- What stands behind a dollar sign: as it is written, the name in it, and the rest. -/
  reference (text : List Char) : List Char × List Char × List Char :=
    let opened := dropIf '{' (dropIf '(' text)
    let name := opened.takeWhile isNameChar
    let after := dropIf '}' (opened.drop name.length)
    (text.take (text.length - after.length), name, after)

/-- Line ends that are written as escapes. -/
def expandLineEnds : List Char → List Char
  | '\\' :: 'n' :: rest => '\n' :: expandLineEnds rest
  | '\\' :: 'r' :: rest => '\r' :: expandLineEnds rest
  | '\\' :: c :: rest => '\\' :: c :: expandLineEnds rest
  | c :: rest => c :: expandLineEnds rest
  | [] => []

/-- Drops backslashes that are not in front of a dollar sign. -/
def dropEscapes : List Char → List Char
  | '\\' :: c :: rest =>
      if c == '$' then '\\' :: dropEscapes (c :: rest) else c :: dropEscapes rest
  | c :: rest => c :: dropEscapes rest
  | [] => []

/-- Splits a text at the next quote that has no backslash before it. -/
def splitQuoted (quote previous : Char) : List Char → Option (List Char × List Char)
  | [] => none
  | c :: rest =>
      if c == quote && previous != '\\' then some ([], rest)
      else (splitQuoted quote c rest).map fun (inside, after) => (c :: inside, after)

def expandAll (known : Table String) (text : List Char) : String :=
  String.ofList (expand (text.length + 1) known text)

/-- Reads a value and gives what follows it. -/
def value? (known : Table String) (text : List Char) : Option (String × List Char) :=
  match text with
  | '"' :: rest => (splitQuoted '"' '"' rest).map fun (inside, after) =>
      let trimmed := Text.trimList (· == '"') inside
      (expandAll known (dropEscapes (expandLineEnds trimmed)), after)
  | '\'' :: rest => (splitQuoted '\'' '\'' rest).map fun (inside, after) =>
      (String.ofList (Text.trimList (· == '\'') inside), after)
  | _ =>
      let line := text.takeWhile fun c => !isLineEnd c
      some (expandAll known (trimBoth (cutComment line)), text.drop line.length)

def readAll (fuel : Nat) (known : Table String) (text : List Char) : Option (Table String) :=
  match fuel with
  | 0 => some known
  | fuel + 1 =>
      match statement? (text.length + 1) text with
      | none => some known
      | some statement => do
          let (key, rest) ← splitKey statement
          let (value, rest) ← value? known rest
          readAll fuel (known.set key value) rest

/-- The bindings of an environment file. -/
def read? (content : String) : Option (Table String) :=
  let text := joinLineEnds content.toList
  readAll (text.length + 1) ∅ text

end Patchbay.DotEnv
