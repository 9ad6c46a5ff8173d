import Patchbay.Format.Json

namespace Patchbay.Yaml

/-! Reading scalars from a position in a YAML text.

A scalar may run over several lines.  Blanks around a line end are dropped; one
line end becomes a blank, and of several all but the first are kept.
-/

def isBlank (c : Char) : Bool := c == ' ' || c == '\t'

/-- Line ends: line feed, carriage return, next line, line and paragraph separator. -/
def isBreak (c : Char) : Bool :=
  c == '\n' || c == '\r' || c.toNat == 0x85 || c.toNat == 0x2028 || c.toNat == 0x2029

/-- Characters that may stand in a YAML text at all. -/
def isAllowed (c : Char) : Bool :=
  let code := c.toNat
  code == 0x09 || code == 0x0A || code == 0x0D || (0x20 ≤ code && code ≤ 0x7E) ||
    code == 0x85 || (0xA0 ≤ code && code ≤ 0xFFFD) || 0x10000 ≤ code

structure Cursor where
  rest : List Char
  /-- The number of characters before this position. -/
  offset : Nat := 0
  line : Nat := 0
  column : Nat := 0

namespace Cursor

/-- Moves over characters of one line. -/
def skip (cursor : Cursor) (count : Nat) : Cursor :=
  { cursor with
    rest := cursor.rest.drop count
    offset := cursor.offset + count
    column := cursor.column + count }

/-- Moves over a line end.  A carriage return and a line feed after it are one line end. -/
def skipBreak (cursor : Cursor) : Cursor :=
  let width := match cursor.rest with
    | '\r' :: '\n' :: _ => 2
    | _ => 1
  { rest := cursor.rest.drop width
    offset := cursor.offset + width
    line := cursor.line + 1
    column := 0 }

/-- What a line end contributes where it is kept. -/
def breakText (cursor : Cursor) : List Char :=
  match cursor.rest with
  | c :: _ => if c.toNat == 0x2028 || c.toNat == 0x2029 then [c] else ['\n']
  | [] => []

/-- Whether a blank, a line end or the end of the text follows. -/
def blankFollows : List Char → Bool
  | [] => true
  | c :: _ => isBlank c || isBreak c

/-- Whether a document marker stands here: three dashes or dots at the start of a line. -/
def atMarker (cursor : Cursor) (mark : Char) : Bool :=
  cursor.column == 0 && match cursor.rest with
    | a :: b :: c :: rest => a == mark && b == mark && c == mark && blankFollows rest
    | _ => false

def atAnyMarker (cursor : Cursor) : Bool := cursor.atMarker '-' || cursor.atMarker '.'

end Cursor

/-- Blanks and line ends between two pieces of a scalar. -/
structure Gap where
  blanks : List Char := []
  breaks : List (List Char) := []
  /-- Whether a line end was met, be it an escaped one. -/
  isFolded : Bool := false

namespace Gap

/-- The text a gap stands for. -/
def text (gap : Gap) : List Char :=
  if !gap.isFolded then gap.blanks
  else match gap.breaks with
    | [] => []
    | first :: others =>
        if first != ['\n'] then first ++ others.flatten
        else if others.isEmpty then [' ']
        else others.flatten

/-- Reads on to the next piece.  A tab is refused where it would stand for indentation. -/
def read (fuel : Nat) (indent : Int) (cursor : Cursor) (gap : Gap) : Option (Gap × Cursor) :=
  match fuel, cursor.rest with
  | 0, _ | _, [] => some (gap, cursor)
  | fuel + 1, c :: _ =>
      if isBlank c then
        if gap.isFolded && c == '\t' && (cursor.column : Int) < indent then none
        else
          let blanks := if gap.isFolded then gap.blanks else gap.blanks ++ [c]
          read fuel indent (cursor.skip 1) { gap with blanks }
      else if isBreak c then
        read fuel indent cursor.skipBreak
          { blanks := [], breaks := gap.breaks ++ [cursor.breakText], isFolded := true }
      else some (gap, cursor)

end Gap

/-! Plain scalars -/

/-- Whether a plain scalar ends in front of a character. -/
def endsPlain (inFlow : Bool) (c : Char) (rest : List Char) : Bool :=
  (c == ':' && Cursor.blankFollows rest) ||
    (inFlow && (c == ',' || c == '?' || c == '[' || c == ']' || c == '{' || c == '}'))

/-- The characters up to a blank, a line end or the end of the scalar. -/
def plainRun (inFlow : Bool) : List Char → List Char
  | [] => []
  | c :: rest =>
      if isBlank c || isBreak c || endsPlain inFlow c rest then []
      else c :: plainRun inFlow rest

/-- What a scalar gives: its text, the position after it and whether a line end was passed after
its last character. -/
structure ScalarText where
  text : String
  cursor : Cursor
  endsLine : Bool

/-- Reads a plain scalar.  In a block it ends where the indentation falls below its own. -/
def readPlain (fuel : Nat) (inFlow : Bool) (indent : Int) (cursor : Cursor) (gap : Gap)
    (read : List Char) : Option ScalarText :=
  let finish := some ⟨String.ofList read, cursor, gap.isFolded⟩
  match fuel with
  | 0 => finish
  | fuel + 1 =>
      if cursor.atAnyMarker || cursor.rest.head? == some '#' then finish
      else
        let run := plainRun inFlow cursor.rest
        if run.isEmpty then finish
        else do
          let read := read ++ gap.text ++ run
          let after := cursor.skip run.length
          let (gap, next) ← Gap.read (after.rest.length + 1) indent after {}
          if !inFlow && (next.column : Int) < indent then
            return ⟨String.ofList read, next, gap.isFolded⟩
          readPlain fuel inFlow indent next gap read

/-! Quoted scalars -/

def hexNumber? (digits : List Char) : Option Nat :=
  digits.foldlM (fun value digit => (Json.hexValue? digit).map (value * 16 + ·)) 0

/-- The character of an escape with a fixed number of hexadecimal digits. -/
def numericEscape (width : Nat) (rest : List Char) : Option (List Char × Nat) := do
  let digits := rest.take width
  if digits.length ≠ width then none
  let code ← hexNumber? digits
  if (0xD800 ≤ code ∧ code ≤ 0xDFFF) ∨ 0x10FFFF < code then none
  return ([Char.ofNat code], width + 2)

/-- What an escape stands for, and its width. -/
def escape? : List Char → Option (List Char × Nat)
  | [] => none
  | c :: rest =>
      let plain (code : Nat) : Option (List Char × Nat) := some ([Char.ofNat code], 2)
      match c with
      | '0' => plain 0
      | 'a' => plain 7
      | 'b' => plain 8
      | 't' | '\t' => plain 9
      | 'n' => plain 10
      | 'v' => plain 11
      | 'f' => plain 12
      | 'r' => plain 13
      | 'e' => plain 27
      | ' ' => plain 32
      | '"' => plain 34
      | '\'' => plain 39
      | '\\' => plain 92
      | 'N' => plain 0x85
      | '_' => plain 0xA0
      | 'L' => plain 0x2028
      | 'P' => plain 0x2029
      | 'x' => numericEscape 2 rest
      | 'u' => numericEscape 4 rest
      | 'U' => numericEscape 8 rest
      | _ => none

/-- Reads the inside of a quoted scalar, behind its opening quote. -/
def readQuoted (fuel : Nat) (quote : Char) (cursor : Cursor) (read : List Char) :
    Option (String × Cursor) :=
  match fuel with
  | 0 => none
  | fuel + 1 =>
      if cursor.atAnyMarker then none
      else match cursor.rest with
        | [] => none
        | '\'' :: '\'' :: _ =>
            if quote == '\'' then readQuoted fuel quote (cursor.skip 2) (read ++ ['\''])
            else readQuoted fuel quote (cursor.skip 1) (read ++ ['\''])
        | c :: rest =>
            if c == quote then some (String.ofList read, cursor.skip 1)
            else if c == '\\' && quote == '"' then
              if rest.head?.any isBreak then do
                let broken := (cursor.skip 1).skipBreak
                let (gap, next) ← Gap.read (rest.length + 1) 0 broken
                  { breaks := [[]], isFolded := true }
                readQuoted fuel quote next (read ++ gap.text)
              else do
                let (escaped, width) ← escape? rest
                readQuoted fuel quote (cursor.skip width) (read ++ escaped)
            else if isBlank c || isBreak c then do
              let (gap, next) ← Gap.read (rest.length + 2) 0 cursor {}
              readQuoted fuel quote next (read ++ gap.text)
            else readQuoted fuel quote (cursor.skip 1) (read ++ [c])

end Patchbay.Yaml
