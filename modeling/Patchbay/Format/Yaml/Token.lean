import Patchbay.Format.Yaml.Cursor

namespace Patchbay.Yaml

/-! The tokens of a YAML text.

Structure that the text shows by indentation is made explicit: a block starts where
a line is indented more than the block around it and ends where a line is indented
less.  That a scalar or a bracket was the key of a mapping shows only at the colon
behind it.  Wherever a key may begin a place is kept free, which the colon fills
in; the text is read once, and what was read never changes.
-/

inductive Token where
  | documentStart
  | documentEnd
  | textEnd
  | blockSequenceStart
  | blockMappingStart
  | blockEnd
  | flowSequenceStart
  | flowSequenceEnd
  | flowMappingStart
  | flowMappingEnd
  | blockEntry
  | flowEntry
  | key
  | value
  | scalar (text : String) (isPlain : Bool)
deriving Repr, Inhabited, DecidableEq

/-- A place where a key may have begun. -/
structure KeyPlace where
  number : Nat
  /-- Whether nothing but a key can stand there: it is on the indentation of a block mapping. -/
  isRequired : Bool
  offset : Nat
  line : Nat
  column : Nat

inductive Scanned where
  | token (token : Token)
  /-- A place kept free for the tokens of a key. -/
  | place (number : Nat)

structure Scanner where
  cursor : Cursor
  /-- What was read, the last first. -/
  read : List Scanned := []
  /-- Places that turned out to be the start of a key. -/
  keys : List (Nat × List Token) := []
  places : Nat := 0
  /-- The column of the innermost block. -/
  indent : Int := -1
  outerIndents : List Int := []
  /-- Whether a key may begin here. -/
  keyAllowed : Bool := true
  /-- Whether the first character of a line is passed over, whatever it is. -/
  marksLines : Bool := false
  /-- The last place of the innermost bracket, and those of the brackets around it. -/
  place : Option KeyPlace := none
  outerPlaces : List (Option KeyPlace) := []

namespace Scanner

def inFlow (scanner : Scanner) : Bool := !scanner.outerPlaces.isEmpty

def emit (scanner : Scanner) (token : Token) : Scanner :=
  { scanner with read := .token token :: scanner.read }

/-- Gives up the last place; a key that had to be there is missing. -/
def dropPlace (scanner : Scanner) : Option Scanner :=
  match scanner.place with
  | some place => if place.isRequired then none else some { scanner with place := none }
  | none => some scanner

/-- Keeps a place free where a key may begin. -/
def keepPlace (scanner : Scanner) : Option Scanner := do
  if !scanner.keyAllowed then return scanner
  let scanner ← scanner.dropPlace
  let cursor := scanner.cursor
  let place : KeyPlace :=
    { number := scanner.places
      isRequired := !scanner.inFlow && scanner.indent == cursor.column
      offset := cursor.offset
      line := cursor.line
      column := cursor.column }
  return { scanner with
    place := some place
    places := scanner.places + 1
    read := .place scanner.places :: scanner.read }

/-- How deep blocks may be nested, and how deep brackets. -/
def deepest : Nat := 10000

/-- Opens a block when a column is deeper than the innermost one, and tells whether it did. -/
def openBlock (scanner : Scanner) (column : Nat) : Option (Bool × Scanner) :=
  if !scanner.inFlow && scanner.indent < column then
    if deepest ≤ scanner.outerIndents.length then none
    else some (true, { scanner with
      indent := column
      outerIndents := scanner.indent :: scanner.outerIndents })
  else some (false, scanner)

def openBlockWith (scanner : Scanner) (token : Token) : Option Scanner := do
  let (isNew, opened) ← scanner.openBlock scanner.cursor.column
  return if isNew then opened.emit token else opened

def endBlocks (column : Int) : List Int → Scanner → Scanner
  | [], scanner => scanner
  | outer :: others, scanner =>
      if scanner.indent ≤ column then scanner
      else endBlocks column others
        ({ scanner with indent := outer, outerIndents := others }.emit .blockEnd)

/-- Ends the blocks that are deeper than a column. -/
def closeBlocks (scanner : Scanner) (column : Int) : Scanner :=
  if scanner.inFlow then scanner else endBlocks column scanner.outerIndents scanner

/-- Moves to the next comment if nothing but blanks and line ends, both of one byte, stand in front
of it. -/
def nextComment? (fuel : Nat) (cursor : Cursor) : Option Cursor :=
  match fuel, cursor.rest with
  | 0, _ | _, [] => none
  | fuel + 1, c :: _ =>
      if c == '#' then some cursor
      else if isBlank c then nextComment? fuel (cursor.skip 1)
      else if c == '\n' || c == '\r' then nextComment? fuel cursor.skipBreak
      else none

/-- How far the next comment is looked for. -/
def commentReach : Nat := 512

/-- Moves to the end of a comment and of the comments that follow it. -/
def skipComments (fuel : Nat) (cursor : Cursor) : Cursor :=
  match fuel with
  | 0 => cursor
  | fuel + 1 =>
      let comment := cursor.rest.takeWhile fun c => !isBreak c
      let ending := cursor.skip comment.length
      match nextComment? commentReach ending with
      | some next => skipComments fuel next
      | none => ending

/-- Moves over blanks, comments and line ends.  Where a key may begin a tab is no blank, but one may
stand in front of a comment that follows another. -/
def skipToToken (fuel : Nat) (scanner : Scanner) : Scanner :=
  match fuel, scanner.cursor.rest with
  | 0, _ | _, [] => scanner
  | fuel + 1, c :: _ =>
      if (scanner.marksLines && scanner.cursor.column == 0) || c == ' ' ||
          (c == '\t' && (scanner.inFlow || !scanner.keyAllowed)) then
        skipToToken fuel { scanner with cursor := scanner.cursor.skip 1 }
      else if c == '#' then
        skipToToken fuel { scanner with
          cursor := skipComments (scanner.cursor.rest.length + 1) scanner.cursor }
      else if isBreak c then
        skipToToken fuel { scanner with
          cursor := scanner.cursor.skipBreak
          keyAllowed := scanner.keyAllowed || !scanner.inFlow }
      else scanner

/-- Moves over a comment on the line that a token ends on. -/
def skipLineComment (scanner : Scanner) : Scanner :=
  let blanks := scanner.cursor.rest.takeWhile isBlank
  let start := scanner.cursor.skip blanks.length
  if start.rest.head? == some '#' && blanks.length < commentReach then
    { scanner with cursor := start.skip (start.rest.takeWhile fun c => !isBreak c).length }
  else scanner

def advance (scanner : Scanner) (count : Nat) : Scanner :=
  { scanner with cursor := scanner.cursor.skip count }

/-- Moves over the character of a token, and over a comment behind it. -/
def emitMark (scanner : Scanner) (token : Token) : Scanner :=
  ((scanner.advance 1).emit token).skipLineComment

def markDocument (scanner : Scanner) (token : Token) : Option Scanner := do
  let scanner ← (scanner.closeBlocks (-1)).dropPlace
  return ({ scanner with keyAllowed := false }.advance 3).emit token

def enterFlow (scanner : Scanner) (token : Token) : Option Scanner := do
  let scanner ← scanner.keepPlace
  if deepest ≤ scanner.outerPlaces.length then none
  return { scanner with
    place := none
    outerPlaces := scanner.place :: scanner.outerPlaces
    keyAllowed := true }.emitMark token

def leaveFlow (scanner : Scanner) (token : Token) : Option Scanner := do
  let scanner ← scanner.dropPlace
  let scanner := match scanner.outerPlaces with
    | place :: others => { scanner with place, outerPlaces := others }
    | [] => scanner
  return { scanner with keyAllowed := false }.emitMark token

def separateFlow (scanner : Scanner) : Option Scanner := do
  let scanner ← scanner.dropPlace
  return { scanner with keyAllowed := true }.emitMark .flowEntry

def startEntry (scanner : Scanner) : Option Scanner := do
  if !scanner.inFlow && !scanner.keyAllowed then none
  let scanner ← (← scanner.openBlockWith .blockSequenceStart).dropPlace
  return ({ scanner with keyAllowed := true }.advance 1).emit .blockEntry

/-- A key that is announced by a question mark. -/
def startKey (scanner : Scanner) : Option Scanner := do
  if !scanner.inFlow && !scanner.keyAllowed then none
  let scanner ← (← scanner.openBlockWith .blockMappingStart).dropPlace
  return { scanner with keyAllowed := !scanner.inFlow }.emitMark .key

/-- A key ends on the line it began on, at most 1024 characters behind its start. -/
def reaches (place : KeyPlace) (cursor : Cursor) : Bool :=
  place.line == cursor.line && cursor.offset ≤ place.offset + 1024

/-- A value, with or without a key in front of it. -/
def startValue (scanner : Scanner) : Option Scanner := do
  match scanner.place with
  | some place =>
      if reaches place scanner.cursor then
        let (isNew, opened) ← scanner.openBlock place.column
        let tokens := if isNew then [Token.blockMappingStart, .key] else [.key]
        return { opened with
          keys := (place.number, tokens) :: opened.keys
          place := none
          keyAllowed := false }.emitMark .value
      else if place.isRequired then none
      else bare { scanner with place := none }
  | none => bare scanner
where
  bare (scanner : Scanner) : Option Scanner := do
    if scanner.inFlow then return { scanner with keyAllowed := false }.emitMark .value
    if !scanner.keyAllowed then none
    return (← scanner.openBlockWith .blockMappingStart).emitMark .value

def quotedScalar (scanner : Scanner) (quote : Char) : Option Scanner := do
  let scanner ← scanner.keepPlace
  let start := scanner.cursor.skip 1
  let (text, cursor) ← readQuoted (start.rest.length + 1) quote start []
  return ({ scanner with cursor, keyAllowed := false }.emit (.scalar text false)).skipLineComment

def plainScalar (scanner : Scanner) : Option Scanner := do
  let scanner ← scanner.keepPlace
  let cursor := scanner.cursor
  let read ← readPlain (cursor.rest.length + 1) scanner.inFlow (scanner.indent + 1) cursor {} []
  let scanner := { scanner with cursor := read.cursor, keyAllowed := read.endsLine }.emit
    (.scalar read.text true)
  return if read.endsLine then scanner else scanner.skipLineComment

/-- Characters that begin something other than a plain scalar. -/
def isIndicator (c : Char) : Bool := "-?:,[]\x7b\x7d#&*!|>'\"%@`".toList.contains c

/-- Reads the next token, in front of which blanks and comments were skipped. -/
def next (scanner : Scanner) (c : Char) (rest : List Char) : Option Scanner :=
  let blank := Cursor.blankFollows rest
  if scanner.cursor.column == 0 && c == '%' then none
  else if scanner.cursor.atMarker '-' then scanner.markDocument .documentStart
  else if scanner.cursor.atMarker '.' then scanner.markDocument .documentEnd
  else match c with
    | '[' => scanner.enterFlow .flowSequenceStart
    | '{' => scanner.enterFlow .flowMappingStart
    | ']' => scanner.leaveFlow .flowSequenceEnd
    | '}' => scanner.leaveFlow .flowMappingEnd
    | ',' => scanner.separateFlow
    | '\'' | '"' => scanner.quotedScalar c
    | _ =>
        if c == '-' && blank then scanner.startEntry
        else if c == '?' && (scanner.inFlow || blank) then scanner.startKey
        else if c == ':' && (scanner.inFlow || blank) then scanner.startValue
        else if !isIndicator c || c == '-' || c == '?' || c == ':' then
          if isBlank c then none else scanner.plainScalar
        else none

/-- Ends the text. -/
def finish (scanner : Scanner) : Option Scanner := do
  let scanner ← (scanner.closeBlocks (-1)).dropPlace
  return scanner.emit .textEnd

/-- Reads tokens to the end of the text or up to a place that cannot be read, and tells which. -/
def run (scanner : Scanner) (fuel : Nat) : Scanner × Bool :=
  match fuel with
  | 0 => (scanner, false)
  | fuel + 1 =>
      let ahead := skipToToken (scanner.cursor.rest.length + 1) scanner
      match ahead.cursor.rest with
      | [] =>
          match ahead.finish with
          | some done => (done, true)
          | none => (scanner, false)
      | c :: rest =>
          match (ahead.closeBlocks ahead.cursor.column).next c rest with
          | some following => following.run fuel
          | none => (scanner, false)

/-- What was read, with the keys in their places. -/
def tokens (scanner : Scanner) : List Token :=
  scanner.read.reverse.flatMap fun scanned => match scanned with
    | .token token => [token]
    | .place number => (scanner.keys.lookup number).getD []

end Scanner

def isByteOrderMark (c : Char) : Bool := c.toNat == 0xFEFF

/-- The tokens of a text.  The flag tells whether they reach to its end.  A byte order mark in front
is no part of the text; a second one stands for one in front of every line. -/
def Token.scan (text : String) : List Token × Bool :=
  let characters := match text.toList with
    | c :: rest => if isByteOrderMark c then rest else c :: rest
    | [] => []
  if characters.all isAllowed then
    let start : Scanner :=
      { cursor := { rest := characters }, marksLines := characters.head?.any isByteOrderMark }
    let (scanner, complete) := start.run (characters.length + 2)
    (scanner.tokens, complete)
  else ([], false)

end Patchbay.Yaml
