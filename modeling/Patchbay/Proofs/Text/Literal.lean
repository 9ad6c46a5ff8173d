import Mathlib.Data.List.Basic
import Patchbay.NodeType.Vocabulary

namespace Patchbay.Text

/-! Literals are read back.

`readLiteral?` reads a single-quoted literal off the front of some code.  What `literal` writes is read as the
text that it was written for, and reading stops right behind it whatever follows, so that no text gets out of
its literal.  On texts without line ends `embedded`, which escapes in two rounds, writes the same.
-/

/-! ## The grammar of literals -/

/-- The character that a character behind a backslash stands for.  A line end, and what begins an escape of
several characters, is not read. -/
def escapedChar? : Char → Option Char
  | 'b' => some '\x08'
  | 'f' => some '\x0c'
  | 'n' => some '\n'
  | 'r' => some '\r'
  | 't' => some '\t'
  | 'v' => some '\x0b'
  | c => if c.isDigit || c ∈ ['x', 'u', '\n', '\r', '\u2028', '\u2029'] then none else some c

/-- Reads a literal whose quote is already read, up to the quote that ends it. -/
def readQuoted? : List Char → Option (List Char × List Char)
  | [] => none
  | '\'' :: rest => some ([], rest)
  | '\\' :: c :: rest => do
      let first ← escapedChar? c
      (readQuoted? rest).map fun read => (first :: read.1, read.2)
  | c :: rest =>
      if c ∈ ['\\', '\n', '\r'] then none
      else (readQuoted? rest).map fun read => (c :: read.1, read.2)

/-- The text of the literal that some code starts with, and the code behind it. -/
def readLiteral? (code : String) : Option (String × String) :=
  match code.toList with
  | '\'' :: rest => (readQuoted? rest).map fun read => (String.ofList read.1, String.ofList read.2)
  | _ => none

/-- The characters that no backslash escapes.  A backslash is among them only if it is the last. -/
def unescaped : List Char → List Char
  | '\\' :: _ :: rest => unescaped rest
  | c :: rest => c :: unescaped rest
  | [] => []

/-- A single-quoted literal: between its quotes there is no line end, no quote that is not escaped, and no
backslash that escapes nothing. -/
def IsLiteral (code : String) : Prop :=
  ∃ body, code.toList = '\'' :: body ++ ['\''] ∧ '\n' ∉ body ∧ '\r' ∉ body ∧
    '\'' ∉ unescaped body ∧ '\\' ∉ unescaped body

/-! ## One character -/

/-- A character is written by a letter that stands for it, or it needs no escape. -/
theorem escapeLiteral_cases (c : Char) :
    (∃ letter, escapeLiteral c = ['\\', letter] ∧ escapedChar? letter = some c ∧
      letter ≠ '\n' ∧ letter ≠ '\r') ∨
    (escapeLiteral c = [c] ∧ c ≠ '\'' ∧ c ≠ '\\' ∧ c ≠ '\n' ∧ c ≠ '\r') := by
  unfold escapeLiteral
  split
  · exact .inl ⟨'\\', rfl, by decide⟩
  · exact .inl ⟨'\'', rfl, by decide⟩
  · exact .inl ⟨'n', rfl, by decide⟩
  · exact .inl ⟨'r', rfl, by decide⟩
  · next noBackslash noQuote noFeed noReturn =>
    exact .inr ⟨rfl, noQuote, noBackslash, noFeed, noReturn⟩

theorem escapeLiteral_plain {c : Char} (noQuote : c ≠ '\'') (noBackslash : c ≠ '\\') (noFeed : c ≠ '\n')
    (noReturn : c ≠ '\r') : escapeLiteral c = [c] := by
  rw [escapeLiteral] <;> assumption

theorem readQuoted?_plain {c : Char} (noQuote : c ≠ '\'') (noBackslash : c ≠ '\\') (noFeed : c ≠ '\n')
    (noReturn : c ≠ '\r') (rest : List Char) :
    readQuoted? (c :: rest) = (readQuoted? rest).map fun read => (c :: read.1, read.2) := by
  rw [readQuoted?, if_neg (by simp [noBackslash, noFeed, noReturn])]
  · exact noQuote
  · exact fun _ _ same _ => noBackslash same

theorem unescaped_plain {c : Char} (noBackslash : c ≠ '\\') (rest : List Char) :
    unescaped (c :: rest) = c :: unescaped rest := by
  rw [unescaped]
  exact fun _ _ same _ => noBackslash same

/-! ## Whole texts -/

theorem readQuoted?_escape (text behind : List Char) :
    readQuoted? (text.flatMap escapeLiteral ++ '\'' :: behind) = some (text, behind) := by
  induction text with
  | nil => rfl
  | cons c rest ih =>
      rw [List.flatMap_cons, List.append_assoc]
      rcases escapeLiteral_cases c with ⟨letter, written, meant, _, _⟩ | ⟨written, plain⟩
      · rw [written]
        simp [readQuoted?, meant, ih]
      · obtain ⟨noQuote, noBackslash, noFeed, noReturn⟩ := plain
        rw [written, List.singleton_append, readQuoted?_plain noQuote noBackslash noFeed noReturn, ih]
        rfl

theorem notMem_escape {text : List Char} :
    '\n' ∉ text.flatMap escapeLiteral ∧ '\r' ∉ text.flatMap escapeLiteral := by
  simp only [List.mem_flatMap, not_exists, not_and]
  constructor <;>
  · intro c _ member
    rcases escapeLiteral_cases c with ⟨letter, written, _, noFeed, noReturn⟩ | ⟨written, plain⟩ <;>
      simp_all [eq_comm]

theorem unescaped_escape (text : List Char) :
    ∀ c ∈ unescaped (text.flatMap escapeLiteral), c ≠ '\'' ∧ c ≠ '\\' := by
  induction text with
  | nil => simp [unescaped]
  | cons c rest ih =>
      rw [List.flatMap_cons]
      rcases escapeLiteral_cases c with ⟨letter, written, _⟩ | ⟨written, noQuote, noBackslash, _⟩
      · rw [written]
        exact ih
      · rw [written, List.singleton_append, unescaped_plain noBackslash]
        exact List.forall_mem_cons.mpr ⟨⟨noQuote, noBackslash⟩, ih⟩

theorem isLiteral_literal (text : String) : IsLiteral (literal text) := by
  refine ⟨text.toList.flatMap escapeLiteral, String.toList_ofList, notMem_escape.1, notMem_escape.2, ?_, ?_⟩
  · exact fun member => (unescaped_escape _ _ member).1 rfl
  · exact fun member => (unescaped_escape _ _ member).2 rfl

theorem readLiteral?_literal (text behind : String) :
    readLiteral? (literal text ++ behind) = some (text, behind) := by
  have spelled : (literal text ++ behind).toList =
      '\'' :: (text.toList.flatMap escapeLiteral ++ '\'' :: behind.toList) := by
    simp [literal]
  rw [readLiteral?, spelled]
  simp [readQuoted?_escape]

/-! ## Two rounds of escaping -/

theorem replaceChar_replaceChar {c : Char} (noFeed : c ≠ '\n') (noReturn : c ≠ '\r') :
    replaceChar '\'' ['\\', '\''] (replaceChar '\\' ['\\', '\\'] [c]) = escapeLiteral c := by
  by_cases backslash : c = '\\'
  · subst backslash
    rfl
  · by_cases quote : c = '\''
    · subst quote
      rfl
    · rw [escapeLiteral_plain quote backslash noFeed noReturn]
      simp [replaceChar, backslash, quote]

theorem embedded_eq_literal {text : String} (noFeed : '\n' ∉ text.toList) (noReturn : '\r' ∉ text.toList) :
    embedded text = literal text := by
  have escaped : replaceChar '\'' ['\\', '\''] (replaceChar '\\' ['\\', '\\'] text.toList) =
      text.toList.flatMap escapeLiteral := by
    unfold replaceChar
    rw [List.flatMap_assoc]
    refine List.flatMap_congr fun c member => ?_
    have each := replaceChar_replaceChar (c := c) (fun same => noFeed (same ▸ member))
      (fun same => noReturn (same ▸ member))
    simpa [replaceChar] using each
  simp only [embedded, literal, escaped]

/-- A text is written as a literal from which it is read back, whatever follows; the code of node types writes
it in the same way, and so do two rounds of escaping unless the text has a line end. -/
theorem literals_read_back (text : String) :
    IsLiteral (literal text) ∧
    (∀ behind, readLiteral? (literal text ++ behind) = some (text, behind)) ∧
    (∀ scope, (NodeType.quote text).fill scope = pure (.text (literal text))) ∧
    ('\n' ∉ text.toList → '\r' ∉ text.toList →
      IsLiteral (embedded text) ∧
      (∀ behind, readLiteral? (embedded text ++ behind) = some (text, behind)) ∧
      embedded text = literal text) := by
  refine ⟨isLiteral_literal text, readLiteral?_literal text, fun scope => ?_, fun noFeed noReturn => ?_⟩
  · rw [NodeType.quote, Code.Template.fill]
  · rw [embedded_eq_literal noFeed noReturn]
    exact ⟨isLiteral_literal text, readLiteral?_literal text, rfl⟩

theorem literals_read_back_quotes :
    '\n' ∉ "it's \\' x".toList ∧ '\r' ∉ "it's \\' x".toList ∧
      literal "it's \\' x" = "'it\\'s \\\\\\' x'" ∧
      embedded "it's \\' x" = literal "it's \\' x" ∧
      readLiteral? (embedded "it's \\' x" ++ " + y") = some ("it's \\' x", " + y") := by
  have noFeed : '\n' ∉ "it's \\' x".toList := by decide
  have noReturn : '\r' ∉ "it's \\' x".toList := by decide
  obtain ⟨_, _, _, rounds⟩ := literals_read_back "it's \\' x"
  obtain ⟨_, read, same⟩ := rounds noFeed noReturn
  exact ⟨noFeed, noReturn, by decide, same, read _⟩

end Patchbay.Text
