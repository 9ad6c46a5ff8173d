namespace Patchbay.Text

/-! Single-quoted string literals of generated code.

`literal` escapes the backslash, the quote and the two line ends in one pass
over the text.  `embedded` is for text that is known to hold no line end, such
as serialised metadata: it doubles the backslashes and then escapes the quotes.
-/

def escapeLiteral : Char → List Char
  | '\\' => ['\\', '\\']
  | '\'' => ['\\', '\'']
  | '\n' => ['\\', 'n']
  | '\r' => ['\\', 'r']
  | c => [c]

def literal (text : String) : String :=
  String.ofList ('\'' :: text.toList.flatMap escapeLiteral ++ ['\''])

def replaceChar (target : Char) (replacement : List Char) (text : List Char) : List Char :=
  text.flatMap fun c => if c = target then replacement else [c]

def embedded (text : String) : String :=
  let doubled := replaceChar '\\' ['\\', '\\'] text.toList
  String.ofList ('\'' :: replaceChar '\'' ['\\', '\''] doubled ++ ['\''])

end Patchbay.Text
