import Patchbay.Text.Integer
import Patchbay.Text.Printable

namespace Patchbay.Text

/-! Double-quoted texts, as diagnostics show names.

The quote and the backslash are escaped, printable characters stand for
themselves, the common control characters have a letter of their own, and every
other character is written by its code point: two hexadecimal digits for ASCII,
four in the basic plane, eight beyond it.
-/

def escapeControl? : Char → Option Char
  | '\x07' => some 'a'
  | '\x08' => some 'b'
  | '\x0c' => some 'f'
  | '\n' => some 'n'
  | '\r' => some 'r'
  | '\t' => some 't'
  | '\x0b' => some 'v'
  | _ => none

def quoteChar (c : Char) : List Char :=
  if c = '"' || c = '\\' then ['\\', c]
  else if isPrintable c then [c]
  else match escapeControl? c with
    | some letter => ['\\', letter]
    | none =>
        let code := c.toNat
        if code < 0x20 || code = 0x7F then '\\' :: 'x' :: hexDigits 2 code
        else if code < 0x10000 then '\\' :: 'u' :: hexDigits 4 code
        else '\\' :: 'U' :: hexDigits 8 code

def quoted (text : String) : String :=
  String.ofList ('"' :: text.toList.flatMap quoteChar ++ ['"'])

end Patchbay.Text
