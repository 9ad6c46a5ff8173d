namespace Patchbay.Text

/-! White space and letter case, as far as fixed ASCII words are looked for.

`isBlank` is the Unicode property White_Space.  `lower` maps a character to its
lower case where that is an ASCII letter, which is all that matters when the
result is compared with ASCII words: besides the capitals these are the dotted
capital I and the kelvin sign.  `fold` identifies the characters that caseless
matching of ASCII words identifies: the kelvin sign counts as `k` and the long s
as `s`.
-/

def isBlank (c : Char) : Bool :=
  let code := c.toNat
  (9 ≤ code && code ≤ 13) || code == 0x20 || code == 0x85 || code == 0xA0 || code == 0x1680 ||
    (0x2000 ≤ code && code ≤ 0x200A) || code == 0x2028 || code == 0x2029 || code == 0x202F ||
    code == 0x205F || code == 0x3000

def trimList (isEdge : Char → Bool) (text : List Char) : List Char :=
  ((text.dropWhile isEdge).reverse.dropWhile isEdge).reverse

def trim (text : String) : String := String.ofList (trimList isBlank text.toList)

def asciiLower (c : Char) : Char :=
  if 'A' ≤ c && c ≤ 'Z' then Char.ofNat (c.toNat + 32) else c

def lowerChar (c : Char) : Char :=
  if c.toNat == 0x130 then 'i'
  else if c.toNat == 0x212A then 'k'
  else asciiLower c

def lower (text : String) : String := text.map lowerChar

def foldChar (c : Char) : Char :=
  if c.toNat == 0x17F then 's'
  else if c.toNat == 0x212A then 'k'
  else asciiLower c

def fold (text : String) : String := text.map foldChar

/-- The maximal runs of characters that are not blank. -/
def words (text : String) : List String :=
  let close (word : List Char) (found : List String) : List String :=
    if word.isEmpty then found else String.ofList word :: found
  let (word, found) := text.toList.foldr
    (fun c (state : List Char × List String) =>
      if isBlank c then ([], close state.1 state.2) else (c :: state.1, state.2)) ([], [])
  close word found

end Patchbay.Text
