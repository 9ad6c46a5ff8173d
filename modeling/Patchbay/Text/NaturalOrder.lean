import Patchbay.Text.Integer

namespace Patchbay.Text

/-! The natural order of ids.

Ids that spell a 64-bit integer come first, by value, so that `2` stands before
`10`; all other ids follow by code points, which is also the order of their
UTF-8 bytes.  Different spellings of one integer are equivalent, and sorting
keeps them in the order in which they were given.
-/

def precedes (left right : String) : Bool :=
  match integer? left, integer? right with
  | some a, some b => a < b
  | some _, none => true
  | none, some _ => false
  | none, none => left < right

def sortIds (ids : List String) : List String :=
  ids.mergeSort fun left right => !precedes right left

/-- Plain order of texts, by code points. -/
def sortTexts (texts : List String) : List String :=
  texts.mergeSort fun left right => !decide (right < left)

/-- Keeps the first occurrence of every id. -/
def unique (ids : List String) : List String :=
  ids.foldl (fun kept id => if kept.contains id then kept else kept ++ [id]) []

end Patchbay.Text
