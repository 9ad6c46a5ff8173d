import Patchbay.NodeType.Control
import Patchbay.Proofs.Code.Flattening
import Patchbay.Proofs.Program.Delivery

namespace Patchbay

/-! The room that fixed messages reserve.

A fixed message lists its tokens before it writes them, and for a string it lists how many places the string
takes: as many as it has characters.  A place holds one unit of UTF-16, and a character that is not in the
basic plane takes two.  So a string is kept whole exactly if all of it is in the basic plane and none of it is
zero, which ends what is read.  A string whose room is asked for in units is cut by zeros only.
-/

namespace Text

def isBasic (c : Char) : Bool := c.toNat < 0x10000

/-- The units of UTF-16 that a character takes. -/
def unitsOfChar (c : Char) : List Nat :=
  if isBasic c then [c.toNat]
  else [0xD800 + (c.toNat - 0x10000) / 0x400, 0xDC00 + (c.toNat - 0x10000) % 0x400]

def units (text : String) : List Nat := text.toList.flatMap unitsOfChar

/-- Each character beyond the basic plane takes one unit more than it counts. -/
theorem length_units (text : String) :
    (units text).length = text.length + text.toList.countP fun c => !isBasic c := by
  have each : ∀ letters : List Char, (letters.flatMap unitsOfChar).length =
      letters.length + letters.countP fun c => !isBasic c := by
    intro letters
    induction letters with
    | nil => rfl
    | cons c rest ih =>
        rw [List.flatMap_cons, List.length_append, ih, List.countP_cons, List.length_cons, unitsOfChar]
        cases isBasic c <;> simp <;> omega
  rw [units, each, String.length_toList]

theorem length_units_le_iff (text : String) :
    (units text).length ≤ text.length ↔ ∀ c ∈ text.toList, isBasic c = true := by
  have fits : (units text).length ≤ text.length ↔ (text.toList.countP fun c => !isBasic c) = 0 := by
    rw [length_units]
    omega
  rw [fits, List.countP_eq_zero]
  simp

theorem zero_mem_units_iff (text : String) : 0 ∈ units text ↔ '\x00' ∈ text.toList := by
  have each : ∀ c, 0 ∈ unitsOfChar c ↔ c = '\x00' := by
    intro c
    unfold unitsOfChar
    split
    · rw [List.mem_singleton, Char.ext_iff, ← UInt32.toNat_inj]
      exact eq_comm
    · next beyond =>
      simp only [List.mem_cons, List.not_mem_nil, or_false]
      constructor
      · omega
      · rintro rfl
        exact absurd rfl beyond
  simp only [units, List.mem_flatMap, each, exists_eq_right]

end Text

/-! ## Places for a string -/

namespace Places

/-- The places of a string in a message that is not written yet. -/
def reserve (size : Nat) : List Nat := List.replicate size 0

/-- Writes units as far as there are places. -/
def store (places units : List Nat) : List Nat := units.take places.length ++ places.drop units.length

/-- Reads units up to the first zero. -/
def load (places : List Nat) : List Nat := places.takeWhile (· ≠ 0)

variable {size : Nat} {units : List Nat}

/-- What was written is read as far as there was room for it and up to a zero. -/
theorem load_store_reserve : load (store (reserve size) units) = (units.take size).takeWhile (· ≠ 0) := by
  have empty : ∀ count, (List.replicate count 0).takeWhile (· ≠ 0) = [] := by
    intro count
    cases count <;> rfl
  rw [load, store, reserve, List.length_replicate, List.drop_replicate, List.takeWhile_append, empty]
  split
  · next whole =>
    rw [List.append_nil]
    exact ((List.takeWhile_prefix _).eq_of_length whole).symm
  · rfl

theorem load_store_reserve_eq_iff :
    load (store (reserve size) units) = units ↔ units.length ≤ size ∧ 0 ∉ units := by
  rw [load_store_reserve]
  constructor
  · intro same
    have short : units.length ≤ (units.take size).length := by
      conv_lhs => rw [← same]
      exact (List.takeWhile_sublist _).length_le
    refine ⟨by simpa using short, fun zero => ?_⟩
    rw [← same] at zero
    simpa using List.mem_takeWhile_imp zero
  · rintro ⟨fits, noZero⟩
    rw [List.take_of_length_le fits, List.takeWhile_eq_self_iff]
    intro unit member
    exact decide_eq_true fun same : unit = 0 => noZero (same ▸ member)

end Places

/-! ## Fixed messages -/

namespace NodeType

open Code (Naming Part Scope piecesOf resolveAll)

/-- What is listed for a token: its type, and for a string the number of its characters. -/
def layoutText (naming : Naming) : Value → String
  | .text value => naming (.module "msg") "STRING_TOKEN" ++ ", " ++ Text.ofNat value.length
  | _ => naming (.module "msg") "FLOAT_TOKEN"

variable (scope : Scope) (naming : Naming)

theorem pieces_tokenLayout (token : Value) :
    ∃ values, piecesOf (resolveAll scope naming (tokenLayout token)) = values.map Part.text ∧
      String.join values = layoutText naming token := by
  unfold tokenLayout layoutText
  split
  · next value =>
    refine ⟨[naming (.module "msg") "STRING_TOKEN", ", ", Text.ofNat value.length], rfl, ?_⟩
    simp [String.join_cons, String.append_assoc]
  · exact ⟨[naming (.module "msg") "FLOAT_TOKEN"], rfl, by simp [String.join_cons]⟩

theorem resolveAll_append (front back : List Code.Template) :
    resolveAll scope naming (front ++ back) =
      resolveAll scope naming front ++ resolveAll scope naming back := by
  induction front with
  | nil => rfl
  | cons first rest ih => rw [List.cons_append, resolveAll, resolveAll, ih, List.cons_append]

theorem pieces_separateTokens : ∀ tokens : List Value,
    ∃ values, piecesOf (resolveAll scope naming (separateTokens (tokens.map tokenLayout))) =
      values.map Part.text ∧ String.join values = String.intercalate ", " (tokens.map (layoutText naming))
  | [] => ⟨[], rfl, rfl⟩
  | [token] => by
      obtain ⟨values, pieces, joined⟩ := pieces_tokenLayout scope naming token
      exact ⟨values, pieces, by simpa using joined⟩
  | token :: next :: rest => by
      obtain ⟨values, pieces, joined⟩ := pieces_tokenLayout scope naming token
      obtain ⟨others, otherPieces, otherJoined⟩ := pieces_separateTokens (next :: rest)
      refine ⟨values ++ ", " :: others, ?_, ?_⟩
      · rw [List.map_cons, List.map_cons, separateTokens, resolveAll_append, Code.piecesOf_append,
          pieces, List.map_append, List.map_cons]
        · rw [← otherPieces]
          rfl
        · exact List.cons_ne_nil _ _
      · rw [List.map_cons] at otherJoined
        rw [String.join_append, String.join_cons, joined, otherJoined, List.map_cons, List.map_cons,
          String.intercalate_cons_cons, String.append_assoc]

/-- A fixed message lists its tokens one after the other, and for a string as many places as it has
characters. -/
theorem plainText_layout (tokens : List Value) :
    ((Code.Template.code (separateTokens (tokens.map tokenLayout))).resolve scope naming).plainText =
      String.intercalate ", " (tokens.map (layoutText naming)) := by
  obtain ⟨values, pieces, joined⟩ := pieces_separateTokens scope naming tokens
  rw [← joined, Code.Template.resolve, Code.code, pieces, Code.mergeTexts_texts]
  split
  · next empty =>
    rw [empty]
    rfl
  · simp [Code.Part.plainText, Code.Part.pieces, piecesOf]

/-- The string of a fixed message is read back whole exactly if no character of it is beyond the basic plane
or zero. -/
theorem fixed_string_kept_iff (text : String) :
    Places.load (Places.store (Places.reserve text.length) (Text.units text)) = Text.units text ↔
      ∀ c ∈ text.toList, Text.isBasic c = true ∧ c ≠ '\x00' := by
  rw [Places.load_store_reserve_eq_iff, Text.length_units_le_iff, Text.zero_mem_units_iff]
  constructor
  · exact fun ⟨basic, noZero⟩ c member => ⟨basic c member, fun same => noZero (same ▸ member)⟩
  · exact fun all => ⟨fun c member => (all c member).1, fun zero => (all _ zero).2 rfl⟩

/-- A string whose room is asked for in units is read back whole unless it has a zero. -/
theorem measured_string_kept_iff (text : String) :
    Places.load (Places.store (Places.reserve (Text.units text).length) (Text.units text)) =
      Text.units text ↔ '\x00' ∉ text.toList := by
  rw [Places.load_store_reserve_eq_iff, Text.zero_mem_units_iff]
  simp

example : Places.load (Places.store (Places.reserve "😀".length) (Text.units "😀")) = [0xD83D] := by
  decide

end NodeType

end Patchbay
