import Patchbay.Program.Metadata
import Patchbay.Proofs.Outcome
import Patchbay.Proofs.Text.Unmarked

namespace Patchbay

/-! The metadata of a program stands on one line.

Texts and member names are quoted, which leaves no line end in them, and everything else in a document is a
number or punctuation.
-/

open Outcome (Ends Ensures ends_pure ensures_bind)
open Text (isTame)

namespace Text

def OneLine (text : String) : Prop := '\n' ∉ text.toList

instance (text : String) : Decidable (OneLine text) := inferInstanceAs (Decidable ('\n' ∉ text.toList))

theorem OneLine.append {front back : String} (first : OneLine front) (second : OneLine back) :
    OneLine (front ++ back) := by
  unfold OneLine
  rw [String.toList_append, List.mem_append, not_or]
  exact ⟨first, second⟩

theorem oneLine_intercalate {between : String} {texts : List String} (mark : OneLine between)
    (all : ∀ text ∈ texts, OneLine text) : OneLine (String.intercalate between texts) := by
  match texts with
  | [] => exact List.not_mem_nil
  | [text] => simpa using all
  | text :: next :: rest =>
      rw [String.intercalate_cons_cons]
      obtain ⟨first, later⟩ := List.forall_mem_cons.mp all
      exact (first.append mark).append (oneLine_intercalate mark later)

theorem oneLine_of_tame {text : List Char} (tame : ∀ c ∈ text, isTame c = true) :
    OneLine (String.ofList text) := by
  unfold OneLine
  rw [String.toList_ofList]
  exact fun member => absurd (tame _ member) (by decide)

theorem oneLine_ofInt (value : Int) : OneLine (ofInt value) := by
  cases value with
  | ofNat magnitude => exact oneLine_of_tame fun c member => isTame_of_mem_decimal member
  | negSucc below =>
      unfold OneLine ofInt
      rw [String.toList_ofList, List.mem_cons, not_or]
      exact ⟨by decide, fun member => absurd (isTame_of_mem_decimal member) (by decide)⟩

end Text

open Text (OneLine)

/-! ## Numbers -/

namespace Number

theorem Decimal.exponential_oneLine {decimal : Decimal} (width : Nat) (tame : decimal.IsTame) :
    '\n' ∉ decimal.exponential width := by
  unfold exponential
  dsimp only
  intro member
  rcases List.mem_append.mp member with front | back
  · unfold IsTame at tame
    split at front
    · exact absurd (List.mem_singleton.mp front) (by decide)
    · next digit given =>
      rw [given] at tame
      exact absurd (tame _ front) (by decide)
    · next first rest _ given =>
      rw [given, List.forall_mem_cons] at tame
      rcases List.mem_cons.mp front with rfl | later
      · exact absurd tame.1 (by decide)
      · rcases List.mem_cons.mp later with mark | digit
        · exact absurd mark (by decide)
        · exact absurd (tame.2 _ digit) (by decide)
  · simp only [List.mem_cons, List.mem_append, List.mem_replicate] at back
    rcases back with mark | sign | zero | digit
    · exact absurd mark (by decide)
    · generalize (if decimal.digits.isEmpty = true then 0 else decimal.point - 1 : Int) = exponent at sign
      split at sign <;> exact absurd sign (by decide)
    · exact absurd zero.2 (by decide)
    · exact absurd (Text.isTame_of_mem_decimal digit) (by decide)

theorem Decimal.write_oneLine (decimal : Decimal) (layout : Layout) (tame : decimal.IsTame) :
    '\n' ∉ decimal.write layout := by
  have either {condition : Prop} [Decidable condition] : '\n' ∉
      (if condition then decimal.exponential layout.exponentWidth else decimal.positional) := by
    split
    · exact decimal.exponential_oneLine _ tame
    · exact fun member => absurd ((decimal.positional_tame tame).2 _ member) (by decide)
  exact either

theorem oneLine_toMetadata (value : Float) : OneLine (toMetadata value) := by
  unfold toMetadata writeBinary
  split
  · decide
  · split <;> decide
  · next negative significand exponent _ =>
    have tame := isTame_shortest .double significand exponent
    have written := (shortest .double significand exponent).write_oneLine .metadata tame
    unfold OneLine
    rw [String.toList_ofList]
    split
    · rw [List.mem_cons, not_or]
      exact ⟨by decide, written⟩
    · exact written

end Number

/-! ## Documents -/

namespace Json

theorem oneLine_escapeChar (c : Char) : '\n' ∉ escapeChar c := by
  have hex (width value : Nat) : '\n' ∉ Text.hexDigits width value := by
    intro member
    rcases List.mem_append.mp member with zero | digit
    · exact absurd (List.mem_replicate.mp zero).2 (by decide)
    · exact absurd (Text.isTame_of_isPlain (Text.isPlain_of_mem_toDigits digit)) (by decide)
  unfold escapeChar
  dsimp only
  split
  · next special =>
    rw [Bool.or_eq_true, decide_eq_true_eq, decide_eq_true_eq] at special
    rcases special with rfl | rfl <;> decide
  split
  · decide
  · next noFeed =>
    split
    · decide
    split
    · decide
    split
    · decide
    split
    · decide
    split
    · simp [hex]
    · simp [Ne.symm noFeed]

theorem oneLine_quote (value : String) : OneLine (quote value) := by
  unfold OneLine quote
  rw [String.toList_ofList]
  simp [oneLine_escapeChar]

mutual

/-- The numbers of a document are spelled on one line. -/
def IsOneLine : Json → Prop
  | .number spelling => OneLine spelling
  | .array items => AllOneLine items
  | .object members => MembersOneLine members
  | .null | .bool _ | .text _ => True

def AllOneLine : List Json → Prop
  | [] => True
  | item :: rest => item.IsOneLine ∧ AllOneLine rest

def MembersOneLine : List (String × Json) → Prop
  | [] => True
  | (_, value) :: rest => value.IsOneLine ∧ MembersOneLine rest

end

theorem allOneLine_iff {items : List Json} : AllOneLine items ↔ ∀ item ∈ items, item.IsOneLine := by
  induction items with
  | nil => simp [AllOneLine]
  | cons item rest ih => simp [AllOneLine, ih]

theorem membersOneLine_iff {members : List (String × Json)} :
    MembersOneLine members ↔ ∀ member ∈ members, member.2.IsOneLine := by
  induction members with
  | nil => simp [MembersOneLine]
  | cons member rest ih => simp [MembersOneLine, ih]

mutual

theorem oneLine_write : (json : Json) → json.IsOneLine → OneLine json.write
  | .null, _ => by
      rw [write]
      decide
  | .bool value, _ => by
      rw [write]
      cases value <;> decide
  | .number spelling, oneLine => by
      rw [IsOneLine] at oneLine
      rwa [write]
  | .text value, _ => by
      rw [write]
      exact oneLine_quote value
  | .array items, oneLine => by
      rw [IsOneLine] at oneLine
      rw [write]
      exact (Text.OneLine.append (by decide) (Text.oneLine_intercalate (by decide)
        (oneLine_writeItems items oneLine))).append (by decide)
  | .object members, oneLine => by
      rw [IsOneLine] at oneLine
      rw [write]
      exact (Text.OneLine.append (by decide) (Text.oneLine_intercalate (by decide)
        (oneLine_writeMembers members oneLine))).append (by decide)

theorem oneLine_writeItems : (items : List Json) → AllOneLine items →
    ∀ text ∈ writeItems items, OneLine text
  | [], _ => by simp [writeItems]
  | item :: rest, oneLine => by
      rw [AllOneLine] at oneLine
      rw [writeItems]
      exact List.forall_mem_cons.mpr ⟨oneLine_write item oneLine.1, oneLine_writeItems rest oneLine.2⟩

theorem oneLine_writeMembers : (members : List (String × Json)) → MembersOneLine members →
    ∀ text ∈ writeMembers members, OneLine text
  | [], _ => by simp [writeMembers]
  | (key, value) :: rest, oneLine => by
      rw [MembersOneLine] at oneLine
      rw [writeMembers]
      exact List.forall_mem_cons.mpr
        ⟨((oneLine_quote key).append (by decide)).append (oneLine_write value oneLine.1),
          oneLine_writeMembers rest oneLine.2⟩

end

theorem isOneLine_ofInt (value : Int) : (ofInt value).IsOneLine := by
  rw [ofInt, IsOneLine]
  exact Text.oneLine_ofInt value

theorem isOneLine_sorted {members : List (String × Json)}
    (all : ∀ member ∈ members, member.2.IsOneLine) : (sorted members).IsOneLine := by
  rw [sorted, IsOneLine, membersOneLine_iff]
  exact fun member listed => all member (List.mem_mergeSort.mp listed)

end Json

/-! ## Metadata -/

namespace Metadata

/-- Whatever document the writer gives, wherever it is used, stands on one line. -/
def Writer.OneLine (writer : Writer) : Prop := ∀ place, Ensures (writer place) Json.IsOneLine

theorem ofNumber_oneLine (value : Float) : Ensures (ofNumber value) Json.IsOneLine := by
  unfold ofNumber
  split
  · refine ends_pure ?_
    rw [Json.IsOneLine]
    exact Number.oneLine_toMetadata value
  · trivial

theorem members_oneLine {entries : List (String × Writer)} (all : ∀ entry ∈ entries, entry.2.OneLine)
    (place : Place) (offset : Nat) : Ensures (members place offset entries) Json.MembersOneLine := by
  induction entries generalizing offset with
  | nil =>
      rw [members]
      exact ends_pure (by rw [Json.MembersOneLine]; trivial)
  | cons entry rest ih =>
      obtain ⟨first, later⟩ := List.forall_mem_cons.mp all
      rw [members]
      refine (first _).bind fun value _ own => (ih later _).bind fun others _ rest => ends_pure ?_
      rw [Json.MembersOneLine]
      exact ⟨own, rest⟩

theorem sortedMembers_oneLine {entries : List (String × Writer)} (all : ∀ entry ∈ entries, entry.2.OneLine)
    (place : Place) : Ensures (sortedMembers place entries) Json.IsOneLine := by
  refine (members_oneLine (fun entry listed => all entry (List.mem_mergeSort.mp listed)) place _).bind
    fun written _ held => ends_pure ?_
  rwa [Json.IsOneLine]

mutual

theorem ofValue_oneLine : (value : Value) → Writer.OneLine (ofValue value)
  | .null | .bool _ | .text _ => fun _ => by
      rw [ofValue]
      exact ends_pure (by rw [Json.IsOneLine]; trivial)
  | .integer _ value => fun _ => by
      rw [ofValue]
      exact ends_pure (Json.isOneLine_ofInt value)
  | .number value => fun _ => by
      rw [ofValue]
      exact ofNumber_oneLine value
  | .single value => fun _ => by
      rw [ofValue]
      exact ofNumber_oneLine value.toFloat
  | .instant time => fun _ => by
      rw [ofValue, ofInstant]
      cases time.serialised? with
      | none => trivial
      | some text => exact ends_pure (by rw [Json.IsOneLine]; trivial)
  | .list items => fun place => by
      rw [ofValue]
      refine (ofItems_oneLine items 0 place _).bind fun written _ held => ends_pure ?_
      rwa [Json.IsOneLine]
  | .table entries => fun place => by
      rw [ofValue]
      exact sortedMembers_oneLine (ofEntries_oneLine entries) place
  | .mixed pairs => fun place => by
      rw [ofValue]
      refine Ends.bind (Ensures.mapM fun pair listed => ?_) fun entries _ all =>
        sortedMembers_oneLine all place
      exact ensures_bind fun name _ => ends_pure (ofPairs_oneLine pairs pair listed)

theorem ofItems_oneLine : (items : List Value) → ∀ index place offset,
    Ensures (ofItems items index place offset) Json.AllOneLine
  | [] => fun _ _ _ => by
      rw [ofItems]
      exact ends_pure (by rw [Json.AllOneLine]; trivial)
  | item :: rest => fun index place offset => by
      rw [ofItems]
      refine (ofValue_oneLine item _).bind fun first _ own =>
        (ofItems_oneLine rest (index + 1) place _).bind fun others _ later => ends_pure ?_
      rw [Json.AllOneLine]
      exact ⟨own, later⟩

theorem ofEntries_oneLine : (entries : List (String × Value)) →
    ∀ entry ∈ ofEntries entries, entry.2.OneLine
  | [] => by simp [ofEntries]
  | (_, value) :: rest => by
      rw [ofEntries]
      exact List.forall_mem_cons.mpr ⟨ofValue_oneLine value, ofEntries_oneLine rest⟩

theorem ofPairs_oneLine : (pairs : List (Value × Value)) → ∀ pair ∈ ofPairs pairs, pair.2.OneLine
  | [] => by simp [ofPairs]
  | (_, value) :: rest => by
      rw [ofPairs]
      exact List.forall_mem_cons.mpr ⟨ofValue_oneLine value, ofPairs_oneLine rest⟩

end

theorem ofNames_oneLine (table : NameTable) : (ofNames table).IsOneLine := by
  refine Json.isOneLine_sorted (List.forall_mem_map.mpr fun entry _ => ?_)
  refine Json.isOneLine_sorted (List.forall_mem_map.mpr fun name _ => ?_)
  rw [Json.IsOneLine]
  trivial

theorem ofPorts_oneLine (ports : Ports) : (ofPorts ports).IsOneLine := by
  refine Json.isOneLine_sorted (List.forall_mem_map.mpr fun entry _ => ?_)
  obtain ⟨node, portlets⟩ := entry
  cases portlets with
  | none =>
      rw [Json.IsOneLine]
      trivial
  | some portlets =>
      rw [Json.IsOneLine, Json.allOneLine_iff]
      refine List.forall_mem_map.mpr fun portlet _ => ?_
      rw [Json.IsOneLine]
      trivial

theorem portsField_oneLine (name : String) (ports : Option Ports) :
    ∀ field ∈ portsField name ports, field.2.IsOneLine := by
  unfold portsField
  cases ports with
  | none => exact fun _ member => absurd member List.not_mem_nil
  | some ports =>
      dsimp only
      split
      · exact fun _ member => absurd member List.not_mem_nil
      · exact List.forall_mem_singleton.mpr (ofPorts_oneLine ports)

/-- A document is an object with numbers that are spelled on one line. -/
theorem document_oneLine (program : Program) : Ensures (document program) fun written =>
    ∃ members, written = .object members ∧ Json.MembersOneLine members := by
  unfold document
  refine (members_oneLine ?_ {} 1).bind fun written _ held => ends_pure ⟨written, rfl, held⟩
  simp only [List.mem_cons, List.not_mem_nil, or_false, forall_eq_or_imp, forall_eq]
  refine ⟨fun _ => ends_pure ?_, ofValue_oneLine _, fun _ => ends_pure ?_, fun _ => ends_pure ?_⟩
  · rw [Json.IsOneLine]
    trivial
  · have ports := List.forall_mem_append.mpr
      ⟨portsField_oneLine "messageReceivers" program.settings.receivers,
        portsField_oneLine "messageSenders" program.settings.senders⟩
    simp only [audioSettings, portSettings, Json.IsOneLine, Json.MembersOneLine, Json.isOneLine_ofInt,
      Json.membersOneLine_iff, and_self, true_and, and_true]
    exact ports
  · simp only [variableNames, Json.IsOneLine, Json.MembersOneLine, ofNames_oneLine, and_self]

end Metadata

namespace Program

theorem metadata_oneLine (program : Program) : Ensures program.metadata OneLine :=
  (Metadata.document_oneLine program).inContext.bind fun written _ held => by
    obtain ⟨members, rfl, oneLine⟩ := held
    exact ends_pure (Json.oneLine_write _ (by rwa [Json.IsOneLine]))

theorem metadata_unmarked (program : Program) :
    Ensures program.metadata fun text => Text.isUnmarked text = true :=
  (Metadata.document_oneLine program).inContext.bind fun written _ held => by
    obtain ⟨members, rfl, oneLine⟩ := held
    refine ends_pure (Text.isUnmarked_of_oneLine (Json.oneLine_write _ (by rwa [Json.IsOneLine])) ?_)
    rw [Json.write, String.toList_append, String.toList_append]
    rfl

end Program

end Patchbay
