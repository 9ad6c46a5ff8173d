import Patchbay.Program.Metadata
import Patchbay.Proofs.Outcome

namespace Patchbay

/-! Programs whose metadata can be serialised.

Everything in the document of a program is fixed but the table that comes with the settings.  Where a
value stands in the document matters for the message of a fault only, so values that can be serialised
are known without writing them.
-/

open Outcome (Yields)

namespace Metadata

/-- Numbers that are not finite have no JSON. -/
def isFinite (value : Float) : Bool :=
  match Number.ofDouble value with
  | .finite .. => true
  | _ => false

/-- Whether a key of a table becomes a member name. -/
def isName : Value → Bool
  | .text _ | .integer .. => true
  | .instant time => time.serialised?.isSome
  | _ => false

mutual

def isSerialisable : Value → Bool
  | .null | .bool _ | .text _ | .integer .. => true
  | .number value => isFinite value
  | .single value => isFinite value.toFloat
  | .instant time => time.serialised?.isSome
  | .list items => areSerialisable items
  | .table entries => haveSerialisable entries
  | .mixed pairs => areSerialisablePairs pairs

def areSerialisable : List Value → Bool
  | [] => true
  | item :: rest => isSerialisable item && areSerialisable rest

def haveSerialisable : List (String × Value) → Bool
  | [] => true
  | (_, value) :: rest => isSerialisable value && haveSerialisable rest

def areSerialisablePairs : List (Value × Value) → Bool
  | [] => true
  | (key, value) :: rest => isName key && isSerialisable value && areSerialisablePairs rest

end

/-- The writer gives a document wherever it is used. -/
def Writer.Total (writer : Writer) : Prop := ∀ place, Yields (writer place) fun _ => True

theorem ofNumber_yields {value : Float} (finite : isFinite value = true) :
    Yields (ofNumber value) fun _ => True := by
  unfold isFinite at finite
  unfold ofNumber
  generalize Number.ofDouble value = binary at finite ⊢
  cases binary with
  | finite => exact ⟨_, rfl, trivial⟩
  | _ => cases finite

theorem ofInstant_yields {time : Instant} (serialised : time.serialised?.isSome = true) :
    Yields (ofInstant time) fun _ => True := by
  obtain ⟨text, isText⟩ := Option.isSome_iff_exists.mp serialised
  exact ⟨text, by rw [ofInstant, isText], trivial⟩

theorem nameOf_yields {key : Value} (named : isName key = true) (place : Place) :
    Yields (nameOf place key) fun _ => True := by
  cases key with
  | text name => exact ⟨name, rfl, trivial⟩
  | integer width value => exact ⟨Text.ofInt value, rfl, trivial⟩
  | instant time => exact ofInstant_yields named
  | _ => cases named

theorem members_yields {entries : List (String × Writer)} (total : ∀ entry ∈ entries, entry.2.Total)
    (place : Place) (offset : Nat) : Yields (members place offset entries) fun _ => True := by
  induction entries generalizing offset with
  | nil => exact ⟨[], by rw [members], trivial⟩
  | cons entry rest ih =>
      obtain ⟨first, later⟩ := List.forall_mem_cons.mp total
      rw [members]
      exact (first _).bind fun value _ => (ih later _).bind fun others _ => ⟨_, rfl, trivial⟩

theorem sortedMembers_yields {entries : List (String × Writer)}
    (total : ∀ entry ∈ entries, entry.2.Total) (place : Place) :
    Yields (sortedMembers place entries) fun _ => True := by
  unfold sortedMembers
  refine (members_yields (fun entry listed => total entry ?_) place _).bind fun written _ =>
    ⟨_, rfl, trivial⟩
  exact List.mem_mergeSort.mp listed

/-- Members whose keys become names keep their writers. -/
theorem named_yields {pairs : List (Value × Writer)} (named : ∀ pair ∈ pairs, isName pair.1 = true)
    (total : ∀ pair ∈ pairs, pair.2.Total) (place : Place) :
    Yields (pairs.mapM fun (key, writer) => do return (← nameOf place key, writer) :
      Outcome (List (String × Writer))) fun entries => ∀ entry ∈ entries, entry.2.Total := by
  have kept : ∀ pair ∈ pairs, Yields (do return (← nameOf place pair.1, pair.2) :
      Outcome (String × Writer)) fun entry => entry.2 = pair.2 := fun pair listed =>
    (nameOf_yields (named pair listed) place).bind fun name _ => ⟨_, rfl, rfl⟩
  obtain ⟨entries, given, paired⟩ := Outcome.yields_mapM kept
  refine ⟨entries, given, fun entry listed => ?_⟩
  obtain ⟨pair, isPair, same⟩ := Outcome.exists_item paired listed
  exact same ▸ total pair isPair

mutual

theorem ofValue_total : (value : Value) → isSerialisable value = true → Writer.Total (ofValue value)
  | .null, _ | .bool _, _ | .text _, _ | .integer .., _ => fun _ => ⟨_, by rw [ofValue], trivial⟩
  | .number value, serialisable => by
      rw [isSerialisable] at serialisable
      intro place
      rw [ofValue]
      exact ofNumber_yields serialisable
  | .single value, serialisable => by
      rw [isSerialisable] at serialisable
      intro place
      rw [ofValue]
      exact ofNumber_yields serialisable
  | .instant time, serialisable => by
      rw [isSerialisable] at serialisable
      intro place
      rw [ofValue]
      obtain ⟨text, isText, _⟩ := ofInstant_yields serialisable
      exact ⟨.text text, by rw [isText]; rfl, trivial⟩
  | .list items, serialisable => by
      rw [isSerialisable] at serialisable
      intro place
      rw [ofValue]
      exact (ofItems_yields items serialisable 0 place _).bind fun written _ => ⟨_, rfl, trivial⟩
  | .table entries, serialisable => by
      rw [isSerialisable] at serialisable
      intro place
      rw [ofValue]
      exact sortedMembers_yields (ofEntries_total entries serialisable) place
  | .mixed pairs, serialisable => by
      rw [isSerialisable] at serialisable
      intro place
      rw [ofValue]
      obtain ⟨named, total⟩ := ofPairs_total pairs serialisable
      exact (named_yields named total place).bind fun entries all => sortedMembers_yields all place

theorem ofItems_yields : (items : List Value) → areSerialisable items = true →
    ∀ index place offset, Yields (ofItems items index place offset) fun _ => True
  | [], _ => fun _ _ _ => ⟨[], by rw [ofItems], trivial⟩
  | item :: rest, serialisable => by
      rw [areSerialisable, Bool.and_eq_true] at serialisable
      intro index place offset
      rw [ofItems]
      exact (ofValue_total item serialisable.1 _).bind fun first _ =>
        (ofItems_yields rest serialisable.2 (index + 1) place _).bind fun others _ => ⟨_, rfl, trivial⟩

theorem ofEntries_total : (entries : List (String × Value)) → haveSerialisable entries = true →
    ∀ entry ∈ ofEntries entries, entry.2.Total
  | [], _ => by simp [ofEntries]
  | (_, value) :: rest, serialisable => by
      rw [haveSerialisable, Bool.and_eq_true] at serialisable
      rw [ofEntries]
      exact List.forall_mem_cons.mpr
        ⟨ofValue_total value serialisable.1, ofEntries_total rest serialisable.2⟩

theorem ofPairs_total : (pairs : List (Value × Value)) → areSerialisablePairs pairs = true →
    (∀ pair ∈ ofPairs pairs, isName pair.1 = true) ∧ ∀ pair ∈ ofPairs pairs, pair.2.Total
  | [], _ => by simp [ofPairs]
  | (key, value) :: rest, serialisable => by
      rw [areSerialisablePairs, Bool.and_eq_true, Bool.and_eq_true] at serialisable
      obtain ⟨⟨named, total⟩, later⟩ := serialisable
      obtain ⟨othersNamed, othersTotal⟩ := ofPairs_total rest later
      rw [ofPairs]
      exact ⟨List.forall_mem_cons.mpr ⟨named, othersNamed⟩,
        List.forall_mem_cons.mpr ⟨ofValue_total value total, othersTotal⟩⟩

end

end Metadata

/-- The table that is handed on to the host can be serialised. -/
def Settings.Serialisable (settings : Settings) : Prop :=
  Metadata.isSerialisable (.table (settings.customMetadata.getD ∅).entries) = true

namespace Program

variable {program : Program}

/-- A program whose own table can be serialised has metadata. -/
theorem metadata_yields (serialisable : program.settings.Serialisable) :
    Yields program.metadata fun _ => True := by
  have document : Yields (Metadata.document program) fun _ => True := by
    unfold Metadata.document
    refine (Metadata.members_yields ?_ {} 1).bind fun written _ => ⟨_, rfl, trivial⟩
    simp only [List.mem_cons, List.not_mem_nil, or_false, forall_eq_or_imp, forall_eq]
    exact ⟨fun _ => ⟨_, rfl, trivial⟩, Metadata.ofValue_total _ serialisable, fun _ => ⟨_, rfl, trivial⟩,
      fun _ => ⟨_, rfl, trivial⟩⟩
  obtain ⟨written, isWritten, _⟩ := document
  exact ⟨written.write, by rw [metadata, isWritten]; rfl, trivial⟩

end Program

end Patchbay
