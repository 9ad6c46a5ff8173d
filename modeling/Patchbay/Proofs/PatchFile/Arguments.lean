import Patchbay.PatchFile.Basic
import Patchbay.Proofs.Table

namespace Patchbay

/-! Arguments from one file format or the other.

A format that has integers gives an argument as it is spelled; one that has none gives it with a double for
every number, which is `asDoubles`.  Normalizing makes the two the same where numbers stand by themselves or
in lists, but it leaves tables as they are.  So it misses exactly the arguments that have an integer below a
table.
-/

namespace Value

mutual

/-- The value with a double for every number in it. -/
def asDoubles : Value → Value
  | .integer _ value => .number (Number.doubleOfInt value)
  | .single value => .number value.toFloat
  | .list items => .list (asDoublesItems items)
  | .table entries => .table (asDoublesEntries entries)
  | .mixed pairs => .mixed (asDoublesPairs pairs)
  | .null => .null
  | .bool value => .bool value
  | .text value => .text value
  | .number value => .number value
  | .instant time => .instant time

def asDoublesItems : List Value → List Value
  | [] => []
  | item :: rest => item.asDoubles :: asDoublesItems rest

def asDoublesEntries : List (String × Value) → List (String × Value)
  | [] => []
  | (key, value) :: rest => (key, value.asDoubles) :: asDoublesEntries rest

def asDoublesPairs : List (Value × Value) → List (Value × Value)
  | [] => []
  | (key, value) :: rest => (key.asDoubles, value.asDoubles) :: asDoublesPairs rest

end

mutual

/-- Whether every number in a value is a double. -/
def hasOnlyDoubles : Value → Bool
  | .integer .. | .single _ => false
  | .list items => itemsHaveOnlyDoubles items
  | .table entries => entriesHaveOnlyDoubles entries
  | .mixed pairs => pairsHaveOnlyDoubles pairs
  | .null | .bool _ | .text _ | .number _ | .instant _ => true

def itemsHaveOnlyDoubles : List Value → Bool
  | [] => true
  | item :: rest => item.hasOnlyDoubles && itemsHaveOnlyDoubles rest

def entriesHaveOnlyDoubles : List (String × Value) → Bool
  | [] => true
  | (_, value) :: rest => value.hasOnlyDoubles && entriesHaveOnlyDoubles rest

def pairsHaveOnlyDoubles : List (Value × Value) → Bool
  | [] => true
  | (key, value) :: rest =>
      key.hasOnlyDoubles && value.hasOnlyDoubles && pairsHaveOnlyDoubles rest

end

mutual

/-- Whether every number below a table is a double.  Numbers elsewhere may be of any width. -/
def tablesHaveOnlyDoubles : Value → Bool
  | .list items => itemTablesHaveOnlyDoubles items
  | .table entries => entriesHaveOnlyDoubles entries
  | .mixed pairs => pairsHaveOnlyDoubles pairs
  | .null | .bool _ | .text _ | .number _ | .single _ | .integer .. | .instant _ => true

def itemTablesHaveOnlyDoubles : List Value → Bool
  | [] => true
  | item :: rest => item.tablesHaveOnlyDoubles && itemTablesHaveOnlyDoubles rest

end

/-! ## Doubles -/

mutual

theorem asDoubles_eq_self_iff : ∀ value : Value, value.asDoubles = value ↔ value.hasOnlyDoubles = true
  | .integer .. | .single _ => by simp [asDoubles, hasOnlyDoubles]
  | .null | .bool _ | .text _ | .number _ | .instant _ => by simp [asDoubles, hasOnlyDoubles]
  | .list items => by simp [asDoubles, hasOnlyDoubles, asDoublesItems_eq_self_iff items]
  | .table entries => by simp [asDoubles, hasOnlyDoubles, asDoublesEntries_eq_self_iff entries]
  | .mixed pairs => by simp [asDoubles, hasOnlyDoubles, asDoublesPairs_eq_self_iff pairs]

theorem asDoublesItems_eq_self_iff :
    ∀ items : List Value, asDoublesItems items = items ↔ itemsHaveOnlyDoubles items = true
  | [] => by simp [asDoublesItems, itemsHaveOnlyDoubles]
  | item :: rest => by
      simp [asDoublesItems, itemsHaveOnlyDoubles, asDoubles_eq_self_iff item,
        asDoublesItems_eq_self_iff rest]

theorem asDoublesEntries_eq_self_iff : ∀ entries : List (String × Value),
    asDoublesEntries entries = entries ↔ entriesHaveOnlyDoubles entries = true
  | [] => by simp [asDoublesEntries, entriesHaveOnlyDoubles]
  | (_, value) :: rest => by
      simp [asDoublesEntries, entriesHaveOnlyDoubles, asDoubles_eq_self_iff value,
        asDoublesEntries_eq_self_iff rest]

theorem asDoublesPairs_eq_self_iff : ∀ pairs : List (Value × Value),
    asDoublesPairs pairs = pairs ↔ pairsHaveOnlyDoubles pairs = true
  | [] => by simp [asDoublesPairs, pairsHaveOnlyDoubles]
  | (key, value) :: rest => by
      simp [asDoublesPairs, pairsHaveOnlyDoubles, asDoubles_eq_self_iff key,
        asDoubles_eq_self_iff value, asDoublesPairs_eq_self_iff rest]

end

mutual

theorem hasOnlyDoubles_asDoubles : ∀ value : Value, value.asDoubles.hasOnlyDoubles = true
  | .integer .. | .single _ => by simp [asDoubles, hasOnlyDoubles]
  | .null | .bool _ | .text _ | .number _ | .instant _ => by simp [asDoubles, hasOnlyDoubles]
  | .list items => by simp [asDoubles, hasOnlyDoubles, itemsHaveOnlyDoubles_asDoubles items]
  | .table entries => by simp [asDoubles, hasOnlyDoubles, entriesHaveOnlyDoubles_asDoubles entries]
  | .mixed pairs => by simp [asDoubles, hasOnlyDoubles, pairsHaveOnlyDoubles_asDoubles pairs]

theorem itemsHaveOnlyDoubles_asDoubles :
    ∀ items : List Value, itemsHaveOnlyDoubles (asDoublesItems items) = true
  | [] => rfl
  | item :: rest => by
      simp [asDoublesItems, itemsHaveOnlyDoubles, hasOnlyDoubles_asDoubles item,
        itemsHaveOnlyDoubles_asDoubles rest]

theorem entriesHaveOnlyDoubles_asDoubles :
    ∀ entries : List (String × Value), entriesHaveOnlyDoubles (asDoublesEntries entries) = true
  | [] => rfl
  | (_, value) :: rest => by
      simp [asDoublesEntries, entriesHaveOnlyDoubles, hasOnlyDoubles_asDoubles value,
        entriesHaveOnlyDoubles_asDoubles rest]

theorem pairsHaveOnlyDoubles_asDoubles :
    ∀ pairs : List (Value × Value), pairsHaveOnlyDoubles (asDoublesPairs pairs) = true
  | [] => rfl
  | (key, value) :: rest => by
      simp [asDoublesPairs, pairsHaveOnlyDoubles, hasOnlyDoubles_asDoubles key,
        hasOnlyDoubles_asDoubles value, pairsHaveOnlyDoubles_asDoubles rest]

end

mutual

theorem tablesHaveOnlyDoubles_of_hasOnlyDoubles :
    ∀ value : Value, value.hasOnlyDoubles = true → value.tablesHaveOnlyDoubles = true
  | .integer .. | .single _ => fun _ => rfl
  | .null | .bool _ | .text _ | .number _ | .instant _ => fun _ => rfl
  | .list items => itemTablesHaveOnlyDoubles_of_itemsHaveOnlyDoubles items
  | .table _ | .mixed _ => fun all => all

theorem itemTablesHaveOnlyDoubles_of_itemsHaveOnlyDoubles : ∀ items : List Value,
    itemsHaveOnlyDoubles items = true → itemTablesHaveOnlyDoubles items = true
  | [] => fun _ => rfl
  | item :: rest => fun all => by
      rw [itemsHaveOnlyDoubles, Bool.and_eq_true] at all
      rw [itemTablesHaveOnlyDoubles, Bool.and_eq_true]
      exact ⟨tablesHaveOnlyDoubles_of_hasOnlyDoubles item all.1,
        itemTablesHaveOnlyDoubles_of_itemsHaveOnlyDoubles rest all.2⟩

end

/-! ## Normalizing -/

mutual

/-- Normalizing gives doubles only, unless a number below a table is of another width. -/
theorem hasOnlyDoubles_normalize_iff :
    ∀ value : Value, value.normalize.hasOnlyDoubles = true ↔ value.tablesHaveOnlyDoubles = true
  | .integer .. | .single _ => by simp [normalize, hasOnlyDoubles, tablesHaveOnlyDoubles]
  | .null | .bool _ | .text _ | .number _ | .instant _ => by
      simp [normalize, hasOnlyDoubles, tablesHaveOnlyDoubles]
  | .list items => itemsHaveOnlyDoubles_normalize_iff items
  | .table _ | .mixed _ => Iff.rfl

theorem itemsHaveOnlyDoubles_normalize_iff : ∀ items : List Value,
    itemsHaveOnlyDoubles (normalizeItems items) = true ↔ itemTablesHaveOnlyDoubles items = true
  | [] => Iff.rfl
  | item :: rest => by
      rw [normalizeItems, itemsHaveOnlyDoubles, itemTablesHaveOnlyDoubles, Bool.and_eq_true,
        Bool.and_eq_true, hasOnlyDoubles_normalize_iff item, itemsHaveOnlyDoubles_normalize_iff rest]

end

mutual

theorem normalize_eq_asDoubles_iff :
    ∀ value : Value, value.normalize = value.asDoubles ↔ value.tablesHaveOnlyDoubles = true
  | .integer .. | .single _ => by simp [normalize, asDoubles, tablesHaveOnlyDoubles]
  | .null | .bool _ | .text _ | .number _ | .instant _ => by
      simp [normalize, asDoubles, tablesHaveOnlyDoubles]
  | .list items => by
      rw [normalize, asDoubles, Value.list.injEq]
      exact normalizeItems_eq_asDoublesItems_iff items
  | .table entries => by
      rw [normalize, asDoubles, Value.table.injEq, eq_comm]
      exact asDoublesEntries_eq_self_iff entries
  | .mixed pairs => by
      rw [normalize, asDoubles, Value.mixed.injEq, eq_comm]
      exact asDoublesPairs_eq_self_iff pairs

theorem normalizeItems_eq_asDoublesItems_iff : ∀ items : List Value,
    normalizeItems items = asDoublesItems items ↔ itemTablesHaveOnlyDoubles items = true
  | [] => by simp [normalizeItems, asDoublesItems, itemTablesHaveOnlyDoubles]
  | item :: rest => by
      rw [normalizeItems, asDoublesItems, List.cons.injEq, itemTablesHaveOnlyDoubles,
        Bool.and_eq_true, normalize_eq_asDoubles_iff item, normalizeItems_eq_asDoublesItems_iff rest]

end

/-- What has doubles only is normal already. -/
theorem normalize_asDoubles (value : Value) : value.asDoubles.normalize = value.asDoubles := by
  have only := hasOnlyDoubles_asDoubles value
  have normal := (normalize_eq_asDoubles_iff value.asDoubles).mpr
    (tablesHaveOnlyDoubles_of_hasOnlyDoubles _ only)
  rw [normal]
  exact (asDoubles_eq_self_iff value.asDoubles).mpr only

/-- An argument is the same from either format exactly if every number below a table is a double. -/
theorem normalize_agrees_iff (value : Value) :
    value.normalize = value.asDoubles.normalize ↔ value.tablesHaveOnlyDoubles = true := by
  rw [normalize_asDoubles]
  exact normalize_eq_asDoubles_iff value

example : (Value.list [.integer .machine 1, .table [("b", .integer .machine 1)]]).normalize =
    .list [.number (Number.doubleOfInt 1), .table [("b", .integer .machine 1)]] := rfl

end Value

/-! ## Files -/

namespace PatchFile

/-- The entry of a node as a format without integers gives it. -/
def withDoubles (entry : NodeEntry) : NodeEntry :=
  { entry with args := entry.args.map fun args => args.map fun _ value => value.asDoubles }

def asDoubles (file : PatchFile) : PatchFile :=
  { file with nodes := { file.nodes with items := file.nodes.items.map withDoubles } }

/-- The arguments of a node are the same from either format if no table has a number that is no double. -/
theorem node_withDoubles {entry : NodeEntry} (plain : ∀ args, entry.args = some args →
    ∀ value ∈ args.values, value.tablesHaveOnlyDoubles = true) :
    node (withDoubles entry) = node entry := by
  have sameArgs : (withDoubles entry).args.map (fun args => args.map fun _ value => value.normalize) =
      entry.args.map fun args => args.map fun _ value => value.normalize := by
    unfold withDoubles
    cases given : entry.args with
    | none => rfl
    | some args =>
        rw [Option.map_some, Option.map_some, Option.map_some, Option.some.injEq]
        refine Table.ext ?_
        simp only [Table.map, List.map_map]
        refine List.map_congr_left fun slot member => ?_
        have held := plain args given slot.2 (List.mem_map_of_mem member)
        exact Prod.ext rfl ((Value.normalize_agrees_iff slot.2).mpr held).symm
  unfold node
  rw [sameArgs]
  rfl

/-- A file builds the same patch in either format if no table of an argument has a number that is no
double. -/
theorem toPatch_asDoubles {file : PatchFile} (plain : ∀ entry ∈ file.nodes.items, ∀ args,
    entry.args = some args → ∀ value ∈ args.values, value.tablesHaveOnlyDoubles = true) :
    file.asDoubles.toPatch = file.toPatch := by
  have sameNodes : (file.nodes.items.map withDoubles).mapM node = file.nodes.items.mapM node :=
    calc (file.nodes.items.map withDoubles).mapM node
      _ = (file.nodes.items.map (node ∘ withDoubles)).mapM id := by rw [List.mapM_map, List.mapM_map]; rfl
      _ = (file.nodes.items.map node).mapM id :=
          congrArg (List.mapM id) (List.map_congr_left fun entry member =>
            node_withDoubles (plain entry member))
      _ = file.nodes.items.mapM node := List.mapM_map
  unfold toPatch asDoubles
  rw [sameNodes]

end PatchFile

end Patchbay
