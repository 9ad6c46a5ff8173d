namespace Patchbay

/-! Finite tables from text keys to values.

The entry list is the semantic model: keys are listed in the order in which they
were first set, and setting a key again keeps its place.  That no key occurs
twice is part of the type, so a reading never depends on which of two entries is
found first.
-/

structure Table (α : Type u) where
  entries : List (String × α)
  distinct : (entries.map Prod.fst).Nodup

namespace Table

variable {α : Type u} {β : Type v}

@[ext]
theorem ext {left right : Table α} (same : left.entries = right.entries) : left = right := by
  cases left
  cases right
  cases same
  rfl

def empty : Table α := ⟨[], List.nodup_nil⟩

instance : EmptyCollection (Table α) := ⟨empty⟩

instance : Inhabited (Table α) := ⟨empty⟩

instance [DecidableEq α] : DecidableEq (Table α) := fun left right =>
  if same : left.entries = right.entries then isTrue (ext same)
  else isFalse fun equal => same (congrArg entries equal)

instance [Repr α] : Repr (Table α) := ⟨fun table precedence => reprPrec table.entries precedence⟩

def keys (table : Table α) : List String := table.entries.map Prod.fst

def values (table : Table α) : List α := table.entries.map Prod.snd

def size (table : Table α) : Nat := table.entries.length

def isEmpty (table : Table α) : Bool := table.entries.isEmpty

def get? (table : Table α) (key : String) : Option α := table.entries.lookup key

def getD (table : Table α) (key : String) (fallback : α) : α := (table.get? key).getD fallback

def contains (table : Table α) (key : String) : Bool := (table.get? key).isSome

def setEntry (key : String) (value : α) : List (String × α) → List (String × α)
  | [] => [(key, value)]
  | (other, held) :: rest =>
      if other = key then (key, value) :: rest else (other, held) :: setEntry key value rest

theorem map_fst_setEntry (key : String) (value : α) (entries : List (String × α)) :
    (setEntry key value entries).map Prod.fst =
      if key ∈ entries.map Prod.fst then entries.map Prod.fst
      else entries.map Prod.fst ++ [key] := by
  induction entries with
  | nil => simp [setEntry]
  | cons entry rest ih =>
      obtain ⟨other, held⟩ := entry
      by_cases same : other = key
      · simp [setEntry, same]
      · have different : key ≠ other := fun equal => same equal.symm
        simp only [setEntry, if_neg same, List.map_cons, ih, List.mem_cons, different, false_or]
        split <;> simp

theorem nodup_setEntry {key : String} {value : α} {entries : List (String × α)}
    (distinct : (entries.map Prod.fst).Nodup) :
    ((setEntry key value entries).map Prod.fst).Nodup := by
  rw [map_fst_setEntry]
  split
  · exact distinct
  · next absent =>
      refine List.nodup_append.mpr ⟨distinct, by simp, ?_⟩
      intro known member other singleton equal
      rw [List.mem_singleton.mp singleton] at equal
      exact absent (equal ▸ member)

/-- Binds a key.  A key that is already bound keeps its place; a new one goes to the end. -/
def set (table : Table α) (key : String) (value : α) : Table α :=
  ⟨setEntry key value table.entries, nodup_setEntry table.distinct⟩

def filter (keep : String → α → Bool) (table : Table α) : Table α :=
  ⟨table.entries.filter fun entry => keep entry.1 entry.2,
    table.distinct.sublist (List.filter_sublist.map Prod.fst)⟩

def erase (table : Table α) (key : String) : Table α := table.filter fun other _ => other != key

theorem map_fst_map (change : String → α → β) (entries : List (String × α)) :
    (entries.map fun entry => (entry.1, change entry.1 entry.2)).map Prod.fst =
      entries.map Prod.fst := by
  simp [Function.comp_def]

def map (change : String → α → β) (table : Table α) : Table β :=
  ⟨table.entries.map fun entry => (entry.1, change entry.1 entry.2),
    (map_fst_map change table.entries).symm ▸ table.distinct⟩

/-- Applies a change to the value under a key, and does nothing where the key is unbound. -/
def modify (table : Table α) (key : String) (change : α → α) : Table α :=
  table.map fun other value => if other = key then change value else value

/-- Binds the pairs from first to last, so a later pair overrides an earlier one with its key. -/
def ofList (pairs : List (String × α)) : Table α :=
  pairs.foldl (fun table pair => table.set pair.1 pair.2) empty

/-- Adds the bindings of `added` to those of `base`; `added` wins where both bind a key. -/
def union (base added : Table α) : Table α :=
  added.entries.foldl (fun table pair => table.set pair.1 pair.2) base

@[simp]
theorem get?_empty (key : String) : (empty : Table α).get? key = none := rfl

theorem lookup_setEntry (key other : String) (value : α) (entries : List (String × α)) :
    (setEntry key value entries).lookup other =
      if other = key then some value else entries.lookup other := by
  induction entries with
  | nil =>
      by_cases same : other = key
      · simp [setEntry, same]
      · have apart : (other == key) = false := beq_eq_false_iff_ne.mpr same
        simp [setEntry, List.lookup_cons, apart, same]
  | cons entry rest ih =>
      obtain ⟨first, held⟩ := entry
      by_cases found : first = key
      · subst found
        by_cases same : other = first
        · simp [setEntry, same]
        · have apart : (other == first) = false := beq_eq_false_iff_ne.mpr same
          simp [setEntry, List.lookup_cons, apart, same]
      · by_cases same : other = first
        · subst same
          simp [setEntry, found]
        · have apart : (other == first) = false := beq_eq_false_iff_ne.mpr same
          simp only [setEntry, if_neg found, List.lookup_cons, apart, ih]

theorem get?_set (table : Table α) (key other : String) (value : α) :
    (table.set key value).get? other = if other = key then some value else table.get? other :=
  lookup_setEntry key other value table.entries

theorem keys_set (table : Table α) (key : String) (value : α) :
    (table.set key value).keys =
      if key ∈ table.keys then table.keys else table.keys ++ [key] :=
  map_fst_setEntry key value table.entries

@[simp]
theorem keys_map (change : String → α → β) (table : Table α) :
    (table.map change).keys = table.keys :=
  map_fst_map change table.entries

end Table

end Patchbay
