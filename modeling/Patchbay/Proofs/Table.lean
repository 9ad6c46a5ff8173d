import Mathlib.Data.List.Basic
import Mathlib.Data.List.Induction
import Patchbay.Module.Basic

namespace Patchbay.Table

/-! Look-up in tables.

`get?` determines a table up to the order of its keys, and every operation is described by what it
does to `get?`.
-/

variable {α : Type u} {β : Type v} {table other : Table α} {key : String} {value : α}

@[simp]
theorem get?_emptyCollection (key : String) : (∅ : Table α).get? key = none := rfl

theorem mem_entries_iff : (key, value) ∈ table.entries ↔ table.get? key = some value := by
  obtain ⟨entries, distinct⟩ := table
  unfold get?
  induction entries with
  | nil => simp
  | cons entry rest ih =>
      obtain ⟨other, held⟩ := entry
      simp only [List.map_cons, List.nodup_cons] at distinct
      have later := ih distinct.2
      by_cases same : key = other
      · subst same
        have absent : (key, value) ∉ rest := fun member =>
          distinct.1 (List.mem_map_of_mem (f := Prod.fst) member)
        simp [absent, eq_comm]
      · have apart : (key == other) = false := beq_eq_false_iff_ne.mpr same
        simp only [List.lookup_cons, apart, List.mem_cons, Prod.mk.injEq, same, false_and,
          false_or]
        exact later

theorem mem_keys_iff : key ∈ table.keys ↔ ∃ value, table.get? key = some value := by
  simp only [keys, List.mem_map, Prod.exists, exists_and_right, exists_eq_right,
    mem_entries_iff]

theorem mem_keys_of_get? (found : table.get? key = some value) : key ∈ table.keys :=
  mem_keys_iff.mpr ⟨value, found⟩

theorem get?_eq_none_iff : table.get? key = none ↔ key ∉ table.keys := by
  rw [mem_keys_iff, Option.eq_none_iff_forall_ne_some]
  simp

theorem contains_iff : table.contains key = true ↔ key ∈ table.keys := by
  rw [mem_keys_iff, contains, Option.isSome_iff_exists]

theorem mem_values_iff : value ∈ table.values ↔ ∃ key, table.get? key = some value := by
  simp only [values, List.mem_map, Prod.exists, exists_eq_right, mem_entries_iff]

@[simp]
theorem get?_map (change : String → α → β) :
    (table.map change).get? key = (table.get? key).map (change key) := by
  change (table.entries.map fun entry => (entry.1, change entry.1 entry.2)).lookup key =
    (table.entries.lookup key).map (change key)
  induction table.entries with
  | nil => rfl
  | cons entry rest ih =>
      obtain ⟨other, held⟩ := entry
      by_cases same : key = other
      · simp [same]
      · have apart : (key == other) = false := beq_eq_false_iff_ne.mpr same
        simp only [List.map_cons, List.lookup_cons, apart]
        exact ih

@[simp]
theorem get?_filter (keep : String → α → Bool) :
    (table.filter keep).get? key = (table.get? key).filter (keep key) := by
  ext value
  rw [← mem_entries_iff, Option.filter_eq_some_iff, ← mem_entries_iff]
  exact List.mem_filter

@[simp]
theorem get?_modify (change : α → α) (other : String) :
    (table.modify other change).get? key =
      if key = other then (table.get? key).map change else table.get? key := by
  unfold modify
  rw [get?_map]
  split <;> simp_all

theorem keys_modify (change : α → α) (other : String) :
    (table.modify other change).keys = table.keys :=
  keys_map _ table

/-- Binding the keys of a list to one value changes the look-up of exactly these keys. -/
theorem get?_foldl_set (keys : List String) (bound : α) (table : Table α) :
    (keys.foldl (fun table key => table.set key bound) table).get? key =
      if key ∈ keys then some bound else table.get? key := by
  induction keys generalizing table with
  | nil => simp
  | cons first rest ih =>
      rw [List.foldl_cons, ih, get?_set]
      by_cases later : key ∈ rest
      · simp [later]
      · by_cases same : key = first <;> simp [later, same]

/-! ## Equal tables -/

/-- A table is determined by the order of its keys and what is found under them. -/
theorem ext_get? (sameKeys : table.keys = other.keys) (same : ∀ key, table.get? key = other.get? key) :
    table = other := by
  have listed : ∀ table : Table α, table.entries =
      table.keys.filterMap fun key => (table.get? key).map fun value => (key, value) := by
    intro table
    unfold keys
    rw [List.filterMap_map]
    refine List.filterMap_some.symm.trans (List.filterMap_congr fun entry member => ?_)
    rw [Function.comp_apply, mem_entries_iff.mp member]
    rfl
  refine ext ?_
  rw [listed table, listed other, sameKeys]
  simp only [same]

theorem set_set (first second : α) : (table.set key first).set key second = table.set key second := by
  refine ext_get? ?_ fun other => ?_
  · have member : key ∈ (table.set key first).keys := by
      rw [keys_set]
      split <;> simp [*]
    rw [keys_set, if_pos member, keys_set, keys_set]
  · rw [get?_set, get?_set, get?_set]
    split <;> rfl

theorem set_of_get? (found : table.get? key = some value) : table.set key value = table := by
  refine ext_get? ?_ fun other => ?_
  · rw [keys_set, if_pos (mem_keys_of_get? found)]
  · rw [get?_set]
    split
    · next same => rw [same, found]
    · rfl

theorem keys_erase : (table.erase key).keys = table.keys.filter (· != key) := by
  unfold keys erase filter
  rw [List.filter_map]
  rfl

theorem get?_erase (bound : String) :
    (table.erase bound).get? key = if key = bound then none else table.get? key := by
  unfold erase
  rw [get?_filter]
  by_cases same : key = bound <;> cases table.get? key <;> simp [same]

theorem erase_set (unbound : key ∉ table.keys) : (table.set key value).erase key = table := by
  refine ext_get? ?_ fun other => ?_
  · have others : ∀ other ∈ table.keys, (other != key) = true := by
      intro other member
      exact bne_iff_ne.mpr fun same => unbound (same ▸ member)
    rw [keys_erase, keys_set, if_neg unbound, List.filter_append, List.filter_eq_self.mpr others]
    simp
  · rw [get?_erase, get?_set]
    split
    · next same => rw [same, get?_eq_none_iff.mpr unbound]
    · rfl

/-! ## Tables of which something holds throughout -/

/-- Something holds of every key of a table and the value under it. -/
def Every (holds : String → α → Prop) (table : Table α) : Prop :=
  ∀ key value, table.get? key = some value → holds key value

section Every

variable {holds : String → α → Prop}

theorem every_empty : (∅ : Table α).Every holds := by
  intro key value found
  cases found

theorem Every.of_mem (every : table.Every holds) (member : value ∈ table.values) :
    ∃ key, holds key value := by
  obtain ⟨key, found⟩ := mem_values_iff.mp member
  exact ⟨key, every key value found⟩

theorem Every.getD (every : table.Every holds) {fallback : α} (otherwise : holds key fallback) :
    holds key (table.getD key fallback) := by
  unfold Table.getD
  cases found : table.get? key with
  | none => exact otherwise
  | some value => exact every key value found

theorem Every.set (every : table.Every holds) (given : holds key value) :
    (table.set key value).Every holds := by
  intro other held found
  rw [get?_set] at found
  split at found
  · next same =>
    cases found
    exact same ▸ given
  · exact every other held found

theorem Every.map {held : String → β → Prop} {change : String → α → β} (every : table.Every holds)
    (kept : ∀ key value, holds key value → held key (change key value)) :
    (table.map change).Every held := by
  intro key value found
  rw [get?_map] at found
  obtain ⟨before, stored, rfl⟩ := Option.map_eq_some_iff.mp found
  exact kept key before (every key before stored)

theorem Every.modify {change : α → α} (every : table.Every holds) (changed : String)
    (kept : ∀ key value, holds key value → holds key (change value)) :
    (table.modify changed change).Every holds := by
  refine every.map fun key value given => ?_
  split
  · exact kept key value given
  · exact given

end Every

section OfList

variable {pairs : List (String × α)} {pair : String × α}

theorem entries_set_of_fresh (fresh : key ∉ table.keys) :
    (table.set key value).entries = table.entries ++ [(key, value)] := by
  unfold keys at fresh
  change setEntry key value table.entries = _
  generalize table.entries = entries at fresh
  induction entries with
  | nil => rfl
  | cons entry rest ih =>
      obtain ⟨other, held⟩ := entry
      simp only [List.map_cons, List.mem_cons, not_or] at fresh
      have different : other ≠ key := fun same => fresh.1 same.symm
      simp only [setEntry, if_neg different, List.cons_append]
      rw [ih fresh.2]

theorem ofList_append_singleton : ofList (pairs ++ [pair]) = (ofList pairs).set pair.1 pair.2 := by
  simp [ofList]

theorem entries_ofList (distinct : (pairs.map Prod.fst).Nodup) : (ofList pairs).entries = pairs := by
  induction pairs using List.reverseRecOn with
  | nil => rfl
  | append_singleton pairs pair ih =>
      rw [List.map_append, List.nodup_append] at distinct
      have earlier := ih distinct.1
      have fresh : pair.1 ∉ (ofList pairs).keys := by
        unfold keys
        rw [earlier]
        exact fun member => distinct.2.2 _ member _ (by simp) rfl
      rw [ofList_append_singleton, entries_set_of_fresh fresh, earlier]

theorem keys_ofList (distinct : (pairs.map Prod.fst).Nodup) :
    (ofList pairs).keys = pairs.map Prod.fst := by
  unfold keys
  rw [entries_ofList distinct]

theorem keys_ofList_map {β : Type v} {items : List β} {key : β → String} {value : β → α}
    (distinct : (items.map key).Nodup) :
    (ofList (items.map fun item => (key item, value item))).keys = items.map key := by
  rw [keys_ofList] <;> simp [Function.comp_def, distinct]

theorem mem_of_get?_ofList {key : String} {bound : α} (found : (ofList pairs).get? key = some bound) :
    (key, bound) ∈ pairs := by
  induction pairs using List.reverseRecOn with
  | nil => cases found
  | append_singleton pairs pair ih =>
      rw [ofList_append_singleton, get?_set] at found
      split at found
      · next same =>
        cases found
        simp [same]
      · exact List.mem_append_left _ (ih found)

theorem mem_keys_ofList {key : String} : key ∈ (ofList pairs).keys ↔ key ∈ pairs.map Prod.fst := by
  induction pairs using List.reverseRecOn with
  | nil => exact Iff.rfl
  | append_singleton pairs pair ih =>
      rw [ofList_append_singleton, keys_set, List.map_append, List.mem_append, ← ih]
      split
      · next known =>
        refine ⟨.inl, fun given => given.elim (fun member => member) fun last => ?_⟩
        rwa [List.mem_singleton.mp last]
      · simp

theorem get?_ofList_map_iff {β : Type v} {items : List β} {key : β → String} {value : β → α}
    (distinct : (items.map key).Nodup) {name : String} {bound : α} :
    (ofList (items.map fun item => (key item, value item))).get? name = some bound ↔
      ∃ item ∈ items, key item = name ∧ value item = bound := by
  rw [← mem_entries_iff, entries_ofList (by simpa [Function.comp_def] using distinct)]
  simp

end OfList

end Patchbay.Table
