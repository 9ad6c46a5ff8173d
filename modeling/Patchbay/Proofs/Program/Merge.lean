import Mathlib.Data.List.Forall2
import Mathlib.Logic.Relation
import Patchbay.Program.Groups

namespace Patchbay

/-! Merging groups that share a node.

A merged group stands for a cluster of the groups it was made of.  Every step joins two clusters, so
the clusters of the result share out the given groups, and the merging ends when no two results
overlap.
-/

namespace Text

variable {ids kept : List String} {id : String}

theorem mem_foldl_unique :
    id ∈ ids.foldl (fun kept id => if kept.contains id then kept else kept ++ [id]) kept ↔
      id ∈ kept ∨ id ∈ ids := by
  induction ids generalizing kept with
  | nil => simp
  | cons first rest ih =>
      rw [List.foldl_cons, ih]
      by_cases present : first ∈ kept
      · simp only [List.contains_eq_mem, present, decide_true, if_true, List.mem_cons]
        constructor
        · exact fun either => either.imp_right .inr
        · intro given
          rcases given with early | rfl | late
          · exact .inl early
          · exact .inl present
          · exact .inr late
      · simp [present, or_assoc]

theorem nodup_foldl_unique (distinct : kept.Nodup) :
    (ids.foldl (fun kept id => if kept.contains id then kept else kept ++ [id]) kept).Nodup := by
  induction ids generalizing kept with
  | nil => exact distinct
  | cons first rest ih =>
      rw [List.foldl_cons]
      by_cases present : first ∈ kept
      · simpa [present] using ih distinct
      · have extended : (kept ++ [first]).Nodup := by
          refine List.nodup_append.mpr ⟨distinct, by simp, ?_⟩
          intro held member other singleton equal
          rw [List.mem_singleton.mp singleton] at equal
          exact present (equal ▸ member)
        simpa [present] using ih extended

@[simp]
theorem mem_unique : id ∈ unique ids ↔ id ∈ ids := by
  unfold unique
  rw [mem_foldl_unique]
  simp

theorem nodup_unique (ids : List String) : (unique ids).Nodup := nodup_foldl_unique List.nodup_nil

end Text

namespace DspGroup

variable {group other joined : DspGroup} {groups left merged : List DspGroup}
  {cluster : List DspGroup} {clusters : List (List DspGroup)}

/-- A group that holds what the groups of a cluster hold, without repetition. -/
structure Unites (cluster : List DspGroup) (group : DspGroup) : Prop where
  distinct : group.traversal.Nodup
  distinctOut : group.outNodes.Nodup
  members : ∀ id, id ∈ group.traversal ↔ ∃ part ∈ cluster, id ∈ part.traversal
  outs : ∀ id, id ∈ group.outNodes ↔ ∃ part ∈ cluster, id ∈ part.outNodes

theorem unites_singleton (distinct : group.traversal.Nodup) (distinctOut : group.outNodes.Nodup) :
    Unites [group] group :=
  ⟨distinct, distinctOut, by simp, by simp⟩

theorem Unites.join {added : List DspGroup} (first : Unites cluster group)
    (second : Unites added other) : Unites (cluster ++ added) (group.join other) where
  distinct := Text.nodup_unique _
  distinctOut := Text.nodup_unique _
  members id := by
    simp only [DspGroup.join, Text.mem_unique, List.mem_append, first.members, second.members,
      or_and_right, exists_or]
  outs id := by
    simp only [DspGroup.join, Text.mem_unique, List.mem_append, first.outs, second.outs,
      or_and_right, exists_or]

theorem overlaps_iff : group.overlaps other = true ↔
    ∃ id, id ∈ group.traversal ∧ id ∈ other.traversal := by
  simp [overlaps, and_comm]

theorem absorb?_eq_none_iff :
    group.absorb? groups = none ↔ ∀ other ∈ groups, group.overlaps other = false := by
  induction groups with
  | nil => simp [absorb?]
  | cons other rest ih =>
      by_cases overlapping : group.overlaps other = true
      · simp [absorb?, overlapping]
      · simp [absorb?, overlapping, ih]

theorem mergeOnce?_eq_none_iff :
    mergeOnce? groups = none ↔ groups.Pairwise fun left right => left.overlaps right = false := by
  induction groups with
  | nil => simp [mergeOnce?]
  | cons group rest ih =>
      rw [List.pairwise_cons, ← ih, ← absorb?_eq_none_iff]
      cases absorbed : group.absorb? rest with
      | none => simp [mergeOnce?, absorbed]
      | some found => simp [mergeOnce?, absorbed]

/-! ## Rounds of merging -/

theorem exists_of_absorb? (absorbed : group.absorb? groups = some (joined, left)) :
    ∃ front other back, groups = front ++ other :: back ∧ group.overlaps other = true ∧
      joined = group.join other ∧ left = front ++ back := by
  induction groups generalizing joined left with
  | nil => simp [absorb?] at absorbed
  | cons next rest ih =>
      unfold absorb? at absorbed
      split at absorbed
      · next overlapping =>
        cases absorbed
        exact ⟨[], next, rest, rfl, overlapping, rfl, rfl⟩
      · obtain ⟨⟨inner, kept⟩, found, equal⟩ := Option.map_eq_some_iff.mp absorbed
        cases equal
        obtain ⟨front, other, back, rfl, overlapping, isJoin, rfl⟩ := ih found
        exact ⟨next :: front, other, back, rfl, overlapping, isJoin, rfl⟩

/-- A round joins a group to an earlier one that it shares a node with. -/
theorem exists_of_mergeOnce? (found : mergeOnce? groups = some merged) :
    ∃ front group between other back,
      groups = front ++ group :: (between ++ other :: back) ∧ group.overlaps other = true ∧
        merged = front ++ group.join other :: (between ++ back) := by
  induction groups generalizing merged with
  | nil => simp [mergeOnce?] at found
  | cons first rest ih =>
      unfold mergeOnce? at found
      split at found
      · next absorbed =>
        cases found
        obtain ⟨between, other, back, rfl, overlapping, rfl, rfl⟩ := exists_of_absorb? absorbed
        exact ⟨[], first, between, other, back, rfl, overlapping, rfl⟩
      · obtain ⟨inner, foundLater, equal⟩ := Option.map_eq_some_iff.mp found
        cases equal
        obtain ⟨front, group, between, other, back, rfl, overlapping, rfl⟩ := ih foundLater
        exact ⟨first :: front, group, between, other, back, rfl, overlapping, rfl⟩

/-- Some rounds of merging lead from groups to groups that no further round changes. -/
inductive MergesIn : Nat → List DspGroup → List DspGroup → Prop
  | settled {groups : List DspGroup} (nothing : mergeOnce? groups = none) : MergesIn 0 groups groups
  | round {rounds : Nat} {groups next merged : List DspGroup} (found : mergeOnce? groups = some next)
      (later : MergesIn rounds next merged) : MergesIn (rounds + 1) groups merged

/-- Merging ends: every round leaves one group less. -/
theorem mergesIn_mergeOverlapping (groups : List DspGroup) :
    ∃ rounds, rounds + (mergeOverlapping groups).length = groups.length ∧
      MergesIn rounds groups (mergeOverlapping groups) := by
  induction groups using mergeOverlapping.induct with
  | case1 groups nothing =>
      have same : mergeOverlapping groups = groups := by
        rw [mergeOverlapping]
        split
        · rfl
        · next found => cases nothing.symm.trans found
      rw [same]
      exact ⟨0, Nat.zero_add _, .settled nothing⟩
  | case2 groups next found ih =>
      have same : mergeOverlapping groups = mergeOverlapping next := by
        rw [mergeOverlapping]
        split
        · next nothing => cases found.symm.trans nothing
        · next foundToo => cases found.symm.trans foundToo; rfl
      rw [same]
      obtain ⟨rounds, counted, merges⟩ := ih
      have shorter := length_mergeOnce? found
      exact ⟨rounds + 1, by omega, .round found merges⟩

theorem MergesIn.apart {rounds : Nat} (merges : MergesIn rounds groups merged) :
    merged.Pairwise fun left right => left.overlaps right = false := by
  induction merges with
  | settled nothing => exact mergeOnce?_eq_none_iff.mp nothing
  | round _ _ ih => exact ih

/-! ## Clusters -/

section Clusters

variable {ι : Type*} {clusters next final : List (List ι)}

/-- A cluster is added to an earlier one. -/
inductive Fuses : List (List ι) → List (List ι) → Prop
  | intro (front : List (List ι)) (cluster : List ι) (between : List (List ι)) (added : List ι)
      (back : List (List ι)) :
      Fuses (front ++ cluster :: (between ++ added :: back))
        (front ++ (cluster ++ added) :: (between ++ back))

theorem Fuses.flatten_perm (fuses : Fuses clusters next) : next.flatten.Perm clusters.flatten := by
  cases fuses with
  | intro front cluster between added back =>
      simp only [List.flatten_append, List.flatten_cons, List.append_assoc]
      exact ((List.perm_append_comm_assoc ..).append_left cluster).append_left front.flatten

theorem flatten_perm_of_fuses (fuses : Relation.ReflTransGen Fuses clusters final) :
    final.flatten.Perm clusters.flatten := by
  induction fuses with
  | refl => exact .refl _
  | tail _ fuse ih => exact fuse.flatten_perm.trans ih

variable {rel : List ι → DspGroup → Prop} {rounds : Nat}

theorem exists_of_forall₂_append {front back : List DspGroup}
    (held : List.Forall₂ rel clusters (front ++ back)) :
    ∃ before after, clusters = before ++ after ∧ List.Forall₂ rel before front ∧
      List.Forall₂ rel after back :=
  ⟨clusters.take front.length, clusters.drop front.length, (List.take_append_drop ..).symm,
    List.forall₂_take_append _ _ _ held, List.forall₂_drop_append _ _ _ held⟩

/-- What relates clusters to groups, and their concatenation to the join of overlapping groups, does so
after every round. -/
theorem MergesIn.fuses (merges : MergesIn rounds groups merged)
    (joins : ∀ {cluster added group other}, rel cluster group → rel added other →
      group.overlaps other = true → rel (cluster ++ added) (group.join other))
    (held : List.Forall₂ rel clusters groups) :
    ∃ final, List.Forall₂ rel final merged ∧ Relation.ReflTransGen Fuses clusters final := by
  induction merges generalizing clusters with
  | settled nothing => exact ⟨clusters, held, .refl⟩
  | round found _ ih =>
      obtain ⟨front, group, between, other, back, rfl, overlapping, rfl⟩ := exists_of_mergeOnce? found
      obtain ⟨before, _, rfl, heldBefore, fromGroup⟩ := exists_of_forall₂_append held
      obtain ⟨cluster, _, heldGroup, pastGroup, rfl⟩ := List.forall₂_cons_right_iff.mp fromGroup
      obtain ⟨inside, _, rfl, heldBetween, fromOther⟩ := exists_of_forall₂_append pastGroup
      obtain ⟨added, after, heldOther, heldBack, rfl⟩ := List.forall₂_cons_right_iff.mp fromOther
      have heldNext := List.rel_append heldBefore
        (.cons (joins heldGroup heldOther overlapping) (List.rel_append heldBetween heldBack))
      obtain ⟨final, heldFinal, fuses⟩ := ih heldNext
      exact ⟨final, heldFinal, .head (.intro before cluster inside added after) fuses⟩

end Clusters

/-- The merged groups unite clusters that share out the given groups, and no two overlap. -/
theorem unites_mergeOverlapping {clusters : List (List DspGroup)}
    (held : List.Forall₂ Unites clusters groups) :
    ∃ final, List.Forall₂ Unites final (mergeOverlapping groups) ∧
      final.flatten.Perm clusters.flatten ∧
      (mergeOverlapping groups).Pairwise fun left right => left.overlaps right = false := by
  obtain ⟨_, _, merges⟩ := mergesIn_mergeOverlapping groups
  obtain ⟨final, unites, fuses⟩ := merges.fuses (fun first second _ => first.join second) held
  exact ⟨final, unites, flatten_perm_of_fuses fuses, merges.apart⟩

end DspGroup

end Patchbay
