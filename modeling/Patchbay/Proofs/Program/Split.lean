import Patchbay.Proofs.Program.Inlining

namespace Patchbay

/-! Splitting the signal part of a program.

The parents are the hot group and the cold groups as they are before inlining.  They share out the
root order, and each is left with its members that are not inlinable.
-/

theorem Text.ofNat_injective {left right : Nat} (same : Text.ofNat left = Text.ofNat right) :
    left = right := by
  have sameDigits : Nat.toDigits 10 left = Nat.toDigits 10 right := String.ofList_injective same
  have values := congrArg (Nat.ofDigitChars 10 · 0) sameDigits
  simpa using values

namespace Program

variable {program base split : Program} {parent group : DspGroup} {groups : List DspGroup}
  {id source sink : String}

theorem exists_position (member : group ∈ groups) :
    ∃ position, (group, position) ∈ groups.zipIdx := by
  rw [← List.zipIdx_map_fst 0 groups] at member
  obtain ⟨entry, indexed, rfl⟩ := List.mem_map.mp member
  exact ⟨entry.2, indexed⟩

/-- The hot group with its inlinable members. -/
def hotParent (program : Program) : DspGroup :=
  ⟨program.rootDsp.traversal.filter fun id => !program.coldOf.contains id, program.rootDsp.outNodes⟩

/-- What is left of a group when its inline groups are taken out. -/
def left (program : Program) (parent : DspGroup) : List String :=
  parent.traversal.filter fun id => !program.isInlinable parent id

/-- The registered form of a cold group with a given traversal. -/
def coldEntry (program : Program) (group : DspGroup) (position : Nat) (traversal : List String) :
    ColdGroup where
  traversal := traversal
  outNodes := group.outNodes
  id := Text.ofNat position
  functionName := Text.join ["DSP", Text.ofNat position]
  sinkConnections := leaving program.graph group.traversal

/-- Nothing was split yet. -/
structure Unsplit (program : Program) : Prop where
  coldDsp : program.coldDsp.entries = ∅
  coldOf : program.coldOf = ∅
  inlineDsp : program.inlineDsp = []
  inlined : program.inlined = []

/-- The state of a program after splitting; `groups` are its cold groups before inlining. -/
structure SplitInto (split : Program) (groups : List DspGroup) : Prop where
  wellFormed : split.graph.WellFormed
  pulled : split.rootDsp.outNodes = split.graph.pulling
  rooted : split.Rooted
  coldGroups : split.coldGroups = .ok groups
  hotDsp : split.hotDsp = ⟨split.left split.hotParent, split.rootDsp.outNodes⟩
  coldDsp : split.coldDsp.entries.entries = groups.zipIdx.map fun (group, position) =>
    (Text.ofNat position, split.coldEntry group position (split.left group))
  coldOf : ∀ id key, split.coldOf.get? id = some key ↔
    ∃ group position, (group, position) ∈ groups.zipIdx ∧ key = Text.ofNat position ∧
      id ∈ group.traversal
  inlineDsp : ∃ inline, List.Forall₂ (fun parent inner => split.inlineGroups parent = .ok inner)
    (split.hotParent :: groups) inline ∧ split.inlineDsp = inline.flatten
  inlined : ∀ id, id ∈ split.inlined ↔
    ∃ parent ∈ split.hotParent :: groups, split.isInlinable parent id = true

theorem coldOf_contains_iff_of (membership : ∀ id key, program.coldOf.get? id = some key ↔
      ∃ group position, (group, position) ∈ groups.zipIdx ∧ key = Text.ofNat position ∧
        id ∈ group.traversal) (id : String) :
    program.coldOf.contains id = true ↔ ∃ group ∈ groups, id ∈ group.traversal := by
  rw [Table.contains_iff, Table.mem_keys_iff]
  constructor
  · intro given
    obtain ⟨key, found⟩ := given
    obtain ⟨group, position, member, _, inGroup⟩ := (membership id key).mp found
    exact ⟨group, List.fst_mem_of_mem_zipIdx member, inGroup⟩
  · intro given
    obtain ⟨group, member, inGroup⟩ := given
    obtain ⟨position, indexed⟩ := exists_position member
    exact ⟨Text.ofNat position, (membership id _).mpr ⟨group, position, indexed, rfl, inGroup⟩⟩

/-! ## The cold groups are registered -/

def withColdGroup (program : Program) (names : NameIndex) (group : DspGroup) (position : Nat) :
    Program :=
  let key := Text.ofNat position
  let entry := program.coldEntry group position group.traversal
  { program with
    names
    coldDsp := { program.coldDsp with entries := program.coldDsp.entries.set key entry }
    coldOf := group.traversal.foldl (fun coldOf node => coldOf.set node key) program.coldOf }

theorem addColdGroup_eq {position : Nat}
    (fresh : Text.ofNat position ∉ program.coldDsp.entries.keys) :
    ∃ names, program.addColdGroup position group =
      .ok (program.withColdGroup names group position) := by
  have absent : program.coldDsp.entries.contains (Text.ofNat position) = false := by
    cases known : program.coldDsp.entries.contains (Text.ofNat position) with
    | false => rfl
    | true => exact absurd (Table.contains_iff.mp known) fresh
  refine ⟨(program.names.take .coldGroups (Text.ofNat position)).2, ?_⟩
  simp [addColdGroup, readName, NameIndex.read, NameIndex.enter, bind, Except.bind, pure,
    Except.pure, Register.add, absent, NameIndex.take, NameIndex.nameOf, NameIndex.pathOf,
    coldEntry, withColdGroup]

/-- The cold groups that were registered so far. -/
structure ColdRegistered (base : Program) (done : List (DspGroup × Nat)) (state : Program) :
    Prop where
  frame : ∃ names coldDsp coldOf, state = { base with names, coldDsp, coldOf }
  coldDsp : state.coldDsp.entries.entries = done.map fun (group, position) =>
    (Text.ofNat position, base.coldEntry group position group.traversal)
  coldOf : ∀ id key, state.coldOf.get? id = some key ↔
    ∃ group position, (group, position) ∈ done ∧ key = Text.ofNat position ∧ id ∈ group.traversal

theorem ColdRegistered.step {done : List (DspGroup × Nat)} {position : Nat}
    (held : ColdRegistered base done program)
    (fresh : ∀ entry ∈ done, entry.2 ≠ position)
    (apart : ∀ entry ∈ done, ∀ id ∈ group.traversal, id ∉ entry.1.traversal) :
    Outcome.Yields (program.addColdGroup position group)
      (ColdRegistered base (done ++ [(group, position)])) := by
  obtain ⟨⟨names, coldDsp, coldOf, frame⟩, entries, members⟩ := held
  have freshKey : Text.ofNat position ∉ program.coldDsp.entries.keys := by
    intro member
    unfold Table.keys at member
    rw [entries, List.map_map] at member
    obtain ⟨entry, inDone, same⟩ := List.mem_map.mp member
    exact fresh entry inDone (Text.ofNat_injective same)
  obtain ⟨after, added⟩ := addColdGroup_eq freshKey
  have sameEntry : program.coldEntry group position = base.coldEntry group position := by
    rw [frame]
    rfl
  refine ⟨_, added, ⟨after, _, _, by rw [frame]; rfl⟩, ?_, ?_⟩
  · change (program.coldDsp.entries.set _ _).entries = _
    rw [Table.entries_set_of_fresh freshKey, entries, sameEntry, List.map_append]
    rfl
  · intro id key
    change (group.traversal.foldl _ program.coldOf).get? id = some key ↔ _
    rw [Table.get?_foldl_set]
    split
    · next inGroup =>
      constructor
      · intro same
        cases same
        exact ⟨group, position, by simp, rfl, inGroup⟩
      · intro given
        obtain ⟨other, otherPosition, member, rfl, inOther⟩ := given
        rcases List.mem_append.mp member with earlier | last
        · exact absurd inOther (apart _ earlier id inGroup)
        · simp only [List.mem_singleton, Prod.mk.injEq] at last
          rw [last.2]
    · next outside =>
      rw [members]
      constructor
      · intro given
        obtain ⟨other, otherPosition, member, facts⟩ := given
        exact ⟨other, otherPosition, List.mem_append_left _ member, facts⟩
      · intro given
        obtain ⟨other, otherPosition, member, same, inOther⟩ := given
        rcases List.mem_append.mp member with earlier | last
        · exact ⟨other, otherPosition, earlier, same, inOther⟩
        · simp only [List.mem_singleton, Prod.mk.injEq] at last
          rw [last.1] at inOther
          exact absurd inOther outside

theorem addColdGroups_yields (unsplit : base.Unsplit)
    (apart : groups.Pairwise fun left right => ∀ id ∈ left.traversal, id ∉ right.traversal) :
    Outcome.Yields (groups.zipIdx.foldlM (fun program (group, position) =>
      program.addColdGroup position group) base) (ColdRegistered base groups.zipIdx) := by
  refine Outcome.yields_foldlM (ColdRegistered base) ?_ ?_
  · refine ⟨⟨base.names, base.coldDsp, base.coldOf, rfl⟩, ?_, ?_⟩
    · rw [unsplit.coldDsp]
      rfl
    · intro id key
      rw [unsplit.coldOf]
      simp
  · intro done entry rest state split held
    have positions : (groups.zipIdx.map Prod.snd).Nodup := by
      rw [List.zipIdx_map_snd]
      exact List.nodup_range'
    have members : (groups.zipIdx.map Prod.fst).Pairwise fun left right =>
        ∀ id ∈ left.traversal, id ∉ right.traversal := by
      rw [List.zipIdx_map_fst]
      exact apart
    rw [split, List.map_append, List.map_cons] at positions members
    refine held.step ?_ ?_
    · intro earlier inDone same
      have first : earlier.2 ∈ done.map Prod.snd := List.mem_map_of_mem inDone
      exact (List.nodup_append.mp positions).2.2 _ first entry.2 (by simp) same
    · intro earlier inDone id inGroup inEarlier
      have first : earlier.1 ∈ done.map Prod.fst := List.mem_map_of_mem inDone
      exact (List.pairwise_append.mp members).2.2 _ first entry.1 (by simp) id inEarlier inGroup

/-! ## The inline groups are taken out -/

theorem isInlinable_congr (sameGraph : program.graph = base.graph)
    (sameCatalog : program.catalog = base.catalog) : program.isInlinable = base.isInlinable := by
  funext parent id
  unfold isInlinable
  rw [sameGraph, sameCatalog]

theorem inlineGroups_congr (sameGraph : program.graph = base.graph)
    (sameCatalog : program.catalog = base.catalog) : program.inlineGroups = base.inlineGroups := by
  funext parent
  have sameEnds : program.isInlineEnd parent = base.isInlineEnd parent := by
    funext id
    unfold isInlineEnd
    rw [sameGraph, isInlinable_congr sameGraph sameCatalog]
  rw [inlineGroups_eq, inlineGroups_eq, sameEnds, sameGraph,
    isInlinable_congr sameGraph sameCatalog]

def withInline (program : Program) (inner : List DspGroup) : Program :=
  { program with
    inlineDsp := program.inlineDsp ++ inner
    inlined := program.inlined ++ inner.flatMap DspGroup.traversal }

theorem extractInline_yields (sameGraph : program.graph = base.graph)
    (sameCatalog : program.catalog = base.catalog) (wellFormed : base.graph.WellFormed)
    (leads : base.LeadsOut parent) (untouched : ∀ id ∈ parent.traversal, id ∉ program.inlined) :
    Outcome.Yields (program.extractInline parent) fun result =>
      ∃ inner, base.inlineGroups parent = .ok inner ∧
        (∀ id, id ∈ inner.flatMap DspGroup.traversal ↔ base.isInlinable parent id = true) ∧
        result = (base.left parent, program.withInline inner) := by
  obtain ⟨inner, found, held⟩ := inlineGroups_yields parent wellFormed
  have members : ∀ id, id ∈ inner.flatMap DspGroup.traversal ↔
      base.isInlinable parent id = true := fun id => held.mem_flatMap_iff wellFormed leads
  have collected : inner.foldl (fun inlined group => inlined ++ group.traversal) program.inlined =
      program.inlined ++ inner.flatMap DspGroup.traversal := by
    rw [List.foldl_append_eq_append, List.flatMap_def]
  refine ⟨_, ?_, inner, found, members, rfl⟩
  simp only [extractInline, inlineGroups_congr sameGraph sameCatalog, found, bind, Except.bind,
    pure, Except.pure, collected, Except.ok.injEq, Prod.mk.injEq]
  refine ⟨?_, rfl⟩
  refine List.filter_congr fun id member => ?_
  have absent := untouched id member
  cases inlinable : base.isInlinable parent id with
  | true => simp [isInlined, (members id).mpr inlinable]
  | false =>
      have outside : id ∉ inner.flatMap DspGroup.traversal := fun inside => by
        rw [members id, inlinable] at inside
        cases inside
      simp only [isInlined, List.contains_eq_mem, List.mem_append, absent, outside, or_self,
        decide_false, Bool.not_false]

/-- The cold groups of which the inline groups were taken out so far. -/
structure ColdStripped (base : Program) (all done : List (DspGroup × Nat)) (state : Program) :
    Prop where
  frame : ∃ coldDsp inlineDsp inlined, state = { base with coldDsp, inlineDsp, inlined }
  coldDsp : state.coldDsp.entries.entries = all.map fun entry =>
    (Text.ofNat entry.2, base.coldEntry entry.1 entry.2
      (if entry ∈ done then base.left entry.1 else entry.1.traversal))
  inlineDsp : ∃ inline, List.Forall₂ (fun parent inner => base.inlineGroups parent = .ok inner)
    (done.map Prod.fst) inline ∧ state.inlineDsp = base.inlineDsp ++ inline.flatten
  inlined : ∀ id, id ∈ state.inlined ↔
    id ∈ base.inlined ∨ ∃ entry ∈ done, base.isInlinable entry.1 id = true

theorem ColdStripped.step {all done : List (DspGroup × Nat)} {entry : DspGroup × Nat}
    (held : ColdStripped base all done program) (wellFormed : base.graph.WellFormed)
    (positions : ∀ left ∈ all, ∀ right ∈ all, left.2 = right.2 → left = right)
    (member : entry ∈ all) (pending : entry ∉ done) (leads : base.LeadsOut entry.1)
    (untouched : ∀ id ∈ entry.1.traversal, id ∉ program.inlined) :
    Outcome.Yields (program.extractInlineFromCold (Text.ofNat entry.2))
      (ColdStripped base all (done ++ [entry])) := by
  obtain ⟨⟨coldDsp, inlineDsp, inlined, frame⟩, entries, ⟨inline, paired, collected⟩, members⟩ :=
    held
  have sameGraph : program.graph = base.graph := by rw [frame]
  have sameCatalog : program.catalog = base.catalog := by rw [frame]
  have stored : program.coldDsp.get (Text.ofNat entry.2) =
      .ok (base.coldEntry entry.1 entry.2 entry.1.traversal) := by
    have bound : program.coldDsp.entries.get? (Text.ofNat entry.2) =
        some (base.coldEntry entry.1 entry.2 entry.1.traversal) := by
      rw [← Table.mem_entries_iff, entries]
      refine List.mem_map.mpr ⟨entry, member, ?_⟩
      rw [if_neg pending]
    unfold Register.get
    rw [bound]
  obtain ⟨_, extracted, inner, found, innerMembers, rfl⟩ :=
    extractInline_yields sameGraph sameCatalog wellFormed leads untouched
  unfold extractInlineFromCold
  rw [stored]
  change Outcome.Yields (program.extractInline entry.1 >>= _) _
  rw [extracted]
  refine Outcome.yields_pure ⟨⟨_, _, _, by rw [frame]; rfl⟩, ?_, ⟨inline ++ [inner], ?_, ?_⟩, ?_⟩
  · change (program.coldDsp.entries.modify _ _).entries = _
    change program.coldDsp.entries.entries.map _ = _
    rw [entries, List.map_map]
    refine List.map_congr_left fun other otherMember => ?_
    by_cases same : other = entry
    · subst same
      simp [coldEntry]
    · have apart : Text.ofNat other.2 ≠ Text.ofNat entry.2 := fun sameKey =>
        same (positions other otherMember entry member (Text.ofNat_injective sameKey))
      simp [apart, same]
  · rw [List.map_append]
    exact List.rel_append paired (.cons found .nil)
  · change program.inlineDsp ++ inner = _
    rw [collected]
    simp
  · intro id
    change id ∈ program.inlined ++ inner.flatMap DspGroup.traversal ↔ _
    rw [List.mem_append, members, innerMembers]
    simp only [List.mem_append, List.mem_singleton, or_and_right, exists_or, exists_eq_left,
      or_assoc]

theorem extractInlineFromCold_yields (base : Program) (wellFormed : base.graph.WellFormed)
    (entries : base.coldDsp.entries.entries = groups.zipIdx.map fun entry =>
      (Text.ofNat entry.2, base.coldEntry entry.1 entry.2 entry.1.traversal))
    (leads : ∀ group ∈ groups, base.LeadsOut group)
    (untouched : ∀ group ∈ groups, ∀ id ∈ group.traversal, id ∉ base.inlined)
    (apart : groups.Pairwise fun left right => ∀ id ∈ left.traversal, id ∉ right.traversal) :
    Outcome.Yields (base.coldDsp.keys.foldlM extractInlineFromCold base)
      (ColdStripped base groups.zipIdx groups.zipIdx) := by
  have keys : base.coldDsp.keys = groups.zipIdx.map fun entry => Text.ofNat entry.2 := by
    unfold Register.keys Table.keys
    rw [entries, List.map_map]
    rfl
  have positions : (groups.zipIdx.map Prod.snd).Nodup := by
    rw [List.zipIdx_map_snd]
    exact List.nodup_range'
  rw [keys, List.foldlM_map]
  refine Outcome.yields_foldlM (ColdStripped base groups.zipIdx) ?_ ?_
  · refine ⟨⟨base.coldDsp, base.inlineDsp, base.inlined, rfl⟩, ?_, ⟨[], .nil, by simp⟩, ?_⟩
    · simpa using entries
    · simp
  · intro done entry rest state split held
    have member : entry ∈ groups.zipIdx := by simp [split]
    have inGroups : entry.1 ∈ groups := List.fst_mem_of_mem_zipIdx member
    have pending : entry ∉ done := by
      intro early
      rw [split, List.map_append, List.map_cons] at positions
      exact (List.nodup_append.mp positions).2.2 _ (List.mem_map_of_mem early) entry.2 (by simp) rfl
    refine held.step wellFormed (fun left inLeft right inRight same => ?_) member pending
      (leads entry.1 inGroups) ?_
    · exact List.inj_on_of_nodup_map positions inLeft inRight same
    · intro id inGroup isInlined
      rcases (held.inlined id).mp isInlined with fromHot | ⟨earlier, inDone, inlinable⟩
      · exact untouched entry.1 inGroups id inGroup fromHot
      · have members : (groups.zipIdx.map Prod.fst).Pairwise fun left right =>
            ∀ id ∈ left.traversal, id ∉ right.traversal := by
          rw [List.zipIdx_map_fst]
          exact apart
        rw [split, List.map_append, List.map_cons] at members
        exact (List.pairwise_append.mp members).2.2 _ (List.mem_map_of_mem inDone) entry.1
          (by simp) id (mem_of_isInlinable inlinable) inGroup

/-! ## The whole split -/

theorem ColdGroupOf.leadsOut (held : program.ColdGroupOf group) : program.LeadsOut group where
  distinct := held.ordered.distinct
  line id member := by
    obtain ⟨line, lineage⟩ := held.ordered.lineage id member
    obtain ⟨out, isOut, isLast⟩ := lineage.rooted
    refine ⟨line, lineage.chain.imp fun _ _ upstream => upstream.1, ?_, out, isOut, isLast⟩
    intro other onLine
    exact lineage.listed.subset (List.mem_cons_of_mem _ onLine)

/-- What a cold node depends on is cold, so the line from a hot node to a root stays hot. -/
theorem leadsOut_hotParent (wellFormed : program.graph.WellFormed) (rooted : program.Rooted)
    (held : program.ColdGroupsOf groups)
    (coldOf : ∀ id, program.coldOf.contains id = true ↔ ∃ group ∈ groups, id ∈ group.traversal) :
    program.LeadsOut program.hotParent where
  distinct := rooted.distinct.filter _
  line id member := by
    obtain ⟨listed, hot⟩ := List.mem_filter.mp member
    obtain ⟨line, lineage⟩ := rooted.lineage id listed
    obtain ⟨out, isOut, isLast⟩ := lineage.rooted
    have chain := lineage.chain.imp fun _ _ upstream => upstream.1
    refine ⟨line, chain, ?_, out, isOut, isLast⟩
    intro other onLine
    refine List.mem_filter.mpr ⟨lineage.listed.subset (List.mem_cons_of_mem _ onLine), ?_⟩
    cases otherCold : program.coldOf.contains other with
    | false => rfl
    | true =>
        obtain ⟨group, inGroups, inGroup⟩ := (coldOf other).mp otherCold
        have facts := held.group group inGroups
        obtain ⟨coldOut, isColdOut, reaches⟩ := (facts.mem_iff wellFormed).mp inGroup
        have reachesOther := Graph.reaches_of_chain chain (List.mem_cons_of_mem _ onLine)
        have idCold := (coldOf id).mpr
          ⟨group, inGroups, (facts.mem_iff wellFormed).mpr ⟨coldOut, isColdOut,
            reachesOther.trans reaches⟩⟩
        rw [idCold] at hot
        cases hot

/-- A well-formed program that was not split yet can be split. -/
theorem splitSignal_yields (wellFormed : program.graph.WellFormed) (unsplit : program.Unsplit) :
    Outcome.Yields program.splitSignal fun split =>
      (∃ groups, split.SplitInto groups) ∧
      ∃ names rootDsp hotDsp coldDsp coldOf inlineDsp inlined, split = { program with
        names, rootDsp, hotDsp, coldDsp, coldOf, inlineDsp, inlined } := by
  have known : ∀ root ∈ program.graph.pulling, ∃ node, program.graph.node? root = some node := by
    intro root isRoot
    obtain ⟨node, found, _⟩ := Graph.mem_pulling_iff.mp isRoot
    exact ⟨node, found⟩
  obtain ⟨traversal, walked, ordered⟩ := Graph.signalNodesWhere_succeeds wellFormed known
  unfold splitSignal
  change Outcome.Yields (program.graph.signalNodesWhere program.graph.pulling (fun _ => true) >>=
    _) _
  rw [walked]
  let planned : Program := { program with rootDsp := ⟨traversal, program.graph.pulling⟩ }
  change Outcome.Yields (planned.coldGroups >>= _) _
  obtain ⟨groups, grouped, plannedGroups⟩ :=
    coldGroups_yields (show planned.graph.WellFormed from wellFormed)
  rw [grouped]
  change Outcome.Yields (groups.zipIdx.foldlM _ planned >>= _) _
  have plannedUnsplit : planned.Unsplit :=
    ⟨unsplit.coldDsp, unsplit.coldOf, unsplit.inlineDsp, unsplit.inlined⟩
  refine (addColdGroups_yields plannedUnsplit plannedGroups.apart).bind ?_
  intro _ given
  obtain ⟨⟨names, coldDsp, coldOf, rfl⟩, registered, membership⟩ := given
  let cooled : Program := { planned with names, coldDsp, coldOf }
  have cooledGroups : cooled.ColdGroupsOf groups := coldGroupsOf_of_eq wellFormed grouped
  have isCold : ∀ id, cooled.coldOf.contains id = true ↔ ∃ group ∈ groups, id ∈ group.traversal :=
    coldOf_contains_iff_of membership
  have leadsHot : cooled.LeadsOut cooled.hotParent :=
    leadsOut_hotParent wellFormed ordered cooledGroups isCold
  have noneInlined : cooled.inlined = [] := unsplit.inlined
  obtain ⟨_, extracted, inner, found, innerMembers, rfl⟩ :=
    extractInline_yields (show cooled.graph = cooled.graph from rfl) rfl wellFormed leadsHot
      (by simp [noneInlined])
  change Outcome.Yields (cooled.extractInline cooled.hotParent >>= _) _
  rw [extracted]
  let heated : Program := { cooled.withInline inner with
    hotDsp := ⟨cooled.left cooled.hotParent, program.graph.pulling⟩ }
  change Outcome.Yields (heated.coldDsp.keys.foldlM _ heated) _
  have heatedGroups : heated.ColdGroupsOf groups := coldGroupsOf_of_eq wellFormed grouped
  have heatedInlined : ∀ id, id ∈ heated.inlined ↔ cooled.isInlinable cooled.hotParent id = true := by
    intro id
    change id ∈ cooled.inlined ++ inner.flatMap DspGroup.traversal ↔ _
    rw [noneInlined, List.nil_append, innerMembers]
  have stripped := extractInlineFromCold_yields heated wellFormed registered
    (fun group member => (heatedGroups.group group member).leadsOut) ?_ heatedGroups.apart
  · refine stripped.mono ?_
    intro _ given
    obtain ⟨⟨coldDsp, inlineDsp, inlined, rfl⟩, entries, ⟨inline, paired, collected⟩, members⟩ := given
    refine ⟨⟨groups, wellFormed, rfl, ordered, grouped, rfl, ?_, membership,
      ⟨inner :: inline, ?_, ?_⟩, ?_⟩, _, _, _, _, _, _, _, rfl⟩
    · rw [entries]
      refine List.map_congr_left fun entry member => ?_
      rw [if_pos member]
      rfl
    · rw [List.zipIdx_map_fst] at paired
      exact .cons found paired
    · change inlineDsp = inner ++ inline.flatten
      change inlineDsp = (cooled.inlineDsp ++ inner) ++ inline.flatten at collected
      rw [collected, show cooled.inlineDsp = [] from unsplit.inlineDsp, List.nil_append]
    · intro id
      rw [members, heatedInlined, List.exists_mem_cons_iff]
      refine or_congr_right ?_
      constructor
      · intro given
        obtain ⟨entry, member, inlinable⟩ := given
        exact ⟨entry.1, List.fst_mem_of_mem_zipIdx member, inlinable⟩
      · intro given
        obtain ⟨group, member, inlinable⟩ := given
        obtain ⟨position, indexed⟩ := exists_position member
        exact ⟨(group, position), indexed, inlinable⟩
  · intro group member id inGroup isInlined
    have inlinable := (heatedInlined id).mp isInlined
    obtain ⟨_, hot⟩ := List.mem_filter.mp (mem_of_isInlinable inlinable)
    rw [(isCold id).mpr ⟨group, member, inGroup⟩] at hot
    cases hot

end Program

end Patchbay
