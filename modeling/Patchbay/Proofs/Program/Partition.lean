import Mathlib
import Patchbay.Proofs.Program.Passes

namespace Patchbay.Program

/-! The groups of a split program share out its signal nodes.

The parents, that is the hot group and the cold groups as they are before inlining, have no node in
common and hold the whole root order.  Each of them is shared out again between what is left of it
and its inline groups.
-/

variable {program split : Program} {groups : List DspGroup} {parent group : DspGroup} {id : String}

/-- The groups that inline groups are taken out of. -/
def parents (split : Program) (groups : List DspGroup) : List DspGroup := split.hotParent :: groups

namespace SplitInto

theorem coldGroupsOf (held : split.SplitInto groups) : split.ColdGroupsOf groups :=
  coldGroupsOf_of_eq held.wellFormed held.coldGroups

theorem coldOf_contains_iff (held : split.SplitInto groups) :
    split.coldOf.contains id = true ↔ ∃ group ∈ groups, id ∈ group.traversal :=
  coldOf_contains_iff_of held.coldOf id

theorem mem_hotParent_iff (held : split.SplitInto groups) :
    id ∈ split.hotParent.traversal ↔
      id ∈ split.rootDsp.traversal ∧ ∀ group ∈ groups, id ∉ group.traversal := by
  unfold hotParent
  rw [List.mem_filter, Bool.not_eq_true', Bool.eq_false_iff, ne_eq, held.coldOf_contains_iff]
  simp

theorem mem_root (held : split.SplitInto groups) (isParent : parent ∈ split.parents groups)
    (member : id ∈ parent.traversal) : id ∈ split.rootDsp.traversal := by
  rcases List.mem_cons.mp isParent with rfl | isCold
  · exact (held.mem_hotParent_iff.mp member).1
  · exact (held.coldGroupsOf.group parent isCold).mem_root held.wellFormed held.rooted member

theorem exists_parent (held : split.SplitInto groups) (listed : id ∈ split.rootDsp.traversal) :
    ∃ parent ∈ split.parents groups, id ∈ parent.traversal := by
  by_cases cold : ∃ group ∈ groups, id ∈ group.traversal
  · obtain ⟨group, member, inGroup⟩ := cold
    exact ⟨group, List.mem_cons_of_mem _ member, inGroup⟩
  · refine ⟨split.hotParent, List.mem_cons_self .., held.mem_hotParent_iff.mpr ⟨listed, ?_⟩⟩
    exact fun group member inGroup => cold ⟨group, member, inGroup⟩

theorem parents_apart (held : split.SplitInto groups) :
    (split.parents groups).Pairwise fun left right => ∀ id ∈ left.traversal, id ∉ right.traversal := by
  refine .cons (fun group member id inHot => ?_) held.coldGroupsOf.apart
  exact (held.mem_hotParent_iff.mp inHot).2 group member

theorem parent_unique (held : split.SplitInto groups) {other : DspGroup}
    (isParent : parent ∈ split.parents groups) (otherParent : other ∈ split.parents groups)
    (member : id ∈ parent.traversal) (otherMember : id ∈ other.traversal) : parent = other := by
  rcases List.mem_cons.mp isParent with rfl | isCold
  · rcases List.mem_cons.mp otherParent with rfl | otherCold
    · rfl
    · exact absurd otherMember ((held.mem_hotParent_iff.mp member).2 other otherCold)
  · rcases List.mem_cons.mp otherParent with rfl | otherCold
    · exact absurd member ((held.mem_hotParent_iff.mp otherMember).2 parent isCold)
    · exact held.coldGroupsOf.unique isCold otherCold member otherMember

theorem leadsOut (held : split.SplitInto groups) (isParent : parent ∈ split.parents groups) :
    split.LeadsOut parent := by
  rcases List.mem_cons.mp isParent with rfl | isCold
  · exact leadsOut_hotParent held.wellFormed held.rooted held.coldGroupsOf
      fun _ => held.coldOf_contains_iff
  · exact (held.coldGroupsOf.group parent isCold).leadsOut

theorem exists_inlineGroups (held : split.SplitInto groups) :
    ∃ inline, List.Forall₂ split.InlineGroupsOf (split.parents groups) inline ∧
      split.inlineDsp = inline.flatten := by
  obtain ⟨inline, found, collected⟩ := held.inlineDsp
  refine ⟨inline, found.imp fun parent inner extracted => ?_, collected⟩
  obtain ⟨others, again, facts⟩ := inlineGroups_yields parent held.wellFormed
  rw [extracted] at again
  cases again
  exact facts

theorem exists_inline_parent (held : split.SplitInto groups) (member : group ∈ split.inlineDsp) :
    ∃ parent ∈ split.parents groups, ∃ last, split.InlineGroupOf parent group last := by
  obtain ⟨inline, paired, collected⟩ := held.exists_inlineGroups
  rw [collected] at member
  obtain ⟨inner, isInner, inInner⟩ := List.mem_flatten.mp member
  obtain ⟨parent, isParent, facts⟩ := Outcome.exists_item paired isInner
  obtain ⟨last, inlineGroup⟩ := facts.exists_last inInner
  exact ⟨parent, isParent, last, inlineGroup⟩

theorem coldDsp_values (held : split.SplitInto groups) :
    split.coldDsp.values.flatMap (fun entry => entry.traversal) = groups.flatMap split.left := by
  unfold Register.values Table.values
  rw [held.coldDsp, List.map_map, List.flatMap_map]
  change groups.zipIdx.flatMap (fun entry => split.left entry.1) = _
  conv_rhs => rw [← List.zipIdx_map_fst 0 groups]
  rw [List.flatMap_map]

theorem coldIds_nodup (held : split.SplitInto groups) :
    (split.coldDsp.values.map fun group => group.id).Nodup := by
  have keyed : split.coldDsp.values.map (fun group => group.id) = split.coldDsp.entries.keys := by
    unfold Register.values Table.values Table.keys
    rw [held.coldDsp, List.map_map, List.map_map, List.map_map]
    rfl
  rw [keyed]
  exact split.coldDsp.entries.distinct

theorem parents_perm (held : split.SplitInto groups) :
    ((split.parents groups).flatMap DspGroup.traversal).Perm split.rootDsp.traversal := by
  have distinct : ((split.parents groups).flatMap DspGroup.traversal).Nodup := by
    rw [List.nodup_flatMap]
    refine ⟨fun parent isParent => (held.leadsOut isParent).distinct, ?_⟩
    exact held.parents_apart.imp fun apart id inLeft inRight => apart id inLeft inRight
  refine (List.perm_ext_iff_of_nodup distinct held.rooted.distinct).mpr fun id => ?_
  rw [List.mem_flatMap]
  constructor
  · intro given
    obtain ⟨parent, isParent, member⟩ := given
    exact held.mem_root isParent member
  · exact held.exists_parent

theorem flatMap_left_perm {parents : List DspGroup} {inline : List (List DspGroup)}
    (paired : List.Forall₂ (fun parent inner =>
      (split.left parent ++ inner.flatMap DspGroup.traversal).Perm parent.traversal) parents inline) :
    (parents.flatMap split.left ++ inline.flatten.flatMap DspGroup.traversal).Perm
      (parents.flatMap DspGroup.traversal) := by
  induction paired with
  | nil => exact .refl _
  | @cons parent inner parents inline own _ ih =>
      rw [List.perm_iff_count] at own ih ⊢
      intro id
      have ownCount := own id
      have laterCount := ih id
      simp only [List.flatMap_cons, List.flatten_cons, List.flatMap_append, List.count_append]
        at ownCount laterCount ⊢
      omega

theorem perm_root (held : split.SplitInto groups) :
    (split.hotDsp.traversal ++ split.coldDsp.values.flatMap (fun entry => entry.traversal) ++
      split.inlineDsp.flatMap DspGroup.traversal).Perm split.rootDsp.traversal := by
  obtain ⟨inline, paired, collected⟩ := held.exists_inlineGroups
  have sharedOut : List.Forall₂ (fun parent inner =>
      (split.left parent ++ inner.flatMap DspGroup.traversal).Perm parent.traversal)
      (split.parents groups) inline := by
    refine (List.forall₂_iff_zip.mpr ⟨paired.length_eq, fun {parent inner} zipped => ?_⟩)
    have isParent := (List.of_mem_zip zipped).1
    exact ((List.forall₂_iff_zip.mp paired).2 zipped).perm held.wellFormed (held.leadsOut isParent)
  have whole := (flatMap_left_perm sharedOut).trans held.parents_perm
  rw [held.coldDsp_values, held.hotDsp, collected]
  exact whole

theorem inlined_iff (held : split.SplitInto groups) (isParent : parent ∈ split.parents groups)
    (member : id ∈ parent.traversal) :
    id ∈ split.inlined ↔ split.isInlinable parent id = true := by
  rw [held.inlined]
  constructor
  · intro given
    obtain ⟨other, otherParent, inlinable⟩ := given
    have same := held.parent_unique isParent otherParent member (mem_of_isInlinable inlinable)
    exact same ▸ inlinable
  · intro inlinable
    exact ⟨parent, isParent, inlinable⟩

theorem mem_left_iff (held : split.SplitInto groups) (isParent : parent ∈ split.parents groups) :
    id ∈ split.left parent ↔ id ∈ parent.traversal ∧ id ∉ split.inlined := by
  unfold left
  rw [List.mem_filter, Bool.not_eq_true', Bool.eq_false_iff]
  exact and_congr_right fun member => not_congr (held.inlined_iff isParent member).symm

theorem coldDsp_get?_iff (held : split.SplitInto groups) {key : String} {entry : ColdGroup} :
    split.coldDsp.entries.get? key = some entry ↔
      ∃ group position, (group, position) ∈ groups.zipIdx ∧ key = Text.ofNat position ∧
        entry = split.coldEntry group position (split.left group) := by
  rw [← Table.mem_entries_iff, held.coldDsp, List.mem_map]
  constructor
  · intro given
    obtain ⟨⟨group, position⟩, member, same⟩ := given
    cases same
    exact ⟨group, position, member, rfl, rfl⟩
  · intro given
    obtain ⟨group, position, member, rfl, rfl⟩ := given
    exact ⟨(group, position), member, rfl⟩

end SplitInto

/-- Whether a node is in the hot group (no key) or in the cold group with a key, before inlining. -/
def MemberBefore (split : Program) (groups : List DspGroup) (id : String) : Option String → Prop
  | none => id ∈ split.hotParent.traversal
  | some key => ∃ group position, (group, position) ∈ groups.zipIdx ∧ key = Text.ofNat position ∧
      id ∈ group.traversal

/-- The same group after inlining, in order of evaluation. -/
def finalTraversal (split : Program) : Option String → List String
  | none => split.hotDsp.traversal
  | some key => ((split.coldDsp.entries.get? key).map fun entry => entry.traversal).getD []

namespace SplitInto

theorem memberBefore_iff (held : split.SplitInto groups) {parent : Option String} :
    split.MemberBefore groups id parent ↔
      id ∈ split.rootDsp.traversal ∧ split.coldOf.get? id = parent := by
  cases parent with
  | none =>
      change id ∈ split.hotParent.traversal ↔ _
      unfold hotParent
      rw [List.mem_filter, Bool.not_eq_true', Bool.eq_false_iff, ne_eq, Table.contains_iff,
        Table.get?_eq_none_iff]
  | some key =>
      change (∃ group position, _) ↔ _
      rw [← held.coldOf]
      refine ⟨fun found => ⟨?_, found⟩, And.right⟩
      obtain ⟨group, _, member, _, inGroup⟩ := (held.coldOf id key).mp found
      exact held.mem_root (List.mem_cons_of_mem _ (List.fst_mem_of_mem_zipIdx member)) inGroup

theorem memberBefore_unique (held : split.SplitInto groups) {parent other : Option String}
    (inParent : split.MemberBefore groups id parent) (inOther : split.MemberBefore groups id other) :
    parent = other := by
  rw [held.memberBefore_iff] at inParent inOther
  exact inParent.2.symm.trans inOther.2

/-- The key of a parent: all of its members are found under it, and what is left of it. -/
theorem exists_key (held : split.SplitInto groups) (isParent : parent ∈ split.parents groups) :
    ∃ key, (∀ id ∈ parent.traversal, split.MemberBefore groups id key) ∧
      split.finalTraversal key = split.left parent := by
  rcases List.mem_cons.mp isParent with rfl | isCold
  · refine ⟨none, fun _ member => member, ?_⟩
    change split.hotDsp.traversal = _
    rw [held.hotDsp]
  · obtain ⟨position, indexed⟩ := exists_position isCold
    refine ⟨some (Text.ofNat position),
      fun _ member => ⟨parent, position, indexed, rfl, member⟩, ?_⟩
    have found := held.coldDsp_get?_iff.mpr ⟨parent, position, indexed, rfl, rfl⟩
    simp only [finalTraversal, found, Option.map_some, Option.getD_some]
    rfl

theorem mem_finalTraversal_iff (held : split.SplitInto groups) {key : Option String} :
    id ∈ split.finalTraversal key ↔ split.MemberBefore groups id key ∧ id ∉ split.inlined := by
  constructor
  · intro member
    cases key with
    | none =>
        change id ∈ split.hotDsp.traversal at member
        rw [held.hotDsp] at member
        exact (held.mem_left_iff (List.mem_cons_self ..)).mp member
    | some key =>
        cases found : split.coldDsp.entries.get? key with
        | none => simp [finalTraversal, found] at member
        | some entry =>
            obtain ⟨group, position, indexed, rfl, rfl⟩ := held.coldDsp_get?_iff.mp found
            simp only [finalTraversal, found, Option.map_some, Option.getD_some] at member
            have isParent : group ∈ split.parents groups :=
              List.mem_cons_of_mem _ (List.fst_mem_of_mem_zipIdx indexed)
            obtain ⟨inGroup, solid⟩ := (held.mem_left_iff isParent).mp member
            exact ⟨⟨group, position, indexed, rfl, inGroup⟩, solid⟩
  · intro given
    obtain ⟨inKey, solid⟩ := given
    obtain ⟨parent, isParent, inParent⟩ :=
      held.exists_parent (held.memberBefore_iff.mp inKey).1
    obtain ⟨other, within, final⟩ := held.exists_key isParent
    rw [held.memberBefore_unique inKey (within id inParent), final]
    exact (held.mem_left_iff isParent).mpr ⟨inParent, solid⟩

end SplitInto

/-! ## A graph that was checked -/

variable {graph : Graph} {catalog : Catalog} {library : Library} {settings : Settings}
  {known : Option Catalog} {reporter : Reporter}

theorem splitSignal_of_check (accepted : (graph.check known reporter).2 = .ok ())
    (ready : beforeSplit graph catalog library settings = .ok program) :
    ∃ split groups, program.splitSignal = .ok split ∧ split.SplitInto groups := by
  obtain ⟨prepared, _⟩ := prepared_of_beforeSplit (Graph.wellFormed_of_check accepted) ready
  obtain ⟨split, ran, ⟨groups, held⟩, _⟩ := splitSignal_yields prepared.wellFormed prepared.unsplit
  exact ⟨split, groups, ran, held⟩

/-! A tone whose pitch a message sets: a number `n`, a transposition `t` that is inlined into the
conversion `f` to a frequency, and an oscillator `o` with a gain `g` that is inlined into the output
`d`.  Messages come from a box `b`. -/

def signalNode (id type : String) (source sink : Option String) : Node where
  id := id
  type := type
  inlets := [⟨"0", .signal⟩]
  outlets := [⟨"0", .signal⟩]
  sources := .ofList (source.toList.map fun node => ("0", [⟨node, "0"⟩]))
  sinks := .ofList (sink.toList.map fun node => ("0", [⟨node, "0"⟩]))

def toneNodes : List Node :=
  [{ id := "b", type := "box", outlets := [⟨"0", .message⟩], isPushingMessages := true
     sinks := .ofList [("0", [⟨"n", "0"⟩])] },
   { id := "n", type := "num", inlets := [⟨"0", .message⟩], outlets := [⟨"0", .signal⟩]
     sources := .ofList [("0", [⟨"b", "0"⟩])], sinks := .ofList [("0", [⟨"t", "0"⟩])] },
   signalNode "t" "op" (some "n") (some "f"),
   signalNode "f" "mtof" (some "t") (some "o"),
   signalNode "o" "osc" (some "f") (some "g"),
   signalNode "g" "op" (some "o") (some "d"),
   { signalNode "d" "dac" (some "g") none with outlets := [], isPullingSignal := true }]

def toneGraph : Graph := ⟨.ofList (toneNodes.map fun node => (node.id, some node))⟩

def toneCatalog : Catalog := .ofList [
  ("box", some {}),
  ("num", some { isPure := true, dsp := some fun _ => {}
                 receivers := some fun _ => [("0", some (receiverTemplate []))] }),
  ("op", some { isPure := true, isInline := true
                dsp := some fun _ => { expression := some (.text "1") } }),
  ("mtof", some { isPure := true, dsp := some fun _ => {} }),
  ("osc", some { dsp := some fun _ => {} }),
  ("dac", some { dsp := some fun _ => {} })]

def toneLibrary : Library := .ofList [("msg", { namespaceName := "msg" })]

theorem tone_accepted : (toneGraph.check (some toneCatalog) .discarding).2 = .ok () := by cbv

theorem tone_split : ∃ program split,
    beforeSplit toneGraph toneCatalog toneLibrary {} = .ok program ∧
      program.splitSignal = .ok split ∧ split.rootDsp.traversal = ["n", "t", "f", "o", "g", "d"] ∧
      split.hotDsp.traversal = ["o", "d"] ∧
      split.coldDsp.values.map (fun entry => entry.traversal) = [["n", "f"]] ∧
      split.inlineDsp.map DspGroup.traversal = [["g"], ["t"]] := by
  have evaluated : (do
      let program ← beforeSplit toneGraph toneCatalog toneLibrary {}
      let split ← program.splitSignal
      return (split.rootDsp.traversal, split.hotDsp.traversal,
        split.coldDsp.values.map (fun entry => entry.traversal),
        split.inlineDsp.map DspGroup.traversal)) =
      Except.ok (["n", "t", "f", "o", "g", "d"], ["o", "d"], [["n", "f"]], [["g"], ["t"]]) := by
    cbv
  obtain ⟨program, ready, evaluated⟩ := Outcome.bind_eq_ok_iff.mp evaluated
  obtain ⟨split, ran, evaluated⟩ := Outcome.bind_eq_ok_iff.mp evaluated
  have lists := Except.ok.inj evaluated
  simp only [Prod.mk.injEq] at lists
  exact ⟨program, split, ready, ran, lists⟩

/-- Splitting loses no signal node and schedules none twice.  Every inline group comes out of one
parent, and every cold node is recorded with the one cold group that it was in. -/
theorem splitSignal_shares_out (accepted : (graph.check known reporter).2 = .ok ())
    (ready : beforeSplit graph catalog library settings = .ok program) :
    ∃ split groups, program.splitSignal = .ok split ∧ split.coldGroups = .ok groups ∧
      split.rootDsp.traversal.Nodup ∧
      (split.hotDsp.traversal ++ split.coldDsp.values.flatMap (fun entry => entry.traversal) ++
        split.inlineDsp.flatMap DspGroup.traversal).Perm split.rootDsp.traversal ∧
      (∀ parent id, id ∈ split.finalTraversal parent ↔
        split.MemberBefore groups id parent ∧ id ∉ split.inlined) ∧
      (∀ group ∈ split.inlineDsp, ∃! parent, ∀ id ∈ group.traversal,
        split.MemberBefore groups id parent) ∧
      (∀ id key, split.coldOf.get? id = some key ↔ split.MemberBefore groups id (some key)) ∧
      ∀ id parent other, split.MemberBefore groups id parent →
        split.MemberBefore groups id other → parent = other := by
  obtain ⟨split, groups, ran, held⟩ := splitSignal_of_check accepted ready
  refine ⟨split, groups, ran, held.coldGroups, held.rooted.distinct, held.perm_root,
    fun _ _ => held.mem_finalTraversal_iff, ?_, held.coldOf,
    fun _ _ _ => held.memberBefore_unique⟩
  intro group member
  obtain ⟨parent, isParent, last, inlineGroup⟩ := held.exists_inline_parent member
  obtain ⟨key, within, _⟩ := held.exists_key isParent
  refine ⟨key, fun id inGroup => within id ?_, ?_⟩
  · exact mem_of_isInlinable (inlineGroup.inlinable held.wellFormed inGroup)
  · intro other inOther
    -- the last node of the inline group tells the parents apart
    have isLast : last ∈ group.traversal := inlineGroup.ordered.covers last (by simp)
    exact held.memberBefore_unique (inOther last isLast)
      (within last (mem_of_isInlinable inlineGroup.isEnd.1))

theorem splitSignal_shares_out_tone :
    ∃ program split, (toneGraph.check (some toneCatalog) .discarding).2 = .ok () ∧
      beforeSplit toneGraph toneCatalog toneLibrary {} = .ok program ∧
      program.splitSignal = .ok split ∧ split.rootDsp.traversal = ["n", "t", "f", "o", "g", "d"] ∧
      split.hotDsp.traversal = ["o", "d"] ∧
      split.coldDsp.values.map (fun entry => entry.traversal) = [["n", "f"]] ∧
      split.inlineDsp.map DspGroup.traversal = [["g"], ["t"]] ∧
      (split.hotDsp.traversal ++ split.coldDsp.values.flatMap (fun entry => entry.traversal) ++
        split.inlineDsp.flatMap DspGroup.traversal).Perm split.rootDsp.traversal := by
  obtain ⟨program, split, ready, ran, root, hot, cold, inlined⟩ := tone_split
  obtain ⟨other, _, ranOther, _, _, perm, _⟩ := splitSignal_shares_out tone_accepted ready
  cases ran.symm.trans ranOther
  exact ⟨program, split, tone_accepted, ready, ran, root, hot, cold, inlined, perm⟩

/-- Cold groups are cold, closed under sources and complete; `groups` are those that the split
registered, before anything was inlined. -/
theorem coldGroups_self_contained (accepted : (graph.check known reporter).2 = .ok ())
    (ready : beforeSplit graph catalog library settings = .ok program) :
    ∃ split groups, program.splitSignal = .ok split ∧ split.coldGroups = .ok groups ∧
      (∀ id key, split.coldOf.get? id = some key ↔ split.MemberBefore groups id (some key)) ∧
      (∀ id, (Coldness.survey split.graph split.isPure).getD id false = true ↔ split.Cold id) ∧
      (∀ group ∈ groups, ∀ id ∈ group.traversal, split.Cold id ∧
        ∀ source, split.graph.Feeds source id → source ∈ group.traversal) ∧
      (∀ group ∈ groups, ∀ other ∈ groups, ∀ source ∈ group.traversal, ∀ sink ∈ other.traversal,
        split.graph.Feeds source sink → group = other) ∧
      (∀ group ∈ groups, ∀ id, id ∈ group.outNodes ↔
        id ∈ group.traversal ∧ ∃ sink, split.graph.Feeds id sink ∧ ¬ split.Cold sink) ∧
      (∀ group ∈ groups, ∀ id, id ∈ group.traversal ↔
        ∃ out ∈ group.outNodes, Relation.ReflTransGen split.graph.Feeds id out) ∧
      (∀ id ∈ split.rootDsp.traversal, split.Cold id →
        (∃ sink, split.graph.Feeds id sink ∧ ¬ split.Cold sink) →
        ∃ group ∈ groups, id ∈ group.outNodes) ∧
      ∀ group ∈ groups, split.graph.signalNodesWhere group.outNodes (fun node =>
        (Coldness.survey split.graph split.isPure).getD node.id false) = .ok group.traversal := by
  obtain ⟨split, groups, ran, held⟩ := splitSignal_of_check accepted ready
  have facts := held.coldGroupsOf
  refine ⟨split, groups, ran, held.coldGroups, held.coldOf, fun _ => isCold_iff, ?_, ?_, ?_, ?_, ?_, ?_⟩
  · intro group member id inGroup
    have own := facts.group group member
    exact ⟨own.cold held.wellFormed inGroup,
      fun source feeds => own.mem_of_feeds held.wellFormed inGroup feeds⟩
  · intro group member other otherMember source inGroup sink inOther feeds
    have shared := (facts.group other otherMember).mem_of_feeds held.wellFormed inOther feeds
    exact facts.unique member otherMember inGroup shared
  · intro group member id
    exact facts.mem_outNodes_iff held.wellFormed held.rooted member
  · intro group member id
    exact (facts.group group member).mem_iff held.wellFormed
  · intro id listed cold warm
    exact facts.complete id listed ⟨cold, warm⟩
  · intro group member
    exact (facts.group group member).walked

theorem coldGroups_self_contained_tone :
    ∃ program split groups, (toneGraph.check (some toneCatalog) .discarding).2 = .ok () ∧
      beforeSplit toneGraph toneCatalog toneLibrary {} = .ok program ∧
      program.splitSignal = .ok split ∧ split.coldGroups = .ok groups ∧
      split.coldDsp.values.map (fun entry => entry.traversal) = [["n", "f"]] ∧
      ∀ group ∈ groups, ∀ id ∈ group.traversal, split.Cold id ∧
        ∀ source, split.graph.Feeds source id → source ∈ group.traversal := by
  obtain ⟨program, split, ready, ran, _, _, cold, _⟩ := tone_split
  obtain ⟨other, groups, ranOther, grouped, _, _, closed, _⟩ :=
    coldGroups_self_contained tone_accepted ready
  cases ran.symm.trans ranOther
  exact ⟨program, split, groups, tone_accepted, ready, ran, grouped, cold, closed⟩

end Patchbay.Program
