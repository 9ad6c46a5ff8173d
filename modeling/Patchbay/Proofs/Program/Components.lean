import Mathlib.Data.List.Pairwise
import Mathlib.Order.Fin.Basic
import Mathlib.Order.MinMax
import Patchbay.Proofs.Outcome
import Patchbay.Proofs.Program.Merge

namespace Patchbay.DspGroup

/-! Merging computes connected components.

Two places of a list of groups are linked when a chain of groups leads from one to the other and
neighbours in the chain share a node.  Merging gives one group for every class of linked places, in
the order in which the classes begin.
-/

variable {groups merged : List DspGroup} {group other : DspGroup} {left right : Fin groups.length}
  {places added component : List (Fin groups.length)}
  {components : List (List (Fin groups.length))}

/-- The groups at two places have a node in common. -/
def Share (groups : List DspGroup) (left right : Fin groups.length) : Prop :=
  ∃ id, id ∈ (groups.get left).traversal ∧ id ∈ (groups.get right).traversal

def Linked (groups : List DspGroup) : Fin groups.length → Fin groups.length → Prop :=
  Relation.EqvGen (Share groups)

theorem Share.symm (share : Share groups left right) : Share groups right left := by
  obtain ⟨id, inLeft, inRight⟩ := share
  exact ⟨id, inRight, inLeft⟩

/-- A group put together from the groups at linked places. -/
structure Gathers (groups : List DspGroup) (places : List (Fin groups.length)) (group : DspGroup) :
    Prop where
  unites : Unites (places.map groups.get) group
  nonempty : places ≠ []
  linked : ∀ left ∈ places, ∀ right ∈ places, Linked groups left right

namespace Gathers

theorem mem_iff (gathers : Gathers groups places group) {id : String} :
    id ∈ group.traversal ↔ ∃ place ∈ places, id ∈ (groups.get place).traversal := by
  rw [gathers.unites.members]
  simp only [List.mem_map, exists_exists_and_eq_and]

theorem exists_share_iff (first : Gathers groups places group) (second : Gathers groups added other) :
    group.overlaps other = true ↔ ∃ left ∈ places, ∃ right ∈ added, Share groups left right := by
  rw [overlaps_iff]
  constructor
  · rintro ⟨id, inGroup, inOther⟩
    obtain ⟨left, isPlace, inLeft⟩ := first.mem_iff.mp inGroup
    obtain ⟨right, isAdded, inRight⟩ := second.mem_iff.mp inOther
    exact ⟨left, isPlace, right, isAdded, id, inLeft, inRight⟩
  · rintro ⟨left, isPlace, right, isAdded, id, inLeft, inRight⟩
    exact ⟨id, first.mem_iff.mpr ⟨left, isPlace, inLeft⟩, second.mem_iff.mpr ⟨right, isAdded, inRight⟩⟩

theorem join (first : Gathers groups places group) (second : Gathers groups added other)
    (overlapping : group.overlaps other = true) :
    Gathers groups (places ++ added) (group.join other) where
  unites := by
    rw [List.map_append]
    exact first.unites.join second.unites
  nonempty := List.append_ne_nil_of_left_ne_nil first.nonempty added
  linked := by
    obtain ⟨near, isPlace, far, isAdded, share⟩ := (first.exists_share_iff second).mp overlapping
    have across : ∀ left ∈ places, ∀ right ∈ added, Linked groups left right :=
      fun left inPlaces right inAdded =>
        .trans _ _ _ (first.linked left inPlaces near isPlace)
          (.trans _ _ _ (.rel _ _ share) (second.linked far isAdded right inAdded))
    intro left isLeft right isRight
    rcases List.mem_append.mp isLeft with leftPlace | leftAdded
    · rcases List.mem_append.mp isRight with rightPlace | rightAdded
      · exact first.linked left leftPlace right rightPlace
      · exact across left leftPlace right rightAdded
    · rcases List.mem_append.mp isRight with rightPlace | rightAdded
      · exact .symm _ _ (across right rightPlace left leftAdded)
      · exact second.linked left leftAdded right rightAdded

theorem single (distinct : ∀ group ∈ groups, group.traversal.Nodup ∧ group.outNodes.Nodup)
    (place : Fin groups.length) : Gathers groups [place] (groups.get place) where
  unites := by
    obtain ⟨nodes, outs⟩ := distinct _ (groups.get_mem place)
    exact unites_singleton nodes outs
  nonempty := List.cons_ne_nil _ _
  linked left isLeft right isRight := by
    rw [List.mem_singleton.mp isLeft, List.mem_singleton.mp isRight]
    exact .refl place

/-- Every group is gathered from its own place. -/
theorem singles (distinct : ∀ group ∈ groups, group.traversal.Nodup ∧ group.outNodes.Nodup) :
    List.Forall₂ (Gathers groups) ((List.finRange groups.length).map fun place => [place]) groups := by
  have each : List.Forall₂ (Gathers groups) ((List.finRange groups.length).map fun place => [place])
      ((List.finRange groups.length).map groups.get) := by
    rw [List.forall₂_map_left_iff, List.forall₂_map_right_iff, List.forall₂_same]
    exact fun place _ => single distinct place
  rwa [List.map_get_finRange] at each

end Gathers

/-! ## Classes of linked places -/

/-- Groups that do not overlap were gathered from places that share no node. -/
theorem not_share_of_apart (gathers : List.Forall₂ (Gathers groups) components merged)
    (apart : merged.Pairwise fun left right => left.overlaps right = false) :
    components.Pairwise fun first second =>
      ∀ left ∈ first, ∀ right ∈ second, ¬ Share groups left right := by
  refine Outcome.pairwise_results gathers.flip apart ?_
  intro group other first second gathersFirst gathersSecond disjoint left inFirst right inSecond share
  have overlapping : group.overlaps other = true :=
    (Gathers.exists_share_iff gathersFirst gathersSecond).mpr ⟨left, inFirst, right, inSecond, share⟩
  rw [disjoint] at overlapping
  cases overlapping

/-- A component is closed under links: what shares a node with one of its places is in some component,
and no other one has a node in common with it. -/
theorem mem_iff_of_linked
    (unshared : components.Pairwise fun first second =>
      ∀ left ∈ first, ∀ right ∈ second, ¬ Share groups left right)
    (covered : ∀ place, ∃ component ∈ components, place ∈ component)
    (listed : component ∈ components) (linked : Linked groups left right) :
    left ∈ component ↔ right ∈ component := by
  have : Std.Symm fun first second : List (Fin groups.length) =>
      ∀ left ∈ first, ∀ right ∈ second, ¬ Share groups left right :=
    ⟨fun _ _ free left inSecond right inFirst share => free right inFirst left inSecond share.symm⟩
  have closed : ∀ {near far}, Share groups near far → near ∈ component → far ∈ component := by
    intro near far share inside
    obtain ⟨found, isFound, inFound⟩ := covered far
    by_contra outside
    have differ : component ≠ found := fun same => outside (same ▸ inFound)
    exact unshared.forall listed isFound differ near inside far inFound share
  induction linked with
  | rel near far share => exact ⟨closed share, closed share.symm⟩
  | refl => exact Iff.rfl
  | symm _ _ _ ih => exact ih.symm
  | trans _ _ _ _ _ first second => exact first.trans second

theorem exists_class (gathers : List.Forall₂ (Gathers groups) components merged)
    (apart : merged.Pairwise fun left right => left.overlaps right = false)
    (covered : ∀ place, ∃ component ∈ components, place ∈ component)
    (listed : component ∈ components) :
    ∃ first ∈ component, ∀ place, place ∈ component ↔ Linked groups first place := by
  obtain ⟨_, _, held⟩ := Outcome.exists_result gathers listed
  obtain ⟨first, member⟩ := List.exists_mem_of_ne_nil _ held.nonempty
  refine ⟨first, member, fun place => ⟨held.linked first member place, fun linked => ?_⟩⟩
  exact (mem_iff_of_linked (not_share_of_apart gathers apart) covered listed linked).mp member

/-! ## Order of components -/

section Order

variable {ι : Type*} [LinearOrder ι] {earlier later more : List ι} {clusters next final : List (List ι)}

/-- The first member of one cluster comes before all members of another one. -/
def BeginsBefore (earlier later : List ι) : Prop := ∃ first ∈ earlier, ∀ place ∈ later, first < place

theorem BeginsBefore.append_left (before : BeginsBefore earlier later) :
    BeginsBefore (earlier ++ more) later := by
  obtain ⟨first, member, least⟩ := before
  exact ⟨first, List.mem_append_left more member, least⟩

theorem BeginsBefore.append_right (before : BeginsBefore earlier later)
    (beforeToo : BeginsBefore earlier more) : BeginsBefore earlier (later ++ more) := by
  obtain ⟨first, member, least⟩ := before
  obtain ⟨second, memberToo, leastToo⟩ := beforeToo
  refine ⟨min first second, ?_, fun place listed => ?_⟩
  · rcases min_choice first second with same | same
    · rwa [same]
    · rwa [same]
  · rcases List.mem_append.mp listed with inLater | inMore
    · exact min_lt_of_left_lt (least place inLater)
    · exact min_lt_of_right_lt (leastToo place inMore)

/-- A cluster keeps its place when a later one is added to it. -/
theorem Fuses.ordered (fuses : Fuses clusters next) (ordered : clusters.Pairwise BeginsBefore) :
    next.Pairwise BeginsBefore := by
  cases fuses with
  | intro front cluster between added back =>
      simp only [List.pairwise_append, List.pairwise_cons, List.mem_append, List.mem_cons] at ordered ⊢
      obtain ⟨inFront, ⟨fromCluster, inBetween, ⟨fromAdded, inBack⟩, fromBetween⟩, fromFront⟩ := ordered
      refine ⟨inFront, ⟨?_, inBetween, inBack, ?_⟩, ?_⟩
      · rintro later (inside | after)
        · exact (fromCluster later (.inl inside)).append_left
        · exact (fromCluster later (.inr (.inr after))).append_left
      · exact fun earlier inside later after => fromBetween earlier inside later (.inr after)
      · rintro earlier isFront later (rfl | inside | after)
        · exact (fromFront earlier isFront cluster (.inl rfl)).append_right
            (fromFront earlier isFront added (.inr (.inr (.inl rfl))))
        · exact fromFront earlier isFront later (.inr (.inl inside))
        · exact fromFront earlier isFront later (.inr (.inr (.inr after)))

theorem ordered_of_fuses (fuses : Relation.ReflTransGen Fuses clusters final)
    (ordered : clusters.Pairwise BeginsBefore) : final.Pairwise BeginsBefore := by
  induction fuses with
  | refl => exact ordered
  | tail _ fuse ih => exact fuse.ordered ih

theorem ordered_singles (count : Nat) :
    ((List.finRange count).map fun place => [place]).Pairwise BeginsBefore := by
  rw [List.pairwise_map]
  refine (List.pairwise_lt_finRange count).imp fun {left right} before => ?_
  refine ⟨left, List.mem_singleton_self left, fun place isRight => ?_⟩
  rwa [List.mem_singleton.mp isRight]

end Order

/-! ## Components -/

/-- Merged groups are the connected components of a list of groups. -/
structure Components (groups merged : List DspGroup) (components : List (List (Fin groups.length))) :
    Prop where
  /-- A merged group holds what the groups of its component hold, and nothing twice. -/
  unites : List.Forall₂ (fun component group => Unites (component.map groups.get) group)
    components merged
  /-- A component is a class of linked places. -/
  classes : ∀ component ∈ components,
    ∃ first ∈ component, ∀ place, place ∈ component ↔ Linked groups first place
  /-- Every place is in one component. -/
  shared : components.flatten.Perm (List.finRange groups.length)
  ordered : components.Pairwise BeginsBefore
  apart : merged.Pairwise fun left right => left.traversal.Disjoint right.traversal

theorem merging_computes_components (groups : List DspGroup)
    (distinct : ∀ group ∈ groups, group.traversal.Nodup ∧ group.outNodes.Nodup) :
    (∃ components, Components groups (mergeOverlapping groups) components) ∧
    ∃ rounds, rounds + (mergeOverlapping groups).length = groups.length ∧
      MergesIn rounds groups (mergeOverlapping groups) := by
  obtain ⟨rounds, counted, merges⟩ := mergesIn_mergeOverlapping groups
  obtain ⟨components, gathers, fuses⟩ := merges.fuses Gathers.join (Gathers.singles distinct)
  have perm : components.flatten.Perm (List.finRange groups.length) := by
    have shared := flatten_perm_of_fuses fuses
    rwa [← List.flatMap_def, List.flatMap_singleton'] at shared
  have ordered : components.Pairwise BeginsBefore := ordered_of_fuses fuses (ordered_singles _)
  have covered : ∀ place, ∃ component ∈ components, place ∈ component := fun place =>
    List.mem_flatten.mp (perm.mem_iff.mpr (List.mem_finRange place))
  have classes : ∀ component ∈ components,
      ∃ first ∈ component, ∀ place, place ∈ component ↔ Linked groups first place :=
    fun _ listed => exists_class gathers merges.apart covered listed
  have apart : (mergeOverlapping groups).Pairwise fun left right =>
      left.traversal.Disjoint right.traversal := by
    refine merges.apart.imp fun {left right} disjoint id inLeft inRight => ?_
    have overlapping : left.overlaps right = true := overlaps_iff.mpr ⟨id, inLeft, inRight⟩
    rw [disjoint] at overlapping
    cases overlapping
  have unites := gathers.imp fun _ _ held => held.unites
  exact ⟨⟨components, unites, classes, perm, ordered, apart⟩, rounds, counted, merges⟩

/-! The first two groups share no node, but the fourth one has a node in common with either. -/

def chainedGroups : List DspGroup :=
  [⟨["a"], ["a"]⟩, ⟨["b"], ["b"]⟩, ⟨["e"], ["e"]⟩, ⟨["b", "c", "a"], ["c"]⟩, ⟨["e", "d"], ["d"]⟩]

def joinedGroups : List DspGroup := [⟨["a", "b", "c"], ["a", "c", "b"]⟩, ⟨["e", "d"], ["e", "d"]⟩]

theorem merging_computes_components_chained :
    (∀ group ∈ chainedGroups, group.traversal.Nodup ∧ group.outNodes.Nodup) ∧
    (∃ components, Components chainedGroups joinedGroups components) ∧
    MergesIn 3 chainedGroups joinedGroups := by
  have distinct : ∀ group ∈ chainedGroups, group.traversal.Nodup ∧ group.outNodes.Nodup := by decide
  have joined : mergeOverlapping chainedGroups = joinedGroups := by cbv
  obtain ⟨components, rounds, counted, merges⟩ := merging_computes_components chainedGroups distinct
  rw [joined] at components counted merges
  obtain rfl : rounds = 3 := by simpa [chainedGroups, joinedGroups] using counted
  exact ⟨distinct, components, merges⟩

end Patchbay.DspGroup
