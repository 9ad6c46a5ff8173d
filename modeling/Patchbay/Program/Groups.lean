import Patchbay.Program.Basic
import Patchbay.Program.Coldness

namespace Patchbay

/-! Splitting the audio part of a program.

What audio sinks depend on is split into the hot group, which runs for every sample,
cold groups, which run when a message changes them, and inline groups, which are
written as an expression at their only reader.
-/

namespace DspGroup

def overlaps (left right : DspGroup) : Bool := right.traversal.any left.traversal.contains

/-- The union of two groups, without repetition. -/
def join (left right : DspGroup) : DspGroup :=
  ⟨Text.unique (left.traversal ++ right.traversal), Text.unique (left.outNodes ++ right.outNodes)⟩

/-- Joins the first of some groups that overlaps a given one to it, and gives the others. -/
def absorb? (group : DspGroup) : List DspGroup → Option (DspGroup × List DspGroup)
  | [] => none
  | other :: rest =>
      if group.overlaps other then some (group.join other, rest)
      else (group.absorb? rest).map fun (joined, left) => (joined, other :: left)

/-- Joins the first group that overlaps a later one with the first such group. -/
def mergeOnce? : List DspGroup → Option (List DspGroup)
  | [] => none
  | group :: rest =>
      match group.absorb? rest with
      | some (joined, left) => some (joined :: left)
      | none => (mergeOnce? rest).map (group :: ·)

theorem length_absorb? {group joined : DspGroup} {groups left : List DspGroup}
    (absorbed : group.absorb? groups = some (joined, left)) :
    left.length + 1 = groups.length := by
  induction groups generalizing joined left with
  | nil => simp [absorb?] at absorbed
  | cons other rest ih =>
      unfold absorb? at absorbed
      split at absorbed
      · cases absorbed
        simp
      · obtain ⟨⟨inner, kept⟩, found, equal⟩ := Option.map_eq_some_iff.mp absorbed
        cases equal
        have shorter := ih found
        simp only [List.length_cons]
        omega

theorem length_mergeOnce? {groups merged : List DspGroup}
    (joined : mergeOnce? groups = some merged) : merged.length + 1 = groups.length := by
  induction groups generalizing merged with
  | nil => simp [mergeOnce?] at joined
  | cons group rest ih =>
      unfold mergeOnce? at joined
      split at joined
      · next found =>
          cases joined
          have shorter := length_absorb? found
          simp only [List.length_cons]
          omega
      · obtain ⟨inner, found, equal⟩ := Option.map_eq_some_iff.mp joined
        cases equal
        have shorter := ih found
        simp only [List.length_cons]
        omega

/-- Joins groups that share a node until no two do.  The first group of a join keeps its place. -/
def mergeOverlapping (groups : List DspGroup) : List DspGroup :=
  match _joined : mergeOnce? groups with
  | none => groups
  | some merged => mergeOverlapping merged
termination_by groups.length
decreasing_by
  have shorter := length_mergeOnce? _joined
  omega

end DspGroup

namespace Program

def isPure (program : Program) (node : Node) : Bool :=
  match program.catalog.implementation? node.type with
  | some implementation => implementation.isPure
  | none => false

/-- The cold groups before names are given to them: one group for every cold node that feeds a node
which is not cold, overlapping groups merged, members in order of evaluation. -/
def coldGroups (program : Program) : Outcome (List DspGroup) := do
  let cold := Coldness.survey program.graph program.isPure
  let isCold (id : String) : Bool := cold.getD id false
  let isBoundary (id : String) : Bool :=
    isCold id && match program.graph.node? id with
      | some node => node.signalSinks.any fun sink => !isCold sink.node
      | none => false
  let closure (outNodes : List String) : Outcome (List String) :=
    program.graph.signalNodesWhere outNodes fun node => isCold node.id
  let flows ← (program.rootDsp.traversal.filter isBoundary).mapM fun id => do
    return ⟨← closure [id], [id]⟩
  (DspGroup.mergeOverlapping flows).mapM fun group => do
    let traversal ← closure group.outNodes
    return ⟨traversal.filter isCold, group.outNodes⟩

/-- Signal connections from members to nodes that are no members. -/
def leaving (graph : Graph) (members : List String) : List Connection :=
  members.flatMap fun id =>
    match graph.node? id with
    | none => []
    | some node =>
        (node.outletsOfType .signal).flatMap fun outlet =>
          ((node.sinksOf outlet.id).filter fun sink => !members.contains sink.node).map fun sink =>
            ⟨⟨id, outlet.id⟩, sink⟩

/-- Names a cold group by its position and registers it with its members. -/
def addColdGroup (program : Program) (position : Nat) (group : DspGroup) : Outcome Program := do
  let id := Text.ofNat position
  let (functionName, program) ← program.readName .coldGroups id
  let entry : ColdGroup :=
    { toDspGroup := group, id, functionName
      sinkConnections := leaving program.graph group.traversal }
  let coldDsp ← program.coldDsp.add id entry
  return { program with
    coldDsp
    coldOf := group.traversal.foldl (fun coldOf node => coldOf.set node id) program.coldOf }

/-- Whether a member of a group can be written at its reader: its type allows it, it feeds one
signal inlet only, and nothing outside of the group reads it. -/
def isInlinable (program : Program) (parent : DspGroup) (id : String) : Bool :=
  match program.graph.node? id with
  | none => false
  | some node =>
      parent.traversal.contains id && !parent.outNodes.contains id &&
        (match program.catalog.implementation? node.type with
          | some implementation => implementation.isInline
          | none => false) &&
        node.signalSinks.length == 1

/-- The inline groups of a group: each ends at an inlinable node whose reader is a member that
cannot itself be inlined. -/
def inlineGroups (program : Program) (parent : DspGroup) : Outcome (List DspGroup) :=
  let isEnd (id : String) : Bool :=
    program.isInlinable parent id &&
      match (program.graph.node? id).bind fun node => node.signalSinks.head? with
      | some sink => parent.traversal.contains sink.node && !program.isInlinable parent sink.node
      | none => false
  (parent.traversal.filter isEnd).mapM fun id => do
    let traversal ← program.graph.signalNodesWhere [id] fun source =>
      program.isInlinable parent source.id
    return ⟨traversal, [id]⟩

/-- Records the inline groups of a group and gives its members that are left. -/
def extractInline (program : Program) (parent : DspGroup) : Outcome (List String × Program) := do
  let groups ← program.inlineGroups parent
  let inlined := groups.foldl (fun inlined group => inlined ++ group.traversal) program.inlined
  let program := { program with inlineDsp := program.inlineDsp ++ groups, inlined }
  return (parent.traversal.filter fun id => !program.isInlined id, program)

def extractInlineFromCold (program : Program) (id : String) : Outcome Program := do
  let group ← program.coldDsp.get id
  let (traversal, program) ← program.extractInline group.toDspGroup
  return { program with coldDsp := program.coldDsp.refine id fun group => { group with traversal } }

def splitSignal (program : Program) : Outcome Program := do
  let pulling := program.graph.pulling
  let traversal ← program.graph.signalNodes pulling
  let program := { program with rootDsp := ⟨traversal, pulling⟩ }
  let cold ← program.coldGroups
  let program ← cold.zipIdx.foldlM (fun program (group, position) =>
    program.addColdGroup position group) program
  let hot : DspGroup :=
    ⟨traversal.filter fun id => !program.coldOf.contains id, pulling⟩
  let (remaining, program) ← program.extractInline hot
  let program := { program with hotDsp := ⟨remaining, pulling⟩ }
  program.coldDsp.keys.foldlM extractInlineFromCold program

end Program

end Patchbay
