import Patchbay.Program.Regions
import Patchbay.Proofs.Program.Unmarked

namespace Patchbay

/-! The regions of an unmarked program hold no marker lines. -/

open Code (AllUnmarked Part SlotUnmarked allUnmarked_append allUnmarked_iff)
open Outcome (Ends Ensures ends_pure ensures_bind)
open Text (isUnmarked)

namespace Code

variable {parts : List Part}

theorem unmarked_sequence_code (unmarked : AllUnmarked parts) : (Part.sequence (code parts)).Unmarked :=
  unmarked_sequence_iff.mpr (unmarked_code unmarked)

theorem unmarked_sequence_lines (unmarked : ∀ part ∈ parts, part.Unmarked) :
    (Part.sequence (lines parts)).Unmarked :=
  unmarked_sequence_iff.mpr (unmarked_lines (allUnmarked_iff.mpr unmarked))

theorem unmarked_flatten {groups : List (List Part)} (all : ∀ parts ∈ groups, AllUnmarked parts) :
    AllUnmarked groups.flatten :=
  allUnmarked_iff.mpr fun part member =>
    have ⟨_, inGroups, inParts⟩ := List.mem_flatten.mp member
    allUnmarked_iff.mp (all _ inGroups) part inParts

/-- A region that is left out when it renders to nothing. -/
theorem unmarked_unlessEmpty {region : Option Sequence} (unmarked : (Part.ofSequence? region).Unmarked) :
    AllUnmarked (if rendersNothing region then [] else [Part.ofSequence? region]) := by
  split
  · exact .nil
  · exact .single unmarked

end Code

/-- No region holds a marker line. -/
structure Regions.Unmarked (regions : Regions) : Prop where
  dependencies : (Part.ofSequence? regions.dependencies).Unmarked
  nodeTypes : AllUnmarked regions.nodeTypes
  stateInstances : AllUnmarked regions.stateInstances
  portlets : AllUnmarked regions.portlets
  coldDsp : AllUnmarked regions.coldDsp
  hostReceivers : AllUnmarked regions.hostReceivers
  arrays : (Part.ofSequence? regions.arrays).Unmarked
  initializations : AllUnmarked regions.initializations
  coldDspTriggers : (Part.ofSequence? regions.coldDspTriggers).Unmarked
  loop : AllUnmarked regions.loop

namespace Program

/-! ## State records -/

theorem unmarked_zero (stateName : String) (declared : Code.TypedName) :
    Ensures (memberValue.zero stateName declared) AllUnmarked := by
  unfold memberValue.zero
  cases given : zeroValue? declared.type with
  | none => trivial
  | some value =>
      have closed : isUnmarked value = true := by
        unfold zeroValue? at given
        split at given <;> cases given <;> decide
      exact Code.unmarked_code (.single (Code.unmarked_text closed))

theorem unmarked_memberValue (stateName : String) {member : Code.Slot} (unmarked : SlotUnmarked member) :
    Ensures (memberValue stateName member) AllUnmarked := by
  unfold memberValue
  cases given : member.2 with
  | none => exact unmarked_zero stateName member.1
  | some value =>
      dsimp only
      split
      · exact unmarked_zero stateName member.1
      · exact unmarked.2 value given

theorem unmarked_separateMembers {members : List Code.Sequence} (all : ∀ entry ∈ members, AllUnmarked entry) :
    AllUnmarked (separateMembers members) := by
  match members with
  | [] => exact .nil
  | [entry] => exact .single (Code.unmarked_sequence_iff.mpr (all entry (List.mem_cons_self ..)))
  | entry :: next :: rest =>
      obtain ⟨first, later⟩ := List.forall_mem_cons.mp all
      exact .cons (Code.unmarked_sequence_iff.mpr first)
        (.cons (Code.unmarked_text (by decide)) (unmarked_separateMembers later))

theorem unmarked_stateInstance {entry : NodeCode} {record : Code.Record} (own : entry.Unmarked)
    (unmarked : (Part.ofRecord record).Unmarked) :
    Ensures (stateInstance entry record) Part.Unmarked := by
  rw [Part.ofRecord, Part.Unmarked, Code.slotsUnmarked_iff] at unmarked
  have members : Ensures (record.members.mapM fun member => do
      let value ← memberValue entry.stateName member
      return Code.code ["\n", member.1.name, ": ", .sequence value])
      fun members => ∀ entry ∈ members, AllUnmarked entry := by
    refine Ensures.mapM fun member listed => ?_
    have slot := unmarked.2 member listed
    refine (unmarked_memberValue entry.stateName slot).bind fun value _ written =>
      ends_pure (Code.unmarked_code ?_)
    simp only [AllUnmarked, Part.Unmarked, slot.1.name, written, and_true, true_and]
    decide
  refine members.bind fun written _ all => ends_pure ?_
  refine Code.unmarked_sequence_code (.single (Code.unmarked_const own.stateName unmarked.1 ?_))
  refine .single (Code.unmarked_sequence_code ?_)
  simp only [AllUnmarked, Part.Unmarked, unmarked_separateMembers all, and_true, true_and]
  decide

/-! ## Functions and statements -/

theorem unmarked_messageArg : Code.SlotsUnmarked [messageArg] := by
  change Code.SlotsUnmarked [(⟨"m", "Message"⟩, none)]
  rw [Code.SlotsUnmarked, Code.SlotsUnmarked]
  exact ⟨⟨by decide, by decide⟩, trivial⟩

theorem unmarked_messageFunction {name : String} {body : List Part} (named : isUnmarked name = true)
    (unmarked : AllUnmarked body) : (Part.ofFunction (Code.func name [messageArg] "void" body)).Unmarked :=
  Code.unmarked_func named unmarked_messageArg (by decide) unmarked

theorem unmarked_arrayBlock {setArray : String} (named : isUnmarked setArray = true) (name : String)
    (values : List Float) : (arrayBlock setArray name values).Unmarked := by
  have first : (Code.const "FloatArray" "array" [
      "new FloatArray(", .integer values.length, ")"]).Unmarked := by
    refine Code.unmarked_const (by decide) (by decide) ?_
    simp only [AllUnmarked, Part.Unmarked, and_true, true_and]
    decide
  have last : (Part.sequence (Code.code [setArray, "(", Text.literal name, ", array)"])).Unmarked := by
    refine Code.unmarked_sequence_code ?_
    simp only [AllUnmarked, Part.Unmarked, named, Text.isUnmarked_literal, and_true, true_and]
    decide
  refine Code.unmarked_sequence_code (.cons (Code.unmarked_text (by decide))
    (.cons (Code.unmarked_sequence_lines ?_) (.single (Code.unmarked_text (by decide)))))
  refine List.forall_mem_cons.mpr ⟨first, List.forall_mem_append.mpr ⟨?_, List.forall_mem_singleton.mpr last⟩⟩
  refine List.forall_mem_map.mpr fun write _ => Code.unmarked_sequence_code ?_
  simp only [AllUnmarked, Part.Unmarked, and_true, true_and]
  decide

theorem unmarked_arraysRegion (program : Program) : (Part.ofSequence? program.arraysRegion).Unmarked := by
  unfold arraysRegion
  dsimp only
  split
  · exact Code.unmarked_missing
  · refine Code.unmarked_sequence_lines (List.forall_mem_map.mpr fun name _ => unmarked_arrayBlock ?_ _ _)
    cases program.names.enter (.module "commonsArrays") with
    | error fault => rfl
    | ok names => exact names.nameOf_unmarked _ _

namespace Unmarked

variable {program : Program} (unmarked : program.Unmarked)

include unmarked

/-- A region that is gathered node by node. -/
theorem gather {view : NodeCode → Outcome (List Part)}
    (all : ∀ entry : NodeCode, entry.Unmarked → Ensures (view entry) AllUnmarked) :
    Ensures (program.fullTraversal.mapM (fun id => program.nodes.get id >>= view) >>= fun parts =>
      pure (Code.lines parts.flatten) : Outcome Code.Sequence) AllUnmarked :=
  Ends.bind (Ensures.mapM fun _ _ => ensures_bind fun entry stored => all entry (unmarked.nodeGet stored))
    fun _ _ gathered => ends_pure (Code.unmarked_lines (Code.unmarked_flatten gathered))

theorem stateInstancesRegion : Ensures program.stateInstancesRegion AllUnmarked :=
  unmarked.gather fun entry own => by
    cases given : entry.state with
    | none => exact ends_pure .nil
    | some record =>
        exact (unmarked_stateInstance own (own.state record given)).bind fun part _ written =>
          ends_pure (.single written)

theorem portletsRegion : Ensures program.portletsRegion AllUnmarked :=
  unmarked.gather fun entry own => by
    refine ends_pure (allUnmarked_append.mpr ⟨allUnmarked_append.mpr ⟨?_, ?_⟩, ?_⟩)
    · refine allUnmarked_iff.mpr (List.forall_mem_map.mpr fun outlet _ => ?_)
      exact Code.unmarked_var (own.signalOuts.getD rfl) (by decide) (.single (Code.unmarked_text (by decide)))
    · refine allUnmarked_iff.mpr (List.forall_mem_map.mpr fun receiver listed => ?_)
      obtain ⟨_, held⟩ := own.receivers.of_mem listed
      exact Code.Function.unmarked_part_iff.mpr held
    · refine allUnmarked_iff.mpr fun part listed => ?_
      obtain ⟨sender, isSender, given⟩ := List.mem_filterMap.mp listed
      obtain ⟨function, dispatches, rfl⟩ := Option.map_eq_some_iff.mp given
      obtain ⟨_, held⟩ := own.senders.of_mem isSender
      exact Code.Function.unmarked_part_iff.mpr (held.dispatcher function dispatches)

theorem initializationsRegion : Ensures program.initializationsRegion AllUnmarked :=
  unmarked.gather fun _ own => ends_pure (Code.unmarked_unlessEmpty own.initialization)

theorem nodeTypesRegion : AllUnmarked program.nodeTypesRegion := by
  refine Code.unmarked_lines (allUnmarked_iff.mpr fun part listed => ?_)
  obtain ⟨type, isType, listed⟩ := List.mem_flatMap.mp listed
  obtain ⟨_, held⟩ := unmarked.types.of_mem isType
  rcases List.mem_append.mp listed with isRecord | isCore
  · obtain ⟨record, given, rfl⟩ := List.mem_map.mp isRecord
    exact held.stateRecord record (Option.mem_toList.mp given)
  · exact allUnmarked_iff.mp (Code.unmarked_unlessEmpty held.core) part isCore

theorem dspStatements (traversal : List String) (keeps : String → Bool) :
    Ensures (program.dspStatements traversal keeps) AllUnmarked := by
  refine Ends.bind (Ensures.mapM fun id _ => (?_ : Ensures _ AllUnmarked)) fun statements _ gathered =>
    ends_pure (Code.unmarked_flatten gathered)
  refine ensures_bind fun entry stored => ensures_bind fun node _ => ?_
  have own := unmarked.nodeGet stored
  refine ends_pure (allUnmarked_append.mpr ⟨allUnmarked_iff.mpr fun part listed => ?_,
    Code.unmarked_unlessEmpty own.loop⟩)
  obtain ⟨inlet, _, given⟩ := List.mem_filterMap.mp listed
  obtain ⟨statement, isStatement, given⟩ := Option.bind_eq_some_iff.mp given
  obtain ⟨source, _, given⟩ := Option.bind_eq_some_iff.mp given
  split at given
  · cases given
    exact Code.unmarked_sequence_iff.mpr (own.inlets _ _ isStatement)
  · cases given

theorem coldDspRegion : Ensures program.coldDspRegion AllUnmarked := by
  refine Ends.bind (Ensures.mapM fun group listed => ?_) fun functions _ gathered =>
    ends_pure (Code.unmarked_lines (allUnmarked_iff.mpr gathered))
  obtain ⟨_, named⟩ := unmarked.coldGroups.of_mem listed
  refine (unmarked.dspStatements group.traversal _).bind fun body _ statements => ?_
  refine Ends.bind (Ensures.mapM fun connection _ => (?_ : Ensures _ AllUnmarked)) fun after _ gathered => ?_
  · refine ensures_bind fun sink stored => ends_pure (allUnmarked_iff.mpr ?_)
    refine List.forall_mem_map.mpr fun statement given => Code.unmarked_sequence_iff.mpr ?_
    exact (unmarked.nodeGet stored).inlets _ _ (Option.mem_toList.mp given)
  · exact ends_pure (unmarked_messageFunction named (.single (Code.unmarked_sequence_iff.mpr
      (Code.unmarked_lines (allUnmarked_append.mpr ⟨statements, Code.unmarked_flatten gathered⟩)))))

theorem coldDspTriggers :
    Ensures program.coldDspTriggers fun region => (Part.ofSequence? region).Unmarked := by
  unfold Program.coldDspTriggers
  split
  · exact ends_pure Code.unmarked_missing
  · refine ensures_bind fun _ _ => ends_pure (Code.unmarked_sequence_lines ?_)
    refine List.forall_mem_map.mpr fun group listed => Code.unmarked_sequence_code ?_
    obtain ⟨_, named⟩ := unmarked.coldGroups.of_mem listed
    simp only [AllUnmarked, Part.Unmarked, named, program.names.nameOf_unmarked _ _, and_true, true_and]
    decide

theorem hostReceiversRegion : Ensures program.hostReceiversRegion AllUnmarked := by
  refine Ends.bind (Ensures.mapM fun hostPort listed => ?_) fun functions _ gathered =>
    ends_pure (Code.unmarked_lines (allUnmarked_iff.mpr gathered))
  obtain ⟨_, named⟩ := unmarked.hostReceivers.of_mem listed
  refine ensures_bind fun adapter stored => ensures_bind fun sender registered =>
    ends_pure (unmarked_messageFunction named ?_)
  have own := (unmarked.nodeGet stored).senders _ _ (register_get_eq_ok_iff.mp registered)
  simp only [AllUnmarked, Part.Unmarked, own.name, and_true, true_and]
  decide

theorem hostSenderFunctions : ∀ function ∈ program.hostSenderFunctions, function.Unmarked := by
  refine List.forall_mem_map.mpr fun hostPort listed => ?_
  obtain ⟨_, named⟩ := unmarked.hostSenders.of_mem listed
  exact Code.Function.unmarked_message named .nil

theorem loopRegion : Ensures program.loopRegion AllUnmarked := by
  refine ensures_bind fun _ _ => ?_
  refine (unmarked.dspStatements _ _).bind fun body _ statements => ends_pure (Code.unmarked_code ?_)
  simp only [AllUnmarked, Part.Unmarked, Code.unmarked_lines statements, program.names.nameOf_unmarked _ _,
    and_true, true_and]
  decide

theorem regions : Ensures program.regions Regions.Unmarked :=
  unmarked.stateInstancesRegion.bind fun _ _ stateInstances =>
    unmarked.portletsRegion.bind fun _ _ portlets =>
      unmarked.coldDspRegion.bind fun _ _ coldDsp =>
        unmarked.hostReceiversRegion.bind fun _ _ hostReceivers =>
          unmarked.initializationsRegion.bind fun _ _ initializations =>
            unmarked.loopRegion.bind fun _ _ loop =>
              unmarked.coldDspTriggers.bind fun _ _ coldDspTriggers => ends_pure {
                dependencies := unmarked.dependencies.code
                nodeTypes := unmarked.nodeTypesRegion
                stateInstances, portlets, coldDsp, hostReceivers
                arrays := unmarked_arraysRegion program
                initializations, coldDspTriggers, loop }

end Unmarked

end Program

namespace Regions

theorem unmarked_coreVariables : (Part.sequence coreVariables).Unmarked := by
  have zero : AllUnmarked ["0"] := .single (Code.unmarked_text (by decide))
  refine Code.unmarked_sequence_lines ?_
  simp only [List.mem_cons, List.not_mem_nil, or_false, forall_eq_or_imp, forall_eq]
  exact ⟨Code.unmarked_var (by decide) (by decide) zero, Code.unmarked_var (by decide) (by decide) zero,
    Code.unmarked_var (by decide) (by decide) zero, Code.unmarked_var (by decide) (by decide) zero,
    Code.unmarked_const (by decide) (by decide) zero⟩

theorem unmarked_ifAny {region : Option Code.Sequence} (own : (Part.ofSequence? region).Unmarked) :
    (ifAny region).Unmarked := by
  unfold ifAny
  split
  · exact Code.unmarked_missing
  · exact own

namespace Unmarked

variable {regions : Regions} (unmarked : regions.Unmarked)

include unmarked

theorem declarations : (Part.sequence (Code.lines (regions.declarations.map Part.sequence))).Unmarked := by
  refine Code.unmarked_sequence_lines (List.forall_mem_map.mpr fun region listed => ?_)
  obtain ⟨slot, member, rfl⟩ := List.mem_filterMap.mp listed
  have given := (List.mem_filter.mp member).1
  simp only [List.mem_cons, List.not_mem_nil, or_false] at given
  change (Part.ofSequence? (some region)).Unmarked
  rcases given with same | same | same | same | same | same <;> rw [same]
  · exact unmarked.dependencies
  · exact Code.unmarked_sequence_iff.mpr unmarked.nodeTypes
  · exact Code.unmarked_sequence_iff.mpr unmarked.stateInstances
  · exact Code.unmarked_sequence_iff.mpr unmarked.portlets
  · exact Code.unmarked_sequence_iff.mpr unmarked.coldDsp
  · exact Code.unmarked_sequence_iff.mpr unmarked.hostReceivers

theorem initializeBody : (Part.sequence regions.initializeBody).Unmarked := by
  refine Code.unmarked_sequence_lines ?_
  simp only [List.mem_cons, List.not_mem_nil, or_false, forall_eq_or_imp, forall_eq]
  refine ⟨Code.unmarked_sequence_code ?_, Code.unmarked_sequence_code ?_, unmarked_ifAny unmarked.arrays,
    unmarked_ifAny (Code.unmarked_sequence_iff.mpr unmarked.initializations), unmarked_ifAny unmarked.coldDspTriggers⟩ <;>
  · simp only [AllUnmarked, Part.Unmarked, and_true]
    decide

end Unmarked

end Regions

end Patchbay
