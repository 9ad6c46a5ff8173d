import Patchbay.Graph.Traversal
import Patchbay.Module.Library
import Patchbay.Program.Basic

namespace Patchbay.Program

open Code (Sequence Part)

/-! The frame of a program: which nodes and types it has, the runtime modules they need, and the
state records of types and nodes.
-/

/-- Registers a reachable node, and its type when it is the first of it. -/
def enlist (program : Program) (id : String) : Outcome Program := do
  let node ← program.graph.node id
  match program.catalog.implementation? node.type with
  | none => throw (.unknownNodeType node.type id)
  | some implementation =>
      let types ←
        if program.types.contains node.type then pure program.types
        else program.types.add node.type { type := node.type, implementation }
      let nodes ← program.nodes.add id (NodeCode.new id node.type)
      return { program with types, nodes }

/-- Keeps the nodes that can have an effect, and the types among them. -/
def keepReachable (program : Program) : Outcome Program := do
  let full ← program.graph.fullTraversal
  let graph := program.graph.trim full
  let start :=
    { program with graph, names := program.names.setGraph graph, fullTraversal := full }
  let listed ← full.foldlM enlist start
  return { listed with
    catalog := listed.types.entries.map fun _ type => some type.implementation }

/-- Fills the code of one module and hands out the names it shares with the host. -/
def fillModule (module : Module) (settings : Settings) (dependencies : Dependencies) :
    Code.Fill (Option Sequence × Dependencies) := do
  let scope : Code.Scope := { space := .module module.namespaceName }
  let code ← module.code.mapM fun template => (template settings).fillSequence scope
  let functions ← match module.imports with
    | none => pure []
    | some imports => (imports settings).mapM fun template => template.fill scope
  let readOwn (key : String) : Code.Fill String := do
    let (name, ledger) := (← get).read scope.space key
    set ledger
    return name
  let dependencies ← functions.foldlM (fun (dependencies : Dependencies) function => do
    let name ← readOwn function.name
    if dependencies.imports.any (·.function.name = name) then return dependencies
    let entry := ⟨module.namespaceName, function.name, function.withName name⟩
    return { dependencies with imports := dependencies.imports ++ [entry] }) dependencies
  let dependencies ← module.exports.foldlM (fun (dependencies : Dependencies) key => do
    let name ← readOwn key
    if dependencies.exports.any (·.name = name) then return dependencies
    let entry := ⟨module.namespaceName, key, name⟩
    return { dependencies with exports := dependencies.exports ++ [entry] }) dependencies
  return (code, dependencies)

def fillModules (settings : Settings) :
    List Module → List Sequence → Dependencies → Code.Fill Dependencies
  | [], code, dependencies =>
      return { dependencies with code := some (Code.lines (code.map Part.sequence)) }
  | module :: rest, code, dependencies => do
      let (own, dependencies) ← fillModule module settings dependencies
      fillModules settings rest (code ++ own.toList) dependencies

/-- Collects the runtime modules, those that every program has first, and generates their code. -/
def embedModules (program : Program) : Outcome Program := do
  let roots := Library.required ++
    program.types.values.flatMap fun type => type.implementation.dependencies
  let modules := program.library.flatten roots
  let names := modules.foldl (fun names module => names.registerModule module.namespaceName)
    program.names
  let (dependencies, program) ← fill { program with names } "runtime module code"
    (fillModules program.settings modules [] { modules })
  return { program with dependencies }

/-- The first node of every type. -/
def firstOfType (program : Program) (type : String) : Option String :=
  program.fullTraversal.find? fun id =>
    match program.graph.node? id with
    | some node => node.type = type
    | none => false

/-- Fills the state record of a node, which gets its state variable first. -/
def fillState (program : Program) (id : String)
    (template : Site → Option Code.RecordTemplate) : Outcome (Option Code.Record × Program) := do
  let names ← program.names.enterNode id
  let (scope, program) ← scopeOf { program with names := names.enableState id } id
  let context := contextOf "state" scope.node
  match template ⟨scope.node, program.settings⟩ with
  | none => return (none, program)
  | some record =>
      let (filled, program) ← program.fill context (record.fill scope)
      return (some filled, program)

def setType (program : Program) (type : String) (change : TypeCode → TypeCode) : Program :=
  { program with types := program.types.refine type change }

def declareType (program : Program) (entry : TypeCode) : Outcome Program := do
  let names ← program.names.enter (.nodeType entry.type)
  let program := { program with names }
  let program ← match entry.implementation.core with
    | none => pure program
    | some template => do
        let scope : Code.Scope := { space := .nodeType entry.type }
        let (core, program) ← program.fill s!"core of node type {Text.quoted entry.type}"
          ((template program.settings).fillSequence scope)
        pure (program.setType entry.type fun type => { type with core := some core })
  match entry.implementation.state, program.firstOfType entry.type with
  | some template, some first => do
      match ← program.fillState first template with
      | (none, _) => throw (.missingState entry.type)
      | (some record, program) =>
          return program.setType entry.type fun type => { type with stateRecord := some record }
  | _, _ => return program

/-- Generates the code that nodes of a type share, and the shape of their state. -/
def declareTypes (program : Program) : Outcome Program :=
  program.types.values.foldlM declareType program

def instantiateState (program : Program) (id : String) : Outcome Program := do
  let node ← program.graph.node id
  let type ← program.types.get node.type
  match type.implementation.state with
  | none => return program
  | some template => do
      let some shape := type.stateRecord | throw (.undeclaredState id type.type)
      match ← program.fillState id template with
      | (some record, program) =>
          if record.name ≠ shape.name then throw (.differentState id type.type)
          return program.refineNode id fun entry =>
            { entry with state := some record, stateName := program.names.stateOf id }
      | (none, _) => throw (.differentState id type.type)

/-- Gives every node whose type has state a record of its own. -/
def instantiateStates (program : Program) : Outcome Program :=
  program.fullTraversal.foldlM instantiateState program

end Patchbay.Program
