import Patchbay.Graph.Basic
import Patchbay.Text.Quoted

namespace Patchbay

/-! What can go wrong, by cause.

Every failing operation gives a `Fault`.  `within` puts a fault into the context
of the larger operation that failed because of it, so the innermost fault is the
cause and the message reads from the outermost context inwards.
-/

/-- Why an operation on files cannot be done. -/
inductive FileProblem where
  | missing
  | notDirectory
  | isDirectory
  | nameTooLong
  | invalidPath
  | notPermitted
deriving DecidableEq, Repr

def FileProblem.message : FileProblem → String
  | .missing => "no such file or directory"
  | .notDirectory => "not a directory"
  | .isDirectory => "is a directory"
  | .nameTooLong => "file name too long"
  | .invalidPath => "invalid argument"
  | .notPermitted => "permission denied"

inductive Fault where
  -- graphs
  | unknownNode (id : String)
  | unknownInlet (inlet node : String)
  | unknownOutlet (outlet node : String)
  | nodeWithoutId
  | duplicateNode (id : String)
  | typesDiffer (outletType : PortletType) (source : Endpoint) (inletType : PortletType)
      (sink : Endpoint)
  | inletTaken (sink : Endpoint)
  -- names and registers
  | unknownName (portlet owner : String)
  | unnamedNodeType (type : String)
  | unnamedModule (namespaceName : String)
  | protectedKey (register key : String)
  | unknownEntry (register key : String)
  -- precompilation
  | unknownNodeType (type node : String)
  | missingDsp (node type : String)
  | signatureMismatch (node type inlet : String)
  | notMessageInlet (node inlet : String)
  | notMessageOutlet (node outlet : String)
  | missingState (type : String)
  | undeclaredState (node type : String)
  | differentState (node type : String)
  | declarationInExpression (typeName : String)
  | missingExpression (node type : String)
  | expressionWithoutOutlet (node type : String)
  | missingReceivers (node type : String)
  | missingReceiver (node type inlet : String)
  -- code
  | missingInitializer
  | unexpectedItem (typeName : String)
  | missingMemberValue (state member type : String)
  -- settings and artifacts
  | unknownTarget (name : String)
  | unsupportedBitDepth (bits : Int)
  | negativeChannelCount (inputs outputs : Int)
  | unserialisableNumber (shown : String)
  | unserialisableOffset
  | unserialisableName (pointer : String) (offset : Nat)
  | unknownArtifact (kind : String)
  | missingArtifact (kind : String)
  -- files
  | fileSystem (operation path : String) (problem : FileProblem)
  | malformedJson (reason : String)
  | malformedYaml (reason : String)
  | malformedEnvironment (reason : String)
  | missingPath
  | unknownFormat (format : String)
  | unknownPortletType (portlet type : String)
  | notAnInteger (key value : String)
  -- validation
  | missingGraph
  | missingReporter
  | invalidGraph (issues : Nat)
  -- assembling
  | missingArtifacts
  | wrongTarget (target : String)
  | missingProgram (name : String)
  | failedProgram (status : Nat)
  | notAModule
  -- command line
  | missingCommand
  | unknownCommand (name : String)
  | wrongArgumentCount (command requirement : String)
  | unknownEmission (name : String)
  | missingOutputPath
  | flagSyntax (argument : String)
  | undefinedFlag (name : String)
  | missingFlagArgument (name : String)
  | malformedFlag (value name reason : String)
  | malformedSwitch (value name : String)
  | helpRequested
  | reportedErrors (path : String)
  /-- A failure whose whole wording comes from outside. -/
  | external (text : String)
  | within (context : String) (cause : Fault)
deriving Inhabited

namespace Fault

open Text

/-- The innermost fault. -/
def root : Fault → Fault
  | .within _ cause => cause.root
  | fault => fault

def atEndpoint (endpoint : Endpoint) : String := endpoint.node ++ ":" ++ endpoint.portlet

def channels (inputs outputs : Int) : String :=
  "\x7bIn:" ++ ofInt inputs ++ " Out:" ++ ofInt outputs ++ "\x7d"

def message : Fault → String
  | .unknownNode id => s!"node {quoted id}: unknown node"
  | .unknownInlet inlet node => s!"inlet {quoted inlet} of node {quoted node}: unknown portlet"
  | .unknownOutlet outlet node => s!"outlet {quoted outlet} of node {quoted node}: unknown portlet"
  | .nodeWithoutId => "graph: cannot add a node without id"
  | .duplicateNode id => s!"graph: node {quoted id} already exists"
  | .typesDiffer outletType source inletType sink =>
      s!"graph: cannot connect {outletType.name} outlet {atEndpoint source} to " ++
        s!"{inletType.name} inlet {atEndpoint sink}"
  | .inletTaken sink => s!"graph: signal inlet {atEndpoint sink} already has a source"
  | .unknownName portlet owner => s!"portlet {quoted portlet} in {owner}: unknown name"
  | .unnamedNodeType type => s!"node type {quoted type}: unknown variable name key"
  | .unnamedModule namespaceName =>
      s!"runtime module {quoted namespaceName}: unknown variable name key"
  | .protectedKey register key =>
      s!"{register} {quoted key}: key is protected and cannot be overwritten"
  | .unknownEntry register key => s!"{register} {quoted key}: unknown entry"
  | .unknownNodeType type node => s!"{quoted type} (node {quoted node}): unknown node type"
  | .missingDsp node type => s!"node {quoted node} ({type}): node type has no dsp"
  | .signatureMismatch node type inlet =>
      s!"node {quoted node} ({type}) inlet {quoted inlet}: message receiver signature mismatch"
  | .notMessageInlet node inlet => s!"io: inlet {node}:{inlet} is not a message inlet"
  | .notMessageOutlet node outlet => s!"io: outlet {node}:{outlet} is not a message outlet"
  | .missingState type => s!"node type {quoted type} returned no state"
  | .undeclaredState node type =>
      s!"state of node {quoted node} used before its type {quoted type} declared it"
  | .differentState node type =>
      s!"state of node {quoted node} does not match the declaration of type {quoted type}"
  | .declarationInExpression typeName => s!"inline expression contains a declaration ({typeName})"
  | .missingExpression node type =>
      s!"inlinable node {quoted node} ({type}) returned no expression"
  | .expressionWithoutOutlet node type =>
      s!"node {quoted node} ({type}) returned an expression but has no signal outlet"
  | .missingReceivers node type =>
      s!"node {quoted node} ({type}) has connected message inlets but no receivers"
  | .missingReceiver node type inlet =>
      s!"node {quoted node} ({type}) has no receiver for inlet {quoted inlet}"
  | .missingInitializer => "constant declared without initializer"
  | .unexpectedItem typeName => s!"render: unexpected sequence item {typeName}"
  | .missingMemberValue state member type =>
      s!"state {state}: member {member} of type {type} needs an initial value"
  | .unknownTarget name => s!"{quoted name}: unknown target"
  | .unsupportedBitDepth bits => s!"{ofInt bits}: unsupported bit depth"
  | .negativeChannelCount inputs outputs => s!"negative channel count {channels inputs outputs}"
  | .unserialisableNumber shown => s!"json: unsupported value: {shown}"
  | .unserialisableOffset =>
      "json: error calling MarshalJSON for type *time.Time: " ++
        "timezone hour outside of range [0,23]"
  | .unserialisableName pointer offset =>
      "json: unsupported value: jsontext: object member name must be a string within " ++
        s!"{quoted pointer} after offset {ofNat offset}"
  | .unknownArtifact kind => s!"unknown artifact kind {quoted kind}"
  | .missingArtifact kind => s!"{kind}: artifact missing"
  | .fileSystem operation path problem => s!"{operation} {path}: {problem.message}"
  | .malformedJson reason => s!"decode json patch: {reason}"
  | .malformedYaml reason => reason
  | .malformedEnvironment reason => reason
  | .missingPath => "no patch file was provided"
  | .unknownFormat format => s!"unknown patch format {quoted format}"
  | .unknownPortletType portlet type =>
      s!"portlet {quoted portlet} has unknown type {quoted type}"
  | .notAnInteger key value => s!"{key}: {quoted value} is not an integer"
  | .missingGraph => "no graph provided for validation"
  | .missingReporter => "no reporter provided for validation"
  | .invalidGraph issues => s!"validation failed with {ofNat issues} issue(s)"
  | .missingArtifacts => "backend: artifacts are nil"
  | .wrongTarget target => s!"backend: wasm emission requires assemblyscript code, got {target}"
  | .missingProgram name => s!"exec: {quoted name}: executable file not found in $PATH"
  | .failedProgram status => s!"backend: asc failed: exit status {ofNat status}"
  | .notAModule => "backend: asc output is not a wasm module"
  | .missingCommand => "missing command"
  | .unknownCommand name => s!"unknown command: {name}"
  | .wrongArgumentCount command requirement => s!"{command} requires {requirement}"
  | .unknownEmission name => s!"unknown emit format: {name}"
  | .missingOutputPath => "wasm emission requires -o"
  | .flagSyntax argument => s!"bad flag syntax: {argument}"
  | .undefinedFlag name => s!"flag provided but not defined: -{name}"
  | .missingFlagArgument name => s!"flag needs an argument: -{name}"
  | .malformedFlag value name reason =>
      s!"invalid value {quoted value} for flag -{name}: {reason}"
  | .malformedSwitch value name =>
      s!"invalid boolean value {quoted value} for -{name}: parse error"
  | .helpRequested => "flag: help requested"
  | .reportedErrors path => s!"errors reported while loading {path}"
  | .external text => text
  | .within context cause => s!"{context}: {cause.message}"

end Fault

/-- The result of an operation that can fail. -/
abbrev Outcome (α : Type u) := Except Fault α

/-- Puts the faults of an operation into a context. -/
def Outcome.inContext (context : String) (outcome : Outcome α) : Outcome α :=
  outcome.mapError (Fault.within context)

end Patchbay
