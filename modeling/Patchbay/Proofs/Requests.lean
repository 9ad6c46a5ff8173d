import Patchbay.Proofs.NodeType.Sound
import Patchbay.Proofs.Subjects

namespace Patchbay.NameIndex

/-! Sequences of requests to an index.

Passes ask an index for names, register modules with it and point it at other graphs, in any order.  A
request that is refused changes nothing.  A name that is given is the one that its subject had from the
start, whatever was asked before, and what the index has handed out in the end is what was given.
-/

inductive Request where
  | setGraph (graph : Graph)
  | registerModule (namespaceName : String)
  | enter (space : NameSpace)
  | read (space : NameSpace) (key : String)
  | enableState (node : String)

/-- Serves a request.  A name that is given comes with what it is the name of. -/
def serve (index : NameIndex) : Request → Outcome (List (Subject × String) × NameIndex)
  | .setGraph graph => .ok ([], index.setGraph graph)
  | .registerModule namespaceName => .ok ([], index.registerModule namespaceName)
  | .enter space => do
      let entered ← index.enter space
      return ([], entered)
  | .read space key => do
      let (name, after) ← index.read space key
      return ([(.handle space key, name)], after)
  | .enableState node => do
      let entered ← index.enterNode node
      return ([(.state node, stateName node)], entered.enableState node)

/-- Serves requests in a row, and lists the names that were given. -/
def serveAll (index : NameIndex) : List Request → List (Subject × String) × NameIndex
  | [] => ([], index)
  | request :: rest =>
      match index.serve request with
      | .error _ => index.serveAll rest
      | .ok (given, after) => (given ++ (after.serveAll rest).1, (after.serveAll rest).2)

variable {index before between after : NameIndex} {request : Request}
  {handles : List (NameSpace × String)} {given more : List (Subject × String)}

/-! ## Names that are given -/

/-- An index after names were given, with the names that the index gives to subjects. -/
structure Gives (before after : NameIndex) (given : List (Subject × String)) : Prop where
  labels : after.labels = before.labels
  tidy : before.Tidy → after.Tidy
  named : ∀ entry ∈ given, entry.1.IsLabelled before ∧ before.nameFor entry.1 = entry.2
  handed : ∀ subject, after.HandedOut subject ↔
    subject ∈ given.map Prod.fst ∨ before.HandedOut subject

namespace Gives

theorem refl (index : NameIndex) : Gives index index [] := ⟨rfl, id, by simp, by simp⟩

theorem trans (first : Gives before between given) (second : Gives between after more) :
    Gives before after (given ++ more) where
  labels := second.labels.trans first.labels
  tidy held := second.tidy (first.tidy held)
  named := by
    refine List.forall_mem_append.mpr ⟨first.named, fun entry member => ?_⟩
    obtain ⟨labelled, named⟩ := second.named entry member
    exact ⟨(Subject.isLabelled_congr first.labels).mp labelled, nameFor_congr first.labels ▸ named⟩
  handed subject := by
    rw [second.handed, first.handed, List.map_append, List.mem_append]
    tauto

/-- A change that hands nothing out. -/
theorem silent (labels : after.labels = before.labels) (spaces : after.spaces = before.spaces)
    (states : after.states = before.states) : Gives before after [] where
  labels := labels
  tidy held := ⟨spaces ▸ held.spaces, spaces ▸ held.keys, states ▸ held.states⟩
  named := by simp
  handed subject := by
    cases subject <;> simp [HandedOut, NameIndex.handed, spaces, states]

theorem of_took (took : Took before after []) : Gives before after [] :=
  silent took.labels took.spaces took.states

theorem enableState (index : NameIndex) (node : String) :
    Gives index (index.enableState node) [(.state node, stateName node)] where
  labels := (Akin.enableState index node).labels
  tidy := Tidy.enableState
  named := by simp [Subject.IsLabelled, nameFor]
  handed subject := by
    cases subject <;> simp [HandedOut, mem_states_enableState]

theorem of_read {space : NameSpace} {key name : String}
    (read : index.read space key = .ok (name, after)) :
    Gives index after [(.handle space key, name)] := by
  obtain ⟨rfl, took⟩ := read_took read
  refine ⟨took.labels, took.tidy, ?_, fun subject => ?_⟩
  · refine List.forall_mem_singleton.mpr ⟨?_, rfl⟩
    have opened : index.Opens space := by
      by_contra closed
      rw [read_eq_error key closed] at read
      cases read
    cases space with
    | nodeType type => exact opened
    | _ => trivial
  · cases subject with
    | handle other key => simp [HandedOut, took.mem_handed_iff]
    | state node => simp [HandedOut, took.states]

end Gives

theorem serve_gives (served : index.serve request = .ok (given, after)) : Gives index after given := by
  cases request with
  | setGraph graph =>
      cases served
      exact .silent rfl rfl rfl
  | registerModule namespaceName =>
      cases served
      unfold registerModule
      split
      · exact .refl index
      · exact .silent rfl rfl rfl
  | enter space =>
      obtain ⟨entered, entering, finished⟩ := Outcome.bind_eq_ok_iff.mp served
      cases finished
      exact .of_took (enter_took entering)
  | read space key =>
      obtain ⟨⟨name, _⟩, read, finished⟩ := Outcome.bind_eq_ok_iff.mp served
      cases finished
      exact .of_read read
  | enableState node =>
      obtain ⟨entered, entering, finished⟩ := Outcome.bind_eq_ok_iff.mp served
      cases finished
      exact (Gives.of_took (enterNode_took entering)).trans (.enableState entered node)

theorem serveAll_gives (index : NameIndex) (requests : List Request) :
    Gives index (index.serveAll requests).2 (index.serveAll requests).1 := by
  induction requests generalizing index with
  | nil => exact .refl index
  | cons request rest ih =>
      unfold serveAll
      split
      · exact ih index
      · next served => exact (serve_gives served).trans (ih _)

/-! ## All names -/

/-- Everything whose name was handed out. -/
def subjects (index : NameIndex) : List Subject :=
  (index.spaces.flatMap fun entry => entry.2.map (.handle entry.1)) ++ index.states.map .state

theorem mem_subjects_iff {subject : Subject} : subject ∈ index.subjects ↔ index.HandedOut subject := by
  unfold subjects
  cases subject <;> simp [HandedOut, handed, handedIn]

theorem Tidy.nodup_subjects (tidy : index.Tidy) : index.subjects.Nodup := by
  refine List.nodup_append.mpr ⟨Subject.nodup_handles tidy.spaces tidy.keys,
    tidy.states.map fun _ _ => Subject.state.inj, ?_⟩
  intro subject isHandle other isState same
  obtain ⟨_, _, isKey⟩ := List.mem_flatMap.mp isHandle
  obtain ⟨_, _, rfl⟩ := List.mem_map.mp isKey
  obtain ⟨_, _, rfl⟩ := List.mem_map.mp isState
  cases same

theorem allNames_perm : index.allNames.Perm (index.subjects.map index.nameFor) := by
  refine (List.mergeSort_perm _ _).trans (.of_eq ?_)
  simp only [subjects, List.map_append, List.map_flatMap, List.map_map]
  rfl

theorem Tidy.nodup_allNames (tidy : index.Tidy) (tells : index.Tells index.HandedOut) :
    index.allNames.Nodup := by
  refine allNames_perm.nodup_iff.mpr (tidy.nodup_subjects.map_on fun left isLeft right isRight => ?_)
  exact tells (mem_subjects_iff.mp isLeft) (mem_subjects_iff.mp isRight)

/-- An index from which nothing was read. -/
def fresh (graph : Graph) (catalog : Catalog) : NameIndex := { graph, labels := catalog.labels }

/-- Where no two types go by one label, two names that were given, be it to one sequence of requests or
to two, are the same when they name the same thing and differ when they do not.  So no name is handed
out twice. -/
theorem given_names_tell_subjects :
    Catalog.standard.labels.values.Nodup ∧
    ∀ (catalog : Catalog), catalog.labels.values.Nodup → ∀ (graph other : Graph)
      (requests more : List Request),
      (∀ left ∈ ((fresh graph catalog).serveAll requests).1,
        ∀ right ∈ ((fresh other catalog).serveAll more).1, left.2 = right.2 ↔ left.1 = right.1) ∧
      ((fresh graph catalog).serveAll requests).2.allNames.Nodup ∧
      ∀ name, name ∈ ((fresh graph catalog).serveAll requests).2.allNames ↔
        ∃ subject, (subject, name) ∈ ((fresh graph catalog).serveAll requests).1 := by
  refine ⟨by decide, fun catalog distinct graph other requests more => ?_⟩
  have gives := serveAll_gives (fresh graph catalog) requests
  have others := serveAll_gives (fresh other catalog) more
  have sameNames : (fresh other catalog).nameFor = (fresh graph catalog).nameFor := nameFor_congr rfl
  have handedOut : ∀ subject, ((fresh graph catalog).serveAll requests).2.HandedOut subject ↔
      ∃ name, (subject, name) ∈ ((fresh graph catalog).serveAll requests).1 := by
    intro subject
    have none : ¬(fresh graph catalog).HandedOut subject := by
      cases subject <;> simp [HandedOut, handed, handedIn, fresh]
    simp [gives.handed, none]
  have tells : ∀ left right, left.IsLabelled (fresh graph catalog) →
      right.IsLabelled (fresh graph catalog) →
      (fresh graph catalog).nameFor left = (fresh graph catalog).nameFor right → left = right :=
    fun _ _ => nameFor_inj distinct
  refine ⟨fun left isLeft right isRight => ?_, ?_, fun name => ?_⟩
  · obtain ⟨leftLabelled, leftNamed⟩ := gives.named left isLeft
    obtain ⟨rightLabelled, rightNamed⟩ := others.named right isRight
    rw [sameNames] at rightNamed
    rw [← leftNamed, ← rightNamed]
    exact ⟨tells _ _ leftLabelled ((Subject.isLabelled_congr rfl).mp rightLabelled),
      congrArg (fresh graph catalog).nameFor⟩
  · refine (gives.tidy ⟨.nil, by simp [fresh], .nil⟩).nodup_allNames fun left right isLeft isRight same => ?_
    obtain ⟨_, leftGiven⟩ := (handedOut left).mp isLeft
    obtain ⟨_, rightGiven⟩ := (handedOut right).mp isRight
    rw [nameFor_congr gives.labels] at same
    exact tells left right (gives.named _ leftGiven).1 (gives.named _ rightGiven).1 same
  · rw [mem_allNames_iff, nameFor_congr gives.labels]
    constructor
    · rintro ⟨subject, isHanded, rfl⟩
      obtain ⟨name, isGiven⟩ := (handedOut subject).mp isHanded
      exact ⟨subject, (gives.named _ isGiven).2 ▸ isGiven⟩
    · rintro ⟨subject, isGiven⟩
      exact ⟨subject, (handedOut subject).mpr ⟨name, isGiven⟩, (gives.named _ isGiven).2⟩

/-! A node with an underscore in its id, a module that is asked for before it is registered, and a node
that is asked for again after its graph was taken away. -/

def lookalikeGraph : Graph := ⟨.ofList [
  ("a", some { id := "a", type := "osc~" }), ("a_outs", some { id := "a_outs", type := "osc~" })]⟩

def lookalikeRequests : List Request := [
  .read (.outlets "a") "outs_b", .read (.outlets "a_outs") "b", .read (.module "m") "x",
  .registerModule "m", .read (.module "m") "x", .setGraph .empty, .read (.outlets "a") "outs_b",
  .read (.outlets "d") "b", .enableState "a", .read (.nodeType "osc~") "a"]

theorem lookalike_served : ((fresh lookalikeGraph .standard).serveAll lookalikeRequests).1 = [
    (.handle (.outlets "a") "outs_b", "N_a_outs_outs$5f$b"),
    (.handle (.outlets "a_outs") "b", "N_a$5f$outs_outs_b"),
    (.handle (.module "m") "x", "G_m_x"),
    (.handle (.outlets "a") "outs_b", "N_a_outs_outs$5f$b"),
    (.state "a", "N_a_state"),
    (.handle (.nodeType "osc~") "a", "NT_osc$7e$_a")] := by
  rfl

/-- The node that is asked for again has the name that it had; the five things that were named have five
names. -/
theorem given_names_tell_lookalikes :
    ((fresh lookalikeGraph .standard).serveAll lookalikeRequests).1.map Prod.snd =
      ["N_a_outs_outs$5f$b", "N_a$5f$outs_outs_b", "G_m_x", "N_a_outs_outs$5f$b", "N_a_state",
        "NT_osc$7e$_a"] ∧
    ((fresh lookalikeGraph .standard).serveAll lookalikeRequests).2.allNames.Nodup ∧
    "N_a_outs_outs$5f$b" ∈ ((fresh lookalikeGraph .standard).serveAll lookalikeRequests).2.allNames := by
  obtain ⟨distinct, tells⟩ := given_names_tell_subjects
  obtain ⟨_, once, handedOut⟩ :=
    tells .standard distinct lookalikeGraph .empty lookalikeRequests []
  refine ⟨by rw [lookalike_served]; rfl, once, (handedOut _).mpr ⟨.handle (.outlets "a") "outs_b", ?_⟩⟩
  simp [lookalike_served]

end Patchbay.NameIndex
