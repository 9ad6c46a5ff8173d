import Mathlib.Data.List.Forall2
import Patchbay.Fault

namespace Patchbay.Outcome

/-! Successful runs of operations that can fail, taken apart into the runs of their steps. -/

variable {α : Type u} {β γ : Type v} {first : Outcome β} {next : β → Outcome γ} {result : γ}

theorem bind_eq_ok_iff : (first >>= next) = .ok result ↔
    ∃ value, first = .ok value ∧ next value = .ok result := by
  cases first with
  | error fault => simp [bind, Except.bind]
  | ok value => simp [bind, Except.bind]

theorem pure_eq_ok_iff {value : γ} : (pure value : Outcome γ) = .ok result ↔ value = result := by
  simp [pure, Except.pure]

theorem pure_bind_eq_ok_iff {value : β} : (pure value >>= next) = .ok result ↔
    ∃ given, given = value ∧ next given = .ok result := by
  simp [bind, Except.bind, pure, Except.pure]

theorem ite_bind {condition : Prop} [Decidable condition] {second : Outcome β} :
    (if condition then first >>= next else second >>= next) =
      (if condition then first else second) >>= next := by
  split <;> rfl

/-- What every step keeps, a successful run over a list keeps; the invariant may speak about the
items that were worked off. -/
theorem foldlM_invariant {step : β → α → Outcome β} {items : List α} {initial final : β}
    (invariant : List α → β → Prop) (start : invariant [] initial)
    (kept : ∀ done item state after, item ∈ items → invariant done state →
      step state item = .ok after → invariant (done ++ [item]) after)
    (run : items.foldlM step initial = .ok final) : invariant items final := by
  suffices general : ∀ (rest done : List α) (state : β), (∀ item ∈ rest, item ∈ items) →
      invariant done state → rest.foldlM step state = .ok final →
      invariant (done ++ rest) final from
    general items [] initial (fun _ member => member) start run
  intro rest
  induction rest with
  | nil =>
      intro done state _ holds finished
      cases finished
      simpa using holds
  | cons item rest ih =>
      intro done state within holds continued
      rw [List.foldlM_cons, bind_eq_ok_iff] at continued
      obtain ⟨after, stepped, remaining⟩ := continued
      have extended := kept done item state after (within item (by simp)) holds stepped
      have finished := ih (done ++ [item]) after
        (fun other member => within other (List.mem_cons_of_mem _ member)) extended remaining
      simpa using finished

/-- The operation succeeds with a result of which something holds. -/
def Yields (outcome : Outcome γ) (holds : γ → Prop) : Prop :=
  ∃ value, outcome = .ok value ∧ holds value

theorem Yields.bind {held : β → Prop} {holds : γ → Prop} (ran : Yields first held)
    (continued : ∀ value, held value → Yields (next value) holds) :
    Yields (first >>= next) holds := by
  obtain ⟨value, finished, valueHeld⟩ := ran
  subst finished
  exact continued value valueHeld

theorem yields_pure {holds : γ → Prop} {value : γ} (held : holds value) :
    Yields (pure value) holds :=
  ⟨value, rfl, held⟩

theorem Yields.mono {held holds : γ → Prop} {outcome : Outcome γ} (ran : Yields outcome held)
    (weaker : ∀ value, held value → holds value) : Yields outcome holds := by
  obtain ⟨value, finished, valueHeld⟩ := ran
  exact ⟨value, finished, weaker value valueHeld⟩

/-- A run over a list succeeds when every step does, as long as the invariant lasts. -/
theorem yields_foldlM {step : β → α → Outcome β} {items : List α} {initial : β}
    (invariant : List α → β → Prop) (start : invariant [] initial)
    (steps : ∀ done item rest state, items = done ++ item :: rest → invariant done state →
      Yields (step state item) (invariant (done ++ [item]))) :
    Yields (items.foldlM step initial) (invariant items) := by
  suffices general : ∀ (rest done : List α) (state : β), items = done ++ rest →
      invariant done state → Yields (rest.foldlM step state) (invariant items) from
    general items [] initial rfl start
  intro rest
  induction rest with
  | nil =>
      intro done state split holds
      rw [List.append_nil] at split
      exact yields_pure (split ▸ holds)
  | cons item rest ih =>
      intro done state split holds
      rw [List.foldlM_cons]
      refine (steps done item rest state split holds).bind fun after held => ?_
      exact ih (done ++ [item]) after (by simpa using split) held

theorem yields_mapM {step : α → Outcome β} {items : List α} {related : α → β → Prop}
    (steps : ∀ item ∈ items, Yields (step item) (related item)) :
    Yields (items.mapM step) (List.Forall₂ related items) := by
  induction items with
  | nil => exact yields_pure .nil
  | cons item rest ih =>
      rw [List.mapM_cons]
      refine (steps item (by simp)).bind fun value held => ?_
      have later := ih fun other member => steps other (List.mem_cons_of_mem _ member)
      exact later.bind fun values heldLater => yields_pure (.cons held heldLater)

/-- How an operation can end: with a fault that is accounted for, or with a result of which something
holds. -/
def Ends (outcome : Outcome γ) (refused : Fault → Prop) (holds : γ → Prop) : Prop :=
  match outcome with
  | .ok value => holds value
  | .error fault => refused fault

section Ends

variable {refused : Fault → Prop} {held : β → Prop} {holds : γ → Prop} {outcome : Outcome γ}

theorem ends_pure {value : γ} (satisfied : holds value) : Ends (pure value) refused holds :=
  satisfied

theorem Ends.of_ok (ends : Ends outcome refused holds) (finished : outcome = .ok result) :
    holds result := by
  rw [finished] at ends
  exact ends

theorem Ends.of_error {fault : Fault} (ends : Ends outcome refused holds)
    (failed : outcome = .error fault) : refused fault := by
  rw [failed] at ends
  exact ends

theorem Ends.bind (ran : Ends first refused held)
    (continued : ∀ value, first = .ok value → held value → Ends (next value) refused holds) :
    Ends (first >>= next) refused holds := by
  cases first with
  | error fault => exact ran
  | ok value => exact continued value rfl ran

theorem Ends.step {value : β} (ran : first = .ok value)
    (continued : Ends (next value) refused holds) : Ends (first >>= next) refused holds := by
  rw [ran]
  exact continued

theorem Yields.ends (yields : Yields outcome holds) : Ends outcome refused holds := by
  obtain ⟨value, finished, satisfied⟩ := yields
  rw [finished]
  exact satisfied

theorem Ends.mono {weaker : Fault → Prop} {looser : γ → Prop} (ends : Ends outcome refused holds)
    (faults : ∀ fault, refused fault → weaker fault)
    (results : ∀ value, outcome = .ok value → holds value → looser value) :
    Ends outcome weaker looser := by
  cases outcome with
  | error fault => exact faults fault ends
  | ok value => exact results value rfl ends

theorem Ends.yields (ends : Ends outcome refused holds) (never : ∀ fault, ¬ refused fault) :
    Yields outcome holds := by
  cases outcome with
  | error fault => exact absurd ends (never fault)
  | ok value => exact ⟨value, rfl, ends⟩

theorem Ends.inContext {context : String} {wrapped : Fault → Prop}
    (ends : Ends outcome refused holds)
    (faults : ∀ fault, refused fault → wrapped (.within context fault)) :
    Ends (outcome.inContext context) wrapped holds := by
  cases outcome with
  | error fault => exact faults fault ends
  | ok value => exact ends

/-- How a run over a list ends, as long as the invariant lasts. -/
theorem ends_foldlM {step : β → α → Outcome β} {items : List α} {initial : β}
    (invariant : List α → β → Prop) (start : invariant [] initial)
    (steps : ∀ done item rest state, items = done ++ item :: rest → invariant done state →
      Ends (step state item) refused (invariant (done ++ [item]))) :
    Ends (items.foldlM step initial) refused (invariant items) := by
  suffices general : ∀ (rest done : List α) (state : β), items = done ++ rest →
      invariant done state → Ends (rest.foldlM step state) refused (invariant items) from
    general items [] initial rfl start
  intro rest
  induction rest with
  | nil =>
      intro done state split kept
      rw [List.append_nil] at split
      exact ends_pure (split ▸ kept)
  | cons item rest ih =>
      intro done state split kept
      rw [List.foldlM_cons]
      refine (steps done item rest state split kept).bind fun after _ keptAfter => ?_
      exact ih (done ++ [item]) after (by simpa using split) keptAfter

/-- Whatever the operation gives, something holds of it. -/
abbrev Ensures (outcome : Outcome γ) (holds : γ → Prop) : Prop := Ends outcome (fun _ => True) holds

theorem ensures_of (given : ∀ value, outcome = .ok value → holds value) : Ensures outcome holds := by
  cases outcome with
  | error fault => trivial
  | ok value => exact given value rfl

/-- A first step of which nothing has to be known but its result. -/
theorem ensures_bind (continued : ∀ value, first = .ok value → Ensures (next value) holds) :
    Ensures (first >>= next) holds := by
  cases first with
  | error fault => trivial
  | ok value => exact continued value rfl

theorem Ensures.inContext {context : String} (ensured : Ensures outcome holds) :
    Ensures (outcome.inContext context) holds :=
  Ends.inContext ensured fun _ _ => trivial

theorem Ensures.foldlM {step : β → α → Outcome β} {items : List α} {initial : β} (begun : held initial)
    (steps : ∀ state, ∀ item ∈ items, held state → Ensures (step state item) held) :
    Ensures (items.foldlM step initial) held :=
  ends_foldlM (fun _ => held) begun fun _ item _ state split given =>
    steps state item (split ▸ List.mem_append_right _ (List.mem_cons_self ..)) given

theorem Ensures.mapM {step : α → Outcome β} {items : List α}
    (steps : ∀ item ∈ items, Ensures (step item) held) :
    Ensures (items.mapM step) fun results => ∀ result ∈ results, held result := by
  induction items with
  | nil => exact ends_pure (by simp)
  | cons item rest ih =>
      rw [List.mapM_cons]
      refine (steps item (by simp)).bind fun value _ given => ?_
      have later := ih fun other member => steps other (List.mem_cons_of_mem _ member)
      exact later.bind fun values _ all => ends_pure (List.forall_mem_cons.mpr ⟨given, all⟩)

end Ends

section Paired

variable {related : α → β → Prop} {items : List α} {results : List β}

theorem exists_result (paired : List.Forall₂ related items results) {item : α}
    (member : item ∈ items) : ∃ result ∈ results, related item result := by
  induction paired with
  | nil => cases member
  | cons held _ ih =>
      rcases List.mem_cons.mp member with rfl | later
      · exact ⟨_, List.mem_cons_self .., held⟩
      · obtain ⟨result, found, heldLater⟩ := ih later
        exact ⟨result, List.mem_cons_of_mem _ found, heldLater⟩

theorem exists_item (paired : List.Forall₂ related items results) {result : β}
    (member : result ∈ results) : ∃ item ∈ items, related item result := by
  induction paired with
  | nil => cases member
  | cons held _ ih =>
      rcases List.mem_cons.mp member with rfl | later
      · exact ⟨_, List.mem_cons_self .., held⟩
      · obtain ⟨item, found, heldLater⟩ := ih later
        exact ⟨item, List.mem_cons_of_mem _ found, heldLater⟩

theorem pairwise_results (paired : List.Forall₂ related items results)
    {before : α → α → Prop} {after : β → β → Prop} (apart : items.Pairwise before)
    (transfer : ∀ {left right leftResult rightResult}, related left leftResult →
      related right rightResult → before left right → after leftResult rightResult) :
    results.Pairwise after := by
  induction paired with
  | nil => exact .nil
  | cons held paired ih =>
      obtain ⟨first, rest⟩ := List.pairwise_cons.mp apart
      refine .cons (fun result member => ?_) (ih rest)
      obtain ⟨item, found, heldLater⟩ := exists_item paired member
      exact transfer held heldLater (first item found)

end Paired

end Patchbay.Outcome
