import Patchbay.Proofs.Outcome

namespace Patchbay

/-! Two runs side by side.

Runs are alike when they end in the same way: both with one fault, or both with results that a relation
holds between.  Alike steps make alike runs, so that two runs of a program are compared step by step,
and a relation that is equality makes the runs equal.
-/

namespace Outcome

inductive Alike {β : Type u} {γ : Type v} (related : β → γ → Prop) : Outcome β → Outcome γ → Prop where
  | fault (fault : Fault) : Alike related (.error fault) (.error fault)
  | result {left : β} {right : γ} (held : related left right) : Alike related (.ok left) (.ok right)

namespace Alike

section

variable {β : Type u} {γ : Type v} {related wider : β → γ → Prop} {left : Outcome β} {right : Outcome γ}

theorem pure {value : β} {twin : γ} (held : related value twin) :
    Alike related (Pure.pure value) (Pure.pure twin) :=
  .result held

theorem mono (alike : Alike related left right)
    (weaker : ∀ value twin, related value twin → wider value twin) : Alike wider left right := by
  cases alike with
  | fault fault => exact .fault fault
  | result held => exact .result (weaker _ _ held)

theorem of_ok (alike : Alike related left right) {value : β} (finished : left = .ok value) :
    ∃ twin, right = .ok twin ∧ related value twin := by
  subst finished
  cases alike with
  | result held => exact ⟨_, rfl, held⟩

theorem inContext (context : String) (alike : Alike related left right) :
    Alike related (Outcome.inContext context left) (Outcome.inContext context right) := by
  cases alike with
  | fault fault => exact .fault _
  | result held => exact .result held

theorem refl {outcome : Outcome β} {related : β → β → Prop} (reflexive : ∀ value, related value value) :
    Alike related outcome outcome := by
  cases outcome with
  | error fault => exact .fault fault
  | ok value => exact .result (reflexive value)

theorem of_eq {first second : Outcome β} (equal : first = second) : Alike Eq first second :=
  equal ▸ .refl fun _ => rfl

theorem eq {first second : Outcome β} (alike : Alike Eq first second) : first = second := by
  cases alike with
  | fault fault => rfl
  | result held => exact congrArg Except.ok held

end

theorem bind {β γ δ ε : Type u} {related : β → γ → Prop} {held : δ → ε → Prop} {left : Outcome β}
    {right : Outcome γ} {next : β → Outcome δ} {nextToo : γ → Outcome ε}
    (first : Alike related left right)
    (later : ∀ value twin, related value twin → Alike held (next value) (nextToo twin)) :
    Alike held (left >>= next) (right >>= nextToo) := by
  cases first with
  | fault fault => exact .fault fault
  | result given => exact later _ _ given

/-- `bind` where the relation in between has to be told. -/
theorem via {β γ δ ε : Type u} (related : β → γ → Prop) {held : δ → ε → Prop} {left : Outcome β}
    {right : Outcome γ} {next : β → Outcome δ} {nextToo : γ → Outcome ε}
    (first : Alike related left right)
    (later : ∀ value twin, related value twin → Alike held (next value) (nextToo twin)) :
    Alike held (left >>= next) (right >>= nextToo) :=
  first.bind later

/-- Both runs take a step that is the same for them. -/
theorem bind_same {β δ ε : Type u} {held : δ → ε → Prop} {same : Outcome β} {next : β → Outcome δ}
    {nextToo : β → Outcome ε} (later : ∀ value, same = .ok value → Alike held (next value) (nextToo value)) :
    Alike held (same >>= next) (same >>= nextToo) := by
  cases same with
  | error fault => exact .fault fault
  | ok value => exact later value rfl

/-- Runs over two lists are alike when their steps on paired items are. -/
theorem foldlM {α : Type v} {ζ : Type w} {β γ : Type u} {paired : α → ζ → Prop}
    {related : β → γ → Prop} {step : β → α → Outcome β} {stepToo : γ → ζ → Outcome γ}
    {items : List α} {others : List ζ} {start : β} {startToo : γ}
    (pairs : List.Forall₂ paired items others) (begun : related start startToo)
    (steps : ∀ state twin item other, item ∈ items → related state twin → paired item other →
      Alike related (step state item) (stepToo twin other)) :
    Alike related (items.foldlM step start) (others.foldlM stepToo startToo) := by
  induction pairs generalizing start startToo with
  | nil => exact .pure begun
  | cons pair _ ih =>
      rw [List.foldlM_cons, List.foldlM_cons]
      refine (steps _ _ _ _ (List.mem_cons_self ..) begun pair).bind fun state twin held => ?_
      exact ih held fun state twin item other later => steps state twin item other
        (List.mem_cons_of_mem _ later)

theorem foldlM_same {α : Type v} {β γ : Type u} {related : β → γ → Prop} {step : β → α → Outcome β}
    {stepToo : γ → α → Outcome γ} {items : List α} {start : β} {startToo : γ}
    (begun : related start startToo) (steps : ∀ state twin item, item ∈ items → related state twin →
      Alike related (step state item) (stepToo twin item)) :
    Alike related (items.foldlM step start) (items.foldlM stepToo startToo) :=
  .foldlM (List.forall₂_same.mpr fun _ _ => rfl) begun
    fun state twin item _ member held same => same ▸ steps state twin item member held

theorem mapM {α : Type v} {β γ : Type u} {related : β → γ → Prop} {step : α → Outcome β}
    {stepToo : α → Outcome γ} {items : List α}
    (steps : ∀ item ∈ items, Alike related (step item) (stepToo item)) :
    Alike (List.Forall₂ related) (items.mapM step) (items.mapM stepToo) := by
  induction items with
  | nil => exact .pure .nil
  | cons item rest ih =>
      rw [List.mapM_cons, List.mapM_cons]
      refine (steps item (List.mem_cons_self ..)).bind fun value twin held => ?_
      have later := ih fun other member => steps other (List.mem_cons_of_mem _ member)
      exact later.bind fun values twins all => .pure (.cons held all)

end Alike

end Outcome

end Patchbay
