import Mathlib.Data.Sum.Order
import Mathlib.Data.String.Basic
import Patchbay.Text.NaturalOrder

namespace Patchbay.Text

/-! Sorting ids in their natural order.

The order is that of ranks: an integer ranks by its value in front of every other text.  Ids of one
rank are different spellings of one integer, and sorting leaves them in the order in which they were
given.  A sorted list is therefore determined by what it holds of each rank, in order, and that is all
that sorting depends on.
-/

variable {ids others more : List String} {left right id : String} {keep : String → Bool}

/-! ## Ranks -/

/-- What an id is sorted by. -/
def rank (id : String) : Int ⊕ₗ String :=
  match integer? id with
  | some value => toLex (.inl value)
  | none => toLex (.inr id)

theorem precedes_iff : precedes left right = true ↔ rank left < rank right := by
  unfold precedes rank
  cases integer? left with
  | none =>
      cases integer? right with
      | none => simp
      | some b => simp
  | some a =>
      cases integer? right with
      | none => simp
      | some b => simp

theorem notPrecedes_iff : (!precedes right left) = true ↔ rank left ≤ rank right := by
  rw [Bool.not_eq_true', ← Bool.not_eq_true, precedes_iff, not_lt]

/-- Ids of one rank are the same or spell the same integer. -/
theorem rank_eq_iff : rank left = rank right ↔
    left = right ∨ ∃ value, integer? left = some value ∧ integer? right = some value := by
  unfold rank
  cases spelledLeft : integer? left with
  | none =>
      cases spelledRight : integer? right with
      | none => simp
      | some b =>
          have apart : left ≠ right := fun same => by simp [same, spelledRight] at spelledLeft
          simp [apart]
  | some a =>
      cases spelledRight : integer? right with
      | none =>
          have apart : left ≠ right := fun same => by simp [same, spelledRight] at spelledLeft
          simp [apart]
      | some b =>
          simp only [EmbeddingLike.apply_eq_iff_eq, Sum.inl.injEq, Option.some.injEq]
          constructor
          · intro same
            exact .inr ⟨a, rfl, same.symm⟩
          · rintro (same | ⟨value, rfl, rfl⟩)
            · subst same
              exact Option.some.inj (spelledLeft.symm.trans spelledRight)
            · rfl

/-! ## Sorted lists -/

/-- In natural order, ids of one rank in any order. -/
def Sorted (ids : List String) : Prop := ids.Pairwise fun left right => rank left ≤ rank right

/-- What a list holds of one rank. -/
def ofRank (value : Int ⊕ₗ String) (ids : List String) : List String :=
  ids.filter fun id => rank id = value

/-- Two lists hold the same ids of every rank, in the same order. -/
def SameOrder (ids others : List String) : Prop := ∀ value, ofRank value ids = ofRank value others

theorem ofRank_cons (value : Int ⊕ₗ String) :
    ofRank value (id :: ids) = if rank id = value then id :: ofRank value ids else ofRank value ids := by
  simp [ofRank, List.filter_cons]

theorem ofRank_append (value : Int ⊕ₗ String) :
    ofRank value (ids ++ others) = ofRank value ids ++ ofRank value others :=
  List.filter_append ..

namespace SameOrder

theorem refl (ids : List String) : SameOrder ids ids := fun _ => rfl

theorem mem_iff (same : SameOrder ids others) : id ∈ ids ↔ id ∈ others := by
  have holds : ∀ list, id ∈ list ↔ id ∈ ofRank (rank id) list := by simp [ofRank]
  rw [holds ids, holds others, same]

theorem filter (same : SameOrder ids others) (keep : String → Bool) :
    SameOrder (ids.filter keep) (others.filter keep) := by
  intro value
  have swapped : ∀ list : List String, ofRank value (list.filter keep) =
      (ofRank value list).filter keep := fun list => List.filter_comm ..
  rw [swapped, swapped, same]

theorem append {later : List String} (first : SameOrder ids others) (second : SameOrder more later) :
    SameOrder (ids ++ more) (others ++ later) := by
  intro value
  rw [ofRank_append, ofRank_append, first, second]

end SameOrder

/-- A sorted list is determined by what it holds of each rank. -/
theorem Sorted.eq_of_sameOrder (sorted : Sorted ids) (sortedToo : Sorted others)
    (same : SameOrder ids others) : ids = others := by
  induction ids generalizing others with
  | nil =>
      cases others with
      | nil => rfl
      | cons head rest => exact absurd (same.mem_iff.mpr (List.mem_cons_self ..)) List.not_mem_nil
  | cons first left ih =>
      cases others with
      | nil => exact absurd (same.mem_iff.mp (List.mem_cons_self ..)) List.not_mem_nil
      | cons second right =>
          obtain ⟨least, sortedLeft⟩ := List.pairwise_cons.mp sorted
          obtain ⟨leastToo, sortedRight⟩ := List.pairwise_cons.mp sortedToo
          have below : rank first ≤ rank second := by
            rcases List.mem_cons.mp (same.mem_iff.mpr (List.mem_cons_self ..)) with equal | later
            · exact le_of_eq (congrArg rank equal.symm)
            · exact least second later
          have above : rank second ≤ rank first := by
            rcases List.mem_cons.mp (same.mem_iff.mp (List.mem_cons_self ..)) with equal | later
            · exact le_of_eq (congrArg rank equal.symm)
            · exact leastToo first later
          have sameRank := le_antisymm below above
          have heads := same (rank first)
          rw [ofRank_cons, ofRank_cons, if_pos rfl, if_pos sameRank.symm] at heads
          obtain ⟨rfl, _⟩ := List.cons.inj heads
          refine congrArg (first :: ·) (ih sortedLeft sortedRight fun value => ?_)
          have tails := same value
          rw [ofRank_cons, ofRank_cons] at tails
          split at tails
          · exact (List.cons.inj tails).2
          · exact tails

/-! ## Sorting -/

theorem notPrecedes_trans (a b c : String) (first : (!precedes b a) = true)
    (second : (!precedes c b) = true) : (!precedes c a) = true :=
  notPrecedes_iff.mpr (le_trans (notPrecedes_iff.mp first) (notPrecedes_iff.mp second))

theorem notPrecedes_total (a b : String) : (!precedes b a || !precedes a b) = true := by
  rw [Bool.or_eq_true, notPrecedes_iff, notPrecedes_iff]
  exact le_total ..

theorem sorted_sortIds (ids : List String) : Sorted (sortIds ids) :=
  (List.pairwise_mergeSort notPrecedes_trans notPrecedes_total ids).imp notPrecedes_iff.mp

/-- Sorting leaves ids of one rank in their order. -/
theorem sameOrder_sortIds (ids : List String) : SameOrder (sortIds ids) ids := by
  intro value
  have isRank : ∀ id ∈ ofRank value ids, rank id = value := by simp [ofRank]
  have level : (ofRank value ids).Pairwise fun left right => (!precedes right left) = true := by
    refine List.pairwise_of_forall_mem_list fun left isLeft right isRight => ?_
    exact notPrecedes_iff.mpr (le_of_eq ((isRank left isLeft).trans (isRank right isRight).symm))
  have kept : (ofRank value ids).Sublist (sortIds ids) :=
    List.sublist_mergeSort notPrecedes_trans notPrecedes_total level List.filter_sublist
  have within := kept.filter fun id => decide (rank id = value)
  rw [List.filter_eq_self.mpr fun id member => decide_eq_true (isRank id member)] at within
  have sameLength : (ofRank value ids).length = (ofRank value (sortIds ids)).length :=
    ((List.mergeSort_perm ids _).filter _).length_eq.symm
  exact (within.eq_of_length sameLength).symm

/-- Sorting depends on nothing but what a list holds of each rank. -/
theorem sortIds_congr (same : SameOrder ids others) : sortIds ids = sortIds others := by
  refine (sorted_sortIds ids).eq_of_sameOrder (sorted_sortIds others) fun value => ?_
  rw [sameOrder_sortIds ids, same, sameOrder_sortIds others]

theorem sortIds_filter (keep : String → Bool) : sortIds (ids.filter keep) = (sortIds ids).filter keep := by
  refine (sorted_sortIds _).eq_of_sameOrder ((sorted_sortIds ids).filter keep) fun value => ?_
  rw [sameOrder_sortIds, (sameOrder_sortIds ids).filter keep]

/-- No two different ids spell one integer. -/
def Unambiguous (ids : List String) : Prop :=
  ∀ left ∈ ids, ∀ right ∈ ids, ∀ value, integer? left = some value → integer? right = some value →
    left = right

/-- Ids that spell no integer cannot spell the same one. -/
theorem unambiguous_of_words (words : ∀ id ∈ ids, integer? id = none) : Unambiguous ids := by
  intro left isLeft right _ value spelled
  cases (words left isLeft).symm.trans spelled

theorem sameOrder_of_perm (unambiguous : Unambiguous ids) (perm : ids.Perm others) :
    SameOrder ids others := by
  intro value
  have any : ∀ list : List String, list.Pairwise fun _ _ => True :=
    fun _ => List.pairwise_of_forall fun _ _ => trivial
  refine List.Perm.eq_of_pairwise ?_ (any _) (any _) (perm.filter _)
  intro left right isLeft isRight _ _
  obtain ⟨inLeft, leftRank⟩ := List.mem_filter.mp isLeft
  obtain ⟨inRight, rightRank⟩ := List.mem_filter.mp isRight
  rw [decide_eq_true_eq] at leftRank rightRank
  rcases rank_eq_iff.mp (leftRank.trans rightRank.symm) with same | ⟨spelled, ofLeft, ofRight⟩
  · exact same
  · exact unambiguous left inLeft right (perm.mem_iff.mpr inRight) spelled ofLeft ofRight

/-! ## Texts -/

/-- Sorted lists of the same texts are the same. -/
theorem sortTexts_eq_of_perm (perm : (sortTexts ids).Perm (sortTexts others)) :
    sortTexts ids = sortTexts others := by
  have sorted : ∀ texts : List String, (sortTexts texts).Pairwise fun left right => left ≤ right := by
    intro texts
    refine (List.pairwise_mergeSort (fun left between right first second => ?_) (fun left right => ?_)
      texts).imp fun held => ?_
    · simp only [Bool.not_eq_true', decide_eq_false_iff_not, not_lt] at *
      exact first.trans second
    · simp only [Bool.or_eq_true, Bool.not_eq_true', decide_eq_false_iff_not, not_lt]
      exact le_total left right
    · exact not_lt.mp (of_decide_eq_false ((Bool.not_eq_true' _).mp held))
  exact List.Perm.eq_of_pairwise (fun _ _ _ _ => le_antisymm) (sorted ids) (sorted others) perm

end Patchbay.Text
