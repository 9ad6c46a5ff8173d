namespace Patchbay

/-! Progress of a walk that lists members of a finite collection: what is still to be listed.
Listing a member that was not listed before makes it smaller, which is why the walks end.
-/

theorem length_filter_lt {α : Type u} {keep drop : α → Bool} {items : List α} {item : α}
    (member : item ∈ items) (kept : keep item = true) (dropped : drop item = false)
    (weaker : ∀ other, drop other = true → keep other = true) :
    (items.filter drop).length < (items.filter keep).length := by
  induction items with
  | nil => cases member
  | cons head tail ih =>
      have shorter : (tail.filter drop).length ≤ (tail.filter keep).length := by
        clear ih member
        induction tail with
        | nil => simp
        | cons next rest ih =>
            by_cases held : drop next = true
            · simp [held, weaker next held, ih]
            · by_cases wider : keep next = true <;> simp [held, wider] <;> omega
      rcases List.mem_cons.mp member with same | later
      · subst same
        simp [kept, dropped]
        omega
      · have less := ih later
        by_cases held : drop head = true
        · simp [held, weaker head held]
          omega
        · by_cases wider : keep head = true <;> simp [held, wider] <;> omega

/-- How many members of a collection are not listed yet. -/
def remaining (members listed : List String) : Nat :=
  (members.filter fun member => !listed.contains member).length

theorem remaining_lt {members before after : List String} {id : String}
    (present : id ∈ members) (fresh : id ∉ before) (added : id ∈ after)
    (grown : ∀ other, other ∈ before → other ∈ after) :
    remaining members after < remaining members before := by
  refine length_filter_lt present (by simpa using fresh) (by simpa using added) ?_
  intro other absent
  simp only [Bool.not_eq_true', List.contains_eq_mem, decide_eq_false_iff_not] at absent ⊢
  exact fun earlier => absent (grown other earlier)

end Patchbay
