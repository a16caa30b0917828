import StepFlow.Layout.Order

/-!
# The order of the layout is stable

The layout lists the nodes by height, and nodes of one height as they were given. There is just one
such list, so the layout can be recognized without sorting.

## Main definitions

* `IsLayout`: a list of the given nodes in the order of the layout.

## Main statements

* `isLayout_iff`: the one list in the order of the layout.
-/

namespace StepFlow

/-- Whether an order lists the given nodes from top to bottom, those of one height in their given
order. -/
structure IsLayout (nodes order : List Node) : Prop where
  ascending : order.Pairwise fun a b => a.position.height ≤ b.position.height
  ties : ∀ height, (order.filter fun n => n.position.height = height) =
    nodes.filter fun n => n.position.height = height

theorem isLayout_layoutOrder (nodes : List Node) : IsLayout nodes (layoutOrder nodes) := by
  let above : Node → Node → Bool := fun a b => a.position.height ≤ b.position.height
  have htrans : ∀ a b c, above a b = true → above b c = true → above a c = true := by
    simp only [above, decide_eq_true_eq]
    exact fun a b c => Int.le_trans
  have htotal : ∀ a b, (above a b || above b a) = true := by
    simp only [above, Bool.or_eq_true, decide_eq_true_eq]
    exact fun a b => Int.le_total _ _
  refine ⟨(List.pairwise_mergeSort htrans htotal nodes).imp of_decide_eq_true, fun height => ?_⟩
  let level : Node → Bool := fun n => n.position.height = height
  -- nodes of one height are in order already, so sorting leaves them as they are
  have hlevel : (nodes.filter level).Pairwise fun a b => above a b = true := by
    refine List.pairwise_of_forall_mem_list fun a ha b hb => ?_
    have ha : a.position.height = height := of_decide_eq_true (List.mem_filter.1 ha).2
    have hb : b.position.height = height := of_decide_eq_true (List.mem_filter.1 hb).2
    simp [above, ha, hb]
  have hsub := (List.sublist_mergeSort htrans htotal hlevel List.filter_sublist).filter level
  rw [List.filter_filter] at hsub
  simp only [Bool.and_self] at hsub
  have hlength : (nodes.filter level).length = ((layoutOrder nodes).filter level).length :=
    ((List.mergeSort_perm nodes above).filter level).length_eq.symm
  exact (hsub.eq_of_length hlength).symm

section

variable {α : Type} {key : α → Int} {l l' : List α}

theorem mem_iff_of_ties (hties : ∀ k, (l.filter fun a => key a = k) = l'.filter fun a => key a = k)
    (a : α) : a ∈ l ↔ a ∈ l' := by
  have hiff : a ∈ (l.filter fun b => key b = key a) ↔ a ∈ l'.filter fun b => key b = key a := by
    rw [hties]
  simpa using hiff

/-- Two ascending lists with the same members of each key in the same order are the same. -/
theorem eq_of_ascending (hl : l.Pairwise fun a b => key a ≤ key b)
    (hl' : l'.Pairwise fun a b => key a ≤ key b)
    (hties : ∀ k, (l.filter fun a => key a = k) = l'.filter fun a => key a = k) : l = l' := by
  induction l generalizing l' with
  | nil =>
    refine (List.eq_nil_iff_forall_not_mem.2 fun a ha => ?_).symm
    exact List.not_mem_nil ((mem_iff_of_ties hties a).2 ha)
  | cons a l ih =>
    cases l' with
    | nil => exact absurd ((mem_iff_of_ties hties a).1 List.mem_cons_self) List.not_mem_nil
    | cons b l' =>
      obtain ⟨hfirst, htail⟩ := List.pairwise_cons.1 hl
      obtain ⟨hfirst', htail'⟩ := List.pairwise_cons.1 hl'
      -- both first members have the least key, so they are the first ones with that key
      have hab : key a ≤ key b := by
        rcases List.mem_cons.1 ((mem_iff_of_ties hties b).2 List.mem_cons_self) with rfl | hb
        · exact Int.le_refl _
        · exact hfirst b hb
      have hba : key b ≤ key a := by
        rcases List.mem_cons.1 ((mem_iff_of_ties hties a).1 List.mem_cons_self) with rfl | ha
        · exact Int.le_refl _
        · exact hfirst' a ha
      have hkey : key b = key a := Int.le_antisymm hba hab
      have hsame := hties (key a)
      simp only [hkey, List.filter_cons, decide_true, if_true, List.cons.injEq] at hsame
      obtain ⟨rfl, hlevel⟩ := hsame
      have hrest : ∀ k, (l.filter fun a => key a = k) = l'.filter fun a => key a = k := by
        intro k
        by_cases hk : key a = k
        · rw [← hk]
          exact hlevel
        · have hsame := hties k
          simpa only [List.filter_cons, hk, decide_false, Bool.false_eq_true, if_false] using hsame
      rw [ih htail htail' hrest]

end

theorem isLayout_iff {nodes order : List Node} :
    IsLayout nodes order ↔ order = layoutOrder nodes := by
  have hlayout := isLayout_layoutOrder nodes
  constructor
  · intro h
    apply eq_of_ascending h.ascending hlayout.ascending
    exact fun height => (h.ties height).trans (hlayout.ties height).symm
  · rintro rfl
    exact hlayout

end StepFlow
