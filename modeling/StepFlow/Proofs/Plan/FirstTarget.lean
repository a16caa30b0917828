import StepFlow.Proofs.Plan.Navigation
import StepFlow.Proofs.Plan.Reachable

/-!
# Where first targets stand

A walk that enters an id has the first target of the id on top of its stack, unless that target was
met before. So in a plan the first target of a step comes right after it, or not after it at all.
And an id gets on the stack as a root or as a target, so a planned step that is no root has the
source of one of its edges before it.

## Main definitions

* `Walk.Led`: what a walk keeps about first targets.
* `Walk.Sourced`: what a walk keeps about sources.

## Main statements

* `first_target_of_plan`: the first target of a planned step.
* `source_before`: a source of a planned step.
-/

namespace StepFlow

theorem getElem?_append_of_eq_some {α : Type} {l : List α} {i : Nat} {a : α} (h : l[i]? = some a)
    (more : List α) : (l ++ more)[i]? = some a := by
  have hlt : i < l.length := (List.getElem?_eq_some_iff.1 h).1
  rw [List.getElem?_append_left hlt, h]

namespace Walk

variable {steps : List Step} {walk : Walk} {id : String} {stack starts : List String}

/-- What a walk keeps about the first target of a step it has passed: it was passed by then or right
afterwards, or nothing was passed since and it is on top of the stack. -/
structure Led (steps : List Step) (walk : Walk) (stack : List String) : Prop where
  tidy : Tidy steps walk stack
  first : ∀ i s target, walk.passed[i]? = some s → s.next.candidate = some target →
    (stepById? steps target).isSome →
    (∃ j ≤ i, (walk.passed.map (·.id))[j]? = some target) ∨
      (walk.passed.map (·.id))[i + 1]? = some target ∨
      i + 1 = walk.passed.length ∧ target ∉ walk.visited ∧ stack.head? = some target

theorem Led.start (steps : List Step) (stack : List String) : Led steps {} stack where
  tidy := .start steps stack
  first _ _ _ hs := by
    rw [List.getElem?_nil] at hs
    cases hs

theorem Led.drop (h : Led steps walk (id :: stack)) (hid : id ∈ walk.visited) :
    Led steps walk stack where
  tidy := h.tidy.drop hid
  first := by
    intro i s target hs htarget hstep
    rcases h.first i s target hs htarget hstep with hearlier | hnext | ⟨-, hnew, htop⟩
    · exact .inl hearlier
    · exact .inr (.inl hnext)
    · cases htop
      exact absurd hid hnew

theorem Tidy.exists_passed (h : Tidy steps walk stack) {target : String}
    (hmet : target ∈ walk.visited) (hstep : (stepById? steps target).isSome) :
    ∃ j < walk.passed.length, (walk.passed.map (·.id))[j]? = some target := by
  obtain ⟨s, hs⟩ := Option.isSome_iff_exists.1 hstep
  obtain ⟨-, rfl⟩ := stepById?_mem hs
  obtain ⟨j, hj, hget⟩ := List.getElem_of_mem ((h.mem_passed s).2 ⟨hmet, hs⟩)
  exact ⟨j, hj, by simp [hj, hget]⟩

/-- A first target that was not met comes on top of the stack. -/
theorem head?_unmet {s : Step} {target : String} (hs : stepById? steps id = some s)
    (htarget : s.next.candidate = some target) (hnew : target ∉ id :: walk.visited)
    (stack : List String) : (walk.unmet steps id ++ stack).head? = some target := by
  obtain ⟨others, htargets⟩ := List.head?_eq_some_iff.1 htarget
  have hall : targetsOf steps id = target :: others := by
    rw [targetsOf, hs, Option.map_some, Option.getD_some, htargets]
  have hkept : decide (target ∉ id :: walk.visited) = true := decide_eq_true hnew
  simp only [unmet, hall, List.filter_cons, hkept, if_true, List.cons_append, List.head?_cons]

theorem Led.enter (h : Led steps walk (id :: stack)) (hid : id ∉ walk.visited) :
    Led steps (walk.enter steps id) (walk.unmet steps id ++ stack) where
  tidy := h.tidy.enter hid
  first := by
    intro i s target hs htarget hstep
    cases hentered : stepById? steps id with
    | none =>
      -- no step is passed, so what was on top of the stack was no first target
      have hpassed : (walk.enter steps id).passed = walk.passed := by
        simp [Walk.enter, hentered]
      rw [hpassed] at hs ⊢
      rcases h.first i s target hs htarget hstep with hearlier | hnext | ⟨-, -, htop⟩
      · exact .inl hearlier
      · exact .inr (.inl hnext)
      · cases htop
        rw [hentered] at hstep
        cases hstep
    | some entered =>
      obtain ⟨-, rfl⟩ := stepById?_mem hentered
      have hpassed : (walk.enter steps entered.id).passed = walk.passed ++ [entered] := by
        simp [Walk.enter, hentered]
      rw [hpassed] at hs ⊢
      rw [List.map_append]
      have hkept : ∀ j a, (walk.passed.map (·.id))[j]? = some a →
          (walk.passed.map (·.id) ++ [entered].map (·.id))[j]? = some a :=
        fun j a ha => getElem?_append_of_eq_some ha _
      have hadded : (walk.passed.map (·.id) ++ [entered].map (·.id))[walk.passed.length]? =
          some entered.id := by simp
      rcases Nat.lt_or_ge i walk.passed.length with hi | hi
      · -- a step from before: if its first target was on top of the stack, that is entered now
        rw [List.getElem?_append_left hi] at hs
        rcases h.first i s target hs htarget hstep with ⟨j, hj, hget⟩ | hnext | ⟨hlast, -, htop⟩
        · exact .inl ⟨j, hj, hkept j target hget⟩
        · exact .inr (.inl (hkept _ _ hnext))
        · cases htop
          exact .inr (.inl (hlast ▸ hadded))
      · -- the step that is entered now: its first target was met before, or comes on top
        rw [List.getElem?_append_right hi] at hs
        have hlt : i - walk.passed.length < 1 := (List.getElem?_eq_some_iff.1 hs).1
        obtain rfl : i = walk.passed.length := by omega
        obtain rfl : entered = s := by simpa using hs
        by_cases hmet : target ∈ entered.id :: walk.visited
        · left
          rcases List.mem_cons.1 hmet with rfl | hmet
          · exact ⟨_, Nat.le_refl _, hadded⟩
          · obtain ⟨j, hj, hget⟩ := h.tidy.exists_passed hmet hstep
            exact ⟨j, Nat.le_of_lt hj, hkept j target hget⟩
        · exact .inr (.inr ⟨by simp, hmet, head?_unmet hentered htarget hmet stack⟩)

theorem Led.explore (h : Led steps walk stack) : Led steps (walk.explore steps stack) [] :=
  explore_induction (motive := Led steps) (fun _ _ _ hid h => h.drop hid)
    (fun _ _ _ hid h => h.enter hid) h

/-- What a walk keeps about where ids come from: one on the stack is a start or a target of a step
that was passed, and one that was passed is a start or a target of a step that was passed before. -/
structure Sourced (starts : List String) (walk : Walk) (stack : List String) : Prop where
  stacked : ∀ a ∈ stack, a ∈ starts ∨ ∃ s ∈ walk.passed, a ∈ s.next.targets
  passed : ∀ (j : Nat) s, walk.passed[j]? = some s → s.id ∈ starts ∨
    ∃ k < j, ∃ source, walk.passed[k]? = some source ∧ s.id ∈ source.next.targets

theorem Sourced.start (starts : List String) : Sourced starts {} starts where
  stacked _ ha := .inl ha
  passed _ _ hs := by
    rw [List.getElem?_nil] at hs
    cases hs

theorem Sourced.drop (h : Sourced starts walk (id :: stack)) : Sourced starts walk stack where
  stacked a ha := h.stacked a (List.mem_cons_of_mem _ ha)
  passed := h.passed

theorem Sourced.enter (h : Sourced starts walk (id :: stack)) :
    Sourced starts (walk.enter steps id) (walk.unmet steps id ++ stack) where
  stacked := by
    intro a ha
    rcases List.mem_append.1 ha with hunmet | hstack
    · right
      have htarget := (List.mem_filter.1 hunmet).1
      cases hs : stepById? steps id with
      | none => simp [targetsOf, hs] at htarget
      | some s => exact ⟨s, by simp [Walk.enter, hs], by simpa [targetsOf, hs] using htarget⟩
    · rcases h.stacked a (List.mem_cons_of_mem _ hstack) with hstart | ⟨s, hs, htarget⟩
      · exact .inl hstart
      · exact .inr ⟨s, List.mem_append_left _ hs, htarget⟩
  passed := by
    intro j s hs
    have hkept : ∀ k source, walk.passed[k]? = some source →
        (walk.enter steps id).passed[k]? = some source :=
      fun k source hsource => getElem?_append_of_eq_some hsource _
    rcases Nat.lt_or_ge j walk.passed.length with hj | hj
    · rw [Walk.enter, List.getElem?_append_left hj] at hs
      rcases h.passed j s hs with hstart | ⟨k, hk, source, hsource, htarget⟩
      · exact .inl hstart
      · exact .inr ⟨k, hk, source, hkept k source hsource, htarget⟩
    · -- the step that is entered now was on the stack, so its source was passed before
      rw [Walk.enter, List.getElem?_append_right hj] at hs
      have hmem : s ∈ (stepById? steps id).toList := List.mem_of_getElem? hs
      obtain ⟨-, rfl⟩ := stepById?_mem (Option.mem_toList.1 hmem)
      rcases h.stacked s.id List.mem_cons_self with hstart | ⟨source, hsource, htarget⟩
      · exact .inl hstart
      · obtain ⟨k, hk, hget⟩ := List.getElem_of_mem hsource
        exact .inr
          ⟨k, Nat.lt_of_lt_of_le hk hj, source, hkept k source (by simp [hk, hget]), htarget⟩

theorem Sourced.explore (h : Sourced starts walk stack) :
    Sourced starts (walk.explore steps stack) [] :=
  explore_induction (motive := Sourced starts) (fun _ _ _ _ h => h.drop)
    (fun _ _ _ _ h => h.enter) h

end Walk

section

variable {nodes : List Node} {edges : List Edge} {plan : Plan} {i : Nat} {s : Step} {id : String}

/-- The first target of a planned step stands right after it, or not after it. -/
theorem first_target_of_plan (h : linearize nodes edges = .ok plan)
    (hs : plan.steps[i]? = some s) (htarget : s.next.candidate = some id)
    (hid : id ∈ nodeIds nodes) :
    (∃ j ≤ i, plan.ids[j]? = some id) ∨ plan.ids[i + 1]? = some id := by
  obtain ⟨-, hsteps⟩ := linearize_eq_ok_iff.1 h
  have hled := (Walk.Led.start (resolve nodes edges) (roots nodes edges)).explore
  obtain ⟨step, hstep, -⟩ := exists_stepById?_resolve edges hid
  rw [hsteps] at hs
  rw [Plan.ids, hsteps]
  rcases hled.first i s id hs htarget (by simp [hstep]) with hearlier | hnext | ⟨-, -, htop⟩
  · exact .inl hearlier
  · exact .inr hnext
  · cases htop

/-- A planned step that is no root has the source of one of its edges before it. -/
theorem source_before (h : linearize nodes edges = .ok plan) (hid : plan.ids[i]? = some id)
    (hroot : id ∉ roots nodes edges) :
    ∃ k < i, ∃ source, plan.ids[k]? = some source ∧ Joined edges source id := by
  obtain ⟨-, hsteps⟩ := linearize_eq_ok_iff.1 h
  have hsourced : Walk.Sourced (roots nodes edges)
      (Walk.explore (resolve nodes edges) {} (roots nodes edges)) [] :=
    (Walk.Sourced.start _).explore
  rw [Plan.getElem?_ids] at hid
  obtain ⟨step, hstep, rfl⟩ := Option.map_eq_some_iff.1 hid
  rw [hsteps] at hstep
  rcases hsourced.passed i step hstep with hstart | ⟨k, hk, source, hsource, htarget⟩
  · exact absurd hstart hroot
  · rw [← hsteps] at hsource
    refine ⟨k, hk, source.id, by rw [Plan.getElem?_ids, hsource, Option.map_some], ?_⟩
    have hresolved := mem_resolve_of_mem_plan h (List.mem_of_getElem? hsource)
    rw [targets_of_mem_resolve hresolved] at htarget
    exact mem_targetsFrom.1 htarget

end

end StepFlow
