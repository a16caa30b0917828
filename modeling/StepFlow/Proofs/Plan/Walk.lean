import StepFlow.Proofs.Plan.Resolve

/-!
# The walk as a recursion

Two rules drive a walk: an id that was met is dropped from the stack, and any other id is entered.
What is kept by both rules holds at the end of the walk (`Walk.explore_induction`). The ids on the
stack are walked one after the other, and leaving out the targets that were met already changes
nothing, so entering an id amounts to walking all its targets first
(`Walk.explore_cons_of_not_mem`).

## Main definitions

* `Walk.enter`: the walk that has met one more id.
* `Walk.unmet`: the targets that a walk puts on its stack when it enters an id.
-/

namespace StepFlow

namespace Walk

variable {steps : List Step} {walk : Walk} {id : String} {stack : List String}

/-- The walk that has met one more id and passed its step, if there is one. -/
def enter (steps : List Step) (walk : Walk) (id : String) : Walk :=
  ⟨id :: walk.visited, walk.passed ++ (stepById? steps id).toList⟩

/-- The targets of an id that a walk has still to meet after the id itself. -/
def unmet (steps : List Step) (walk : Walk) (id : String) : List String :=
  (targetsOf steps id).filter fun target => target ∉ id :: walk.visited

@[simp] theorem explore_nil : walk.explore steps [] = walk := by
  rw [explore]

theorem explore_cons_of_mem (h : id ∈ walk.visited) :
    walk.explore steps (id :: stack) = walk.explore steps stack := by
  rw [explore, if_pos h]

theorem explore_cons_unmet (h : id ∉ walk.visited) :
    walk.explore steps (id :: stack) =
      (walk.enter steps id).explore steps (walk.unmet steps id ++ stack) := by
  rw [explore, if_neg h]
  split
  · next hnone => simp [enter, unmet, targetsOf, hnone]
  · next s hsome => simp [enter, unmet, targetsOf, hsome]

/-- Induction along a walk, by its two rules. -/
theorem explore_rec (steps : List Step) {motive : Walk → List String → Prop}
    (done : ∀ walk, motive walk [])
    (met : ∀ walk id stack, id ∈ walk.visited → motive walk stack → motive walk (id :: stack))
    (new : ∀ walk id stack, id ∉ walk.visited →
      motive (walk.enter steps id) (walk.unmet steps id ++ stack) → motive walk (id :: stack))
    (walk : Walk) (stack : List String) : motive walk stack := by
  fun_induction Walk.explore steps walk stack with
  | case1 walk => exact done walk
  | case2 walk id stack hmem ih => exact met walk id stack hmem ih
  | case3 walk id stack hnew visited hnone ih =>
    refine new walk id stack hnew ?_
    simpa [enter, unmet, targetsOf, hnone] using ih
  | case4 walk id stack hnew visited s hsome ih =>
    refine new walk id stack hnew ?_
    simp only [enter, unmet, targetsOf, hsome, Option.map_some, Option.getD_some,
      Option.toList_some]
    exact ih

/-- What both rules of the walk keep holds when the stack is empty. -/
theorem explore_induction {motive : Walk → List String → Prop}
    (met : ∀ walk id stack, id ∈ walk.visited → motive walk (id :: stack) → motive walk stack)
    (new : ∀ walk id stack, id ∉ walk.visited → motive walk (id :: stack) →
      motive (walk.enter steps id) (walk.unmet steps id ++ stack))
    (start : motive walk stack) : motive (walk.explore steps stack) [] := by
  induction walk, stack using explore_rec steps with
  | done walk => simpa using start
  | met walk id stack hmem ih =>
    rw [explore_cons_of_mem hmem]
    exact ih (met walk id stack hmem start)
  | new walk id stack hnew ih =>
    rw [explore_cons_unmet hnew]
    exact ih (new walk id stack hnew start)

/-- A walk forgets nothing that it has met. -/
theorem visited_subset_explore : walk.visited ⊆ (walk.explore steps stack).visited := by
  refine explore_induction (motive := fun w _ => walk.visited ⊆ w.visited) ?_ ?_
    (List.Subset.refl _)
  · intro w id stack _ h
    exact h
  · intro w id stack _ h
    exact List.Subset.trans h (List.subset_cons_self _ _)

/-- A walk meets every id on its stack. -/
theorem stack_subset_explore : stack ⊆ (walk.explore steps stack).visited := by
  intro a ha
  have h : a ∈ (walk.explore steps stack).visited ∨ a ∈ ([] : List String) := by
    refine explore_induction (motive := fun w rest => a ∈ w.visited ∨ a ∈ rest) ?_ ?_ (.inr ha)
    · intro w id rest hmem h
      rcases h with h | h
      · exact .inl h
      · rcases List.mem_cons.1 h with rfl | h
        · exact .inl hmem
        · exact .inr h
    · intro w id rest _ h
      rcases h with h | h
      · exact .inl (List.mem_cons_of_mem _ h)
      · rcases List.mem_cons.1 h with rfl | h
        · exact .inl List.mem_cons_self
        · exact .inr (List.mem_append_right _ h)
  simpa using h

/-- The ids on the stack are walked one after the other. -/
theorem explore_append (xs ys : List String) :
    walk.explore steps (xs ++ ys) = (walk.explore steps xs).explore steps ys := by
  induction walk, xs using explore_rec steps with
  | done walk => simp
  | met walk id xs hmem ih =>
    rw [List.cons_append, explore_cons_of_mem hmem, explore_cons_of_mem hmem, ih]
  | new walk id xs hnew ih =>
    rw [List.cons_append, explore_cons_unmet hnew, explore_cons_unmet hnew, ← ih,
      List.append_assoc]

theorem explore_cons (id : String) (stack : List String) :
    walk.explore steps (id :: stack) = (walk.explore steps [id]).explore steps stack :=
  explore_append [id] stack

/-- Leaving out ids that were met before changes nothing. -/
theorem explore_filter (known : List String) (hknown : known ⊆ walk.visited)
    (xs : List String) :
    walk.explore steps (xs.filter fun id => id ∉ known) = walk.explore steps xs := by
  induction xs generalizing walk with
  | nil => simp
  | cons id xs ih =>
    by_cases h : id ∈ known
    · rw [explore_cons_of_mem (hknown h), ← ih hknown]
      simp [h]
    · have hkept : (id :: xs).filter (fun id => id ∉ known) =
          id :: xs.filter fun id => id ∉ known := by simp [h]
      rw [hkept, explore_cons, explore_cons id xs]
      exact ih (List.Subset.trans hknown visited_subset_explore)

/-- A new id is entered, all its targets are walked, and then the rest of the stack is. -/
theorem explore_cons_of_not_mem (h : id ∉ walk.visited) :
    walk.explore steps (id :: stack) =
      ((walk.enter steps id).explore steps (targetsOf steps id)).explore steps stack := by
  have hknown : id :: walk.visited ⊆ (walk.enter steps id).visited := List.Subset.refl _
  rw [explore_cons_unmet h, explore_append, unmet, explore_filter _ hknown]

/-- A walk that can only go from each id of a path to the next one passes the path in order. -/
theorem passed_explore_path {path : List String} (hnodup : path.Nodup)
    (hnew : ∀ id ∈ path, id ∉ walk.visited) (hsteps : ∀ id ∈ path, (stepById? steps id).isSome)
    (hnext : ∀ (i : Nat) id, path[i]? = some id → targetsOf steps id = path[i + 1]?.toList) :
    (walk.explore steps path.head?.toList).passed.map (·.id) =
      walk.passed.map (·.id) ++ path := by
  induction path generalizing walk with
  | nil => simp
  | cons id rest ih =>
    obtain ⟨hid, hrest⟩ := List.nodup_cons.1 hnodup
    obtain ⟨s, hs⟩ := Option.isSome_iff_exists.1 (hsteps id List.mem_cons_self)
    have htargets : targetsOf steps id = rest.head?.toList := by
      rw [hnext 0 id rfl, List.getElem?_cons_succ, List.head?_eq_getElem?]
    have hpassed : (walk.enter steps id).passed.map (·.id) = walk.passed.map (·.id) ++ [id] := by
      rw [enter, hs, Option.toList_some, List.map_append, List.map_singleton, (stepById?_mem hs).2]
    have hlater : ∀ a ∈ rest, a ∉ (walk.enter steps id).visited := by
      intro a ha hmet
      rcases List.mem_cons.1 hmet with rfl | hmet
      · exact hid ha
      · exact hnew a (List.mem_cons_of_mem _ ha) hmet
    rw [List.head?_cons, Option.toList_some,
      explore_cons_of_not_mem (hnew id List.mem_cons_self), explore_nil, htargets,
      ih hrest hlater (fun a ha => hsteps a (List.mem_cons_of_mem _ ha))
        (fun i a ha => hnext (i + 1) a ha), hpassed, List.append_assoc, List.singleton_append]

theorem length_unvisited_le (steps : List Step) {visited later : List String}
    (h : visited ⊆ later) : (unvisited steps later).length ≤ (unvisited steps visited).length :=
  length_filter_not_mem_le Step.id steps h

/-- Induction along a walk in which all targets of a new id come before the rest of the stack. -/
theorem explore_depth_rec (steps : List Step) {motive : Walk → List String → Prop}
    (done : ∀ walk, motive walk [])
    (met : ∀ walk id stack, id ∈ walk.visited → motive walk stack → motive walk (id :: stack))
    (new : ∀ walk id stack, id ∉ walk.visited →
      motive (walk.enter steps id) (targetsOf steps id) →
      motive ((walk.enter steps id).explore steps (targetsOf steps id)) stack →
      motive walk (id :: stack))
    (walk : Walk) (stack : List String) : motive walk stack :=
  match stack with
  | [] => done walk
  | id :: stack =>
    if h : id ∈ walk.visited then
      met walk id stack h (explore_depth_rec steps done met new walk stack)
    else
      new walk id stack h
        (explore_depth_rec steps done met new (walk.enter steps id) (targetsOf steps id))
        (explore_depth_rec steps done met new
          ((walk.enter steps id).explore steps (targetsOf steps id)) stack)
termination_by ((unvisited steps walk.visited).length, stack.length)
decreasing_by
  · exact Prod.Lex.right _ (by simp)
  · cases hs : stepById? steps id with
    | none =>
      have hle := Nat.lt_or_eq_of_le (unvisited_cons_le steps walk.visited id)
      exact Prod.lex_def.2 (hle.imp (fun h => h) fun h => ⟨h, by simp [targetsOf, hs]⟩)
    | some s =>
      obtain ⟨hmem, rfl⟩ := stepById?_mem hs
      exact Prod.Lex.left _ _ (unvisited_cons_lt hmem h)
  · have hsub : walk.visited ⊆
        ((walk.enter steps id).explore steps (targetsOf steps id)).visited :=
      fun _ ha => visited_subset_explore (List.mem_cons_of_mem _ ha)
    have hle := Nat.lt_or_eq_of_le (length_unvisited_le steps hsub)
    exact Prod.lex_def.2 (hle.imp (fun h => h) fun h => ⟨h, by simp⟩)

/-- Walking from each root in turn is walking with all roots on the stack. -/
theorem foldl_explore (starts : List String) :
    starts.foldl (fun walk root => walk.explore steps [root]) walk =
      walk.explore steps starts := by
  induction starts generalizing walk with
  | nil => simp
  | cons root starts ih => rw [List.foldl_cons, ih, ← explore_cons]

end Walk

section linearize

variable {nodes : List Node} {edges : List Edge}

theorem linearize_nil : linearize [] edges = .error .emptyGraph := rfl

theorem linearize_of_roots_eq_nil (hn : nodes ≠ []) (h : roots nodes edges = []) :
    linearize nodes edges = .error (.noRoot nodes.length) := by
  simp [linearize, hn, h]

/-- With a root there is a plan: the walk with all roots on the stack. -/
theorem linearize_of_roots_ne_nil (h : roots nodes edges ≠ []) :
    linearize nodes edges =
      .ok ⟨(Walk.explore (resolve nodes edges) {} (roots nodes edges)).passed⟩ := by
  have hn : nodes ≠ [] := by
    rintro rfl
    exact h rfl
  simp [linearize, hn, h, Walk.foldl_explore]

theorem linearize_eq_ok_iff {plan : Plan} :
    linearize nodes edges = .ok plan ↔ roots nodes edges ≠ [] ∧
      plan.steps = (Walk.explore (resolve nodes edges) {} (roots nodes edges)).passed := by
  by_cases h : roots nodes edges = []
  · by_cases hn : nodes = []
    · subst hn
      simp [linearize_nil, h]
    · simp [linearize_of_roots_eq_nil hn h, h]
  · rw [linearize_of_roots_ne_nil h]
    obtain ⟨planned⟩ := plan
    simp [h, eq_comm]

end linearize

end StepFlow
