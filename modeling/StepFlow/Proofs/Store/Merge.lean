import Mathlib.Data.List.Pairwise
import StepFlow.Store.Basic

/-!
# Merging graphs

Nodes and edges are merged by one rule: what is there stays, and of what is new each member is
appended unless it clashes with one before it. So a merge comes down to the list of those that are
appended. What has no clash with the known members is judged among its own kind.

## Main definitions

* `newcomers`: the members that a merge appends.
* `Graph.distinct`: what is appended of a graph that has no clash with the one that is there.
* `Graph.merge`: a graph with what is new of another one.

## Main statements

* `mergeNodes_eq`, `mergeEdges_eq`: a merge appends the newcomers.
* `newcomers_append_of_fresh`: known members without a clash do not matter.
* `mem_newcomers_iff`: the first member with each key is taken.
* `nodup_append_newcomers_iff`: what a merge keeps apart.
* `mergeEdges_laws`: the laws of merging edges.
* `Store.merge_of_fresh`: merging a graph without a clash.
-/

namespace StepFlow

section newcomers

variable {α : Type}

/-- The members of a list that clash with none of the known ones and with none that was taken before
them. -/
def newcomers (clash : α → α → Bool) (known : List α) : List α → List α
  | [] => []
  | a :: rest =>
    if known.any (clash · a) then newcomers clash known rest
    else a :: newcomers clash (known ++ [a]) rest

variable {clash : α → α → Bool} {known more : List α} {a : α}

theorem newcomers_cons_of_clash (h : known.any (clash · a) = true) :
    newcomers clash known (a :: more) = newcomers clash known more := by
  rw [newcomers, if_pos h]

theorem newcomers_cons_of_free (h : ¬known.any (clash · a) = true) :
    newcomers clash known (a :: more) = a :: newcomers clash (known ++ [a]) more := by
  rw [newcomers, if_neg h]

theorem newcomers_sublist (clash : α → α → Bool) (known more : List α) :
    (newcomers clash known more).Sublist more := by
  induction more generalizing known with
  | nil => exact .slnil
  | cons a more ih =>
    unfold newcomers
    split
    · exact (ih known).cons a
    · exact (ih (known ++ [a])).cons_cons a

theorem mem_of_mem_newcomers (h : a ∈ newcomers clash known more) : a ∈ more :=
  (newcomers_sublist clash known more).mem h

theorem newcomers_not_clash (h : a ∈ newcomers clash known more) :
    ∀ b ∈ known, clash b a = false := by
  induction more generalizing known with
  | nil => cases h
  | cons c more ih =>
    unfold newcomers at h
    split at h
    · exact ih h
    · next hnone =>
      rcases List.mem_cons.1 h with rfl | h
      · intro b hb
        exact Bool.eq_false_iff.2 fun hclash => hnone (List.any_eq_true.2 ⟨b, hb, hclash⟩)
      · exact fun b hb => ih h b (List.mem_append_left _ hb)

theorem newcomers_pairwise (clash : α → α → Bool) (known more : List α) :
    (newcomers clash known more).Pairwise fun a b => clash a b = false := by
  induction more generalizing known with
  | nil => exact .nil
  | cons a more ih =>
    unfold newcomers
    split
    · exact ih known
    · -- the member that is taken is known to all that come later
      refine List.pairwise_cons.2 ⟨fun b hb => ?_, ih (known ++ [a])⟩
      exact newcomers_not_clash hb a (List.mem_append_right _ List.mem_cons_self)

/-- What was not taken clashes with something that is there in the end. -/
theorem exists_clash (hrefl : ∀ a, clash a a = true) (h : a ∈ more) :
    ∃ b ∈ known ++ newcomers clash known more, clash b a = true := by
  induction more generalizing known with
  | nil => cases h
  | cons c more ih =>
    unfold newcomers
    split
    · next hany =>
      rcases List.mem_cons.1 h with rfl | h
      · obtain ⟨b, hb, hclash⟩ := List.any_eq_true.1 hany
        exact ⟨b, List.mem_append_left _ hb, hclash⟩
      · exact ih h
    · rcases List.mem_cons.1 h with rfl | h
      · exact ⟨a, List.mem_append_right _ List.mem_cons_self, hrefl a⟩
      · obtain ⟨b, hb, hclash⟩ := @ih (known ++ [c]) h
        rw [List.append_assoc] at hb
        exact ⟨b, hb, hclash⟩

/-- What was taken clashes with nothing but itself. -/
theorem eq_of_clash_newcomer (hsymm : ∀ a b, clash a b = clash b a) {b : α}
    (ha : a ∈ newcomers clash known more) (hb : b ∈ known ++ newcomers clash known more)
    (h : clash b a = true) : b = a := by
  rcases List.mem_append.1 hb with hb | hb
  · exact (Bool.false_ne_true ((newcomers_not_clash ha b hb).symm.trans h)).elim
  · by_contra hne
    have : Std.Symm fun a b => clash a b = false := ⟨fun a b hab => (hsymm b a).trans hab⟩
    have hfalse := (newcomers_pairwise clash known more).forall hb ha hne
    exact Bool.false_ne_true (hfalse.symm.trans h)

/-- Known members that clash with nothing new make no difference. -/
theorem newcomers_append_of_fresh {free : List α} (h : ∀ a ∈ more, ∀ b ∈ free, clash b a = false)
    (known : List α) : newcomers clash (free ++ known) more = newcomers clash known more := by
  induction more generalizing known with
  | nil => rfl
  | cons a more ih =>
    have hrest : ∀ b ∈ more, ∀ c ∈ free, clash c b = false :=
      fun b hb => h b (List.mem_cons_of_mem _ hb)
    have hnone : free.any (clash · a) = false :=
      List.any_eq_false.2 fun b hb => Bool.eq_false_iff.1 (h a List.mem_cons_self b hb)
    simp only [newcomers, List.any_append, hnone, Bool.false_or, List.append_assoc, ih hrest]

/-- Nothing is taken if each member clashes with a known one. -/
theorem newcomers_eq_nil_iff :
    newcomers clash known more = [] ↔ ∀ a ∈ more, known.any (clash · a) = true := by
  induction more with
  | nil => simp [newcomers]
  | cons a more ih =>
    unfold newcomers
    split
    · next hany => rw [ih, List.forall_mem_cons, and_iff_right hany]
    · next hnone =>
      exact iff_of_false (List.cons_ne_nil _ _) fun h => hnone (h a List.mem_cons_self)

/-- Nothing is taken a second time. -/
theorem newcomers_again (hrefl : ∀ a, clash a a = true) (known more : List α) :
    newcomers clash (known ++ newcomers clash known more) more = [] :=
  newcomers_eq_nil_iff.2 fun _ ha => List.any_eq_true.2 (exists_clash hrefl ha)

/-- All are taken if none of them clashes with a known member or with one before it. -/
theorem newcomers_of_pairwise (hknown : ∀ a ∈ more, ∀ b ∈ known, clash b a = false)
    (hmore : more.Pairwise fun a b => clash a b = false) : newcomers clash known more = more := by
  induction more generalizing known with
  | nil => rfl
  | cons a more ih =>
    obtain ⟨ha, hmore⟩ := List.pairwise_cons.1 hmore
    have hnone : known.any (clash · a) = false :=
      List.any_eq_false.2 fun b hb => Bool.eq_false_iff.1 (hknown a List.mem_cons_self b hb)
    have hrest : ∀ b ∈ more, ∀ c ∈ known ++ [a], clash c b = false := by
      intro b hb c hc
      rcases List.mem_append.1 hc with hc | hc
      · exact hknown b (List.mem_cons_of_mem _ hb) c hc
      · rw [List.mem_singleton.1 hc]
        exact ha b hb
    simp only [newcomers, hnone, Bool.false_eq_true, if_false, ih hrest hmore]

theorem newcomers_of_fresh {free : List α} (h : ∀ a ∈ more, ∀ b ∈ free, clash b a = false) :
    newcomers clash free more = newcomers clash [] more := by
  simpa using newcomers_append_of_fresh h []

/-- Taking from two lists one after the other is taking from both at once. -/
theorem newcomers_append (clash : α → α → Bool) (known more later : List α) :
    newcomers clash known (more ++ later) =
      newcomers clash known more ++
        newcomers clash (known ++ newcomers clash known more) later := by
  induction more generalizing known with
  | nil => rw [List.nil_append, newcomers, List.nil_append, List.append_nil]
  | cons a more ih =>
    rw [List.cons_append, newcomers, newcomers]
    split
    · exact ih known
    · rw [ih, List.cons_append, List.append_assoc, List.singleton_append]

/-- Members that repeat an earlier one may be dropped before the newcomers are taken: what clashes
with the earlier one, or else itself, is there when their turn comes. -/
theorem newcomers_newcomers (hrefl : ∀ a, clash a a = true) {same : α → α → Bool} {seen : List α}
    (hseen : ∀ a ∈ seen, known.any (clash · a) = true)
    (hsame : ∀ a ∈ seen ++ more, ∀ b ∈ more, same a b = true → a = b) :
    newcomers clash known (newcomers same seen more) = newcomers clash known more := by
  induction more generalizing seen known with
  | nil => rfl
  | cons a more ih =>
    have hlater : ∀ b ∈ seen ++ [a] ++ more, ∀ c ∈ more, same b c = true → b = c := by
      intro b hb c hc
      rw [List.append_assoc, List.singleton_append] at hb
      exact hsame b hb c (List.mem_cons_of_mem _ hc)
    by_cases hagain : seen.any (same · a) = true
    · have ha : a ∈ seen := by
        obtain ⟨b, hb, hba⟩ := List.any_eq_true.1 hagain
        have heq := hsame b (List.mem_append_left _ hb) a List.mem_cons_self hba
        exact heq ▸ hb
      rw [newcomers_cons_of_clash hagain, newcomers_cons_of_clash (hseen a ha)]
      refine ih hseen fun b hb => hlater b ?_
      rcases List.mem_append.1 hb with hb | hb
      · exact List.mem_append_left _ (List.mem_append_left _ hb)
      · exact List.mem_append_right _ hb
    · rw [newcomers_cons_of_free hagain]
      by_cases hany : known.any (clash · a) = true
      · rw [newcomers_cons_of_clash hany, newcomers_cons_of_clash hany]
        refine ih (List.forall_mem_append.2 ⟨hseen, ?_⟩) hlater
        exact List.forall_mem_singleton.2 hany
      · rw [newcomers_cons_of_free hany, newcomers_cons_of_free hany]
        refine congrArg (a :: ·) (ih (List.forall_mem_append.2 ⟨fun b hb => ?_, ?_⟩) hlater)
        · rw [List.any_append, hseen b hb, Bool.true_or]
        · simp [hrefl]

/-- It does not matter whether members of a kind are picked out before or after the newcomers are
taken, if there is no clash between members of different kinds. -/
theorem filter_newcomers {p : α → Bool} (hp : ∀ a b, clash a b = true → p a = p b)
    (known more : List α) :
    (newcomers clash known more).filter p =
      newcomers clash (known.filter p) (more.filter p) := by
  induction more generalizing known with
  | nil => rfl
  | cons a more ih =>
    by_cases ha : p a = true
    · have hany : (known.filter p).any (clash · a) = true ↔ known.any (clash · a) = true := by
        simp only [List.any_eq_true, List.mem_filter, and_assoc]
        refine exists_congr fun b => and_congr_right fun _ => and_iff_right_of_imp fun hclash => ?_
        exact (hp b a hclash).trans ha
      rw [List.filter_cons_of_pos ha]
      by_cases hclash : known.any (clash · a) = true
      · rw [newcomers_cons_of_clash hclash, newcomers_cons_of_clash (hany.2 hclash), ih]
      · rw [newcomers_cons_of_free hclash, newcomers_cons_of_free (mt hany.1 hclash),
          List.filter_cons_of_pos ha, ih, List.filter_append, List.filter_cons_of_pos ha,
          List.filter_nil]
    · rw [List.filter_cons_of_neg ha, ← ih known]
      by_cases hclash : known.any (clash · a) = true
      · rw [newcomers_cons_of_clash hclash]
      · rw [newcomers_cons_of_free hclash, List.filter_cons_of_neg ha, ih, ih, List.filter_append,
          List.filter_cons_of_neg ha, List.filter_nil, List.append_nil]

/-- If members clash whose keys are the same, those are taken that are the first ones with their
keys, unless a known member has it. -/
theorem mem_newcomers_iff {β : Type} [DecidableEq β] {key : α → β}
    (hkey : ∀ b ∈ known ++ more, ∀ c ∈ more, clash b c = true ↔ key b = key c) :
    a ∈ newcomers clash known more ↔
      (∀ b ∈ known, key b ≠ key a) ∧ (more.find? fun b => key b = key a) = some a := by
  induction more generalizing known with
  | nil => simp [newcomers]
  | cons c more ih =>
    have hclash : known.any (clash · c) = true ↔ ∃ b ∈ known, key b = key c := by
      rw [List.any_eq_true]
      refine exists_congr fun b => and_congr_right fun hb => ?_
      exact hkey b (List.mem_append_left _ hb) c List.mem_cons_self
    by_cases htaken : ∃ b ∈ known, key b = key c
    · have hrest : ∀ b ∈ known ++ more, ∀ c ∈ more, clash b c = true ↔ key b = key c := by
        intro b hb d hd
        refine hkey b ?_ d (List.mem_cons_of_mem _ hd)
        exact (List.mem_append.1 hb).elim (List.mem_append_left _)
          fun hb => List.mem_append_right _ (List.mem_cons_of_mem _ hb)
      rw [newcomers_cons_of_clash (hclash.2 htaken), ih hrest]
      refine and_congr_right fun hnone => ?_
      obtain ⟨b, hb, hbc⟩ := htaken
      have hca : key c ≠ key a := hbc ▸ hnone b hb
      rw [List.find?_cons_of_neg (by simpa using hca)]
    · have hrest : ∀ b ∈ known ++ [c] ++ more, ∀ d ∈ more, clash b d = true ↔ key b = key d := by
        intro b hb d hd
        rw [List.append_assoc, List.singleton_append] at hb
        exact hkey b hb d (List.mem_cons_of_mem _ hd)
      rw [newcomers_cons_of_free (mt hclash.1 htaken), List.mem_cons, ih hrest,
        List.forall_mem_append, List.forall_mem_singleton]
      by_cases hca : key c = key a
      · rw [List.find?_cons_of_pos (by simpa using hca)]
        grind
      · rw [List.find?_cons_of_neg (by simpa using hca)]
        grind

/-- What is told apart by a mark without which there is a clash stays so: only the known members
can share it. -/
theorem nodup_append_newcomers_iff {β : Type} {mark : α → β}
    (hmark : ∀ a b, mark a = mark b → clash a b = true) (known more : List α) :
    ((known ++ newcomers clash known more).map mark).Nodup ↔ (known.map mark).Nodup := by
  have hapart : ∀ {a b}, clash a b = false → mark a ≠ mark b :=
    fun hclash heq => Bool.false_ne_true (hclash.symm.trans (hmark _ _ heq))
  have hnew : ((newcomers clash known more).map mark).Nodup :=
    List.pairwise_map.2 ((newcomers_pairwise clash known more).imp hapart)
  rw [List.map_append, List.nodup_append]
  refine ⟨fun h => h.1, fun h => ⟨h, hnew, ?_⟩⟩
  intro x hx y hy
  obtain ⟨a, ha, rfl⟩ := List.mem_map.1 hx
  obtain ⟨b, hb, rfl⟩ := List.mem_map.1 hy
  exact hapart (newcomers_not_clash hb a ha)

end newcomers

/-- Whether two nodes share their id. -/
def Node.clashes (n n' : Node) : Bool :=
  n.id = n'.id

theorem Node.clashes_self (n : Node) : n.clashes n = true :=
  decide_eq_true rfl

theorem Edge.clashes_iff {e e' : Edge} :
    e.clashes e' = true ↔ e.id = e'.id ∨ e.ends = e'.ends := by
  simp [Edge.clashes, Edge.sameEnds]

theorem Edge.not_clashes_iff {e e' : Edge} :
    e.clashes e' = false ↔ e.id ≠ e'.id ∧ e.ends ≠ e'.ends := by
  simp [Edge.clashes, Edge.sameEnds]

theorem Edge.clashes_self (e : Edge) : e.clashes e = true :=
  Edge.clashes_iff.2 (.inl rfl)

theorem Edge.clashes_comm (e e' : Edge) : e.clashes e' = e'.clashes e := by
  simp only [Edge.clashes, Edge.sameEnds, eq_comm]

theorem nodup_ids_append_newcomers_iff (edges extra : List Edge) :
    ((edges ++ newcomers Edge.clashes edges extra).map (·.id)).Nodup ↔
      (edges.map (·.id)).Nodup := by
  have hclash : ∀ e e' : Edge, e.id = e'.id → e.clashes e' = true :=
    fun _ _ hid => Edge.clashes_iff.2 (.inl hid)
  exact nodup_append_newcomers_iff hclash edges extra

theorem nodup_ends_append_newcomers_iff (edges extra : List Edge) :
    ((edges ++ newcomers Edge.clashes edges extra).map (·.ends)).Nodup ↔
      (edges.map (·.ends)).Nodup := by
  have hclash : ∀ e e' : Edge, e.ends = e'.ends → e.clashes e' = true :=
    fun _ _ hends => Edge.clashes_iff.2 (.inr hends)
  exact nodup_append_newcomers_iff hclash edges extra

theorem mergeNodes_eq (nodes extra : List Node) :
    mergeNodes nodes extra =
      (nodes ++ newcomers Node.clashes nodes extra,
        (newcomers Node.clashes nodes extra).length) := by
  induction extra generalizing nodes with
  | nil => simp [mergeNodes, newcomers]
  | cons n extra ih =>
    have hsame : (nodes.any fun known => known.id = n.id) = nodes.any (·.clashes n) := rfl
    simp only [mergeNodes, newcomers, ih, hsame]
    split
    · rfl
    · rw [List.append_assoc, List.singleton_append, List.length_cons]

theorem mergeEdges_eq (edges extra : List Edge) :
    mergeEdges edges extra =
      (edges ++ newcomers Edge.clashes edges extra,
        (newcomers Edge.clashes edges extra).length) := by
  induction extra generalizing edges with
  | nil => simp [mergeEdges, newcomers]
  | cons e extra ih =>
    simp only [mergeEdges, newcomers, ih]
    split
    · rfl
    · rw [List.append_assoc, List.singleton_append, List.length_cons]

theorem mergeEdges_again (edges extra : List Edge) :
    mergeEdges (mergeEdges edges extra).1 extra = ((mergeEdges edges extra).1, 0) := by
  rw [mergeEdges_eq (mergeEdges edges extra).1, mergeEdges_eq edges extra,
    newcomers_again Edge.clashes_self, List.append_nil, List.length_nil]

/-- Merging two lists at once is merging one after the other, and the numbers add up. -/
theorem mergeEdges_append (edges extra later : List Edge) :
    mergeEdges edges (extra ++ later) =
      ((mergeEdges (mergeEdges edges extra).1 later).1,
        (mergeEdges edges extra).2 + (mergeEdges (mergeEdges edges extra).1 later).2) := by
  simp only [mergeEdges_eq, newcomers_append, List.append_assoc, List.length_append]

/-- What merging does to any edges. The ones that are there stay in front as they are, and some of
those that are brought in are appended in their order, as many as is returned. Each edge that is
brought in has the id or the ends of one that is there in the end. The appended ones differ in both
from each other and from what was there, so ids and pairs of ends are unique afterwards exactly if
they were before. Merging the same edges again appends nothing, and merging two lists one after the
other is merging them at once. -/
theorem mergeEdges_laws (edges extra later : List Edge) :
    ∃ added, added.Sublist extra ∧
      mergeEdges edges extra = (edges ++ added, added.length) ∧
      (∀ e ∈ extra, ∃ known ∈ edges ++ added, known.id = e.id ∨ known.ends = e.ends) ∧
      (added.Pairwise fun e e' => e.id ≠ e'.id ∧ e.ends ≠ e'.ends) ∧
      (∀ e ∈ added, ∀ known ∈ edges, known.id ≠ e.id ∧ known.ends ≠ e.ends) ∧
      (((edges ++ added).map (·.id)).Nodup ↔ (edges.map (·.id)).Nodup) ∧
      (((edges ++ added).map (·.ends)).Nodup ↔ (edges.map (·.ends)).Nodup) ∧
      mergeEdges (edges ++ added) extra = (edges ++ added, 0) ∧
      mergeEdges edges (extra ++ later) =
        ((mergeEdges (edges ++ added) later).1,
          added.length + (mergeEdges (edges ++ added) later).2) := by
  have hmerge := mergeEdges_eq edges extra
  refine ⟨newcomers Edge.clashes edges extra, newcomers_sublist _ _ _, hmerge, ?_, ?_, ?_,
    nodup_ids_append_newcomers_iff _ _, nodup_ends_append_newcomers_iff _ _, ?_, ?_⟩
  · intro e he
    obtain ⟨known, hknown, hclash⟩ := exists_clash Edge.clashes_self he
    exact ⟨known, hknown, Edge.clashes_iff.1 hclash⟩
  · exact (newcomers_pairwise _ _ _).imp Edge.not_clashes_iff.1
  · exact fun e he known hknown => Edge.not_clashes_iff.1 (newcomers_not_clash he known hknown)
  · have hagain := mergeEdges_again edges extra
    rwa [hmerge] at hagain
  · rw [mergeEdges_append, hmerge]

attribute [ext] Graph

namespace Graph

/-- Graphs side by side. -/
instance : Append Graph where
  append g g' := ⟨g.nodes ++ g'.nodes, g.edges ++ g'.edges⟩

variable (g g' g'' : Graph)

@[simp] theorem nodes_append : (g ++ g').nodes = g.nodes ++ g'.nodes :=
  rfl

@[simp] theorem edges_append : (g ++ g').edges = g.edges ++ g'.edges :=
  rfl

@[simp] theorem append_empty : g ++ {} = g :=
  Graph.ext (List.append_nil _) (List.append_nil _)

@[simp] theorem empty_append : {} ++ g = g :=
  rfl

theorem append_assoc : g ++ g' ++ g'' = g ++ (g' ++ g'') :=
  Graph.ext (List.append_assoc ..) (List.append_assoc ..)

/-- The nodes and edges that clash with none before them. -/
def distinct : Graph :=
  ⟨newcomers Node.clashes [] g.nodes, newcomers Edge.clashes [] g.edges⟩

variable {g}

theorem mem_of_mem_distinct_nodes {n : Node} (h : n ∈ g.distinct.nodes) : n ∈ g.nodes :=
  mem_of_mem_newcomers h

theorem mem_of_mem_distinct_edges {e : Edge} (h : e ∈ g.distinct.edges) : e ∈ g.edges :=
  mem_of_mem_newcomers h

theorem nodup_distinct : (g.distinct.nodes.map (·.id)).Nodup := by
  refine List.pairwise_map.2 ((newcomers_pairwise _ _ _).imp fun hclash => ?_)
  exact of_decide_eq_false hclash

theorem distinct_nodes_of_nodup (h : (g.nodes.map (·.id)).Nodup) : g.distinct.nodes = g.nodes := by
  refine newcomers_of_pairwise (fun _ _ _ h => absurd h List.not_mem_nil) ?_
  exact (List.pairwise_map.1 h).imp decide_eq_false

theorem exists_distinct {n : Node} (h : n ∈ g.nodes) : ∃ m ∈ g.distinct.nodes, m.id = n.id := by
  obtain ⟨m, hm, hclash⟩ := @exists_clash Node Node.clashes [] g.nodes n Node.clashes_self h
  exact ⟨m, hm, of_decide_eq_true hclash⟩

end Graph

namespace Graph

/-- A graph with the nodes and edges of another one, as far as these do not clash. -/
def merge (g more : Graph) : Graph :=
  g ++ ⟨newcomers Node.clashes g.nodes more.nodes, newcomers Edge.clashes g.edges more.edges⟩

@[simp] theorem nodes_merge (g more : Graph) :
    (g.merge more).nodes = g.nodes ++ newcomers Node.clashes g.nodes more.nodes :=
  rfl

@[simp] theorem edges_merge (g more : Graph) :
    (g.merge more).edges = g.edges ++ newcomers Edge.clashes g.edges more.edges :=
  rfl

@[simp] theorem merge_empty (g : Graph) : g.merge {} = g :=
  append_empty g

/-- Merging two graphs one after the other is merging both at once. -/
theorem merge_append (g more later : Graph) :
    g.merge (more ++ later) = (g.merge more).merge later :=
  Graph.ext (by simp [newcomers_append]) (by simp [newcomers_append])

end Graph

theorem Store.merge_eq (s : Store) (g : Graph) :
    s.merge g = (⟨(newcomers Node.clashes s.graph.nodes g.nodes).length,
        (newcomers Edge.clashes s.graph.edges g.edges).length⟩,
      { s with graph := s.graph ++ ⟨newcomers Node.clashes s.graph.nodes g.nodes,
        newcomers Edge.clashes s.graph.edges g.edges⟩ }) := by
  rw [Store.merge, mergeNodes_eq, mergeEdges_eq]
  rfl

theorem Store.graph_merge (s : Store) (g : Graph) : (s.merge g).2.graph = s.graph.merge g := by
  rw [s.merge_eq]
  rfl

/-- Merging the same graph again appends nothing. -/
theorem Store.merge_again (s : Store) (g : Graph) :
    (s.merge g).2.merge g = (⟨0, 0⟩, (s.merge g).2) := by
  rw [(s.merge g).2.merge_eq, s.merge_eq]
  simp only [Graph.nodes_append, Graph.edges_append, newcomers_again Node.clashes_self,
    newcomers_again Edge.clashes_self, List.length_nil]
  exact congrArg (Prod.mk _) (congrArg (fun g => { s with graph := g }) (Graph.append_empty _))

/-- Merging a graph that has no clash with the one that is there. -/
theorem Store.merge_of_fresh {s : Store} {g : Graph}
    (hnodes : ∀ n ∈ g.nodes, ∀ known ∈ s.graph.nodes, known.id ≠ n.id)
    (hedges : ∀ e ∈ g.edges, ∀ known ∈ s.graph.edges, known.clashes e = false) :
    s.merge g = (⟨g.distinct.nodes.length, g.distinct.edges.length⟩,
      { s with graph := s.graph ++ g.distinct }) := by
  have hnodes' : newcomers Node.clashes s.graph.nodes g.nodes = g.distinct.nodes := by
    have hfresh : ∀ n ∈ g.nodes, ∀ known ∈ s.graph.nodes, known.clashes n = false :=
      fun n hn known hknown => decide_eq_false (hnodes n hn known hknown)
    exact newcomers_of_fresh hfresh
  have hedges' : newcomers Edge.clashes s.graph.edges g.edges = g.distinct.edges :=
    newcomers_of_fresh hedges
  rw [Store.merge_eq, hnodes', hedges']

end StepFlow
