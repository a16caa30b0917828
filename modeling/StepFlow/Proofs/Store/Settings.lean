import StepFlow.Proofs.Json.Repeated
import StepFlow.Store.Command

/-!
# Patching the settings of a node

A patch is merged into the settings of the first node with the id, and nothing else in the store
changes. Patches one after the other are merged into the same settings, so the store after a patch
that is given twice is told by the settings alone.

## Main statements

* `Store.editAll_patchConfig`: patches given one after the other.
* `patch_merges_pointwise`: what one patch leaves of the settings, path by path and in whichever
  order its keys are taken, and of the store.
* `patch_again_iff`: when a patch given again changes nothing.
-/

namespace StepFlow

open Json (Object Value)

variable {s : Store} {id : String} {before after : List Node} {n : Node}

/-- The node is the first one with the id. -/
structure Store.First (s : Store) (id : String) (before : List Node) (n : Node)
    (after : List Node) : Prop where
  nodes : s.graph.nodes = before ++ n :: after
  found : n.id = id
  passed : ∀ m ∈ before, m.id ≠ id

namespace Store

theorem exists_first (h : s.graph.node? id = some n) :
    ∃ before after, s.First id before n after := by
  obtain ⟨hid, before, after, hnodes, hbefore⟩ := List.find?_eq_some_iff_append.1 h
  exact ⟨before, after, hnodes, of_decide_eq_true hid, fun m hm => by simpa using hbefore m hm⟩

theorem First.hasNode (h : s.First id before n after) : s.graph.hasNode id = true := by
  rw [Graph.hasNode, Graph.node?, List.find?_isSome]
  exact ⟨n, h.nodes ▸ List.mem_append_cons_self, decide_eq_true h.found⟩

/-- Another node in the place of the first one with the id. -/
theorem First.replace (h : s.First id before n after) {m : Node} (hm : m.id = id) :
    (s.withNodes (before ++ m :: after)).First id before m after :=
  ⟨rfl, hm, h.passed⟩

theorem modifyNode_first (hn : n.id = id) (hbefore : ∀ m ∈ before, m.id ≠ id) (f : Node → Node) :
    modifyNode id f (before ++ n :: after) = before ++ f n :: after := by
  induction before with
  | nil => rw [List.nil_append, modifyNode, if_pos hn, List.nil_append]
  | cons m before ih =>
    obtain ⟨hm, hbefore⟩ := List.forall_mem_cons.1 hbefore
    rw [List.cons_append, modifyNode, if_neg hm, ih hbefore, List.cons_append]

theorem updateNode_first (h : s.First id before n after) (f : Node → Node) :
    s.updateNode id f = .ok (s.withNodes (before ++ f n :: after)) := by
  rw [updateNode, if_pos h.hasNode, h.nodes, modifyNode_first h.found h.passed]

theorem edit_patchConfig (h : s.First id before n after) (patch : Object) :
    s.edit (.patchConfig id patch) =
      edited .done
        (s.withNodes (before ++ { n with config := n.config.deepMerge patch } :: after)) := by
  rw [edit, patchConfig, updateNode_first h]
  rfl

theorem edit_patchConfig_unknown (h : s.graph.hasNode id = false) (patch : Object) :
    s.edit (.patchConfig id patch) =
      { answer := .error (.store (.unknownNode id)), store := s } := by
  simp only [edit, patchConfig, updateNode, h]
  rfl

/-- Patches given one after the other are merged into the settings of the same node. -/
theorem editAll_patchConfig (h : s.First id before n after) (patches : List Object) :
    s.editAll (patches.map (.patchConfig id)) =
      s.withNodes
        (before ++ { n with config := patches.foldl Object.deepMerge n.config } :: after) := by
  induction patches generalizing s n with
  | nil => rw [List.map_nil, List.foldl_nil, ← h.nodes]; rfl
  | cons patch patches ih =>
    have hnext := h.replace (m := { n with config := n.config.deepMerge patch }) h.found
    rw [List.map_cons, editAll, List.foldl_cons, edit_patchConfig h]
    exact ih hnext

theorem editAll_patchConfig_unknown (h : s.graph.hasNode id = false) (patches : List Object) :
    s.editAll (patches.map (.patchConfig id)) = s := by
  induction patches with
  | nil => rfl
  | cons patch patches ih =>
    rw [List.map_cons, editAll, List.foldl_cons, edit_patchConfig_unknown h]
    exact ih

/-- Stores after patches to one node differ only in its settings. -/
theorem editAll_patchConfig_inj (h : s.First id before n after) (patches patches' : List Object) :
    s.editAll (patches.map (.patchConfig id)) = s.editAll (patches'.map (.patchConfig id)) ↔
      patches.foldl Object.deepMerge n.config = patches'.foldl Object.deepMerge n.config := by
  rw [editAll_patchConfig h, editAll_patchConfig h]
  simp [withNodes]

end Store

/-- A patch merges into settings path by path, and the order in which its keys are taken, at any
level, makes no difference. Of the store nothing changes but the settings of the first node with the
id, and nothing at all if there is none. -/
theorem patch_merges_pointwise {base patch : Object} (hbase : (Value.obj base).Canonical)
    (hpatch : (Value.obj patch).Canonical) (s : Store) (id : String) :
    base.Pointwise patch (base.deepMerge patch) ∧
      (∀ result, base.Merges patch result ↔ result = base.deepMerge patch) ∧
      (∀ before n after, s.graph.nodes = before ++ n :: after → n.id = id →
        (∀ m ∈ before, m.id ≠ id) →
        s.edit (.patchConfig id patch) = Store.edited .done { s with graph := { s.graph with
          nodes := before ++ { n with config := n.config.deepMerge patch } :: after } }) ∧
      (s.graph.hasNode id = false →
        s.edit (.patchConfig id patch) =
          { answer := .error (.store (.unknownNode id)), store := s }) := by
  refine ⟨Object.pointwise_deepMerge base hpatch, fun _ => Object.merges_iff hbase hpatch, ?_, ?_⟩
  · intro before n after hnodes hid hbefore
    exact Store.edit_patchConfig ⟨hnodes, hid, hbefore⟩ patch
  · exact fun hunknown => Store.edit_patchConfig_unknown hunknown patch

/-- One setting is removed, two are merged, and where there is nothing to remove a `null` stands. -/
theorem patch_merges_pointwise_of_limits :
    let base : Object := [("behavior", .str "default"), ("limits", .obj [("cooldown", .int 30)])]
    let patch : Object := [("behavior", .null), ("limits", .obj [("burst", .int 2)]),
      ("retry", .obj [("after", .null)])]
    (Value.obj base).Canonical ∧ (Value.obj patch).Canonical ∧
      (Value.obj (base.deepMerge patch)).at? ["behavior"] = none ∧
      (Value.obj (base.deepMerge patch)).at? ["limits", "cooldown"] = some (.int 30) ∧
      (Value.obj (base.deepMerge patch)).at? ["retry", "after"] = some .null := by
  intro base patch
  have hbase : (Value.obj base).Canonical := by
    simp only [base, Value.Canonical, Value.CanonicalEntries]
    decide
  have hpatch : (Value.obj patch).Canonical := by
    simp only [patch, Value.Canonical, Value.CanonicalEntries]
    decide
  have h := (patch_merges_pointwise hbase hpatch {} "n").1
  exact ⟨hbase, hpatch, h.removed [] "behavior" rfl rfl,
    h.untouched ["limits"] "cooldown" [] _ rfl rfl,
    h.stands ["retry"] "after" .null rfl (fun _ => rfl) (.inl rfl)⟩

/-- A patch given again changes nothing exactly if every `null` of it met an object the first time,
in settings and in the store alike. Given a third time it never changes anything. -/
theorem patch_again_iff {base patch : Object} (hbase : (Value.obj base).Canonical)
    (hpatch : (Value.obj patch).Canonical) :
    ((base.deepMerge patch).deepMerge patch = base.deepMerge patch ↔ base.Covers patch) ∧
      ((base.deepMerge patch).deepMerge patch).deepMerge patch =
        (base.deepMerge patch).deepMerge patch ∧
      ∀ (s : Store) (id : String), let c := Store.Command.patchConfig id patch
        (∀ n, s.graph.node? id = some n → n.config = base →
          (s.editAll [c, c] = s.editAll [c] ↔ base.Covers patch) ∧
            s.editAll [c, c, c] = s.editAll [c, c]) ∧
          (s.graph.hasNode id = false → s.editAll [c, c] = s.editAll [c]) := by
  refine ⟨Object.deepMerge_again_iff hbase hpatch, Object.deepMerge_thrice hbase hpatch, ?_⟩
  intro s id c
  constructor
  · rintro n hn rfl
    obtain ⟨before, after, hfirst⟩ := Store.exists_first hn
    constructor
    · exact (Store.editAll_patchConfig_inj hfirst [patch, patch] [patch]).trans
        (Object.deepMerge_again_iff hbase hpatch)
    · exact (Store.editAll_patchConfig_inj hfirst [patch, patch, patch] [patch, patch]).2
        (Object.deepMerge_thrice hbase hpatch)
  · intro hunknown
    have htwice := Store.editAll_patchConfig_unknown hunknown [patch, patch]
    exact htwice.trans (Store.editAll_patchConfig_unknown hunknown [patch]).symm

/-- A key is removed from an object that is there. -/
theorem patch_again_iff_of_present_object :
    let base : Object := [("limits", .obj [("burst", .int 2), ("cooldown", .int 30)])]
    let patch : Object := [("limits", .obj [("burst", .int 3), ("cooldown", .null)])]
    (Value.obj base).Canonical ∧ (Value.obj patch).Canonical ∧ base.Covers patch := by
  intro base patch
  have hbase : (Value.obj base).Canonical := by
    simp only [base, Value.Canonical, Value.CanonicalEntries]
    decide
  have hpatch : (Value.obj patch).Canonical := by
    simp only [patch, Value.Canonical, Value.CanonicalEntries]
    decide
  exact ⟨hbase, hpatch, (patch_again_iff hbase hpatch).1.1 rfl⟩

/-- A key that is to be removed from an object which is not there yet is put in, and only removed
the second time. -/
theorem patch_puts_null_in :
    let patch : Object := [("a", .obj [("b", .null)])]
    let s := Store.ofGraph ⟨[{ id := "n" }], []⟩
    let c := Store.Command.patchConfig "n" patch
    Object.deepMerge [] patch = [("a", .obj [("b", .null)])] ∧
      (Object.deepMerge [] patch).deepMerge patch = [("a", .obj [])] ∧
      (Object.deepMerge [] patch).deepMerge patch ≠ Object.deepMerge [] patch ∧
      s.editAll [c, c] ≠ s.editAll [c] := by
  intro patch s c
  refine ⟨rfl, rfl, nofun, fun h => ?_⟩
  have hnodes : (s.editAll [c, c]).graph.nodes.map (·.config) =
      (s.editAll [c]).graph.nodes.map (·.config) := by rw [h]
  revert hnodes
  nofun

end StepFlow
