import StepFlow.Store.Command

/-!
# What edits leave alone

Editing the flow changes its graph and nothing else: neither its id nor the results of a run. Of all
operations on the store only those that give the run up forget the results, only `record` adds to
them, and only three set the id.

## Main definitions

* `Store.Command.editsGraph`: operations that edit the graph.
* `Store.Command.keepsId`: operations that leave the id of the flow alone.
* `Store.Command.keepsGraph`: operations that leave the graph alone.

## Main statements

* `Store.edit_of_editsGraph`: an edit of the graph changes nothing but the graph.
* `Store.context_edit`: an edit that records nothing keeps the results or forgets all of them.
* `Store.flowId_edit`: the id of the flow after an edit that leaves it alone.
* `Store.edit_of_keepsGraph`: an edit that leaves the graph alone.
-/

namespace StepFlow

variable {s s' : Store}

/-- The store with another graph. -/
def Store.withGraph (s : Store) (graph : Graph) : Store :=
  { s with graph }

theorem Composer.compose_store (composer : Composer) (s : Store) (parent : String) :
    (composer.compose s parent).store =
      s.withGraph (composer.compose s parent).store.graph := by
  unfold Composer.compose
  split
  · rfl
  · next n _ => cases composer.fetchFragment n <;> rfl

theorem Composer.addFragment_store (r : CompositionReport)
    (fragment : Except ComposeError Fragment) :
    (addFragment r fragment).store = r.store.withGraph (addFragment r fragment).store.graph := by
  cases fragment <;> rfl

theorem Composer.composeAll_store (composer : Composer) (s : Store) :
    (composer.composeAll s).store = s.withGraph (composer.composeAll s).store.graph := by
  have hfold : ∀ (fragments : List (Except ComposeError Fragment)) (r : CompositionReport),
      (fragments.foldl addFragment r).store =
        r.store.withGraph (fragments.foldl addFragment r).store.graph := by
    intro fragments
    induction fragments with
    | nil => exact fun _ => rfl
    | cons fragment fragments ih =>
      intro r
      rw [List.foldl_cons, ih, addFragment_store]
      rfl
  exact hfold _ _

namespace Store

/-- Whether an operation edits the graph. -/
def Command.editsGraph : Command → Bool
  | .setPointers _ | .record .. | .clear | .resetRun | .load .. | .setMetadata ..
  | .setFlowId _ => false
  | _ => true

/-- Whether an operation leaves the id of the flow alone. -/
def Command.keepsId : Command → Bool
  | .load .. | .setMetadata .. | .setFlowId _ => false
  | _ => true

/-- Whether an operation leaves the graph alone. -/
def Command.keepsGraph : Command → Bool
  | .setPointers _ | .record .. | .resetRun | .setMetadata .. | .setFlowId _ => true
  | _ => false

/-- An edit that may fail changes the graph only if it does so where it succeeds. -/
theorem editedOr_map_store {β : Type} {result : Except StoreError β} {f : β → Answer × Store}
    (h : ∀ b, result = .ok b → (f b).2 = s.withGraph (f b).2.graph) :
    (s.editedOr (result.map f)).store = s.withGraph (s.editedOr (result.map f)).store.graph := by
  match result with
  | .ok b => exact h b rfl
  | .error e => rfl

theorem addNode_eq {n : Node} (h : s.addNode n = .ok s') : s' = s.withGraph s'.graph := by
  unfold addNode at h
  split at h <;> cases h
  rfl

theorem removeNode_eq {id : String} {n : Node} (h : s.removeNode id = .ok (n, s')) :
    s' = s.withGraph s'.graph := by
  unfold removeNode at h
  split at h <;> cases h
  rfl

theorem updateNode_eq {id : String} {f : Node → Node} (h : s.updateNode id f = .ok s') :
    s' = s.withGraph s'.graph := by
  unfold updateNode at h
  split at h <;> cases h
  rfl

theorem connect_eq {source target id : String} (h : s.connect source target = .ok (id, s')) :
    s' = s.withGraph s'.graph := by
  unfold connect at h
  split at h
  · cases h
  · split at h
    · cases h
    · split at h <;> cases h <;> rfl

/-- An edit of the graph changes nothing but the graph. -/
theorem edit_of_editsGraph {c : Command} (h : c.editsGraph = true) :
    (s.edit c).store = s.withGraph (s.edit c).store.graph := by
  cases c with
  | setPointers | record | clear | resetRun | load | setMetadata | setFlowId => cases h
  | addAgent | addEdge | removeEdge | fillGaps | merge | removeSubflow => rfl
  | addNode n => exact editedOr_map_store fun _ h => addNode_eq h
  | removeNode id => exact editedOr_map_store fun _ h => removeNode_eq h
  | moveNode id position => exact editedOr_map_store fun _ h => updateNode_eq h
  | patchConfig id patch => exact editedOr_map_store fun _ h => updateNode_eq h
  | connect source target => exact editedOr_map_store fun _ h => connect_eq h
  | compose composer parent => exact composer.compose_store s parent
  | composeAll composer => exact composer.composeAll_store s

/-- An edit that records nothing keeps the results or forgets all of them. -/
theorem context_edit {c : Command} (h : ∀ step result, c ≠ .record step result) :
    (s.edit c).store.context = s.context ∨ (s.edit c).store.context = {} := by
  cases hgraph : c.editsGraph with
  | true =>
    rw [edit_of_editsGraph hgraph]
    exact .inl rfl
  | false =>
    cases c with
    | record step result => exact absurd rfl (h step result)
    | clear | resetRun | load => exact .inr rfl
    | setPointers | setMetadata | setFlowId => exact .inl rfl
    | _ => cases hgraph

/-- The id of the flow after an edit that leaves it alone. -/
theorem flowId_edit {c : Command} (h : c.keepsId = true) :
    (s.edit c).store.flowId = s.flowId := by
  cases hgraph : c.editsGraph with
  | true =>
    rw [edit_of_editsGraph hgraph]
    rfl
  | false =>
    cases c with
    | load | setMetadata | setFlowId => cases h
    | setPointers | record | clear | resetRun => rfl
    | _ => cases hgraph

/-- An edit that leaves the graph alone has nothing to tell either. -/
theorem edit_of_keepsGraph {c : Command} (h : c.keepsGraph = true) :
    (s.edit c).store.graph = s.graph ∧ (s.edit c).notices = [] := by
  cases c with
  | setPointers | record | resetRun | setMetadata | setFlowId => exact ⟨rfl, rfl⟩
  | _ => cases h

end Store

end StepFlow
