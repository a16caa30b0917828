import StepFlow.Compose.Basic

/-!
# Editing commands

## Main definitions

* `Store.Command`: an operation of an author on the store.
* `Store.edit`: carries out a command.
* `Store.editAll`: the store after commands carried out one after the other.
-/

namespace StepFlow

open Json (Object Value)

/-- Why an edit failed. -/
inductive EditError
  | store (cause : StoreError)
  | compose (cause : ComposeError)
  deriving DecidableEq, Repr

/-- How a failed edit is reported. -/
def EditError.diagnostic : EditError → Diagnostic
  | store cause => cause.diagnostic
  | compose cause => cause.diagnostic

namespace Store

/-- An operation of an author on the store. -/
inductive Command
  | addNode (n : Node)
  | addAgent (id : String) (position : Position)
  | removeNode (id : String)
  | moveNode (id : String) (position : Position)
  | patchConfig (id : String) (patch : Object)
  | addEdge (e : Edge)
  | connect (source target : String)
  | removeEdge (id : String)
  | fillGaps (mode : GapMode)
  | merge (g : Graph)
  | compose (composer : Composer) (parent : String)
  | composeAll (composer : Composer)
  | removeSubflow (parent : String)
  | setPointers (pointers : Pointers)
  | record (step : String) (result : Value)
  | clear
  | resetRun
  | load (flowId : String) (flow : PersistedFlow)
  | setMetadata (flowId : Option String) (name : String)
  | setFlowId (flowId : String)

/-- What an operation returns. -/
inductive Answer
  | done
  | flag (b : Bool)
  | count (n : Nat)
  | id (id : String)
  | node (n : Node)
  | edge (e : Option Edge)
  | merged (summary : MergeSummary)
  | report (composed : List (String × MergeSummary)) (failed : List ComposeError)

/-- What came of an edit. -/
structure Edited where
  answer : Except EditError Answer
  store : Store
  notices : List Notice := []
  /-- The ids that a source was asked for. -/
  fetched : List String := []

/-- An edit that returns an answer. -/
def edited (answer : Answer) (s : Store) : Edited :=
  { answer := .ok answer, store := s }

/-- An edit that may fail, and then leaves the store as it was. -/
def editedOr (s : Store) : Except StoreError (Answer × Store) → Edited
  | .ok (answer, s') => edited answer s'
  | .error e => { answer := .error (.store e), store := s }

/-- Carries out a command. -/
def edit (s : Store) : Command → Edited
  | .addNode n => s.editedOr ((s.addNode n).map fun s' => (.done, s'))
  | .addAgent id position => edited (.id id) (s.addAgent id position)
  | .removeNode id => s.editedOr ((s.removeNode id).map fun (n, s') => (.node n, s'))
  | .moveNode id position => s.editedOr ((s.moveNode id position).map fun s' => (.done, s'))
  | .patchConfig id patch => s.editedOr ((s.patchConfig id patch).map fun s' => (.done, s'))
  | .addEdge e => edited (.flag (s.addEdge e).1) (s.addEdge e).2
  | .connect source target =>
    s.editedOr ((s.connect source target).map fun (id, s') => (.id id, s'))
  | .removeEdge id => edited (.edge (s.removeEdge id).1) (s.removeEdge id).2
  | .fillGaps mode => edited (.count (s.fillGaps mode).1) (s.fillGaps mode).2
  | .merge g => edited (.merged (s.merge g).1) (s.merge g).2
  | .compose composer parent =>
    let c := composer.compose s parent
    { answer := (c.result.map .merged).mapError .compose
      store := c.store
      notices := c.notices
      fetched := c.fetched }
  | .composeAll composer =>
    let r := composer.composeAll s
    { answer := .ok (.report r.composed r.failed)
      store := r.store
      notices := r.notices
      fetched := r.fetched }
  | .removeSubflow parent => edited (.count (s.removeSubflow parent).1) (s.removeSubflow parent).2
  | .setPointers pointers => edited .done (s.setPointers pointers)
  | .record step result => edited .done (s.record step result)
  | .clear => edited .done s.clear
  | .resetRun => edited .done s.resetRun
  | .load flowId flow => edited .done (.load flowId flow)
  | .setMetadata flowId name => edited .done (s.setMetadata flowId name)
  | .setFlowId flowId => edited .done (s.setFlowId flowId)

/-- The store after a list of commands. -/
def editAll (s : Store) (commands : List Command) : Store :=
  commands.foldl (fun s c => (s.edit c).store) s

end Store

end StepFlow
