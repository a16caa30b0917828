import Mathlib.Data.List.Induction
import StepFlow.Proofs.Keyed
import StepFlow.Store.Context

/-!
# Results in the order of their steps

A context is a map from steps to results that remembers in which order the steps came. A result that
is recorded again takes the place of the earlier one, and its step keeps its place. So what a
context holds after any operations can be told from what was recorded since it was last cleared.

## Main definitions

* `Context.recordings`: what operations recorded since they last cleared the context.
* `Context.firstSteps`: the steps in the order in which they were first recorded.
* `Context.lastResult?`: the result that was recorded last for a step.
* `Context.Reflects`: a context is told by what was recorded.

## Main statements

* `Context.reflects_performAll`: this holds after any operations.
* `Context.performAll_last_writes`: the entries, look-up and the latest entry.
-/

namespace StepFlow.Context

open Json (Value)

/-- What was recorded after one more operation, given what was recorded before. -/
def Command.note (earlier : List StepResult) : Command → List StepResult
  | .record step result => earlier ++ [⟨step, result⟩]
  | .clear => []

/-- What operations recorded since they last cleared the context, from first to last. -/
def recordings (commands : List Command) : List StepResult :=
  commands.foldl Command.note []

/-- The steps of results, each once, in the order of their first results. -/
def firstSteps (results : List StepResult) : List String :=
  (results.map (·.step)).eraseDups

/-- The last one of the results for a step. -/
def lastResult? (results : List StepResult) (step : String) : Option Value :=
  (results.reverse.find? fun entry => entry.step = step).map (·.result)

/-- Whether a context has the steps of the results in the order of their first ones, and finds the
last result for each. -/
structure Reflects (c : Context) (results : List StepResult) : Prop where
  steps : c.steps = firstSteps results
  get? : ∀ step, c.get? step = lastResult? results step

variable {c : Context} {results : List StepResult} {step : String} {result : Value}

theorem firstSteps_concat (results : List StepResult) (step : String) (result : Value) :
    firstSteps (results ++ [⟨step, result⟩]) =
      if step ∈ firstSteps results then firstSteps results
      else firstSteps results ++ [step] := by
  simp only [firstSteps, List.map_append, List.map_cons, List.map_nil, List.eraseDups_append,
    List.removeAll, List.mem_eraseDups]
  by_cases h : step ∈ results.map (·.step)
  · rw [if_pos h, List.filter_cons_of_neg (by simpa using h), List.filter_nil, List.eraseDups_nil,
      List.append_nil]
  · rw [if_neg h, List.filter_cons_of_pos (by simpa using h), List.filter_nil, List.eraseDups_cons,
      List.filter_nil, List.eraseDups_nil]

theorem nodup_firstSteps (results : List StepResult) : (firstSteps results).Nodup := by
  induction results using List.reverseRecOn with
  | nil => exact List.nodup_nil
  | append_singleton results entry ih =>
    rw [firstSteps_concat]
    split
    · exact ih
    · next hnew =>
      refine List.nodup_append.2 ⟨ih, List.nodup_singleton _, fun step hstep last hlast heq => ?_⟩
      rw [heq, List.mem_singleton.1 hlast] at hstep
      exact hnew hstep

theorem lastResult?_concat (results : List StepResult) (step other : String) (result : Value) :
    lastResult? (results ++ [⟨step, result⟩]) other =
      if step = other then some result else lastResult? results other := by
  simp only [lastResult?, List.reverse_append, List.reverse_singleton, List.singleton_append,
    List.find?_cons]
  by_cases h : step = other <;> simp [h]

/-- There is no last result for a step for which nothing was recorded. -/
theorem lastResult?_eq_none_iff :
    lastResult? results step = none ↔ ∀ entry ∈ results, entry.step ≠ step := by
  simp [lastResult?]

/-- A step that was recorded before keeps its place, and any other one comes last. -/
theorem steps_recordIn (step : String) (result : Value) (entries : List StepResult) :
    (recordIn step result entries).map (·.step) =
      if step ∈ entries.map (·.step) then entries.map (·.step)
      else entries.map (·.step) ++ [step] := by
  induction entries with
  | nil => rfl
  | cons entry rest ih =>
    by_cases hentry : entry.step = step
    · simp [recordIn, hentry]
    · rw [recordIn, if_neg hentry, List.map_cons, ih, List.map_cons]
      have hmem : step ∈ entry.step :: rest.map (·.step) ↔ step ∈ rest.map (·.step) :=
        List.mem_cons.trans (or_iff_right (Ne.symm hentry))
      simp only [hmem]
      split <;> rfl

theorem steps_record (c : Context) (step : String) (result : Value) :
    (c.record step result).steps = if step ∈ c.steps then c.steps else c.steps ++ [step] :=
  steps_recordIn step result c.entries

/-- In a context with different steps look-up finds each entry. -/
theorem get?_of_mem (hnodup : c.steps.Nodup) {entry : StepResult} (h : entry ∈ c.entries) :
    c.get? entry.step = some entry.result := by
  rw [Context.get?, find?_key_of_nodup hnodup h]
  rfl

theorem reflects_empty : Reflects {} [] where
  steps := rfl
  get? _ := rfl

theorem Reflects.record (h : c.Reflects results) (step : String) (result : Value) :
    (c.record step result).Reflects (results ++ [⟨step, result⟩]) where
  steps := by rw [steps_record, firstSteps_concat, h.steps]
  get? other := by rw [get?_record, lastResult?_concat, h.get?]

/-- One operation more is reflected by what it records or clears. -/
theorem Reflects.perform (h : c.Reflects results) (command : Command) :
    (c.perform command).Reflects (command.note results) := by
  cases command with
  | record step result => exact h.record step result
  | clear => exact reflects_empty

theorem reflects_performAll (commands : List Command) :
    (performAll {} commands).Reflects (recordings commands) := by
  have hall : ∀ {c results}, Reflects c results →
      Reflects (c.performAll commands) (commands.foldl Command.note results) := by
    induction commands with
    | nil => exact fun h => h
    | cons command commands ih => exact fun h => ih (h.perform command)
  exact hall reflects_empty

/-- The entries are the steps in the order of their first results, each with its last one. -/
theorem Reflects.entries (h : c.Reflects results) :
    c.entries.map (fun entry => (entry.step, some entry.result)) =
      (firstSteps results).map fun step => (step, lastResult? results step) := by
  have hnodup : c.steps.Nodup := h.steps ▸ nodup_firstSteps results
  rw [← h.steps, Context.steps, List.map_map]
  refine List.map_congr_left fun entry hentry => ?_
  rw [← get?_of_mem hnodup hentry, h.get?]
  rfl

/-- After any operations on an empty context its entries are the steps that were recorded since it
was last cleared, each once, in the order in which they were first recorded, with the results that
were recorded last. Look-up finds these results and nothing for any other step, and the latest entry
is the one of the step that was first recorded last. -/
theorem performAll_last_writes (commands : List Command) :
    let c := performAll {} commands
    let results := recordings commands
    c.entries.map (fun entry => (entry.step, some entry.result)) =
        (firstSteps results).map (fun step => (step, lastResult? results step)) ∧
      c.steps.Nodup ∧
      (∀ step, c.get? step = lastResult? results step ∧
        (c.get? step = none ↔ ∀ entry ∈ results, entry.step ≠ step)) ∧
      c.latest?.map (fun entry => (entry.step, some entry.result)) =
        (firstSteps results).getLast?.map fun step => (step, lastResult? results step) := by
  intro c results
  have hreflects : c.Reflects results := reflects_performAll commands
  refine ⟨hreflects.entries, hreflects.steps ▸ nodup_firstSteps results, fun step => ?_, ?_⟩
  · rw [hreflects.get?, lastResult?_eq_none_iff]
    exact ⟨rfl, Iff.rfl⟩
  · rw [latest?, ← List.getLast?_map, hreflects.entries, List.getLast?_map]

/-- The first step is recorded again and keeps its place. -/
example : (performAll {} [.record "c" .null, .clear, .record "a" (.int 1), .record "b" (.int 2),
    .record "a" (.int 3)]).steps = ["a", "b"] := by
  decide

end StepFlow.Context
