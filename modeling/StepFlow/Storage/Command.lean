import StepFlow.Storage.Repository

/-!
# Commands that write to a repository

## Main definitions

* `Repository.Command`: an operation that writes to a repository.
* `Repository.perform`: carries out a command.
* `Repository.performAll`: the repository after commands carried out one after the other.
-/

namespace StepFlow.Repository

/-- An operation that writes to a repository. The id of a new flow comes with it. -/
inductive Command
  | insertGraph (newId name : String) (g : Graph)
  | insertSteps (newId name : String) (steps : List Step)
  | insertJson (newId name : String) (v : Json.Value)
  | save (newId : String) (flow : Option String) (record : FlowRecord)

/-- Carries out a command. Returns the id under which the flow is stored. -/
def perform (r : Repository) : Command → Except SourceError String × Repository
  | .insertGraph newId name g => (.ok newId, r.store newId name (.graph g))
  | .insertSteps newId name steps => (.ok newId, r.store newId name (.steps steps))
  | .insertJson newId name v =>
    match r.storeJson newId name v with
    | .ok stored => (.ok newId, stored)
    | .error e => (.error e, r)
  | .save newId flow record =>
    let (id, saved) := r.save newId flow record
    (.ok id, saved)

/-- The repository after a list of commands. -/
def performAll (r : Repository) (commands : List Command) : Repository :=
  commands.foldl (fun r c => (r.perform c).2) r

end StepFlow.Repository
