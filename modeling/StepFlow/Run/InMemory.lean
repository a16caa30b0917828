import StepFlow.Run.Basic

/-!
# Runs over a repository in memory

## Main definitions

* `Repository.storage`: a repository as the storage of a run.
* `Host.inMemory`: a host whose storage is a repository.

## Design notes

The world of such a run is the repository together with everything that the backend and the choice
of new ids depend on. The backend does not get at the repository.
-/

namespace StepFlow

/-- A repository as the storage of a run. A flow without an id is saved under the next new one. -/
def Repository.storage (newId : σ → String × σ) : Storage (Repository × σ) where
  save flow record world :=
    let (made, later) := newId world.2
    let (id, repository) := Repository.save world.1 made flow record
    (.ok id, repository, if flow.isNone then later else world.2)
  load flow world := (Repository.load world.1 flow, world)

/-- The same host with a repository as its storage. -/
def Host.inMemory (host : Host σ) (newId : σ → String × σ) : Host (Repository × σ) where
  storage := some (Repository.storage newId)
  execute request world :=
    let (answer, later) := host.execute request world.2
    (answer, world.1, later)
  registry := host.registry
  settings := host.settings

end StepFlow
