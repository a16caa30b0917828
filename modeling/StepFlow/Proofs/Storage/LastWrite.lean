import Mathlib.Data.Finset.Card
import StepFlow.Storage.Command

/-!
# A repository is a map

Flows come into a repository in several ways, and a saved flow takes the place of the one that has
its id. A session of writes comes down to what each of them writes under which id: whatever is read
afterwards is what was written last under that id. Nothing is assumed of the ids of new flows; one
that is in use already counts as a write to that flow.

## Main definitions

* `Content`: what a write puts under an id.
* `Command.written?`: the id to which a command writes, and the content.
* `lastWritten?`: what was written last under an id.

## Main statements

* `get?_performAll`: the entries after a session.
* `reads_last_write`: what is read after a session.
-/

namespace StepFlow.Repository

/-- What a write puts under an id. -/
structure Content where
  name : String
  flow : StoredFlow
  /-- The current step; only a run knows one. -/
  current : Option String := none

/-- The entry with a content. No write names a successor. -/
def Content.entry (c : Content) : Entry :=
  { name := c.name, flow := c.flow, current := c.current }

/-- The id to which a command writes, and the content. JSON that is no flow is not written. -/
def Command.written? : Command → Option (String × Content)
  | .insertGraph newId name g => some (newId, { name, flow := .graph g })
  | .insertSteps newId name steps => some (newId, { name, flow := .steps steps })
  | .insertJson newId name v =>
    (StoredFlow.fromJson v).toOption.map fun flow => (newId, { name, flow })
  | .save newId flow record => some (flow.getD newId,
      { name := record.name, flow := .graph ⟨record.nodes, record.edges⟩, current := record.current })

/-- All contents with their ids, in the order in which they were written. -/
def written (commands : List Command) : Keyed Content :=
  commands.filterMap Command.written?

/-- What was written last under an id. -/
def lastWritten? (commands : List Command) (id : String) : Option Content :=
  Keyed.get? (written commands).reverse id

/-- The ids under which something was written. -/
def writtenIds (commands : List Command) : List String :=
  (written commands).keys

variable {r : Repository} {c : Command} {commands : List Command} {id : String}
  {content : Content} {v : Json.Value} {fault : Json.DecodeError}

/-- Whether no entry names a successor. -/
def NamesNoNext (r : Repository) : Prop :=
  ∀ id, (r.get? id).bind Entry.next = none

/-! ### One command -/

theorem perform_insertJson_of_error (h : StoredFlow.fromJson v = .error fault) (r : Repository)
    (newId name : String) :
    r.perform (.insertJson newId name v) = (.error (.malformed fault), r) := by
  have hstore : r.storeJson newId name v = .error (.malformed fault) := by
    rw [storeJson, StoredFlow.ofJson, h]
    rfl
  rw [perform, hstore]

/-- A command that writes nothing leaves the repository as it is. -/
theorem perform_of_not_written (h : c.written? = none) (r : Repository) : (r.perform c).2 = r := by
  cases c with
  | insertJson newId name v =>
    cases hv : StoredFlow.fromJson v with
    | ok flow => simp [Command.written?, hv, Except.toOption] at h
    | error fault => rw [perform_insertJson_of_error hv]
  | insertGraph | insertSteps | save => simp [Command.written?] at h

/-- A command that writes sets the entry of its id and answers the id. -/
theorem perform_of_written (hr : r.NamesNoNext) (h : c.written? = some (id, content)) :
    r.perform c = (.ok id, r.insert id content.entry) := by
  cases c with
  | insertGraph newId name g =>
    cases h
    rfl
  | insertSteps newId name steps =>
    cases h
    rfl
  | insertJson newId name v =>
    cases hv : StoredFlow.fromJson v with
    | error fault => simp [Command.written?, hv, Except.toOption] at h
    | ok flow =>
      simp only [Command.written?, hv, Except.toOption, Option.map_some, Option.some.injEq,
        Prod.mk.injEq] at h
      obtain ⟨rfl, rfl⟩ := h
      have hstore : r.storeJson newId name v = .ok (r.store newId name flow) := by
        rw [storeJson, StoredFlow.ofJson, hv]
        rfl
      rw [perform, hstore]
      rfl
  | save newId flow record =>
    cases h
    -- what is stored under the id names no successor, so none is kept
    show (Except.ok (flow.getD newId), r.insert _ (r.entryFor _ record)) = _
    rw [entryFor, hr (flow.getD newId)]
    rfl

theorem NamesNoNext.perform (hr : r.NamesNoNext) (c : Command) : (r.perform c).2.NamesNoNext := by
  cases hwritten : c.written? with
  | none =>
    rw [perform_of_not_written hwritten]
    exact hr
  | some write =>
    obtain ⟨id, content⟩ := write
    rw [perform_of_written hr hwritten]
    intro other
    show ((r.insert id content.entry).get? other).bind Entry.next = none
    rw [KeyMap.get?_insert]
    by_cases hother : other = id
    · rw [if_pos hother]
      rfl
    · rw [if_neg hother]
      exact hr other

/-! ### A session -/

theorem written_concat (commands : List Command) (c : Command) :
    written (commands ++ [c]) = written commands ++ c.written?.toList := by
  rw [written, List.filterMap_append, List.filterMap_eq_flatMap_toList _ [c],
    List.flatMap_singleton, written]

theorem lastWritten?_concat_of_none (h : c.written? = none) (commands : List Command)
    (id : String) : lastWritten? (commands ++ [c]) id = lastWritten? commands id := by
  rw [lastWritten?, written_concat, h, Option.toList_none, List.append_nil, lastWritten?]

theorem lastWritten?_concat_of_some (h : c.written? = some (id, content))
    (commands : List Command) (other : String) :
    lastWritten? (commands ++ [c]) other =
      if other = id then some content else lastWritten? commands other := by
  rw [lastWritten?, written_concat, h, Option.toList_some, List.reverse_concat, Keyed.get?,
    lastWritten?]

theorem lastWritten?_eq_none_iff : lastWritten? commands id = none ↔ id ∉ writtenIds commands := by
  have hkeys : id ∈ writtenIds commands ↔ id ∈ Keyed.keys (written commands).reverse := by
    simp [writtenIds, Keyed.keys]
  rw [hkeys, Keyed.mem_keys, lastWritten?, Bool.not_eq_true, Option.isSome_eq_false_iff,
    Option.isNone_iff_eq_none]

theorem performAll_concat (r : Repository) (commands : List Command) (c : Command) :
    r.performAll (commands ++ [c]) = ((r.performAll commands).perform c).2 := by
  rw [performAll, List.foldl_append]
  rfl

theorem namesNoNext_performAll (commands : List Command) :
    (performAll .empty commands).NamesNoNext := by
  induction commands using List.reverseRecOn with
  | nil => exact fun id => rfl
  | append_singleton commands c ih =>
    rw [performAll_concat]
    exact ih.perform c

/-- The entry of an id holds what was written last under it. -/
theorem get?_performAll (commands : List Command) (id : String) :
    (performAll .empty commands).get? id = (lastWritten? commands id).map Content.entry := by
  induction commands using List.reverseRecOn with
  | nil => rfl
  | append_singleton commands c ih =>
    rw [performAll_concat]
    cases hwritten : c.written? with
    | none => rw [perform_of_not_written hwritten, lastWritten?_concat_of_none hwritten, ih]
    | some write =>
      obtain ⟨target, content⟩ := write
      rw [perform_of_written (namesNoNext_performAll commands) hwritten, KeyMap.get?_insert,
        lastWritten?_concat_of_some hwritten]
      by_cases hid : id = target
      · rw [if_pos hid, if_pos hid, Option.map_some]
      · rw [if_neg hid, if_neg hid, ih]

theorem size_performAll (commands : List Command) :
    (performAll .empty commands).size = (writtenIds commands).toFinset.card := by
  have hkeys : ∀ id, id ∈ (performAll .empty commands).entries.keys ↔ id ∈ writtenIds commands := by
    intro id
    rw [Keyed.mem_keys, ← not_iff_not, ← lastWritten?_eq_none_iff]
    show ¬((performAll .empty commands).get? id).isSome = true ↔ _
    simp [get?_performAll]
  have hnodup := (performAll .empty commands).ordered.nodup_keys
  calc (performAll .empty commands).size
      = (performAll .empty commands).entries.keys.length := (List.length_map _).symm
    _ = (performAll .empty commands).entries.keys.toFinset.card :=
        (List.toFinset_card_of_nodup hnodup).symm
    _ = (writtenIds commands).toFinset.card := by
        congr 1
        ext id
        rw [List.mem_toFinset, List.mem_toFinset, hkeys]

/-! ### Reading -/

/-- What is read under an id hangs on its entry alone. -/
theorem reads_of_get?_eq {r' : Repository} (h : r.get? id = r'.get? id) :
    r.load id = r'.load id ∧ r.source id = r'.source id := by
  rw [load, load, source, source, h]
  exact ⟨rfl, rfl⟩

theorem load_performAll (commands : List Command) (id : String) :
    (performAll .empty commands).load id =
      match lastWritten? commands id with
      | some content => .ok {
          name := some content.name
          nodes := content.flow.toGraph.nodes
          edges := content.flow.toGraph.edges
          current := content.current }
      | none => .error (.notFound id) := by
  rw [load, get?_performAll]
  cases lastWritten? commands id <;> rfl

theorem source_performAll (commands : List Command) (id : String) :
    (performAll .empty commands).source id =
      match lastWritten? commands id with
      | some content => .ok content.flow
      | none => .error (.notFound id) := by
  rw [source, get?_performAll]
  cases lastWritten? commands id <;> rfl

/-- After any session of writes to an empty repository, loading a flow gives what was written last
under its id, where a list of steps is put on the canvas, and the source gives the flow in the shape
in which it was written. What is not found was never written, and there are as many entries as ids
that were written. One more write is answered by its id, and all other ids are read as before; JSON
that is no flow is refused, and the repository stays as it is. -/
theorem reads_last_write (commands : List Command) :
    let r := performAll .empty commands
    (∀ id, r.load id =
      match lastWritten? commands id with
      | some content => .ok {
          name := some content.name
          nodes := content.flow.toGraph.nodes
          edges := content.flow.toGraph.edges
          current := content.current }
      | none => .error (.notFound id)) ∧
    (∀ id, r.source id =
      match lastWritten? commands id with
      | some content => .ok content.flow
      | none => .error (.notFound id)) ∧
    (∀ id, (r.load id = .error (.notFound id) ↔ id ∉ writtenIds commands) ∧
      (r.source id = .error (.notFound id) ↔ id ∉ writtenIds commands)) ∧
    r.size = (writtenIds commands).toFinset.card ∧
    (∀ c id content, c.written? = some (id, content) →
      (r.perform c).1 = .ok id ∧
      ∀ other, other ≠ id →
        (r.perform c).2.load other = r.load other ∧
        (r.perform c).2.source other = r.source other) ∧
    ∀ newId name v fault, StoredFlow.fromJson v = .error fault →
      r.perform (.insertJson newId name v) = (.error (.malformed fault), r) := by
  intro r
  refine ⟨load_performAll commands, source_performAll commands, fun id => ?_,
    size_performAll commands, fun c id content hwritten => ?_,
    fun newId name v fault hv => perform_insertJson_of_error hv r newId name⟩
  · rw [← lastWritten?_eq_none_iff, load_performAll, source_performAll]
    cases lastWritten? commands id <;> simp
  · have hperform := perform_of_written (namesNoNext_performAll commands) hwritten
    rw [hperform]
    refine ⟨rfl, fun other hother => reads_of_get?_eq ?_⟩
    rw [KeyMap.get?_insert, if_neg hother]

/-- A list of steps is replaced by a graph, next to a flow that keeps its own id and JSON that is
refused. -/
theorem reads_last_write_of_replaced_steps :
    let a : Node := { id := "a" }
    let steps := [a.toStep (.single "b"), { id := "b" : Node }.toStep .terminal]
    let commands : List Command := [
      .insertSteps "s" "generated" steps,
      .save "t" (some "mine") { name := "own", nodes := [a], edges := [], current := some "a" },
      .insertJson "u" "broken" (.obj [("nodes", .str "none")])]
    let r := performAll .empty commands
    let saved : Command := .save "t" (some "s") { name := "drawn", nodes := [a], edges := [] }
    r.load "s" = .ok {
        name := some "generated"
        nodes := (Graph.ofSteps steps).nodes
        edges := (Graph.ofSteps steps).edges } ∧
      r.source "s" = .ok (.steps steps) ∧
      r.load "u" = .error (.notFound "u") ∧
      r.size = 2 ∧
      (r.perform saved).1 = .ok "s" ∧
      (r.perform saved).2.load "mine" =
        .ok { name := some "own", nodes := [a], edges := [], current := some "a" } ∧
      r.perform (.insertJson "v" "broken" (.obj [("nodes", .str "none")])) =
        (.error (.malformed .noShape), r) := by
  intro a steps commands r saved
  obtain ⟨hload, hsource, hmissing, hsize, hwrite, hrefused⟩ := reads_last_write commands
  have hbroken : StoredFlow.fromJson (.obj [("nodes", .str "none")]) = .error .noShape := rfl
  have hids : writtenIds commands = ["s", "mine"] := rfl
  obtain ⟨hanswer, hothers⟩ := hwrite saved "s" _ rfl
  refine ⟨hload "s", hsource "s", (hmissing "u").1.2 ?_, ?_, hanswer, ?_,
    hrefused "v" "broken" _ _ hbroken⟩
  · rw [hids]
    decide
  · exact hsize.trans (by rw [hids]; rfl)
  · exact (hothers "mine" (by decide)).1.trans (hload "mine")

end StepFlow.Repository
