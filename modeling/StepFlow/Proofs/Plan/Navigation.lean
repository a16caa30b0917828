import StepFlow.Plan.Basic
import StepFlow.Proofs.Keyed

/-!
# Finding one's way in a plan

The index of a plan holds each id with each of its places. In a plan that has no id twice, a place
and the id at it determine each other. So looking up an id and going one step on or back is moving
by one place in the list of ids.

## Main definitions

* `Plan.Continues`: what comes right after an id.

## Main statements

* `Plan.position?_eq_some_iff`: the place of an id.
* `Plan.get?_eq_some_iff`: the step with an id.
* `Plan.map_following?_eq_some_iff`, `Plan.map_preceding?_eq_some_iff`: the neighbours of an id.
* `Plan.continues_following?`, `Plan.continues_preceding?`: a step on, and a step back.
-/

namespace StepFlow.Plan

variable {p : Plan} {id : String} {i : Nat} {s : Step}

@[simp] theorem length_ids (p : Plan) : p.ids.length = p.steps.length :=
  List.length_map ..

theorem getElem?_ids (p : Plan) (i : Nat) : p.ids[i]? = p.steps[i]?.map (·.id) :=
  List.getElem?_map ..

theorem keys_index (p : Plan) : Keyed.keys p.index = p.ids.reverse := by
  have hids : p.ids = (p.steps.zipIdx.map (·.1)).map (·.id) := by rw [List.zipIdx_map_fst, ids]
  rw [Keyed.keys, index, List.map_reverse, List.map_map, hids, List.map_map]
  rfl

/-- The index holds each id with each of its places. -/
theorem mem_index_iff : (id, i) ∈ p.index ↔ p.ids[i]? = some id := by
  simp [index, getElem?_ids, List.mem_zipIdx_iff_getElem?]

theorem position?_eq_none_iff : p.position? id = none ↔ id ∉ p.ids := by
  rw [position?, Keyed.get?_eq_none_iff, keys_index, List.mem_reverse]

theorem contains_iff : p.contains id = true ↔ id ∈ p.ids := by
  rw [contains, Keyed.contains, ← Keyed.mem_keys, keys_index, List.mem_reverse]

theorem getElem?_of_position? (h : p.position? id = some i) : p.ids[i]? = some id :=
  mem_index_iff.1 (Keyed.mem_of_get? h)

/-- The place of an id is the only one at which it stands. -/
theorem position?_eq_some_iff (hnodup : p.ids.Nodup) :
    p.position? id = some i ↔ p.ids[i]? = some id := by
  have hkeys : (Keyed.keys p.index).Nodup := by rwa [keys_index, List.nodup_reverse]
  rw [position?, Keyed.get?_eq_some_iff hkeys, mem_index_iff]

theorem get?_of_getElem? (hnodup : p.ids.Nodup) (h : p.steps[i]? = some s) :
    p.get? s.id = some s := by
  have hid : p.ids[i]? = some s.id := by rw [getElem?_ids, h, Option.map_some]
  rw [get?, (position?_eq_some_iff hnodup).2 hid, Option.bind_some, h]

theorem get?_eq_some_iff (hnodup : p.ids.Nodup) :
    p.get? id = some s ↔ s ∈ p.steps ∧ s.id = id := by
  constructor
  · intro h
    obtain ⟨i, hpos, hstep⟩ := Option.bind_eq_some_iff.1 h
    have hid := getElem?_of_position? hpos
    rw [getElem?_ids, hstep, Option.map_some] at hid
    exact ⟨List.mem_of_getElem? hstep, Option.some.inj hid⟩
  · rintro ⟨hs, rfl⟩
    obtain ⟨i, hi⟩ := List.mem_iff_getElem?.1 hs
    exact get?_of_getElem? hnodup hi

theorem get?_eq_none_iff (hnodup : p.ids.Nodup) : p.get? id = none ↔ id ∉ p.ids := by
  simp [Option.eq_none_iff_forall_ne_some, get?_eq_some_iff hnodup, ids]

/-- Nothing comes after an id exactly if it is the last one. -/
theorem getElem?_succ_eq_none_iff (hnodup : p.ids.Nodup) (h : p.ids[i]? = some id) :
    p.ids[i + 1]? = none ↔ p.ids.getLast? = some id := by
  have hlt : i < p.ids.length := (List.getElem?_eq_some_iff.1 h).1
  rw [List.getElem?_eq_none_iff, List.getLast?_eq_getElem?]
  constructor
  · intro hlength
    have hlast : p.ids.length - 1 = i := by omega
    rw [hlast, h]
  · intro hlast
    have hsame := (List.getElem?_inj hlt hnodup).1 (h.trans hlast.symm)
    omega

theorem map_following?_of_getElem? (hnodup : p.ids.Nodup) (h : p.ids[i]? = some id) :
    (p.following? id).map (·.id) = p.ids[i + 1]? := by
  rw [following?, (position?_eq_some_iff hnodup).2 h, Option.bind_some, getElem?_ids]

theorem following?_of_not_mem (h : id ∉ p.ids) : p.following? id = none := by
  rw [following?, position?_eq_none_iff.2 h, Option.bind_none]

/-- What follows an id stands right after it. -/
theorem map_following?_eq_some_iff (hnodup : p.ids.Nodup) {next : String} :
    (p.following? id).map (·.id) = some next ↔
      ∃ i, p.ids[i]? = some id ∧ p.ids[i + 1]? = some next := by
  constructor
  · intro h
    obtain ⟨s, hfollowing, rfl⟩ := Option.map_eq_some_iff.1 h
    obtain ⟨i, hpos, hstep⟩ := Option.bind_eq_some_iff.1 hfollowing
    exact ⟨i, getElem?_of_position? hpos, by rw [getElem?_ids, hstep, Option.map_some]⟩
  · rintro ⟨i, hid, hnext⟩
    rw [map_following?_of_getElem? hnodup hid, hnext]

theorem following?_eq_none_iff (hnodup : p.ids.Nodup) :
    p.following? id = none ↔ p.ids.getLast? = some id ∨ id ∉ p.ids := by
  by_cases h : id ∈ p.ids
  · obtain ⟨i, hid⟩ := List.mem_iff_getElem?.1 h
    rw [← Option.map_eq_none_iff, map_following?_of_getElem? hnodup hid,
      getElem?_succ_eq_none_iff hnodup hid]
    exact (or_iff_left (not_not_intro h)).symm
  · exact iff_of_true (following?_of_not_mem h) (.inr h)

/-- Whether `next` comes right after an id in a plan. Nothing comes after the last id, nor after one
that is not planned. -/
structure Continues (p : Plan) (id : String) (next : Option String) : Prop where
  planned : ∀ i, p.ids[i]? = some id → next = p.ids[i + 1]?
  unplanned : id ∉ p.ids → next = none

theorem continues_following? (hnodup : p.ids.Nodup) (id : String) :
    p.Continues id ((p.following? id).map (·.id)) where
  planned _ h := map_following?_of_getElem? hnodup h
  unplanned h := by rw [following?_of_not_mem h, Option.map_none]

theorem mem_of_following? (h : p.following? id = some s) : s ∈ p.steps := by
  obtain ⟨i, -, hstep⟩ := Option.bind_eq_some_iff.1 h
  exact List.mem_of_getElem? hstep

theorem mem_of_preceding? (h : p.preceding? id = some s) : s ∈ p.steps := by
  obtain ⟨i, -, hstep⟩ := Option.bind_eq_some_iff.1 h
  split at hstep
  · cases hstep
  · exact List.mem_of_getElem? hstep

theorem mem_ids_of_preceding? (h : p.preceding? id = some s) : s.id ∈ p.ids :=
  List.mem_map_of_mem (mem_of_preceding? h)

theorem preceding?_of_not_mem (h : id ∉ p.ids) : p.preceding? id = none := by
  rw [preceding?, position?_eq_none_iff.2 h, Option.bind_none]

/-- Nothing comes before the first id. -/
theorem preceding?_of_first (hnodup : p.ids.Nodup) (h : p.ids[0]? = some id) :
    p.preceding? id = none := by
  rw [preceding?, (position?_eq_some_iff hnodup).2 h, Option.bind_some, if_pos rfl]

theorem map_preceding?_of_getElem? (hnodup : p.ids.Nodup) (h : p.ids[i + 1]? = some id) :
    (p.preceding? id).map (·.id) = p.ids[i]? := by
  rw [preceding?, (position?_eq_some_iff hnodup).2 h, Option.bind_some,
    if_neg (Nat.succ_ne_zero i), Nat.add_sub_cancel, getElem?_ids]

/-- What precedes an id stands right before it. -/
theorem map_preceding?_eq_some_iff (hnodup : p.ids.Nodup) {previous : String} :
    (p.preceding? id).map (·.id) = some previous ↔
      ∃ i, p.ids[i]? = some previous ∧ p.ids[i + 1]? = some id := by
  constructor
  · intro h
    obtain ⟨s, hpreceding, rfl⟩ := Option.map_eq_some_iff.1 h
    obtain ⟨i, hpos, hstep⟩ := Option.bind_eq_some_iff.1 hpreceding
    have hid := getElem?_of_position? hpos
    cases i with
    | zero => exact absurd hstep (by simp)
    | succ i =>
      rw [if_neg (Nat.succ_ne_zero i), Nat.add_sub_cancel] at hstep
      exact ⟨i, by rw [getElem?_ids, hstep, Option.map_some], hid⟩
  · rintro ⟨i, hprevious, hid⟩
    rw [map_preceding?_of_getElem? hnodup hid, hprevious]

theorem preceding?_eq_none_iff (hnodup : p.ids.Nodup) :
    p.preceding? id = none ↔ p.ids.head? = some id ∨ id ∉ p.ids := by
  by_cases h : id ∈ p.ids
  · obtain ⟨i, hid⟩ := List.mem_iff_getElem?.1 h
    rw [or_iff_left (not_not_intro h), List.head?_eq_getElem?]
    cases i with
    | zero => exact iff_of_true (preceding?_of_first hnodup hid) hid
    | succ i =>
      have hlt : i + 1 < p.ids.length := (List.getElem?_eq_some_iff.1 hid).1
      have hbefore := map_preceding?_of_getElem? hnodup hid
      rw [List.getElem?_eq_getElem (Nat.lt_of_succ_lt hlt)] at hbefore
      refine iff_of_false (fun hnone => ?_) fun hfirst => ?_
      · rw [hnone, Option.map_none] at hbefore
        cases hbefore
      · exact Nat.succ_ne_zero i ((List.getElem?_inj hlt hnodup).1 (hid.trans hfirst.symm))
  · exact iff_of_true (preceding?_of_not_mem h) (.inr h)

/-- Going one step back and then on again leads to where one was. -/
theorem continues_preceding? (hnodup : p.ids.Nodup) (h : p.preceding? id = some s) :
    p.Continues s.id (some id) := by
  obtain ⟨i, hprevious, hid⟩ := (map_preceding?_eq_some_iff hnodup).1 (by rw [h, Option.map_some])
  refine ⟨fun j hj => ?_, fun hout => absurd (List.mem_of_getElem? hprevious) hout⟩
  have hlt : i < p.ids.length := (List.getElem?_eq_some_iff.1 hprevious).1
  have hij := (List.getElem?_inj hlt hnodup).1 (hprevious.trans hj.symm)
  rw [← hij, hid]

end StepFlow.Plan
