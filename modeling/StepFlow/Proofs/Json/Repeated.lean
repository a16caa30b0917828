import StepFlow.Proofs.Json.Pointwise

/-!
# Merging a patch again

A patch puts an object as it is where there was none, with every `null` inside it. Merged again, the
patch meets its own object and removes what stands under these keys. So the second time may change
something, and the third time does not.

## Main definitions

* `Object.Covers`: above every `null` of a patch there is an object.
* `Object.Fulfils`: nothing is left for a patch to do.

## Main statements

* `Object.deepMerge_eq_self`: a patch leaves what fulfils it as it is.
* `Object.deepMerge_again_iff`: when merging a patch again changes nothing.
* `Object.deepMerge_thrice`: the third time changes nothing.
-/

namespace StepFlow.Json.Object

open Value

variable {o base patch : Object} {path : List String}

/-- Wherever the patch holds `null`, `base` holds an object from which the key can be removed. -/
def Covers (base patch : Object) : Prop :=
  ∀ path key, (obj patch).at? (path ++ [key]) = some .null → ((obj base).objectAt? path).isSome

/-- The object is as the patch wants it to be. -/
structure Fulfils (o patch : Object) : Prop where
  removed : ∀ path key, (obj patch).at? (path ++ [key]) = some .null →
    (obj o).at? (path ++ [key]) = none
  nested : ∀ path, ((obj patch).objectAt? path).isSome → ((obj o).objectAt? path).isSome
  written : ∀ path key v, (obj patch).at? (path ++ [key]) = some v → v ≠ .null → v.obj? = none →
    (obj o).at? (path ++ [key]) = some v

theorem Fulfils.beneath (h : o.Fulfils patch) {key : String} {existing nested : Object}
    (hnested : Keyed.get? patch key = some (.obj nested))
    (hexisting : Keyed.get? o key = some (.obj existing)) : existing.Fulfils nested where
  removed path k := by simpa [hnested, hexisting] using h.removed (key :: path) k
  nested path := by simpa [objectAt?_cons, hnested, hexisting] using h.nested (key :: path)
  written path k v := by simpa [hnested, hexisting] using h.written (key :: path) k v

/-- What holds of an object once it holds of the objects right inside it holds of all. -/
theorem nested_induction {P : Object → Prop}
    (step : ∀ o, (∀ key nested, Keyed.get? o key = some (.obj nested) → P nested) → P o)
    (o : Object) : P o :=
  step o fun key nested h => by
    have hmem : (key, Value.obj nested) ∈ o := Keyed.mem_of_get? h
    have hlt : sizeOf nested < sizeOf o := by
      have hentry := List.sizeOf_lt_of_mem hmem
      rw [Prod.mk.sizeOf_spec, Value.obj.sizeOf_spec] at hentry
      omega
    exact nested_induction step nested
termination_by sizeOf o

/-- A patch leaves what fulfils it as it is. -/
theorem deepMerge_eq_self (ho : (obj o).Canonical) (hpatch : (obj patch).Canonical)
    (h : o.Fulfils patch) : o.deepMerge patch = o := by
  induction patch using nested_induction generalizing o with
  | step patch ih =>
    refine (ordered_deepMerge ho.ordered patch).ext ho.ordered fun key => ?_
    rw [get?_deepMerge o hpatch.ordered.nodup_keys]
    cases hkey : Keyed.get? patch key with
    | none => rfl
    | some v =>
      have hat : (obj patch).at? ([] ++ [key]) = some v := by simp [hkey]
      cases v with
      | null => simpa [patched?] using (h.removed [] key hat).symm
      | obj nested =>
        have hsome := h.nested [key] (by simp [objectAt?, hkey, obj?])
        obtain ⟨existing, hexisting⟩ := Option.isSome_iff_exists.1 hsome
        have hold : Keyed.get? o key = some (.obj existing) := by
          simpa using objectAt?_eq_some_iff.1 hexisting
        rw [hold, patched?_objects, ih key nested hkey (ho.of_get? hold) (hpatch.of_get? hkey)
          (h.beneath hkey hold)]
      | _ =>
        have hold := h.written [] key _ hat (by simp) rfl
        simpa [patched?] using hold.symm

/-- Where the patch holds an object, an object is left. -/
theorem isSome_objectAt?_deepMerge (base : Object) (hpatch : (obj patch).Canonical)
    (h : ((obj patch).objectAt? path).isSome) :
    ((obj (base.deepMerge patch)).objectAt? path).isSome := by
  obtain ⟨nested, hnested⟩ := Option.isSome_iff_exists.1 h
  cases hbase : (obj base).objectAt? path with
  | none => rw [objectAt?_deepMerge_of_apart hpatch hbase hnested, Option.isSome_some]
  | some existing => rw [objectAt?_deepMerge hpatch hbase hnested, Option.isSome_some]

theorem fulfils_deepMerge (hpatch : (obj patch).Canonical) (h : base.Covers patch) :
    (base.deepMerge patch).Fulfils patch where
  removed path key hnull :=
    (pointwise_deepMerge base hpatch).removed path key hnull (h path key hnull)
  nested _ := isSome_objectAt?_deepMerge base hpatch
  written path key v hv hnull hobj :=
    (pointwise_deepMerge base hpatch).stands path key v hv (fun heq => absurd heq hnull) (.inl hobj)

/-- Of a patch that was merged, every `null` meets an object. -/
theorem covers_deepMerge (base : Object) (hpatch : (obj patch).Canonical) :
    (base.deepMerge patch).Covers patch := by
  intro path key hnull
  rw [at?_concat, Option.bind_eq_some_iff] at hnull
  obtain ⟨nested, hnested, -⟩ := hnull
  exact isSome_objectAt?_deepMerge base hpatch (Option.isSome_iff_exists.2 ⟨nested, hnested⟩)

/-- Merging a patch again changes nothing exactly if no `null` of it was put in the first time. -/
theorem deepMerge_again_iff (hbase : (obj base).Canonical) (hpatch : (obj patch).Canonical) :
    (base.deepMerge patch).deepMerge patch = base.deepMerge patch ↔ base.Covers patch := by
  refine ⟨fun hagain path key hnull => ?_, fun h => ?_⟩
  · by_contra hnone
    have hstands := (pointwise_deepMerge base hpatch).stands path key .null hnull
      (fun _ => by simpa using hnone) (.inl rfl)
    have hgone := (pointwise_deepMerge (base.deepMerge patch) hpatch).removed path key hnull
      (covers_deepMerge base hpatch path key hnull)
    rw [hagain, hstands] at hgone
    cases hgone
  · exact deepMerge_eq_self (canonical_deepMerge hbase hpatch) hpatch (fulfils_deepMerge hpatch h)

theorem deepMerge_thrice (hbase : (obj base).Canonical) (hpatch : (obj patch).Canonical) :
    ((base.deepMerge patch).deepMerge patch).deepMerge patch =
      (base.deepMerge patch).deepMerge patch :=
  (deepMerge_again_iff (canonical_deepMerge hbase hpatch) hpatch).2 (covers_deepMerge base hpatch)

end StepFlow.Json.Object
