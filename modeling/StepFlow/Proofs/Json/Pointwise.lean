import StepFlow.Proofs.Json.Merge

/-!
# What a patch leaves at a path

## Main definitions

* `Value.at?`: the value at a path of keys.
* `Object.Pointwise`: a merge told path by path.

## Main statements

* `Object.objectAt?_deepMerge`, `Object.objectAt?_deepMerge_of_apart`: where both sides hold objects
  down to a path these are merged; where only the patch does, its object stands.
* `Object.pointwise_deepMerge`: the merge path by path.
-/

namespace StepFlow.Json

namespace Value

/-- The value at a path of keys. -/
def at? (v : Value) : List String → Option Value
  | [] => some v
  | key :: path => (v.get? key).bind fun w => w.at? path

/-- The object at a path of keys. -/
def objectAt? (v : Value) (path : List String) : Option Object :=
  (v.at? path).bind obj?

variable {v : Value} {o : Object} {key : String} {path : List String}

@[simp] theorem at?_nil (v : Value) : v.at? [] = some v := rfl

@[simp] theorem at?_cons (v : Value) (key : String) (path : List String) :
    v.at? (key :: path) = (v.get? key).bind fun w => w.at? path := rfl

@[simp] theorem get?_obj (o : Object) (key : String) : (obj o).get? key = Keyed.get? o key := rfl

theorem obj?_eq_some_iff : v.obj? = some o ↔ v = obj o := by
  cases v <;> simp [obj?]

theorem objectAt?_cons (o : Object) (key : String) (path : List String) :
    (obj o).objectAt? (key :: path) = (Keyed.get? o key).bind fun w => w.objectAt? path :=
  Option.bind_assoc ..

theorem at?_append (v : Value) (path path' : List String) :
    v.at? (path ++ path') = (v.at? path).bind fun w => w.at? path' := by
  induction path generalizing v with
  | nil => rfl
  | cons key path ih =>
    simp only [List.cons_append, at?_cons, Option.bind_assoc, ih]

theorem objectAt?_eq_some_iff : v.objectAt? path = some o ↔ v.at? path = some (obj o) := by
  simp [objectAt?, Option.bind_eq_some_iff, obj?_eq_some_iff]

/-- Only an object has anything under a key. -/
theorem at?_append_cons (v : Value) (path : List String) (key : String) (rest : List String) :
    v.at? (path ++ key :: rest) =
      (v.objectAt? path).bind fun o => (Keyed.get? o key).bind fun w => w.at? rest := by
  rw [at?_append, objectAt?, Option.bind_assoc]
  refine Option.bind_congr fun w _ => ?_
  cases w <;> rfl

theorem at?_concat (v : Value) (path : List String) (key : String) :
    v.at? (path ++ [key]) = (v.objectAt? path).bind fun o => Keyed.get? o key := by
  simp [at?_append_cons]

/-- Where there is an object at a path, there is one at the path's start. -/
theorem exists_of_objectAt? (h : v.objectAt? path = some o) : ∃ whole, v = obj whole := by
  cases path with
  | nil => exact ⟨o, obj?_eq_some_iff.1 h⟩
  | cons key path => cases v <;> first | exact ⟨_, rfl⟩ | simp [objectAt?, get?] at h

theorem canonical_of_objectAt? {whole : Object} (h : (obj whole).Canonical)
    (ho : (obj whole).objectAt? path = some o) : (obj o).Canonical := by
  induction path generalizing whole with
  | nil => exact Option.some.inj ho ▸ h
  | cons key path ih =>
    rw [objectAt?_cons, Option.bind_eq_some_iff] at ho
    obtain ⟨w, hw, ho⟩ := ho
    obtain ⟨inner, rfl⟩ := exists_of_objectAt? ho
    exact ih (h.of_get? hw) ho

end Value

namespace Object

open Value

variable {base patch existing nested : Object} {path : List String}

/-- Where objects meet they are merged. -/
theorem objectAt?_deepMerge (hpatch : (obj patch).Canonical)
    (hexisting : (obj base).objectAt? path = some existing)
    (hnested : (obj patch).objectAt? path = some nested) :
    (obj (base.deepMerge patch)).objectAt? path = some (existing.deepMerge nested) := by
  induction path generalizing base patch with
  | nil =>
    obtain rfl : base = existing := Option.some.inj hexisting
    obtain rfl : patch = nested := Option.some.inj hnested
    rfl
  | cons key path ih =>
    rw [objectAt?_cons, Option.bind_eq_some_iff] at hexisting hnested
    obtain ⟨old, hold, hexisting⟩ := hexisting
    obtain ⟨new, hnew, hnested⟩ := hnested
    obtain ⟨inner, rfl⟩ := exists_of_objectAt? hexisting
    obtain ⟨innerPatch, rfl⟩ := exists_of_objectAt? hnested
    rw [objectAt?_cons, get?_deepMerge base hpatch.ordered.nodup_keys, hold, hnew, patched?_objects]
    exact ih (hpatch.of_get? hnew) hexisting hnested

/-- Where only the patch holds an object, it is taken over as it is. -/
theorem objectAt?_deepMerge_of_apart (hpatch : (obj patch).Canonical)
    (hbase : (obj base).objectAt? path = none)
    (hnested : (obj patch).objectAt? path = some nested) :
    (obj (base.deepMerge patch)).objectAt? path = some nested := by
  induction path generalizing base patch with
  | nil => cases hbase
  | cons key path ih =>
    rw [objectAt?_cons, Option.bind_eq_some_iff] at hnested
    obtain ⟨new, hnew, hnested⟩ := hnested
    obtain ⟨innerPatch, rfl⟩ := exists_of_objectAt? hnested
    rw [objectAt?_cons, get?_deepMerge base hpatch.ordered.nodup_keys, hnew]
    cases hold : (Keyed.get? base key).bind obj? with
    | none =>
      rw [patched?_of_stands (by simp) (.inr hold)]
      exact hnested
    | some inner =>
      obtain ⟨old, hold, hinner⟩ := Option.bind_eq_some_iff.1 hold
      obtain rfl := obj?_eq_some_iff.1 hinner
      rw [objectAt?_cons, hold] at hbase
      rw [hold, patched?_objects]
      exact ih (hpatch.of_get? hnew) hbase hnested

/-- What a patch holds deeper down is merged key by key as well. -/
theorem get?_deepMerge_nested (hpatch : (obj patch).Canonical)
    (hnested : (obj patch).objectAt? path = some nested) (existing : Object) (key : String) :
    Keyed.get? (existing.deepMerge nested) key =
      patched? (Keyed.get? existing key) (Keyed.get? nested key) :=
  get?_deepMerge existing (canonical_of_objectAt? hpatch hnested).ordered.nodup_keys key

/-- What is left of `base` after a patch, path by path. -/
structure Pointwise (base patch result : Object) : Prop where
  /-- Where the patch goes down to an object without the next key, it says nothing about what lies
  there. -/
  untouched : ∀ path key rest nested, (obj patch).objectAt? path = some nested →
    Keyed.get? nested key = none →
    (obj result).at? (path ++ key :: rest) = (obj base).at? (path ++ key :: rest)
  /-- A key that the patch maps to `null` is gone if `base` holds an object above it. -/
  removed : ∀ path key, (obj patch).at? (path ++ [key]) = some .null →
    ((obj base).objectAt? path).isSome → (obj result).at? (path ++ [key]) = none
  /-- Where both hold objects these are merged. -/
  merged : ∀ path existing nested, (obj base).objectAt? path = some existing →
    (obj patch).objectAt? path = some nested →
    (obj result).at? path = some (obj (existing.deepMerge nested))
  /-- Anywhere else the patch's value stands. -/
  stands : ∀ path key v, (obj patch).at? (path ++ [key]) = some v →
    (v = .null → (obj base).objectAt? path = none) →
    (v.obj? = none ∨ (obj base).objectAt? (path ++ [key]) = none) →
    (obj result).at? (path ++ [key]) = some v

theorem pointwise_deepMerge (base : Object) (hpatch : (obj patch).Canonical) :
    Pointwise base patch (base.deepMerge patch) where
  untouched path key rest nested hnested hkey := by
    rw [at?_append_cons, at?_append_cons]
    cases hbase : (obj base).objectAt? path with
    | none =>
      rw [objectAt?_deepMerge_of_apart hpatch hbase hnested]
      simp [hkey]
    | some existing =>
      rw [objectAt?_deepMerge hpatch hbase hnested, Option.bind_some,
        get?_deepMerge_nested hpatch hnested, hkey]
      rfl
  removed path key hnull hbase := by
    obtain ⟨existing, hexisting⟩ := Option.isSome_iff_exists.1 hbase
    rw [at?_concat, Option.bind_eq_some_iff] at hnull
    obtain ⟨nested, hnested, hkey⟩ := hnull
    rw [at?_concat, objectAt?_deepMerge hpatch hexisting hnested, Option.bind_some,
      get?_deepMerge_nested hpatch hnested, hkey]
    rfl
  merged path existing nested hexisting hnested :=
    objectAt?_eq_some_iff.1 (objectAt?_deepMerge hpatch hexisting hnested)
  stands path key v hv hnull hapart := by
    rw [at?_concat, Option.bind_eq_some_iff] at hv
    obtain ⟨nested, hnested, hkey⟩ := hv
    rw [at?_concat]
    cases hbase : (obj base).objectAt? path with
    | none => rw [objectAt?_deepMerge_of_apart hpatch hbase hnested, Option.bind_some, hkey]
    | some existing =>
      have hstands : v.obj? = none ∨ (Keyed.get? existing key).bind obj? = none := by
        rwa [objectAt?, at?_concat, hbase] at hapart
      rw [objectAt?_deepMerge hpatch hbase hnested, Option.bind_some,
        get?_deepMerge_nested hpatch hnested, hkey,
        patched?_of_stands (fun heq => by simp [hnull heq] at hbase) hstands]

end Object

end StepFlow.Json
