import StepFlow.Json.Merge
import StepFlow.Proofs.Keyed

/-!
# Merging a patch key by key

What a patch leaves under a key depends on what was under this key and on what the patch says about
it, and on nothing else. So the entries of a patch may be taken in any order.

## Main definitions

* `Object.Loose`: the entries of a canonical object, in any order.
* `Object.Merges`: merging entry by entry in any order, at every level.

## Main statements

* `Object.get?_deepMerge`: what is left under each key.
* `Object.canonical_deepMerge`: merging keeps objects in order at every level.
* `Object.merges_iff`: whatever the order, the same object is left.
-/

namespace StepFlow.Json

/-! ### Canonical objects -/

namespace Value

theorem canonicalEntries_iff {entries : Object} :
    CanonicalEntries entries ↔ ∀ entry ∈ entries, entry.2.Canonical := by
  induction entries with
  | nil => simp [CanonicalEntries]
  | cons entry rest ih => simp [CanonicalEntries, ih]

theorem canonical_obj {o : Object} :
    (obj o).Canonical ↔ Keyed.Ordered o ∧ ∀ entry ∈ o, entry.2.Canonical := by
  rw [Canonical, canonicalEntries_iff]

namespace Canonical

variable {o : Object}

theorem ordered (h : (obj o).Canonical) : Keyed.Ordered o :=
  (canonical_obj.1 h).1

theorem of_get? (h : (obj o).Canonical) {key : String} {v : Value}
    (hv : Keyed.get? o key = some v) : v.Canonical :=
  (canonical_obj.1 h).2 _ (Keyed.mem_of_get? hv)

theorem erase (h : (obj o).Canonical) (key : String) : (obj (Keyed.erase o key)).Canonical := by
  obtain ⟨hordered, hvalues⟩ := canonical_obj.1 h
  exact canonical_obj.2 ⟨hordered.erase key, fun entry hentry =>
    hvalues entry (List.mem_of_mem_filter hentry)⟩

theorem insert (h : (obj o).Canonical) (key : String) {v : Value} (hv : v.Canonical) :
    (obj (Keyed.insert o key v)).Canonical := by
  obtain ⟨hordered, hvalues⟩ := canonical_obj.1 h
  refine canonical_obj.2 ⟨hordered.insert key v, fun entry hentry => ?_⟩
  rcases Keyed.mem_insert hentry with rfl | hentry
  · exact hv
  · exact hvalues entry hentry

end Canonical

end Value

namespace Object

variable {base patch : Object}

/-! ### One key -/

@[simp] theorem patched?_objects (existing nested : Object) :
    patched? (some (.obj existing)) (some (.obj nested)) =
      some (.obj (existing.deepMerge nested)) := rfl

theorem obj?_eq_none {old : Option Value} (h : ∀ existing, old = some (.obj existing) → False) :
    old.bind Value.obj? = none := by
  match old with
  | none => rfl
  | some w => cases w <;> first | rfl | exact (h _ rfl).elim

/-- The patch's own value stands unless it is `null` or both sides hold objects. -/
theorem patched?_of_stands {old : Option Value} {v : Value} (hnull : v ≠ .null)
    (hapart : v.obj? = none ∨ old.bind Value.obj? = none) : patched? old (some v) = some v := by
  cases v with
  | null => exact absurd rfl hnull
  | obj nested =>
    have hold : old.bind Value.obj? = none := hapart.resolve_left (by simp [Value.obj?])
    match old with
    | none => rfl
    | some w => cases w <;> first | rfl | simp [Value.obj?] at hold
  | _ => rfl

/-- An entry writes what the patch makes of the value under its key. -/
theorem mergeEntry_eq (base : Object) (key : String) (v : Value) :
    base.mergeEntry key v =
      (patched? (Keyed.get? base key) (some v)).elim (Keyed.erase base key)
        (Keyed.insert base key) := by
  cases v with
  | obj nested =>
    rw [mergeEntry]
    match Keyed.get? base key with
    | none => rfl
    | some w => cases w <;> rfl
  | _ => rfl

theorem get?_mergeEntry (base : Object) (key : String) (v : Value) (k : String) :
    Keyed.get? (base.mergeEntry key v) k =
      if k = key then patched? (Keyed.get? base key) (some v) else Keyed.get? base k := by
  rw [mergeEntry_eq]
  cases patched? (Keyed.get? base key) (some v) with
  | none => exact Keyed.get?_erase base key k
  | some w => exact Keyed.get?_insert base key k w

theorem ordered_mergeEntry (hbase : Keyed.Ordered base) (key : String) (v : Value) :
    Keyed.Ordered (base.mergeEntry key v) := by
  rw [mergeEntry_eq]
  cases patched? (Keyed.get? base key) (some v) with
  | none => exact hbase.erase key
  | some w => exact hbase.insert key w

/-! ### All keys -/

/-- The keys of a patch are dealt with one by one, none of them touching what is under another. -/
theorem get?_deepMerge (base : Object) (hpatch : (Keyed.keys patch).Nodup) (k : String) :
    Keyed.get? (base.deepMerge patch) k = patched? (Keyed.get? base k) (Keyed.get? patch k) := by
  induction patch generalizing base with
  | nil => rfl
  | cons entry rest ih =>
    obtain ⟨key, v⟩ := entry
    obtain ⟨hkey, hrest⟩ := List.nodup_cons.1 hpatch
    rw [deepMerge, ih _ hrest, get?_mergeEntry, Keyed.get?_cons]
    split
    · next heq =>
      -- no later entry has this key
      rw [heq, Keyed.get?_eq_none_iff.2 hkey, patched?]
    · rfl

theorem ordered_deepMerge (hbase : Keyed.Ordered base) (patch : Object) :
    Keyed.Ordered (base.deepMerge patch) := by
  induction patch generalizing base with
  | nil => exact hbase
  | cons entry rest ih => exact ih (ordered_mergeEntry hbase entry.1 entry.2)

/-- The order in which the entries of a patch are merged does not matter. -/
theorem deepMerge_perm {patch' : Object} (hbase : Keyed.Ordered base)
    (hpatch : (Keyed.keys patch).Nodup) (h : patch.Perm patch') :
    base.deepMerge patch = base.deepMerge patch' := by
  have hpatch' : (Keyed.keys patch').Nodup := (h.map _).nodup_iff.1 hpatch
  refine (ordered_deepMerge hbase patch).ext (ordered_deepMerge hbase patch') fun k => ?_
  rw [get?_deepMerge base hpatch, get?_deepMerge base hpatch', Keyed.get?_perm h hpatch]

/-- The entries of a canonical object, in any order. -/
structure Loose (patch : Object) : Prop where
  nodup : (Keyed.keys patch).Nodup
  canonical : ∀ entry ∈ patch, entry.2.Canonical

theorem loose_of_canonical (h : (Value.obj patch).Canonical) : patch.Loose :=
  ⟨h.ordered.nodup_keys, (Value.canonical_obj.1 h).2⟩

theorem Loose.pick (h : patch.Loose) {key : String} {v : Value} {rest : Object}
    (hpick : patch.Perm ((key, v) :: rest)) : v.Canonical ∧ rest.Loose := by
  have hnodup : (Keyed.keys ((key, v) :: rest)).Nodup := (hpick.map _).nodup_iff.1 h.nodup
  have hcanonical : ∀ entry ∈ (key, v) :: rest, entry.2.Canonical := fun entry hentry =>
    h.canonical entry (hpick.mem_iff.2 hentry)
  obtain ⟨hv, hrest⟩ := List.forall_mem_cons.1 hcanonical
  exact ⟨hv, (List.nodup_cons.1 hnodup).2, hrest⟩

/-- Merging keeps objects in order at every level, and so does each of its entries. -/
theorem canonical_merge :
    (∀ base patch : Object, (Value.obj base).Canonical → (∀ entry ∈ patch, entry.2.Canonical) →
      (Value.obj (base.deepMerge patch)).Canonical) ∧
    ∀ (base : Object) (key : String) (v : Value), (Value.obj base).Canonical → v.Canonical →
      (Value.obj (base.mergeEntry key v)).Canonical := by
  -- the induction runs along the merge: over the entries, and into the objects that meet
  refine deepMerge.mutual_induct _ _ ?null ?objects ?object ?bool ?int ?float ?str ?arr ?nil ?cons
  case null => exact fun base key hbase _ => hbase.erase key
  case objects =>
    intro base key nested existing hget ih hbase hnested
    rw [mergeEntry_eq, hget]
    exact hbase.insert key (ih (hbase.of_get? hget) (Value.canonical_obj.1 hnested).2)
  case object =>
    intro base key nested hget hbase hnested
    rw [mergeEntry_eq, patched?_of_stands (by simp) (.inr (obj?_eq_none hget))]
    exact hbase.insert key hnested
  case bool | int | float | str | arr => exact fun base key _ hbase hv => hbase.insert key hv
  case nil => exact fun base hbase _ => hbase
  case cons =>
    intro base key v rest ihentry ihrest hbase hpatch
    obtain ⟨hv, hrest⟩ := List.forall_mem_cons.1 hpatch
    exact ihrest (ihentry hbase hv) hrest

theorem canonical_deepMerge (hbase : (Value.obj base).Canonical)
    (hpatch : (Value.obj patch).Canonical) : (Value.obj (base.deepMerge patch)).Canonical :=
  canonical_merge.1 base patch hbase (loose_of_canonical hpatch).canonical

/-! ### Any order -/

/-- `result` is left after the entries of a patch were merged into `base` one by one in any order,
and so were the entries of objects that met. -/
inductive Merges : Object → Object → Object → Prop
  | done (base : Object) : Merges base [] base
  | objects {base patch rest existing nested merged result : Object} {key : String}
    (hpick : patch.Perm ((key, .obj nested) :: rest))
    (hget : Keyed.get? base key = some (.obj existing)) (hmerged : Merges existing nested merged)
    (hrest : Merges (Keyed.insert base key (.obj merged)) rest result) : Merges base patch result
  | entry {base patch rest result : Object} {key : String} {v : Value}
    (hpick : patch.Perm ((key, v) :: rest))
    (hapart : v.obj? = none ∨ (Keyed.get? base key).bind Value.obj? = none)
    (hrest : Merges (base.mergeEntry key v) rest result) : Merges base patch result

/-- The order in which a patch lists its entries is one of them. -/
theorem merges_deepMerge (base patch : Object) : Merges base patch (base.deepMerge patch) := by
  refine deepMerge.induct (fun base patch => Merges base patch (base.deepMerge patch))
    (fun base key v => ∀ rest result, Merges (base.mergeEntry key v) rest result →
      Merges base ((key, v) :: rest) result)
    ?null ?objects ?object ?bool ?int ?float ?str ?arr ?nil ?cons base patch
  case null => exact fun base key rest result => .entry (.refl _) (.inl rfl)
  case objects =>
    intro base key nested existing hget ih rest result hrest
    rw [mergeEntry_eq, hget] at hrest
    exact .objects (.refl _) hget ih hrest
  case object =>
    exact fun base key nested hget rest result => .entry (.refl _) (.inr (obj?_eq_none hget))
  case bool | int | float | str | arr =>
    exact fun base key _ rest result => .entry (.refl _) (.inl rfl)
  case nil => exact .done
  case cons => exact fun base key v rest ihentry ihrest => ihentry rest _ ihrest

theorem eq_of_merges {result : Object} (h : Merges base patch result)
    (hbase : (Value.obj base).Canonical) (hpatch : patch.Loose) :
    result = base.deepMerge patch := by
  induction h with
  | done base => rfl
  | @objects base patch rest existing nested merged result key hpick hget _ _ ihmerged ihrest =>
    obtain ⟨hnested, hrest⟩ := hpatch.pick hpick
    have hexisting := hbase.of_get? hget
    obtain rfl := ihmerged hexisting (loose_of_canonical hnested)
    rw [deepMerge_perm hbase.ordered hpatch.nodup hpick, deepMerge, mergeEntry_eq, hget]
    exact ihrest (hbase.insert key (canonical_deepMerge hexisting hnested)) hrest
  | @entry base patch rest result key v hpick _ _ ihrest =>
    obtain ⟨hv, hrest⟩ := hpatch.pick hpick
    rw [deepMerge_perm hbase.ordered hpatch.nodup hpick, deepMerge]
    exact ihrest (canonical_merge.2 base key v hbase hv) hrest

/-- Whatever the order, at every level, the same object is left. -/
theorem merges_iff {result : Object} (hbase : (Value.obj base).Canonical)
    (hpatch : (Value.obj patch).Canonical) :
    Merges base patch result ↔ result = base.deepMerge patch := by
  refine ⟨fun h => eq_of_merges h hbase (loose_of_canonical hpatch), ?_⟩
  rintro rfl
  exact merges_deepMerge base patch

end Object

end StepFlow.Json
