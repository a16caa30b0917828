import Mathlib.Data.List.Nodup
import StepFlow.Keyed

/-!
# Entries found by their keys

## Main statements

* `find?_key_of_nodup`: members of a list that are found by their keys.
* `Keyed.get?_eq_some_iff`: where keys are distinct, look-up finds each entry.
* `Keyed.get?_perm`: look-up does not depend on the order of such entries.
* `Keyed.Ordered.ext`: entries in order are determined by what is found under each key.
* `Keyed.get?_insertAll`: what is found after others were inserted.
-/

namespace StepFlow

/-- Where keys are distinct, each member is found by its key. -/
theorem find?_key_of_nodup {α : Type} {key : α → String} {as : List α} (h : (as.map key).Nodup)
    {a : α} (ha : a ∈ as) : (as.find? fun b => key b = key a) = some a := by
  have hsome : (as.find? fun b => key b = key a).isSome :=
    List.find?_isSome.2 ⟨a, ha, decide_eq_true rfl⟩
  obtain ⟨b, hb⟩ := Option.isSome_iff_exists.1 hsome
  have hkey : key b = key a := of_decide_eq_true (List.find?_some hb :)
  rw [hb, List.inj_on_of_nodup_map h (List.mem_of_find?_eq_some hb) ha hkey]

namespace Keyed

variable {α : Type u} {m m' : Keyed α} {k : String} {v : α}

@[simp] theorem get?_nil (k : String) : get? ([] : Keyed α) k = none := rfl

@[simp] theorem get?_cons (k' : String) (v : α) (m : Keyed α) (k : String) :
    get? ((k', v) :: m) k = if k = k' then some v else get? m k := rfl

@[simp] theorem get?_append (m m' : Keyed α) (k : String) :
    get? (m ++ m') k = (get? m k).or (get? m' k) := by
  induction m with
  | nil => rfl
  | cons entry rest ih =>
    obtain ⟨k', v⟩ := entry
    by_cases h : k = k' <;> simp [h, ih]

theorem mem_of_get? (h : get? m k = some v) : (k, v) ∈ m := by
  induction m with
  | nil => simp at h
  | cons entry rest ih =>
    obtain ⟨k', v'⟩ := entry
    rw [get?_cons] at h
    split at h
    · next hk => simp_all
    · exact List.mem_cons_of_mem _ (ih h)

theorem get?_eq_some_iff (hm : (keys m).Nodup) : get? m k = some v ↔ (k, v) ∈ m := by
  refine ⟨mem_of_get?, fun h => ?_⟩
  induction m with
  | nil => exact absurd h List.not_mem_nil
  | cons entry rest ih =>
    obtain ⟨k', v'⟩ := entry
    obtain ⟨hhead, hrest⟩ := List.nodup_cons.1 hm
    rw [get?_cons]
    rcases List.mem_cons.1 h with heq | hmem
    · obtain ⟨rfl, rfl⟩ := Prod.mk.inj heq
      exact if_pos rfl
    · have hkey : k ∈ keys rest := List.mem_map.2 ⟨_, hmem, rfl⟩
      have hne : k ≠ k' := fun heq => hhead (heq ▸ hkey)
      rw [if_neg hne, ih hrest hmem]

theorem get?_eq_none_iff : get? m k = none ↔ k ∉ keys m := by
  rw [mem_keys, Bool.not_eq_true, Option.isSome_eq_false_iff, Option.isNone_iff_eq_none]

theorem get?_perm (h : m.Perm m') (hm : (keys m).Nodup) (k : String) : get? m k = get? m' k := by
  have hm' : (keys m').Nodup := (h.map _).nodup_iff.1 hm
  refine Option.ext fun v => ?_
  rw [get?_eq_some_iff hm, get?_eq_some_iff hm', h.mem_iff]

instance (m : Keyed α) : Decidable (Ordered m) :=
  inferInstanceAs (Decidable (List.Pairwise _ m))

theorem Ordered.ext (hm : Ordered m) (hm' : Ordered m') (h : ∀ k, get? m k = get? m' k) :
    m = m' := by
  have hmem : ∀ entry, entry ∈ m ↔ entry ∈ m' := by
    rintro ⟨k, v⟩
    rw [← get?_eq_some_iff hm.nodup_keys, ← get?_eq_some_iff hm'.nodup_keys, h]
  have hperm : m.Perm m' :=
    (List.perm_ext_iff_of_nodup (.of_map _ hm.nodup_keys) (.of_map _ hm'.nodup_keys)).2 hmem
  refine hperm.eq_of_pairwise (fun a b _ _ hab hba => ?_) hm hm'
  exact absurd (String.lt_trans hab hba) (String.lt_irrefl _)

/-- Values are transformed key by key, and left out where this fails. -/
theorem get?_filterMap {β : Type v} (f : α → Option β) (hm : (keys m).Nodup) (k : String) :
    get? (m.filterMap fun entry => (f entry.2).map fun b => (entry.1, b)) k =
      (get? m k).bind f := by
  induction m with
  | nil => rfl
  | cons entry rest ih =>
    obtain ⟨key, v⟩ := entry
    obtain ⟨hkey, hrest⟩ := List.nodup_cons.1 hm
    rw [get?_cons]
    cases hf : f v with
    | none =>
      rw [List.filterMap_cons_none (by simp [hf]), ih hrest]
      split
      · next heq =>
        rw [get?_eq_none_iff.2 (heq ▸ hkey), Option.bind_some, hf]
        rfl
      · rfl
    | some b =>
      rw [List.filterMap_cons_some (by simp [hf]; rfl), get?_cons, ih hrest]
      split
      · exact hf.symm
      · rfl

theorem Ordered.filterMap {β : Type v} (hm : Ordered m) (f : α → Option β) :
    Ordered (m.filterMap fun entry => (f entry.2).map fun b => (entry.1, b)) := by
  refine List.Pairwise.filterMap _ (fun entry entry' hlt b hb b' hb' => ?_) hm
  obtain ⟨_, -, rfl⟩ := Option.map_eq_some_iff.1 hb
  obtain ⟨_, -, rfl⟩ := Option.map_eq_some_iff.1 hb'
  exact hlt

/-- Where an entry is inserted, it counts, and elsewhere what was there before. -/
theorem get?_insertAll {extra : Keyed α} (hextra : (keys extra).Nodup) (m : Keyed α)
    (k : String) : get? (insertAll m extra) k = (get? extra k).or (get? m k) := by
  induction extra generalizing m with
  | nil => rfl
  | cons entry rest ih =>
    obtain ⟨key, v⟩ := entry
    obtain ⟨hkey, hrest⟩ := List.nodup_cons.1 hextra
    have hinsert : insertAll m ((key, v) :: rest) = insertAll (insert m key v) rest := rfl
    rw [hinsert, ih hrest, get?_insert, get?_cons]
    split
    · next heq =>
      rw [get?_eq_none_iff.2 (heq ▸ hkey)]
      rfl
    · rfl

end Keyed

end StepFlow
