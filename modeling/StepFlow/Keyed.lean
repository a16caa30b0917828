/-!
# Lists of keyed entries

Pairs of a text key and a value, kept in ascending order of the keys, and the type of those that
are in order by construction.

## Main definitions

* `Keyed`: a list of keyed entries, with look-up, insertion and removal.
* `Keyed.Ordered`: the keys ascend strictly, so each is there once.
* `KeyMap`: the ordered lists of entries.
-/

namespace StepFlow

/-- Entries with a text key. -/
abbrev Keyed (α : Type u) := List (String × α)

namespace Keyed

variable {α : Type u}

/-- The value of the first entry with key `k`. -/
def get? : Keyed α → String → Option α
  | [], _ => none
  | (k', v) :: rest, k => if k = k' then some v else get? rest k

/-- Whether some entry has key `k`. -/
def contains (m : Keyed α) (k : String) : Bool :=
  (get? m k).isSome

/-- Sets the value of key `k`: in place if the key is there, else before the first greater key. -/
def insert : Keyed α → String → α → Keyed α
  | [], k, v => [(k, v)]
  | (k', v') :: rest, k, v =>
    if k = k' then (k, v) :: rest
    else if k < k' then (k, v) :: (k', v') :: rest
    else (k', v') :: insert rest k v

/-- Removes every entry with key `k`. -/
def erase (m : Keyed α) (k : String) : Keyed α :=
  m.filter fun entry => entry.1 ≠ k

/-- The keys in order. -/
def keys (m : Keyed α) : List String :=
  m.map (·.1)

/-- Inserts all entries of `extra` into `m`; of several with one key the last stays. -/
def insertAll (m : Keyed α) (extra : Keyed α) : Keyed α :=
  extra.foldl (fun acc entry => insert acc entry.1 entry.2) m

/-- The keys ascend strictly. -/
def Ordered (m : Keyed α) : Prop :=
  m.Pairwise fun a b => a.1 < b.1

theorem get?_insert (m : Keyed α) (k k' : String) (v : α) :
    get? (insert m k v) k' = if k' = k then some v else get? m k' := by
  induction m with
  | nil => simp [insert, get?]
  | cons entry rest ih =>
    obtain ⟨key, value⟩ := entry
    simp only [insert]
    by_cases h : k = key
    · subst h; by_cases h' : k' = k <;> simp [get?, h']
    · by_cases hlt : k < key
      · simp only [if_neg h, if_pos hlt, get?]
      · simp only [if_neg h, if_neg hlt, get?, ih]
        by_cases h' : k' = key
        · subst h'; simp [Ne.symm h]
        · simp [h']

/-- Of two values for one key the last stays. -/
theorem insert_insert (m : Keyed α) (k : String) (v v' : α) :
    insert (insert m k v) k v' = insert m k v' := by
  induction m with
  | nil => simp [insert]
  | cons entry rest ih =>
    obtain ⟨key, value⟩ := entry
    by_cases h : k = key
    · simp [insert, h]
    · by_cases hlt : k < key <;> simp [insert, h, hlt, ih]

theorem length_insert_le (m : Keyed α) (k : String) (v : α) :
    (insert m k v).length ≤ m.length + 1 := by
  induction m with
  | nil => simp [insert]
  | cons entry rest ih =>
    simp only [insert]
    split
    · simp
    · split
      · simp
      · simpa using ih

theorem get?_erase (m : Keyed α) (k k' : String) :
    get? (erase m k) k' = if k' = k then none else get? m k' := by
  induction m with
  | nil => simp [erase, get?]
  | cons entry rest ih =>
    obtain ⟨key, value⟩ := entry
    simp only [erase] at ih
    by_cases h : key = k
    · subst h
      simp only [erase, List.filter_cons, ne_eq, not_true_eq_false, decide_false,
        Bool.false_eq_true, ↓reduceIte, get?, ih]
      by_cases h' : k' = key <;> simp [h']
    · simp only [erase, List.filter_cons, ne_eq, h, not_false_eq_true, decide_true, ↓reduceIte,
        get?, ih]
      by_cases h' : k' = key
      · subst h'; simp [h]
      · simp [h']

theorem mem_keys {m : Keyed α} {k : String} : k ∈ keys m ↔ (get? m k).isSome = true := by
  induction m with
  | nil => simp [keys, get?]
  | cons entry rest ih =>
    obtain ⟨key, value⟩ := entry
    simp only [keys] at ih
    by_cases h : k = key <;> simp [keys, get?, h, ih]

theorem mem_insert {m : Keyed α} {k : String} {v : α} {entry : String × α}
    (h : entry ∈ insert m k v) : entry = (k, v) ∨ entry ∈ m := by
  induction m with
  | nil => simpa [insert] using h
  | cons head rest ih =>
    obtain ⟨key, value⟩ := head
    simp only [insert] at h
    split at h
    · rcases List.mem_cons.1 h with h | h
      · exact .inl h
      · exact .inr (List.mem_cons_of_mem _ h)
    · split at h
      · rcases List.mem_cons.1 h with h | h
        · exact .inl h
        · exact .inr h
      · rcases List.mem_cons.1 h with h | h
        · exact .inr (h ▸ List.mem_cons_self)
        · exact (ih h).imp id (List.mem_cons_of_mem _)

theorem Ordered.insert {m : Keyed α} (hm : Ordered m) (k : String) (v : α) :
    Ordered (insert m k v) := by
  induction m with
  | nil => simp [Keyed.insert, Ordered]
  | cons head rest ih =>
    obtain ⟨key, value⟩ := head
    obtain ⟨hhead, hrest⟩ := List.pairwise_cons.1 hm
    simp only [Keyed.insert]
    by_cases h : k = key
    · subst h
      rw [if_pos rfl]
      exact List.pairwise_cons.2 ⟨hhead, hrest⟩
    · rw [if_neg h]
      by_cases hlt : k < key
      · rw [if_pos hlt]
        refine List.pairwise_cons.2 ⟨fun entry hentry => ?_, hm⟩
        rcases List.mem_cons.1 hentry with rfl | hentry
        · exact hlt
        · exact String.lt_trans hlt (hhead entry hentry)
      · rw [if_neg hlt]
        refine List.pairwise_cons.2 ⟨fun entry hentry => ?_, ih hrest⟩
        rcases mem_insert hentry with rfl | hentry
        · rcases String.le_total k key with hle | hle
          · exact absurd (String.le_antisymm hle (String.not_lt.1 hlt)) h
          · refine Classical.byContradiction fun hnot => h ?_
            exact String.le_antisymm (String.not_lt.1 hnot) hle
        · exact hhead entry hentry

theorem Ordered.nodup_keys {m : Keyed α} (hm : Ordered m) : (keys m).Nodup := by
  apply List.pairwise_map.2
  apply List.Pairwise.imp _ hm
  intro a b hlt heq
  rw [heq] at hlt
  exact String.lt_irrefl _ hlt

theorem Ordered.erase {m : Keyed α} (hm : Ordered m) (k : String) : Ordered (erase m k) :=
  List.Pairwise.filter _ hm

theorem Ordered.insertAll {m : Keyed α} (hm : Ordered m) (extra : Keyed α) :
    Ordered (insertAll m extra) := by
  induction extra generalizing m with
  | nil => exact hm
  | cons head rest ih => exact ih (hm.insert head.1 head.2)

end Keyed

/-- A map from text keys, listed in ascending order of the keys. -/
structure KeyMap (α : Type u) where
  entries : Keyed α
  ordered : entries.Ordered

namespace KeyMap

variable {α : Type u}

/-- The map without entries. -/
def empty : KeyMap α :=
  ⟨[], List.Pairwise.nil⟩

instance : Inhabited (KeyMap α) := ⟨empty⟩

/-- The value of key `k`. -/
def get? (m : KeyMap α) (k : String) : Option α :=
  Keyed.get? m.entries k

/-- Whether the map has key `k`. -/
def contains (m : KeyMap α) (k : String) : Bool :=
  (m.get? k).isSome

/-- Sets the value of key `k`. -/
def insert (m : KeyMap α) (k : String) (v : α) : KeyMap α :=
  ⟨Keyed.insert m.entries k v, m.ordered.insert k v⟩

/-- Sets the keys of all the given entries, the last one of each key. -/
def insertAll (m : KeyMap α) (extra : Keyed α) : KeyMap α :=
  ⟨Keyed.insertAll m.entries extra, m.ordered.insertAll extra⟩

/-- The map of a list of entries, the last one of each key. -/
def ofList (entries : Keyed α) : KeyMap α :=
  empty.insertAll entries

/-- The number of keys. -/
def size (m : KeyMap α) : Nat :=
  m.entries.length

theorem get?_insert (m : KeyMap α) (k k' : String) (v : α) :
    (m.insert k v).get? k' = if k' = k then some v else m.get? k' :=
  Keyed.get?_insert m.entries k k' v

theorem insert_insert (m : KeyMap α) (k : String) (v v' : α) :
    (m.insert k v).insert k v' = m.insert k v' := by
  simp only [insert, Keyed.insert_insert]

theorem size_insert_le (m : KeyMap α) (k : String) (v : α) : (m.insert k v).size ≤ m.size + 1 :=
  Keyed.length_insert_le m.entries k v

end KeyMap

end StepFlow
