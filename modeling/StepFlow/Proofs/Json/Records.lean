import StepFlow.Proofs.Json.Finite
import StepFlow.Proofs.Keyed

/-!
# Records read and written

The two halves of a round trip through JSON, field by field: what a decoder makes of any value, and
what it makes of a value that was written field by field.

## Main definitions

* `Decoder.Yields`: a property of everything that a decoder reads.
* `Stable`: what was read, once written, is read again.
* `Field.ofGiven`: what the value of a field leads to, if there is one.

## Design notes

A record is read in three rounds: its fields are decoded, the first fault is raised, and what is
missing is filled in. Of a record that was read, `Yields` passes through all three. Of a record
that was written, the lemmas tagged `simp` evaluate them: no field has a fault, so `visit` lets it
pass.
-/

namespace StepFlow

namespace Json

section Except

variable {ε α β : Type}

theorem bind_eq_ok {x : Except ε α} {f : α → Except ε β} {b : β} :
    (x >>= f) = .ok b ↔ ∃ a, x = .ok a ∧ f a = .ok b := by
  cases x <;> simp [bind, Except.bind]

-- not by `rfl`: the kernel would run the rest of the decoder to compare the two sides
@[simp] theorem ok_bind (a : α) (f : α → Except ε β) : ((.ok a : Except ε α) >>= f) = f a := by
  simp [bind, Except.bind]

@[simp] theorem map_ok (f : α → β) (a : α) : (.ok a : Except ε α).map f = .ok (f a) := rfl

@[simp] theorem functor_map_ok (f : α → β) (a : α) :
    (f <$> (.ok a : Except ε α)) = .ok (f a) := rfl

theorem map_eq_ok {x : Except ε α} {f : α → β} {b : β} :
    x.map f = .ok b ↔ ∃ a, x = .ok a ∧ f a = b := by
  cases x <;> simp [Except.map]

theorem exists_of_mapM_eq_ok {f : α → Except ε β} {as : List α} {bs : List β}
    (h : as.mapM f = .ok bs) {b : β} (hb : b ∈ bs) : ∃ a ∈ as, f a = .ok b := by
  induction as generalizing bs with
  | nil =>
    obtain rfl : [] = bs := by simpa [pure, Except.pure] using h
    exact absurd hb List.not_mem_nil
  | cons a as ih =>
    rw [List.mapM_cons] at h
    obtain ⟨b', hb', h⟩ := bind_eq_ok.1 h
    obtain ⟨bs', hbs', h⟩ := bind_eq_ok.1 h
    obtain rfl : b' :: bs' = bs := Except.ok.inj h
    rcases List.mem_cons.1 hb with rfl | hb
    · exact ⟨a, List.mem_cons_self, hb'⟩
    · obtain ⟨a', ha', hfa'⟩ := ih hbs' hb
      exact ⟨a', List.mem_cons_of_mem _ ha', hfa'⟩

theorem mapM_map_eq_ok {f : β → Except ε α} {g : α → β} {as : List α}
    (h : ∀ a ∈ as, f (g a) = .ok a) : (as.map g).mapM f = .ok as := by
  induction as with
  | nil => rfl
  | cons a as ih =>
    obtain ⟨ha, has⟩ := List.forall_mem_cons.1 h
    rw [List.map_cons, List.mapM_cons, ha, ih has]
    rfl

end Except

variable {α β : Type}

/-! ### What a decoder reads -/

/-- Everything that is read from finite JSON has the property. -/
def Decoder.Yields (decode : Decoder α) (P : α → Prop) : Prop :=
  ∀ ⦃v a⦄, v.isFinite = true → decode v = .ok a → P a

/-- What is read from finite JSON, once written, is read again. -/
def Stable (decode : Decoder α) (encode : α → Value) : Prop :=
  ∀ ⦃v a⦄, v.isFinite = true → decode v = .ok a → decode (encode a) = .ok a

namespace Decoder.Yields

variable {decode : Decoder α} {P : α → Prop}

theorem stable (h : decode.Yields P) {encode : α → Value}
    (hread : ∀ a, P a → decode (encode a) = .ok a) : Stable decode encode :=
  fun _ a hv ha => hread a (h hv ha)

theorem list (h : decode.Yields P) : (Decoder.list decode).Yields fun as => ∀ a ∈ as, P a := by
  intro v as hv has a ha
  cases v with
  | arr items =>
    obtain ⟨item, hitem, hdecode⟩ := exists_of_mapM_eq_ok has ha
    exact h (Value.isFinite_of_mem hv hitem) hdecode
  | _ => simp [Decoder.list, wrongType] at has

theorem nullable_any : (Decoder.nullable Decoder.any).Yields fun o => ∀ v ∈ o, v ≠ .null := by
  intro v o _ ho v' hv'
  cases v with
  | null => simp_all [Decoder.nullable]
  | _ =>
    obtain rfl := Except.ok.inj ho
    obtain rfl := Option.some.inj hv'
    simp

theorem nullable (h : decode.Yields P) :
    (Decoder.nullable decode).Yields fun o => ∀ a ∈ o, P a := by
  intro v o hv ho a ha
  cases v with
  | null => simp_all [Decoder.nullable]
  | _ =>
    obtain ⟨a', ha', hsome⟩ := bind_eq_ok.1 ho
    obtain rfl : some a' = o := Except.ok.inj hsome
    obtain rfl : a' = a := Option.some.inj ha
    exact h hv ha'

end Decoder.Yields

/-- Every number in what is given is finite. -/
def Fields.isFinite : Fields → Bool
  | .named entries => (Value.obj entries).isFinite
  | .placed values => (Value.arr values).isFinite

theorem Shape.isFinite_of_read {shape : Shape} {v : Value} {given : Fields}
    (hv : v.isFinite = true) (h : shape.read v = .ok given) : given.isFinite = true := by
  cases v <;> simp only [Shape.read, Decoder.wrongType, Except.ok.injEq, reduceCtorEq] at h
  all_goals
    subst h
    exact hv

theorem Shape.isFinite_of_given? {shape : Shape} {given : Fields} (h : given.isFinite = true)
    {name : String} {v : Value} (hv : shape.given? given name = some v) : v.isFinite = true := by
  cases given with
  | named entries => exact Value.isFinite_of_get? h hv
  | placed values => exact Value.isFinite_of_mem h (List.mem_of_getElem? hv)

/-- The value of the field, if it is given, has the property. -/
def Field.Yields (result : Field α) (P : α → Prop) : Prop :=
  ∀ a, result = .ok (some a) → P a

theorem Decoder.Yields.field {decode : Decoder α} {P : α → Prop} (h : decode.Yields P)
    {shape : Shape} {given : Fields} (hgiven : given.isFinite = true) (name : String) :
    (shape.field given name decode).Yields P := by
  intro a ha
  rw [Shape.field] at ha
  split at ha
  · next v hv =>
    obtain ⟨a', ha', hsome⟩ := map_eq_ok.1 ha
    obtain rfl : a' = a := Option.some.inj hsome
    exact h (Shape.isFinite_of_given? hgiven hv) ha'
  · simp at ha

namespace Field.Yields

variable {shape : Shape} {given : Fields} {name : String} {a : α} {P : α → Prop}

theorem required {result : Field α} (h : result.Yields P)
    (ha : shape.required given name result = .ok a) : P a := by
  obtain ⟨o, ho, ha⟩ := bind_eq_ok.1 ha
  cases o with
  | some a' =>
    obtain rfl : a' = a := Except.ok.inj ha
    exact h a' ho
  | none => cases given <;> simp at ha

theorem orElse {result : Field α} (h : result.Yields P) {default : α}
    (ha : result.orElse default = .ok a) (hdefault : P default) : P a := by
  obtain ⟨o, ho, ha⟩ := bind_eq_ok.1 ha
  obtain rfl : o.getD default = a := Except.ok.inj ha
  cases o with
  | some a => exact h a ho
  | none => exact hdefault

theorem orNone {result : Field (Option α)} (h : result.Yields fun o => ∀ a ∈ o, P a)
    {o : Option α} (ho : result.orNone = .ok o) : ∀ a ∈ o, P a := by
  obtain ⟨o', ho', hjoin⟩ := bind_eq_ok.1 ho
  obtain rfl : o'.join = o := Except.ok.inj hjoin
  cases o' with
  | some o => exact h o ho'
  | none => simp

theorem namedOrNone {result : Field (Option α)} (h : result.Yields fun o => ∀ a ∈ o, P a)
    {o : Option α} (ho : shape.namedOrNone given name result = .ok o) : ∀ a ∈ o, P a := by
  obtain ⟨o', ho', hfill⟩ := bind_eq_ok.1 ho
  cases o' with
  | some o'' =>
    obtain rfl : o'' = o := by cases given <;> exact Except.ok.inj hfill
    exact h o'' ho'
  | none =>
    cases given with
    | named entries =>
      obtain rfl : none = o := Except.ok.inj hfill
      simp
    | placed values => simp at hfill

end Field.Yields

/-! ### What was written -/

@[simp] theorem get?_optional (name key : String) (v : Option Value) :
    Keyed.get? (Object.optional name v) key = if key = name then v else none := by
  cases v <;> simp [Object.optional]

@[simp] theorem text_str (s : String) : Decoder.text (.str s) = .ok s := rfl

@[simp] theorem bool_bool (b : Bool) : Decoder.bool (.bool b) = .ok b := rfl

@[simp] theorem object_obj (o : Object) : Decoder.object (.obj o) = .ok o := rfl

@[simp] theorem any_eq_ok (v : Value) : Decoder.any v = .ok v := rfl

@[simp] theorem word_int (n : UInt32) : Decoder.word (.int n.toNat) = .ok n := by
  have hn : n.toNat < 0x100000000 := n.toNat_lt
  have hrange : (0 : Int) ≤ n.toNat ∧ (n.toNat : Int) < 0x100000000 := by omega
  simp [Decoder.word, hrange]

theorem list_arr_map {decode : Decoder α} {encode : α → Value} {as : List α}
    (h : ∀ a ∈ as, decode (encode a) = .ok a) :
    Decoder.list decode (.arr (as.map encode)) = .ok as :=
  mapM_map_eq_ok h

@[simp] theorem list_ofTexts (texts : List String) :
    Decoder.list Decoder.text (.ofTexts texts) = .ok texts :=
  list_arr_map fun _ _ => rfl

@[simp] theorem nullable_of_ne_null {decode : Decoder α} {v : Value} (h : v ≠ .null) :
    Decoder.nullable decode v = (decode v).map some := by
  cases v <;> first | exact absurd rfl h | rfl

theorem nullable_getD_null {decode : Decoder α} {encode : α → Value} {o : Option α}
    (h : ∀ a ∈ o, decode (encode a) = .ok a) (hnull : ∀ a ∈ o, encode a ≠ .null) :
    Decoder.nullable decode ((o.map encode).getD .null) = .ok o := by
  cases o with
  | none => rfl
  | some a =>
    rw [Option.map_some, Option.getD_some, nullable_of_ne_null (hnull a rfl), h a rfl]
    rfl

@[simp] theorem nullable_ofText? (text : Option String) :
    Decoder.nullable Decoder.text (.ofText? text) = .ok text := by
  cases text <;> rfl

/-- What the value of a field leads to, if there is one. -/
def Field.ofGiven (decode : Decoder α) : Option Value → Field α
  | some v => (decode v).map some
  | none => .ok none

@[simp] theorem Field.ofGiven_some (decode : Decoder α) (v : Value) :
    Field.ofGiven decode (some v) = (decode v).map some := rfl

@[simp] theorem Field.ofGiven_none (decode : Decoder α) :
    Field.ofGiven decode none = .ok none := rfl

/-- A field that was left out for none. -/
theorem Field.ofGiven_optional {decode : Decoder α} {encode : α → Value} {o : Option α}
    (h : ∀ a ∈ o, decode (encode a) = .ok a) (hnull : ∀ a ∈ o, encode a ≠ .null) :
    Field.ofGiven (Decoder.nullable decode) (o.map encode) = .ok (o.map some) := by
  cases o with
  | none => rfl
  | some a =>
    rw [Option.map_some, ofGiven_some, nullable_of_ne_null (hnull a rfl), h a rfl]
    rfl

@[simp] theorem Field.ofGiven_optional_text (text : Option String) :
    Field.ofGiven (Decoder.nullable Decoder.text) (text.map .str) = .ok (text.map some) :=
  ofGiven_optional (fun _ _ => rfl) (by simp)

@[simp] theorem Field.fault?_ok (o : Option α) : Field.fault? (.ok o) = none := rfl

@[simp] theorem Field.orElse_ok (o : Option α) (default : α) :
    Field.orElse (.ok o) default = .ok (o.getD default) := rfl

@[simp] theorem Field.orNone_ok (o : Option (Option α)) : Field.orNone (.ok o) = .ok o.join := rfl

@[simp] theorem join_map_some (o : Option α) : (o.map some).join = o := by
  cases o <;> rfl

namespace Shape

variable (shape : Shape)

@[simp] theorem read_obj (entries : Object) : shape.read (.obj entries) = .ok (.named entries) :=
  rfl

@[simp] theorem field_named (entries : Object) (name : String) (decode : Decoder α) :
    shape.field (.named entries) name decode = .ofGiven decode (Keyed.get? entries name) := by
  rw [field, given?]
  cases Keyed.get? entries name <;> rfl

@[simp] theorem visit_named (entries : Object) {faults : List (String × Option DecodeError)}
    (h : ∀ fault ∈ faults, fault.2 = none) : shape.visit (.named entries) faults = .ok () := by
  have hfault : ∀ name, visit.faultOf faults name = none := by
    intro name
    cases hget : Keyed.get? faults name with
    | none => simp [visit.faultOf, hget]
    | some fault => simpa [visit.faultOf, hget] using h _ (Keyed.mem_of_get? hget)
  have hnone : (Keyed.keys entries).findSome? (visit.faultOf faults) = none := by
    simpa using fun name _ => hfault name
  rw [visit, hnone]
  rfl

@[simp] theorem required_some (given : Fields) (name : String) (a : α) :
    shape.required given name (.ok (some a)) = .ok a := rfl

@[simp] theorem namedOrNone_some (given : Fields) (name : String) (o : Option α) :
    shape.namedOrNone given name (.ok (some o)) = .ok o := by
  cases given <;> rfl

end Shape

end Json

end StepFlow
