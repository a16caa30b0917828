import StepFlow.Authoring.Warning
import StepFlow.Proofs.Keyed

/-!
# What a node has to supply

A node may restate what its handler expects of an argument. What it restates counts in place of what
is registered, also where it asks for less.

## Main definitions

* `Node.ownSpec?`: what a node states of one of its arguments.
* `Node.effectiveSpec?`: what counts for an argument.
* `Node.Lacks`: the arguments that a node has to supply and does not.

## Main statements

* `Node.get?_signature`: the node's own specs count before the registered ones.
* `Node.mem_missingArguments_signature`: which arguments are missing.
* `missingArgument_unless_restated`: a missing argument is reported unless the node asks for less.
-/

namespace StepFlow

open Json (Value)

namespace ArgSpec

theorem mustBeSupplied_iff {spec : ArgSpec} :
    spec.mustBeSupplied = true ↔ spec.required = true ∧ spec.default = none := by
  simp [mustBeSupplied]

end ArgSpec

namespace Node

variable {n : Node} {registered : Signature} {name : String}

/-- What the node states of one of its arguments. A value that is no spec states nothing. -/
def ownSpec? (n : Node) (name : String) : Option ArgSpec :=
  (Keyed.get? n.argsSchema name).bind fun v => (ArgSpec.fromJson v).toOption

/-- What counts for an argument: what the node states, else what is registered. -/
def effectiveSpec? (n : Node) (registered : Signature) (name : String) : Option ArgSpec :=
  (n.ownSpec? name).or (registered.get? name)

/-- The node has to supply the argument and does not. -/
def Lacks (n : Node) (registered : Signature) (name : String) : Prop :=
  Keyed.contains n.args name = false ∧
    ∃ spec, n.effectiveSpec? registered name = some spec ∧ spec.required = true ∧
      spec.default = none

theorem handler?_eq_some_iff {run : String} :
    n.handler? = some run ↔ n.run = some run ∧ run ≠ "" := by
  simp [handler?, Option.filter_eq_some_iff]

theorem handler?_eq_none_iff : n.handler? = none ↔ n.run = none ∨ n.run = some "" := by
  cases h : n.run <;> simp [handler?, h, Option.filter]

theorem get?_ownSpecs (h : Keyed.Ordered n.argsSchema) (name : String) :
    Keyed.get? n.ownSpecs name = n.ownSpec? name :=
  Keyed.get?_filterMap (fun v => (ArgSpec.fromJson v).toOption) h.nodup_keys name

theorem ordered_ownSpecs (h : Keyed.Ordered n.argsSchema) : Keyed.Ordered n.ownSpecs :=
  h.filterMap fun v => (ArgSpec.fromJson v).toOption

theorem get?_signature (h : Keyed.Ordered n.argsSchema) (registered : Signature) (name : String) :
    (n.signature registered).get? name = n.effectiveSpec? registered name := by
  rw [effectiveSpec?, ← get?_ownSpecs h]
  exact Keyed.get?_insertAll (ordered_ownSpecs h).nodup_keys registered.entries name

theorem mem_missingArguments {signature : Signature} :
    name ∈ n.missingArguments signature ↔
      Keyed.contains n.args name = false ∧
        ∃ spec, signature.get? name = some spec ∧ spec.mustBeSupplied = true := by
  have hentry : ∀ spec, (name, spec) ∈ signature.entries ↔ signature.get? name = some spec :=
    fun spec => (Keyed.get?_eq_some_iff signature.ordered.nodup_keys).symm
  simp only [missingArguments, List.mem_map, List.mem_filter, Bool.and_eq_true, Bool.not_eq_true']
  constructor
  · rintro ⟨⟨name, spec⟩, ⟨hmem, hmust, hlack⟩, rfl⟩
    exact ⟨hlack, spec, (hentry spec).1 hmem, hmust⟩
  · rintro ⟨hlack, spec, hspec, hmust⟩
    exact ⟨(name, spec), ⟨(hentry spec).2 hspec, hmust, hlack⟩, rfl⟩

/-- Missing arguments come in the order of their names, each once. -/
theorem ascending_missingArguments (n : Node) (signature : Signature) :
    (n.missingArguments signature).Pairwise (· < ·) :=
  List.pairwise_map.2 (signature.ordered.filter _)

theorem mem_missingArguments_signature (h : Keyed.Ordered n.argsSchema) :
    name ∈ n.missingArguments (n.signature registered) ↔ n.Lacks registered name := by
  simp only [mem_missingArguments, get?_signature h, Lacks, ArgSpec.mustBeSupplied_iff]

theorem warnings_of_known {run : String} (hrun : n.handler? = some run) {known : Registry}
    (hknown : known.get? run = some registered) :
    n.warnings known =
      (n.missingArguments (n.signature registered)).map (.missingArgument n.id run) := by
  simp only [warnings, hrun, hknown]

/-- An argument of a handler that is known is reported exactly if the node lacks it. -/
theorem missingArgument_mem_warnings_iff (h : Keyed.Ordered n.argsSchema) {run : String}
    (hrun : n.handler? = some run) {known : Registry}
    (hknown : known.get? run = some registered) :
    .missingArgument n.id run name ∈ n.warnings known ↔ n.Lacks registered name := by
  rw [warnings_of_known hrun hknown, ← mem_missingArguments_signature h]
  exact List.mem_map_of_injective fun _ _ heq => (AuthoringWarning.missingArgument.inj heq).2.2

/-- What a node lacks of what is registered, it does not lack if it asks for less itself. -/
theorem lacks_iff {spec : ArgSpec} (hspec : registered.get? name = some spec)
    (hmust : spec.mustBeSupplied = true) (hlack : Keyed.contains n.args name = false) :
    n.Lacks registered name ↔ ∀ own, n.ownSpec? name = some own → own.mustBeSupplied = true := by
  rw [ArgSpec.mustBeSupplied_iff] at hmust
  cases hown : n.ownSpec? name with
  | none => simp [Lacks, effectiveSpec?, hown, hspec, hlack, hmust]
  | some own => simp [Lacks, effectiveSpec?, hown, hlack, ArgSpec.mustBeSupplied_iff]

end Node

/-- The report on a graph contains what is to be said of each of its nodes. -/
theorem mem_warnings_of_mem_node {nodes : List Node} (edges : List Edge) {n : Node} (hn : n ∈ nodes)
    {known : Registry} {w : AuthoringWarning} (hw : w ∈ n.warnings known) :
    w ∈ warnings nodes edges (some known) :=
  List.mem_append_right _ (List.mem_flatMap.2 ⟨n, hn, hw⟩)

/-- An argument that has to be supplied as registered and is not supplied is reported, unless the
node itself states a spec for it by which it need not be supplied. Then it is not reported of this
node. -/
theorem missingArgument_unless_restated {nodes : List Node} (edges : List Edge) {n : Node}
    (hn : n ∈ nodes) (hschema : Keyed.Ordered n.argsSchema) {run : String}
    (hrun : n.handler? = some run) {known : Registry} {registered : Signature}
    (hknown : known.get? run = some registered) {name : String} {spec : ArgSpec}
    (hspec : registered.get? name = some spec) (hmust : spec.mustBeSupplied = true)
    (hlack : Keyed.contains n.args name = false) :
    ((∀ own, n.ownSpec? name = some own → own.mustBeSupplied = true) →
      .missingArgument n.id run name ∈ warnings nodes edges (some known)) ∧
      ((∃ own, n.ownSpec? name = some own ∧ own.mustBeSupplied = false) →
        .missingArgument n.id run name ∉ n.warnings known) := by
  have hiff := (Node.missingArgument_mem_warnings_iff hschema hrun hknown).trans
    (Node.lacks_iff hspec hmust hlack)
  constructor
  · exact fun hown => mem_warnings_of_mem_node edges hn (hiff.2 hown)
  · rintro ⟨own, hown, hless⟩ hmem
    rw [hiff.1 hmem own hown] at hless
    cases hless

/-- One argument is restated as required, another one is stated by a value that is no spec. -/
theorem missingArgument_unless_restated_beside_others :
    let n : Node := { id := "mail", run := some "sendEmail", argsSchema :=
      [("cc", .obj []), ("subject", .bool true), ("to", .obj [("required", .bool true)])] }
    let registered : Signature :=
      (KeyMap.empty.insert "subject" { required := true }).insert "to" { required := true }
    let known : Registry := KeyMap.empty.insert "sendEmail" registered
    Keyed.Ordered n.argsSchema ∧ n.handler? = some "sendEmail" ∧
      known.get? "sendEmail" = some registered ∧
      .missingArgument "mail" "sendEmail" "subject" ∈ warnings [n] [] (some known) ∧
      .missingArgument "mail" "sendEmail" "to" ∈ warnings [n] [] (some known) := by
  intro n registered known
  have hn : n ∈ [n] := List.mem_cons_self
  have hschema : Keyed.Ordered n.argsSchema := by decide
  have hknown : known.get? "sendEmail" = some registered := rfl
  refine ⟨hschema, rfl, hknown, ?_, ?_⟩
  · refine (missingArgument_unless_restated [] hn hschema rfl hknown rfl rfl rfl).1 ?_
    exact nofun
  · refine (missingArgument_unless_restated [] hn hschema rfl hknown rfl rfl rfl).1 ?_
    rintro own ⟨⟩
    rfl

/-- A node that only states the type of an argument hides that the argument is required. -/
theorem requirement_hidden_by_stated_type :
    let n : Node := { id := "mail", run := some "sendEmail", argsSchema :=
      [("to", .obj [("type", .str "string")])] }
    let registered : Signature :=
      KeyMap.empty.insert "to" { kind := some "string", required := true }
    let known : Registry := KeyMap.empty.insert "sendEmail" registered
    known.get? "sendEmail" = some registered ∧
      (registered.get? "to").map (·.mustBeSupplied) = some true ∧
      Keyed.contains n.args "to" = false ∧
      .missingArgument "mail" "sendEmail" "to" ∉ warnings [n] [] (some known) := by
  intro n registered known
  have hnone : warnings [n] [] (some known) = [] := rfl
  refine ⟨rfl, rfl, rfl, ?_⟩
  rw [hnone]
  exact List.not_mem_nil

end StepFlow
