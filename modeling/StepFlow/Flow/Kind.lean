import StepFlow.Text.Blank

/-!
# Kinds of nodes

## Main definitions

* `Kind`: the behavioural category of a node.
* `Kind.encode`, `Kind.decode`: its text.
-/

namespace StepFlow

/-- The behavioural category of a node. Only the named kinds matter for planning; any other one is
kept with its own spelling. -/
inductive Kind
  /-- An entry point, always a root of the plan. -/
  | trigger
  | function
  | agent
  /-- A branching node, whose successors may be guarded by an expression. -/
  | condition
  /-- The kind of a node that declares none. -/
  | generic
  | other (spelling : String)
  deriving DecidableEq, Repr, Inhabited

namespace Kind

/-- The text of a kind. -/
def encode : Kind → String
  | trigger => "trigger"
  | function => "function"
  | agent => "agent"
  | condition => "condition"
  | generic => "generic"
  | other spelling => spelling

/-- The kind of a text; the case of ASCII letters does not matter for the named kinds. -/
def decode (text : String) : Kind :=
  match Text.fold text with
  | "trigger" => trigger
  | "function" => function
  | "agent" => agent
  | "condition" => condition
  | "generic" => generic
  | _ => other text

/-- Whether a node of this kind is an entry point. -/
def isTrigger : Kind → Bool
  | trigger => true
  | _ => false

/-- Whether a node of this kind branches. -/
def isCondition : Kind → Bool
  | condition => true
  | _ => false

end Kind

end StepFlow
