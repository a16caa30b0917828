import StepFlow.Flow.Graph

/-!
# The order of the layout

Nodes from top to bottom of the canvas, and the edges that this order suggests.

## Main definitions

* `layoutOrder`: the nodes by ascending height, those of one height in their given order.
* `neighbours`: the pairs of adjacent members of a list.
* `sequentialChain`: an edge for each pair of neighbours in the layout.
-/

namespace StepFlow

/-- The nodes from top to bottom; nodes of one height keep their order. -/
def layoutOrder (nodes : List Node) : List Node :=
  nodes.mergeSort fun a b => a.position.height ≤ b.position.height

/-- The pairs of adjacent members. -/
def neighbours : List α → List (α × α)
  | a :: b :: rest => (a, b) :: neighbours (b :: rest)
  | _ => []

/-- The sequential edges between neighbours in the layout. -/
def layoutEdges (nodes : List Node) : List Edge :=
  (neighbours (layoutOrder nodes)).map fun (current, next) => .sequential current.id next.id

/-- Appends an edge unless its ends are joined already. -/
def addUnjoined (edges : List Edge) (e : Edge) : List Edge :=
  if edges.any fun known => known.sameEnds e then edges else edges ++ [e]

/-- The sequential edges between neighbours in the layout, one for each pair of ids. -/
def sequentialChain (nodes : List Node) : List Edge :=
  (layoutEdges nodes).foldl addUnjoined []

end StepFlow
