import StepFlow.Layout.GapMode
import StepFlow.Layout.Order

/-!
# Filling gaps between edges

Edges inferred from the layout, so that no step is left without a way forward.

## Main definitions

* `EdgeIndex`: the ids and the pairs of ends that are taken.
* `GapMode.lacks`: whether a node needs an edge.
* `fillGaps`: the given edges followed by the inferred ones.
-/

namespace StepFlow

/-- The ids and the pairs of ends of the edges that are there. -/
structure EdgeIndex where
  ids : List String
  ends : List (String × String)

namespace EdgeIndex

/-- The index of a list of edges. -/
def ofEdges (edges : List Edge) : EdgeIndex :=
  ⟨edges.map (·.id), edges.map (·.ends)⟩

/-- Whether an edge has an id and a pair of ends that are both free. -/
def admits (index : EdgeIndex) (e : Edge) : Bool :=
  !(index.ids.contains e.id || index.ends.contains e.ends)

/-- The index with an edge more. -/
def add (index : EdgeIndex) (e : Edge) : EdgeIndex :=
  ⟨e.id :: index.ids, e.ends :: index.ends⟩

end EdgeIndex

/-- Whether the edges leave a node without the connection that the mode asks for. -/
def GapMode.lacks (mode : GapMode) (edges : List Edge) (id : String) : Bool :=
  match mode with
  | untargetedOnly => !edges.any fun e => e.target = id
  | missingOutgoing => !edges.any fun e => e.source = id

/-- The edges of a list that are still free when their turn comes. -/
def admitted : EdgeIndex → List Edge → List Edge
  | _, [] => []
  | index, e :: rest =>
    if index.admits e then e :: admitted (index.add e) rest else admitted index rest

/-- The given edges, followed by a sequential edge from each node that lacks a connection to the
next node of the layout. What a node lacks is judged by the given edges alone. -/
def fillGaps (nodes : List Node) (edges : List Edge) (mode : GapMode) : List Edge :=
  edges ++ admitted (.ofEdges edges)
    ((layoutEdges nodes).filter fun e => mode.lacks edges e.source)

end StepFlow
