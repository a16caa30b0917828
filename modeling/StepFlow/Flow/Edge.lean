/-!
# Edges

## Main definitions

* `Edge`: a directed edge between two node ids, with its looks.
* `Edge.sequential`: the edge that states an order of two nodes.
* `Edge.connector`: the edge from a node to the flow composed under it.

## Design notes

Ids made by the library are part of what it promises: `s→t` for a sequential edge, `p__o` for what
was copied below the node `p`, and `p__connect__f` for a connector.
-/

namespace StepFlow

/-- The id of an edge that orders two nodes. -/
def sequentialId (source target : String) : String :=
  source ++ "→" ++ target

/-- The id under which a node or an edge is copied below a node. -/
def namespacedId (parent inner : String) : String :=
  parent ++ "__" ++ inner

/-- The id of the edge from a node to the first node copied below it. -/
def connectorId (parent first : String) : String :=
  parent ++ "__connect__" ++ first

/-- The arrow head of an edge. -/
structure Marker where
  kind : String
  width : UInt32
  height : UInt32
  deriving DecidableEq, Repr

/-- Curve, stroke and arrow of an edge on the canvas. Planning never looks at it. -/
structure EdgeStyle where
  curve : String
  animated : Bool
  stroke : String
  marker : Marker
  deriving DecidableEq, Repr

/-- An animated curve with a closed arrow, in the given colour. -/
def EdgeStyle.ofStroke (stroke : String) : EdgeStyle :=
  ⟨"bezier", true, stroke, ⟨"arrowclosed", 20, 20⟩⟩

/-- The looks of an edge that orders two nodes. -/
def EdgeStyle.sequential : EdgeStyle := .ofStroke "#9b5de5"

/-- The muted looks of an edge to a composed flow. -/
def EdgeStyle.connector : EdgeStyle := .ofStroke "#888"

/-- A directed edge between two node ids. -/
structure Edge where
  id : String
  source : String
  target : String
  style : Option EdgeStyle := none
  deriving DecidableEq, Repr

namespace Edge

/-- The edge that orders two nodes. -/
def sequential (source target : String) : Edge :=
  ⟨sequentialId source target, source, target, some .sequential⟩

/-- The edge from a node to the first node of the flow composed under it. -/
def connector (parent first : String) : Edge :=
  ⟨connectorId parent first, parent, first, some .connector⟩

/-- The two ends of an edge. -/
def ends (e : Edge) : String × String :=
  (e.source, e.target)

/-- Whether two edges join the same nodes. -/
def sameEnds (e e' : Edge) : Bool :=
  e.ends = e'.ends

/-- Whether an edge touches a node. -/
def touches (e : Edge) (node : String) : Bool :=
  e.source = node || e.target = node

/-- Whether two edges cannot stand side by side: they share the id or both ends. -/
def clashes (e e' : Edge) : Bool :=
  e.id = e'.id || e.sameEnds e'

end Edge

end StepFlow
