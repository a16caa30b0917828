/-!
# Places on the canvas

## Main definitions

* `Position`: the coordinates of a node.
* `Position.height`: the rank of the vertical coordinate in the layout.

## Design notes

Coordinates are doubles. The layout compares them in the total order of doubles, in which `-0.0`
stands below `0.0`; it is the order of the integers that `rank` assigns to them. All undefined
numbers have one rank here, above positive infinity, whatever their sign and payload. No flow that
is read from JSON has one.
-/

namespace StepFlow

/-- The rank of a double in the total order: the bit patterns of the positive numbers ascend, those
of the negative ones descend below them. -/
def rank (x : Float) : Int :=
  let bits := x.toBits.toNat
  if bits < 0x8000000000000000 then bits else 0x7FFFFFFFFFFFFFFF - (bits : Int)

/-- Canvas coordinates. They only matter for the order of the layout. -/
structure Position where
  x : Float := 0.0
  y : Float := 0.0
  deriving DecidableEq, Repr

instance : Inhabited Position := ⟨{}⟩

namespace Position

/-- The place shifted by `dx` and `dy`. -/
def offset (p : Position) (dx dy : Float) : Position :=
  ⟨p.x + dx, p.y + dy⟩

/-- The rank of a place in the vertical layout. -/
def height (p : Position) : Int :=
  rank p.y

end Position

end StepFlow
