import StepFlow.Json.Value

/-!
# Merging patches into objects

A patch changes an object key by key: `null` removes a key, an object is merged into an object,
and any other value replaces what is there.

## Main definitions

* `Object.deepMerge`: an object after a patch.
* `Object.patched?`: what a patch makes of the value under one key.
-/

namespace StepFlow.Json.Object

mutual

/-- The object `base` after the entries of a patch, taken in order. -/
def deepMerge (base : Object) : List (String × Value) → Object
  | [] => base
  | (key, v) :: rest => deepMerge (mergeEntry base key v) rest

/-- The object `base` after one entry of a patch. -/
def mergeEntry (base : Object) (key : String) : Value → Object
  | .null => Keyed.erase base key
  | .obj nested =>
    match Keyed.get? base key with
    | some (.obj existing) => Keyed.insert base key (.obj (deepMerge existing nested))
    | _ => Keyed.insert base key (.obj nested)
  | .bool b => Keyed.insert base key (.bool b)
  | .int n => Keyed.insert base key (.int n)
  | .float x => Keyed.insert base key (.float x)
  | .str s => Keyed.insert base key (.str s)
  | .arr items => Keyed.insert base key (.arr items)

end

/-- The value under a key after a patch: untouched where the patch says nothing, gone where it
says `null`, merged where both sides hold objects, else the patch's own value. -/
def patched? (old : Option Value) : Option Value → Option Value
  | none => old
  | some .null => none
  | some (.obj nested) =>
    match old with
    | some (.obj existing) => some (.obj (deepMerge existing nested))
    | _ => some (.obj nested)
  | some v => some v

end StepFlow.Json.Object
