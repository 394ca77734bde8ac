import Chunkwise.Boundary
import Chunkwise.Tree.Definition

namespace Chunkwise

namespace Node

structure Region where
  node : Node
  kind : Kind
  enclosing : Option Kind

/-- What is searched below a node. Below a wrapper, what is inside the wrapped definition takes the
place of that definition, after the wrapper's other children. -/
def regionChildren (n : Node) : List Node :=
  if n.isDecorated && n.kind?.isSome then
    match n.definition? with
    | none => n.children
    | some d => n.children.eraseP (isField "definition") ++ d.children
  else n.children

theorem sizeOf_regionChildren (n : Node) : sizeOf n.regionChildren < sizeOf n := by
  have := n.sizeOf_children
  rw [regionChildren]
  split
  · split
    · assumption
    · rename_i d hd
      have := sizeOf_eraseP hd
      have := sizeOf_append (n.children.eraseP (isField "definition")) d.children
      have := d.sizeOf_children
      omega
  · assumption

def regionsFrom (found : Array Region) : List (Node × Option Kind) → Array Region
  | [] => found
  | (n, enclosing) :: rest =>
      match n.kind? with
      | none => regionsFrom found (n.regionChildren.map (·, enclosing) ++ rest)
      | some kind =>
          regionsFrom (found.push ⟨n, kind, enclosing⟩)
            (n.regionChildren.map (·, some kind) ++ rest)
termination_by stack => sizeOf (stack.map (·.1))
decreasing_by
  all_goals
    have := sizeOf_append n.regionChildren (rest.map (·.1))
    have := n.sizeOf_regionChildren
    simp [Function.comp_def]
    omega

def regions (root : Node) : List Region :=
  (regionsFrom #[] [(root, none)]).toList

def Region.boundary (source : ByteArray) (r : Region) : Boundary where
  first := r.node.firstLine
  last := r.node.lastLine
  kind := if r.kind = .function && r.enclosing = some .classLike then .method else r.kind
  name := (r.node.name? source).map String.ofList

def boundaries (root : Node) (source : ByteArray) : List Boundary :=
  root.regions.map (Region.boundary source)

end Node

end Chunkwise
