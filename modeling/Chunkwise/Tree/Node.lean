namespace Chunkwise

structure Node where
  type : String
  firstByte : Nat
  endByte : Nat
  firstRow : Nat
  lastRow : Nat
  field : Option String
  children : List Node

namespace Node

def isField (name : String) (n : Node) : Bool :=
  n.field == some name

def child? (n : Node) (name : String) : Option Node :=
  n.children.find? (isField name)

theorem sizeOf_append {α : Type} [SizeOf α] (xs ys : List α) :
    sizeOf (xs ++ ys) + 1 = sizeOf xs + sizeOf ys := by
  induction xs with
  | nil =>
      simp
      omega
  | cons x xs ih =>
      simp
      omega

theorem sizeOf_eraseP {α : Type} [SizeOf α] {p : α → Bool} {xs : List α} {x : α}
    (h : xs.find? p = some x) : sizeOf (xs.eraseP p) + sizeOf x + 1 = sizeOf xs := by
  induction xs with
  | nil => simp at h
  | cons y ys ih =>
      by_cases hy : p y = true
      · have : y = x := by simpa [List.find?_cons, hy] using h
        subst this
        simp [hy]
        omega
      · have := ih (by simpa [List.find?_cons, hy] using h)
        simp [hy]
        omega

theorem sizeOf_children (n : Node) : sizeOf n.children < sizeOf n := by
  cases n
  simp only [Node.mk.sizeOf_spec]
  omega

theorem sizeOf_child {n c : Node} {name : String} (h : n.child? name = some c) :
    sizeOf c < sizeOf n := by
  have := List.sizeOf_lt_of_mem (List.mem_of_find?_eq_some h)
  have := n.sizeOf_children
  omega

def walkFrom (found : Array Node) : List Node → Array Node
  | [] => found
  | n :: rest => walkFrom (found.push n) (n.children ++ rest)
termination_by stack => sizeOf stack
decreasing_by
  have := sizeOf_append n.children rest
  have := n.sizeOf_children
  simp
  omega

def walk (root : Node) : List Node :=
  (walkFrom #[] [root]).toList

mutual

def preorder : Node → List Node
  | ⟨type, firstByte, endByte, firstRow, lastRow, field, children⟩ =>
      ⟨type, firstByte, endByte, firstRow, lastRow, field, children⟩ :: preorderAll children

def preorderAll : List Node → List Node
  | [] => []
  | n :: ns => n.preorder ++ preorderAll ns

end

theorem preorder_eq (n : Node) : n.preorder = n :: preorderAll n.children := by
  cases n
  rfl

theorem preorderAll_append (xs ys : List Node) :
    preorderAll (xs ++ ys) = preorderAll xs ++ preorderAll ys := by
  induction xs with
  | nil => rfl
  | cons x xs ih => simp [preorderAll, ih]

theorem walkFrom_toList (found : Array Node) (stack : List Node) :
    (walkFrom found stack).toList = found.toList ++ preorderAll stack := by
  fun_induction walkFrom found stack with
  | case1 => simp [preorderAll]
  | case2 found n rest ih => simp [ih, preorderAll_append, preorderAll, preorder_eq]

theorem walk_eq_preorder (root : Node) : root.walk = root.preorder := by
  simp [walk, walkFrom_toList, preorderAll]

end Node

end Chunkwise
