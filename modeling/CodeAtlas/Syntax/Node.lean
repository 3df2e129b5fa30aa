import CodeAtlas.Syntax.Expr

/-!
# The outline of a source file

An outline is a tree of nodes. It keeps classes, functions, imports, calls and plain assignments,
and the constructs that contain one of these.

Nodes are visited in pre-order: a node comes before its children, and a child with everything
below it before the next child. A `Walk` visits with a stack of nodes still to be visited, so that
deep trees need no deep recursion; `Node.preorder` states the order by recursion on the tree.

Main statements:

* `Walk.toList_eq_preorderAll`: visiting with a stack is the recursive order;
* `Node.walk_eq_preorder`: the same for one node.
-/

namespace CodeAtlas.Syntax

/-- The place of a node: its first and last line, counted from 1, and the column of its first
character in bytes. -/
structure Span where
  startLine : Nat
  endLine : Nat
  column : Nat
  deriving DecidableEq, Repr, Inhabited

/-- The number of lines that a span covers. -/
def Span.lineCount (s : Span) : Nat := s.endLine - s.startLine + 1

/-- What a node stands for. -/
inductive NodeKind where
  | file
  | classDef (decl : ClassDef)
  | function (decl : FunctionDef)
  | imports (names : List ImportAlias)
  | importFrom (names : ImportFrom)
  | call (site : CallSite)
  | assign (assignment : Assignment)
  /-- Any other construct, by the name that the grammar gives it. -/
  | other (label : String)
  deriving DecidableEq, Repr, Inhabited

/-- The name of a kind of node. -/
def NodeKind.label : NodeKind → String
  | file => "module"
  | classDef _ => "class_definition"
  | function decl =>
    if decl.isAsync then "async_function_definition" else "function_definition"
  | imports _ => "import"
  | importFrom _ => "import_from"
  | call _ => "call"
  | assign _ => "assignment"
  | other label => label

/-- A node of an outline. -/
structure Node where
  kind : NodeKind
  span : Span
  children : List Node
  deriving Inhabited

namespace Node

/-- The declared name of a class or function. -/
def name? (n : Node) : Option String :=
  match n.kind with
  | .classDef decl => some decl.name
  | .function decl => some decl.name
  | _ => none

/-- The cleaned docstring of a class or function. -/
def docComment? (n : Node) : Option String :=
  match n.kind with
  | .classDef decl => decl.docComment
  | .function decl => decl.docComment
  | _ => none

/-- The decorators of a class or function. -/
def decorators (n : Node) : List Expr :=
  match n.kind with
  | .classDef decl => decl.decorators
  | .function decl => decl.decorators
  | _ => []

/-- Whether the node declares a class or a function. -/
def isDefinition (n : Node) : Bool :=
  match n.kind with
  | .classDef _ | .function _ => true
  | _ => false

mutual

/-- The number of nodes of a tree. -/
def size : Node → Nat
  | ⟨_, _, children⟩ => sizeAll children + 1

/-- The number of nodes of some trees. -/
def sizeAll : List Node → Nat
  | [] => 0
  | n :: rest => size n + sizeAll rest

end

mutual

/-- The nodes of a tree: the root, then the nodes of each child in order. -/
def preorder : Node → List Node
  | ⟨kind, span, children⟩ => ⟨kind, span, children⟩ :: preorderAll children

/-- The nodes of some trees, one tree after the other. -/
def preorderAll : List Node → List Node
  | [] => []
  | n :: rest => preorder n ++ preorderAll rest

end

theorem size_eq (n : Node) : n.size = sizeAll n.children + 1 := by
  cases n
  simp [size]

theorem preorder_eq (n : Node) : n.preorder = n :: preorderAll n.children := by
  cases n
  simp [preorder]

theorem sizeAll_append (xs ys : List Node) : sizeAll (xs ++ ys) = sizeAll xs + sizeAll ys := by
  induction xs with
  | nil => simp [sizeAll]
  | cons n rest ih =>
    simp only [List.cons_append, sizeAll, ih]
    omega

theorem sizeAll_reverse (ns : List Node) : sizeAll ns.reverse = sizeAll ns := by
  induction ns with
  | nil => rfl
  | cons n rest ih =>
    simp only [List.reverse_cons, sizeAll_append, ih, sizeAll]
    omega

theorem preorderAll_append (xs ys : List Node) :
    preorderAll (xs ++ ys) = preorderAll xs ++ preorderAll ys := by
  induction xs with
  | nil => simp [preorderAll]
  | cons n rest ih => simp [preorderAll, ih]

end Node

/-- A walk through some trees: their roots, the one to be visited next at the end. -/
structure Walk where
  stack : Array Node
  deriving Inhabited

namespace Walk

/-- The walk through one tree. -/
def ofNode (n : Node) : Walk := ⟨#[n]⟩

/-- The next node and the rest of the walk, in which the children of the node come first. They go
on the stack from the last one to the first one. -/
def next? (w : Walk) : Option (Node × Walk) :=
  match w.stack.back? with
  | none => none
  | some n => some (n, ⟨w.stack.pop ++ n.children.reverse⟩)

/-- What the next step takes from the stack and puts on it. -/
theorem next?_eq_some_iff {w rest : Walk} {n : Node} :
    w.next? = some (n, rest) ↔
      ∃ below : Array Node, w.stack = below.push n ∧ rest = ⟨below ++ n.children.reverse⟩ := by
  constructor
  · intro h
    unfold next? at h
    split at h
    · contradiction
    · next m hback =>
      obtain ⟨below, hstack⟩ := Array.back?_eq_some_iff.1 hback
      obtain ⟨rfl, rfl⟩ := Prod.mk.inj (Option.some.inj h)
      exact ⟨below, hstack, by rw [hstack, Array.pop_push]⟩
  · rintro ⟨below, hstack, rfl⟩
    simp only [next?, hstack, Array.back?_push, Array.pop_push]

theorem next?_eq_none_iff {w : Walk} : w.next? = none ↔ w.stack = #[] := by
  unfold next?
  split
  · next hback => simpa using hback
  · next n hback =>
    obtain ⟨below, hstack⟩ := Array.back?_eq_some_iff.1 hback
    simp [hstack]

/-- The number of nodes that a walk has still to visit. -/
def size (w : Walk) : Nat := Node.sizeAll w.stack.toList

/-- Each step visits one node. -/
theorem size_of_next? {w rest : Walk} {n : Node} (h : w.next? = some (n, rest)) :
    w.size = rest.size + 1 := by
  obtain ⟨below, hstack, rfl⟩ := next?_eq_some_iff.1 h
  simp only [size, hstack, Array.toList_push, Array.toList_appendList, Node.sizeAll_append,
    Node.sizeAll, Node.size_eq, Node.sizeAll_reverse]
  omega

/-- The nodes in the order in which they are visited. -/
def toList (w : Walk) : List Node :=
  match _h : w.next? with
  | none => []
  | some (n, rest) => n :: toList rest
termination_by w.size
decreasing_by
  rw [size_of_next? _h]
  exact Nat.lt_succ_self rest.size

theorem toList_of_next?_eq_none {w : Walk} (h : w.next? = none) : w.toList = [] := by
  rw [toList]
  split
  · rfl
  · next hsome => rw [h] at hsome; cases hsome

theorem toList_of_next?_eq_some {w rest : Walk} {n : Node} (h : w.next? = some (n, rest)) :
    w.toList = n :: rest.toList := by
  rw [toList]
  split
  · next hnone => rw [h] at hnone; cases hnone
  · next hsome =>
    obtain ⟨rfl, rfl⟩ := Prod.mk.inj (Option.some.inj (h.symm.trans hsome))
    rfl

/-- Visiting with a stack follows the recursive order of the trees, from the end of the stack on. -/
theorem toList_eq_preorderAll (w : Walk) :
    w.toList = Node.preorderAll w.stack.toList.reverse := by
  fun_induction toList w with
  | case1 w h => rw [next?_eq_none_iff.1 h, List.reverse_nil, Node.preorderAll]
  | case2 w n rest h ih =>
    obtain ⟨below, hstack, rfl⟩ := next?_eq_some_iff.1 h
    rw [ih, hstack, Array.toList_appendList, Array.toList_push, List.reverse_append,
      List.reverse_reverse, List.reverse_append, List.reverse_singleton, List.singleton_append,
      Node.preorderAll, Node.preorderAll_append, Node.preorder_eq, List.cons_append]

end Walk

namespace Node

/-- The nodes of a tree in the order in which they are visited. -/
def walk (n : Node) : List Node := (Walk.ofNode n).toList

/-- Everything below a node in the order in which it is visited. -/
def descendants (n : Node) : List Node := n.walk.tail

theorem walk_eq_preorder (n : Node) : n.walk = n.preorder := by
  simp [walk, Walk.toList_eq_preorderAll, Walk.ofNode, preorderAll]

theorem descendants_eq (n : Node) : n.descendants = preorderAll n.children := by
  simp [descendants, walk_eq_preorder, preorder_eq]

end Node

end CodeAtlas.Syntax
