import CodeAtlas.Analysis.Definitions
import CodeAtlas.Proofs.Syntax.Address

/-!
# Where definitions stand

The definitions of a file are found by a walk that carries the scope along. Where they stand can be
said without the walk: every class counts, and a function counts if it stands directly in a class or
has no class above it.

Main results:

- Theorem `mem_counted_iff`: the addresses of the definitions are those of the classes and functions
  that count.
- Theorem `nodup_counted`: no definition is found twice.
- Theorem `forall₂_ofTree`: the definitions of a file stand at these addresses, in this order, and
  the scope of a function is the class that it stands in directly.
-/

namespace CodeAtlas.Syntax.Node

/-! ## Classes and functions of an outline -/

/-- The name of a class. -/
def className? (n : Node) : Option String :=
  match n.kind with
  | .classDef decl => some decl.name
  | _ => none

/-- Whether the node declares a class. -/
def isClass (n : Node) : Bool :=
  match n.kind with
  | .classDef _ => true
  | _ => false

/-- Whether the node declares a function. -/
def isFunction (n : Node) : Bool :=
  match n.kind with
  | .function _ => true
  | _ => false

/-- Whether a class is at an address. -/
def isClassAt (n : Node) (p : Address) : Bool := (n.at? p).any isClass

/-- Whether a function is at an address. -/
def isFunctionAt (n : Node) (p : Address) : Bool := (n.at? p).any isFunction

/-- The class that the node at an address stands in directly. -/
def owner? (n : Node) : Address → Option String
  | [] => none
  | i :: p => (n.at? (i :: p).dropLast).bind className?

/-- Whether there is a class above an address. -/
def hasClassAbove (n : Node) (p : Address) : Bool := (Address.above p).any n.isClassAt

/-- Whether a function is at an address that counts: it stands directly in a class, or there is no
class above it. -/
def countsFunctionAt (n : Node) (p : Address) : Bool :=
  n.isFunctionAt p && ((n.owner? p).isSome || !n.hasClassAbove p)

/-- Whether a definition is at an address that counts. -/
def countsAt (n : Node) (p : Address) : Bool := n.isClassAt p || n.countsFunctionAt p

variable {n c : Node} {i : Nat}

@[simp]
theorem isSome_className? (n : Node) : n.className?.isSome = n.isClass := by
  unfold className? isClass
  split <;> rfl

/-- A class is no function. -/
theorem isFunction_of_isClass (h : n.isClass = true) : n.isFunction = false := by
  unfold isClass at h
  split at h
  · next heq => simp [isFunction, heq]
  · cases h

/-- Where a class is, there is no function. -/
theorem isFunctionAt_of_isClassAt {p : Address} (h : n.isClassAt p = true) :
    n.isFunctionAt p = false := by
  obtain ⟨m, hm, hclass⟩ := (Option.any_eq_true _ _).1 h
  rw [isFunctionAt, hm, Option.any_some, isFunction_of_isClass hclass]

/-! ## One step down -/

@[simp]
theorem isClassAt_nil (n : Node) : n.isClassAt [] = n.isClass :=
  rfl

@[simp]
theorem isFunctionAt_nil (n : Node) : n.isFunctionAt [] = n.isFunction :=
  rfl

@[simp]
theorem owner?_nil (n : Node) : n.owner? [] = none :=
  rfl

@[simp]
theorem owner?_singleton (n : Node) (i : Nat) : n.owner? [i] = n.className? :=
  rfl

@[simp]
theorem hasClassAbove_nil (n : Node) : n.hasClassAbove [] = false :=
  rfl

theorem at?_cons (h : n.children[i]? = some c) (p : Address) : n.at? (i :: p) = c.at? p := by
  rw [at?, h, Option.bind_some]

theorem isClassAt_cons (h : n.children[i]? = some c) (p : Address) :
    n.isClassAt (i :: p) = c.isClassAt p := by
  rw [isClassAt, at?_cons h, isClassAt]

theorem isFunctionAt_cons (h : n.children[i]? = some c) (p : Address) :
    n.isFunctionAt (i :: p) = c.isFunctionAt p := by
  rw [isFunctionAt, at?_cons h, isFunctionAt]

theorem owner?_cons_cons (h : n.children[i]? = some c) (j : Nat) (p : Address) :
    n.owner? (i :: j :: p) = c.owner? (j :: p) := by
  rw [owner?, owner?, List.dropLast_cons_of_ne_nil (List.cons_ne_nil j p), at?_cons h]

theorem hasClassAbove_cons (h : n.children[i]? = some c) (p : Address) :
    n.hasClassAbove (i :: p) = (n.isClass || c.hasClassAbove p) := by
  rw [hasClassAbove, Address.above, List.any_cons, List.any_map, isClassAt_nil, hasClassAbove]
  congr 2
  funext q
  exact isClassAt_cons h q

theorem isClassAt_cons_of_none (h : n.children[i]? = none) (p : Address) :
    n.isClassAt (i :: p) = false := by
  rw [isClassAt, at?, h]
  rfl

theorem isFunctionAt_cons_of_none (h : n.children[i]? = none) (p : Address) :
    n.isFunctionAt (i :: p) = false := by
  rw [isFunctionAt, at?, h]
  rfl

end CodeAtlas.Syntax.Node

namespace CodeAtlas.Analysis

open CodeAtlas.Syntax

/-! ## The scope at an address -/

/-- The scope of what stands in a node. -/
def Scope.within (s : Scope) (n : Node) : Scope :=
  match n.className? with
  | some name => .inClass name
  | none => s

/-- The scope at an address of a tree that stands in a scope. -/
def Scope.at (s : Scope) (n : Node) : Address → Scope
  | [] => s
  | i :: p =>
    match n.children[i]? with
    | some c => (s.within n).at c p
    | none => s

namespace Scope

theorem isSome_className_within (s : Scope) (n : Node) :
    (s.within n).className.isSome = (s.className.isSome || n.isClass) := by
  unfold within
  rw [← Node.isSome_className?]
  cases n.className? with
  | none => simp
  | some name => simp [inClass]

theorem at_cons {n c : Node} {i : Nat} (s : Scope) (h : n.children[i]? = some c) (p : Address) :
    s.at n (i :: p) = (s.within n).at c p := by
  rw [Scope.at, h]

/-- In a class the scope is that class. -/
theorem at_of_owner {n m : Node} {p : Address} {name : String} (s : Scope)
    (hm : n.at? p = some m) (h : n.owner? p = some name) : s.at n p = .inClass name := by
  induction p generalizing n s with
  | nil => cases h
  | cons i p ih =>
    obtain ⟨c, hc, hm⟩ := Node.at?_cons_eq_some_iff.1 hm
    rw [at_cons s hc]
    cases p with
    | nil =>
      rw [Node.owner?_singleton] at h
      rw [Scope.at, within, h]
    | cons j p => exact ih (s.within n) hm (Node.owner?_cons_cons hc j p ▸ h)

/-- Without a class above it is the scope that the tree stands in. -/
theorem at_of_free {n m : Node} {p : Address} (s : Scope) (hm : n.at? p = some m)
    (h : n.hasClassAbove p = false) : s.at n p = s := by
  induction p generalizing n with
  | nil => rfl
  | cons i p ih =>
    obtain ⟨c, hc, hm⟩ := Node.at?_cons_eq_some_iff.1 hm
    rw [Node.hasClassAbove_cons hc, Bool.or_eq_false_iff] at h
    have hwithin : s.within n = s := by
      have hname : n.className? = none := by
        rw [← Option.not_isSome_iff_eq_none, Node.isSome_className?, h.1]
        exact Bool.false_ne_true
      rw [within, hname]
    rw [at_cons s hc, hwithin, ih hm h.2]

end Scope

namespace Definition

/-! ## The walk -/

/-- The definitions that a node gives rise to before its children are visited: a class with its
methods, or a function outside all classes. -/
def own (s : Scope) (n : Node) : List Definition :=
  match n.kind with
  | .classDef decl => ofClass n decl :: methods (.inClass decl.name) n.children
  | .function decl => if s.className.isNone then [ofFunction n decl s] else []
  | _ => []

theorem collectAll_eq (s : Scope) (ns : List Node) :
    collectAll s ns = ns.flatMap (collect s) := by
  induction ns with
  | nil => simp [collectAll]
  | cons n rest ih => rw [collectAll, ih, List.flatMap_cons]

/-- A node comes with its methods, if it is a class, before what is deeper in it. -/
theorem collect_eq (s : Scope) (n : Node) :
    collect s n = own s n ++ n.children.flatMap (collect (s.within n)) := by
  obtain ⟨kind, span, children⟩ := n
  cases kind with
  | classDef decl => simp [collect, own, Scope.within, Node.className?, collectAll_eq]
  | function decl =>
    simp only [collect, own, Scope.within, Node.className?, collectAll_eq]
    split <;> rfl
  | _ => simp [collect, own, Scope.within, Node.className?, collectAll_eq]

/-- The methods of a class, child by child. -/
theorem methods_eq (s : Scope) (children : List Node) :
    methods s children = children.flatMap (fun c =>
      match c.kind with
      | .function decl => [ofFunction c decl s]
      | _ => []) := by
  rw [methods]
  induction children with
  | nil => rfl
  | cons c rest ih =>
    rw [List.filterMap_cons, List.flatMap_cons, ← ih]
    cases c.kind <;> rfl

/-! ## The addresses of the walk -/

/-- The addresses that a node gives rise to before its children are visited. -/
def ownAddresses (inClass : Bool) (n : Node) : List Address :=
  if n.isClass then
    [] :: Address.graft (n.children.map (fun c => if c.isFunction then [[]] else []))
  else if n.isFunction && !inClass then [[]]
  else []

mutual

/-- The addresses of the definitions of a tree, which may stand in a class. -/
def counted (inClass : Bool) : Node → List Address
  | ⟨kind, span, children⟩ =>
    ownAddresses inClass ⟨kind, span, children⟩ ++
      Address.graft (countedAll (inClass || Node.isClass ⟨kind, span, children⟩) children)

/-- The addresses of the definitions of each of some trees. -/
def countedAll (inClass : Bool) : List Node → List (List Address)
  | [] => []
  | n :: rest => counted inClass n :: countedAll inClass rest

end

theorem countedAll_eq (inClass : Bool) (ns : List Node) :
    countedAll inClass ns = ns.map (counted inClass) := by
  induction ns with
  | nil => rfl
  | cons n rest ih => rw [countedAll, ih, List.map_cons]

theorem counted_eq (inClass : Bool) (n : Node) :
    counted inClass n = ownAddresses inClass n ++
      Address.graft (n.children.map (counted (inClass || n.isClass))) := by
  cases n
  rw [counted, countedAll_eq]

theorem nil_mem_ownAddresses_iff {inClass : Bool} {n : Node} :
    [] ∈ ownAddresses inClass n ↔
      n.isClass = true ∨ n.isFunction = true ∧ inClass = false := by
  unfold ownAddresses
  split
  · next h => simp [h]
  · next h => simp [h]

theorem cons_mem_ownAddresses_iff {inClass : Bool} {n : Node} {i : Nat} {p : Address} :
    i :: p ∈ ownAddresses inClass n ↔
      n.isClass = true ∧ ∃ c, n.children[i]? = some c ∧ c.isFunction = true ∧ p = [] := by
  unfold ownAddresses
  split
  · next h =>
    simp only [List.mem_cons, reduceCtorEq, Address.mem_graft_iff, List.getElem?_map, false_or,
      List.cons.injEq, Option.map_eq_some_iff, h, true_and]
    constructor
    · rintro ⟨_, _, _, ⟨rfl, rfl⟩, ⟨c, hc, rfl⟩, hp⟩
      split at hp
      · next hfunction => exact ⟨c, hc, hfunction, List.mem_singleton.1 hp⟩
      · cases hp
    · rintro ⟨c, hc, hfunction, rfl⟩
      exact ⟨i, [], _, ⟨rfl, rfl⟩, ⟨c, hc, rfl⟩, by simp [hfunction]⟩
  · next h =>
    simp only [h, false_and, iff_false, Bool.false_eq_true]
    split <;> simp

/-- What is deeper in a node is what is in one of its children. -/
theorem cons_mem_graft_counted_iff {b : Bool} {n : Node} {i : Nat} {p : Address} :
    i :: p ∈ Address.graft (n.children.map (counted b)) ↔
      ∃ c, n.children[i]? = some c ∧ p ∈ counted b c := by
  simp only [Address.mem_graft_iff, List.getElem?_map, List.cons.injEq, Option.map_eq_some_iff]
  constructor
  · rintro ⟨_, _, _, ⟨rfl, rfl⟩, ⟨c, hc, rfl⟩, hp⟩
    exact ⟨c, hc, hp⟩
  · rintro ⟨c, hc, hp⟩
    exact ⟨i, p, _, ⟨rfl, rfl⟩, ⟨c, hc, rfl⟩, hp⟩

/-- A class counts. A function counts if it stands directly in a class or, unless the tree stands in
a class, has no class above it. -/
theorem mem_counted_iff {inClass : Bool} {n : Node} {p : Address} :
    p ∈ counted inClass n ↔ n.isClassAt p = true ∨ n.isFunctionAt p = true ∧
      ((n.owner? p).isSome = true ∨ inClass = false ∧ n.hasClassAbove p = false) := by
  induction n using Node.childrenInduction generalizing inClass p with
  | step n ih =>
    rw [counted_eq, List.mem_append]
    cases p with
    | nil => simp [nil_mem_ownAddresses_iff, Address.nil_not_mem_graft]
    | cons i p =>
      rw [cons_mem_ownAddresses_iff, cons_mem_graft_counted_iff]
      cases hc : n.children[i]? with
      | none => simp [Node.isClassAt_cons_of_none hc, Node.isFunctionAt_cons_of_none hc]
      | some c =>
        simp only [Option.some.injEq, exists_eq_left', ih c (List.mem_of_getElem? hc),
          Node.isClassAt_cons hc, Node.isFunctionAt_cons hc, Node.hasClassAbove_cons hc,
          Bool.or_eq_false_iff]
        cases p with
        | nil =>
          simp only [Node.owner?_singleton, Node.isSome_className?, Node.owner?_nil,
            Node.isFunctionAt_nil, Node.isClassAt_nil, Node.hasClassAbove_nil]
          cases n.isClass <;> simp [or_comm]
        | cons j p =>
          rw [Node.owner?_cons_cons hc]
          cases n.isClass <;> simp

theorem mem_counted_file_iff {n : Node} {p : Address} :
    p ∈ counted false n ↔ n.countsAt p = true := by
  simp [mem_counted_iff, Node.countsAt, Node.countsFunctionAt]

/-- No definition is found twice. -/
theorem nodup_counted (inClass : Bool) (n : Node) : (counted inClass n).Nodup := by
  induction n using Node.childrenInduction generalizing inClass with
  | step n ih =>
    rw [counted_eq, List.nodup_append]
    refine ⟨?own, Address.nodup_graft (fun b hb => ?below), ?apart⟩
    case own =>
      unfold ownAddresses
      split
      · rw [List.nodup_cons]
        refine ⟨Address.nil_not_mem_graft _, Address.nodup_graft (fun b hb => ?_)⟩
        obtain ⟨c, -, rfl⟩ := List.mem_map.1 hb
        split <;> simp
      · split <;> simp
    case below =>
      obtain ⟨c, hc, rfl⟩ := List.mem_map.1 hb
      exact ih c hc _
    case apart =>
      rintro p hown _ hbelow rfl
      cases p with
      | nil => exact Address.nil_not_mem_graft _ hbelow
      | cons i p =>
        -- a method comes with its class and not once more when the walk gets to it
        obtain ⟨hclass, c, hc, hfunction, rfl⟩ := cons_mem_ownAddresses_iff.1 hown
        obtain ⟨d, hd, hmem⟩ := cons_mem_graft_counted_iff.1 hbelow
        obtain rfl : c = d := Option.some.inj (hc.symm.trans hd)
        rw [hclass, Bool.or_true, mem_counted_iff] at hmem
        rcases hmem with hagain | ⟨-, howner | ⟨hfree, -⟩⟩
        · rw [Node.isClassAt_nil] at hagain
          rw [Node.isFunction_of_isClass hagain] at hfunction
          cases hfunction
        · cases howner
        · cases hfree

/-! ## Definitions side by side with their addresses -/

/-- The definition is what is at an address of a tree that stands in a scope. -/
def StandsAt (n : Node) (s : Scope) (p : Address) : Definition → Prop
  | ofClass m decl => n.at? p = some m ∧ m.kind = .classDef decl
  | ofFunction m decl t => n.at? p = some m ∧ m.kind = .function decl ∧ t = s.at n p

/-- What is at an address in a child is at the longer address in the whole. -/
theorem StandsAt.cons {n c : Node} {i : Nat} {s : Scope} {p : Address} {d : Definition}
    (hc : n.children[i]? = some c) (h : d.StandsAt c (s.within n) p) :
    d.StandsAt n s (i :: p) := by
  cases d with
  | ofClass m decl => exact ⟨(Node.at?_cons hc p).trans h.1, h.2⟩
  | ofFunction m decl t =>
    exact ⟨(Node.at?_cons hc p).trans h.1, h.2.1, h.2.2.trans (Scope.at_cons s hc p).symm⟩

/-- A node and its methods are at the addresses that the node gives rise to. -/
theorem forall₂_own (n : Node) (s : Scope) :
    List.Forall₂ (fun p d => StandsAt n s p d) (ownAddresses s.className.isSome n) (own s n) := by
  unfold ownAddresses own
  cases hkind : n.kind with
  | classDef decl =>
    have hclass : n.isClass = true := by simp [Node.isClass, hkind]
    have hwithin : s.within n = .inClass decl.name := by
      simp [Scope.within, Node.className?, hkind]
    dsimp only
    rw [if_pos hclass, methods_eq]
    refine List.Forall₂.cons ⟨rfl, hkind⟩ (Address.forall₂_graft (fun i c hc => ?_))
    cases hchild : c.kind with
    | function d =>
      have hfunction : c.isFunction = true := by simp [Node.isFunction, hchild]
      rw [if_pos hfunction]
      refine List.Forall₂.cons (StandsAt.cons hc ⟨rfl, hchild, ?_⟩) List.Forall₂.nil
      exact hwithin.symm
    | _ => simp [Node.isFunction, hchild]
  | function decl =>
    have hclass : n.isClass = false := by simp [Node.isClass, hkind]
    have hfunction : n.isFunction = true := by simp [Node.isFunction, hkind]
    cases hs : s.className with
    | none => simp [hclass, hfunction, StandsAt, hkind, Scope.at]
    | some name => simp [hclass]
  | _ => simp [Node.isClass, Node.isFunction, hkind]

/-- The definitions of a tree are at its addresses that count. -/
theorem forall₂_collect (n : Node) (s : Scope) :
    List.Forall₂ (fun p d => StandsAt n s p d) (counted s.className.isSome n) (collect s n) := by
  induction n using Node.childrenInduction generalizing s with
  | step n ih =>
    rw [counted_eq, collect_eq, ← Scope.isSome_className_within]
    refine List.rel_append (forall₂_own n s) (Address.forall₂_graft (fun i c hc => ?_))
    exact (ih c (List.mem_of_getElem? hc) (s.within n)).imp (fun p d hd => hd.cons hc)

/-- The definition is what is at an address of a file. A function has the scope of the class that it
stands in directly. -/
def IsAt (n : Node) (p : Address) : Definition → Prop
  | ofClass m decl => n.at? p = some m ∧ m.kind = .classDef decl
  | ofFunction m decl s => n.at? p = some m ∧ m.kind = .function decl ∧ s = ⟨n.owner? p⟩

/-- A function that counts has the scope of its class, or none. -/
theorem at_of_countsFunctionAt {n m : Node} {p : Address} (hm : n.at? p = some m)
    (h : n.countsFunctionAt p = true) : Scope.file.at n p = ⟨n.owner? p⟩ := by
  rw [Node.countsFunctionAt, Bool.and_eq_true, Bool.or_eq_true, Bool.not_eq_true'] at h
  cases howner : n.owner? p with
  | some name => exact Scope.at_of_owner Scope.file hm howner
  | none =>
    rw [howner] at h
    exact Scope.at_of_free Scope.file hm (h.2.resolve_left Bool.false_ne_true)

/-- The definitions of a file are at its addresses that count, in the order of the walk. -/
theorem forall₂_ofTree (t : Tree) :
    List.Forall₂ (fun p d => IsAt t.root p d) (counted false t.root) (ofTree t) := by
  have hcounts : ∀ p ∈ counted false t.root, t.root.countsAt p = true :=
    fun p hp => mem_counted_file_iff.1 hp
  refine ((List.forall₂_and_left _ _).2 ⟨hcounts, forall₂_collect t.root .file⟩).imp ?_
  rintro p (⟨m, decl⟩ | ⟨m, decl, s⟩) ⟨hp, hd⟩
  · exact hd
  · obtain ⟨hm, hkind, rfl⟩ := hd
    have hclass : t.root.isClassAt p = false := by
      simp [Node.isClassAt, hm, Node.isClass, hkind]
    rw [Node.countsAt, hclass, Bool.false_or] at hp
    exact ⟨hm, hkind, at_of_countsFunctionAt hm hp⟩

end Definition

end CodeAtlas.Analysis
