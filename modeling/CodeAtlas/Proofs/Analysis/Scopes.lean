import CodeAtlas.Proofs.Analysis.Definitions
import Mathlib.Data.List.Forall2

/-!
# The scopes of definitions

What the definitions of a file are can be read off where they stand: a class is always one, a
function is one in the scope of the class that it stands in directly, or in that of the file if there
is no class above it. A class comes with its methods right behind it.

Main results:

- Theorem `isAt_unique`: at an address there is no more than one definition.
- Theorem `exists_split_at_class`: the methods of a class follow it at once, and nothing deeper in
  the class comes before.
- Theorem `exists_classified`: the definitions of a file with their addresses are classified by what
  is at these addresses.
-/

namespace CodeAtlas.Syntax.Node

variable {n m : Node} {p : Address} {decl : FunctionDef}

/-- What stands in no class at all does not stand directly in one. -/
theorem owner?_eq_none_of_hasClassAbove (h : n.hasClassAbove p = false) : n.owner? p = none := by
  cases p with
  | nil => rfl
  | cons i p =>
    rw [owner?, Option.bind_eq_none_iff]
    intro c hc
    have hparent : (i :: p).dropLast ∈ Address.above (i :: p) :=
      Address.mem_above_iff.2 ⟨List.dropLast_prefix _, fun heq => by
        simpa using congrArg List.length heq⟩
    have hclass := List.any_eq_false.1 h _ hparent
    rw [isClassAt, hc, Option.any_some, ← isSome_className?] at hclass
    exact Option.not_isSome_iff_eq_none.1 hclass

/-- A function counts if it stands directly in a class or has no class above it. -/
theorem countsAt_iff_of_function (hm : n.at? p = some m) (hkind : m.kind = .function decl) :
    n.countsAt p = true ↔ (n.owner? p).isSome = true ∨ n.hasClassAbove p = false := by
  simp [countsAt, countsFunctionAt, isClassAt, isFunctionAt, hm, isClass, isFunction, hkind]

end CodeAtlas.Syntax.Node

namespace CodeAtlas.Analysis.Definition

open CodeAtlas.Syntax

/-- The numbers of the functions among the children of a node, in order. -/
def directFunctions (n : Node) : List Nat :=
  (n.children.zipIdx.filter (fun e => e.1.isFunction)).map Prod.snd

/-- The definitions of a tree with their addresses, said by what is at the addresses. -/
structure Classified (root : Node) (found : List (Address × Definition)) : Prop where
  /-- No node is found twice. -/
  nodup : (found.map Prod.fst).Nodup
  /-- The classes are all classes of the tree. -/
  class_iff : ∀ p m decl, (p, ofClass m decl) ∈ found ↔
    root.at? p = some m ∧ m.kind = .classDef decl
  /-- The functions in the scope of a class are those that stand directly in that class. -/
  method_iff : ∀ p m decl className, (p, ofFunction m decl (.inClass className)) ∈ found ↔
    (root.at? p = some m ∧ m.kind = .function decl) ∧ root.owner? p = some className
  /-- The functions in the scope of the file are those without a class above them. -/
  free_iff : ∀ p m decl, (p, ofFunction m decl .file) ∈ found ↔
    (root.at? p = some m ∧ m.kind = .function decl) ∧ root.hasClassAbove p = false
  /-- A function below a class that it does not stand in directly is not found. -/
  hidden : ∀ p, root.isFunctionAt p = true → root.hasClassAbove p = true →
    root.owner? p = none → p ∉ found.map Prod.fst
  /-- A class is followed by its methods, before anything that is deeper in it. -/
  followed : ∀ p m, root.at? p = some m → m.isClass = true → ∃ front back,
    found.map Prod.fst = front ++ p :: ((directFunctions m).map (fun i => p ++ [i]) ++ back) ∧
      ∀ q ∈ front, ¬p.IsAbove q

/-! ## A class and its methods -/

/-- The methods of a class by the numbers of its children. -/
theorem graft_eq_directFunctions (n : Node) :
    Address.graft (n.children.map (fun c => if c.isFunction then [[]] else [])) =
      (directFunctions n).map (fun i => [i]) := by
  have hfrom : ∀ (k : Nat) (children : List Node),
      Address.graftFrom k (children.map (fun c => if c.isFunction then [[]] else [])) =
        ((children.zipIdx k).filter (fun e => e.1.isFunction)).map (fun e => [e.2]) := by
    intro k children
    induction children generalizing k with
    | nil => rfl
    | cons c rest ih =>
      rw [List.map_cons, Address.graftFrom, ih, List.zipIdx_cons, List.filter_cons]
      cases c.isFunction <;> rfl
  rw [Address.graft, hfrom, directFunctions, List.map_map]
  rfl

/-- What a node gives rise to before its children are visited is at most one step down. -/
theorem not_isAbove_of_mem_ownAddresses {b : Bool} {n : Node} {i : Nat} {p q : Address}
    (hq : q ∈ ownAddresses b n) : ¬Address.IsAbove (i :: p) q := by
  cases q with
  | nil => exact Address.not_isAbove_nil _
  | cons j q =>
    obtain ⟨-, -, -, -, rfl⟩ := cons_mem_ownAddresses_iff.1 hq
    rw [Address.cons_isAbove_cons_iff]
    exact fun h => Address.not_isAbove_nil p h.2

/-- The methods of a class follow it at once, and nothing deeper in the class comes before. -/
theorem exists_split_at_class (b : Bool) {n m : Node} {p : Address} (hm : n.at? p = some m)
    (hclass : m.isClass = true) :
    ∃ front back,
      counted b n = front ++ p :: ((directFunctions m).map (fun i => p ++ [i]) ++ back) ∧
        ∀ q ∈ front, ¬p.IsAbove q := by
  induction p generalizing b n with
  | nil =>
    obtain rfl : n = m := Option.some.inj hm
    refine ⟨[], Address.graft (n.children.map (counted (b || n.isClass))), ?_, by simp⟩
    rw [counted_eq, ownAddresses, if_pos hclass, graft_eq_directFunctions]
    rfl
  | cons i p ih =>
    obtain ⟨c, hc, hm⟩ := Node.at?_cons_eq_some_iff.1 hm
    obtain ⟨front, back, hsplit, hfront⟩ := ih (b || n.isClass) hm
    have hbranch : (n.children.map (counted (b || n.isClass)))[i]? =
        some (counted (b || n.isClass) c) := by
      rw [List.getElem?_map, hc, Option.map_some]
    have hgraft := Address.graft_split hbranch
    set branches := n.children.map (counted (b || n.isClass)) with hbranches
    refine ⟨ownAddresses b n ++ (Address.graftFrom 0 (branches.take i) ++ front.map (i :: ·)),
      back.map (i :: ·) ++ Address.graftFrom (i + 1) (branches.drop (i + 1)), ?_, ?_⟩
    · rw [counted_eq, ← hbranches, hgraft, hsplit]
      simp
    · intro q hq
      rcases List.mem_append.1 hq with hq | hq
      · exact not_isAbove_of_mem_ownAddresses hq
      · rcases List.mem_append.1 hq with hq | hq
        · exact Address.not_isAbove_of_mem_earlier hq
        · obtain ⟨r, hr, rfl⟩ := List.mem_map.1 hq
          rw [Address.cons_isAbove_cons_iff]
          exact fun h => hfront r hr h.2

/-! ## The definitions of a file -/

/-- At an address there is no more than one definition. -/
theorem isAt_unique {root : Node} {p : Address} {d e : Definition} (hd : IsAt root p d)
    (he : IsAt root p e) : d = e := by
  cases d with
  | ofClass m decl =>
    cases e with
    | ofClass k decl' =>
      obtain ⟨hm, hkind⟩ := hd
      obtain ⟨hk, hkind'⟩ := he
      obtain rfl := Option.some.inj (hm.symm.trans hk)
      obtain rfl := NodeKind.classDef.inj (hkind.symm.trans hkind')
      rfl
    | ofFunction k decl' s =>
      obtain rfl := Option.some.inj (hd.1.symm.trans he.1)
      cases hd.2.symm.trans he.2.1
  | ofFunction m decl s =>
    cases e with
    | ofClass k decl' =>
      obtain rfl := Option.some.inj (hd.1.symm.trans he.1)
      cases hd.2.1.symm.trans he.2
    | ofFunction k decl' s' =>
      obtain ⟨hm, hkind, rfl⟩ := hd
      obtain ⟨hk, hkind', rfl⟩ := he
      obtain rfl := Option.some.inj (hm.symm.trans hk)
      obtain rfl := NodeKind.function.inj (hkind.symm.trans hkind')
      rfl

/-- Side by side with their addresses, the definitions of a file are what is at the addresses that
count. -/
theorem mem_zip_counted_iff (t : Tree) {p : Address} {d : Definition} :
    (p, d) ∈ (counted false t.root).zip (ofTree t) ↔
      t.root.countsAt p = true ∧ IsAt t.root p d := by
  obtain ⟨hlength, hat⟩ := List.forall₂_iff_zip.1 (forall₂_ofTree t)
  constructor
  · intro hmem
    exact ⟨mem_counted_file_iff.1 (List.of_mem_zip hmem).1, hat hmem⟩
  · rintro ⟨hcounts, hd⟩
    have hp : p ∈ ((counted false t.root).zip (ofTree t)).map Prod.fst := by
      rw [List.map_fst_zip hlength.le]
      exact mem_counted_file_iff.2 hcounts
    obtain ⟨⟨_, e⟩, hmem, rfl⟩ := List.mem_map.1 hp
    rw [isAt_unique hd (hat hmem)]
    exact hmem

section Counted

variable {root m : Node} {p : Address}

/-- A class is a definition wherever it stands. -/
theorem countsAt_ofClass_iff {decl : ClassDef} :
    root.countsAt p = true ∧ IsAt root p (ofClass m decl) ↔
      root.at? p = some m ∧ m.kind = .classDef decl := by
  constructor
  · exact And.right
  · rintro ⟨hm, hkind⟩
    have hclass : root.isClassAt p = true := by
      simp [Node.isClassAt, hm, Node.isClass, hkind]
    exact ⟨by rw [Node.countsAt, hclass, Bool.true_or], hm, hkind⟩

variable {decl : FunctionDef}

/-- A function is a definition in the scope of the class that it stands in directly. -/
theorem countsAt_ofMethod_iff {className : String} :
    root.countsAt p = true ∧ IsAt root p (ofFunction m decl (.inClass className)) ↔
      (root.at? p = some m ∧ m.kind = .function decl) ∧ root.owner? p = some className := by
  constructor
  · rintro ⟨-, hm, hkind, hscope⟩
    exact ⟨⟨hm, hkind⟩, (congrArg Scope.className hscope).symm⟩
  · rintro ⟨⟨hm, hkind⟩, howner⟩
    rw [Node.countsAt_iff_of_function hm hkind, IsAt, howner]
    exact ⟨.inl rfl, hm, hkind, rfl⟩

/-- A function is a definition in the scope of the file if there is no class above it. -/
theorem countsAt_ofFree_iff :
    root.countsAt p = true ∧ IsAt root p (ofFunction m decl .file) ↔
      (root.at? p = some m ∧ m.kind = .function decl) ∧ root.hasClassAbove p = false := by
  constructor
  · rintro ⟨hcounts, hm, hkind, hscope⟩
    have howner : root.owner? p = none := (congrArg Scope.className hscope).symm
    rw [Node.countsAt_iff_of_function hm hkind, howner] at hcounts
    exact ⟨⟨hm, hkind⟩, hcounts.resolve_left Bool.false_ne_true⟩
  · rintro ⟨⟨hm, hkind⟩, hfree⟩
    have howner : root.owner? p = none := Node.owner?_eq_none_of_hasClassAbove hfree
    rw [Node.countsAt_iff_of_function hm hkind, IsAt, howner]
    exact ⟨.inr hfree, hm, hkind, rfl⟩

/-- A function below a class that it does not stand in directly does not count. -/
theorem not_countsAt_of_hidden (hfunction : root.isFunctionAt p = true)
    (habove : root.hasClassAbove p = true) (howner : root.owner? p = none) :
    root.countsAt p = false := by
  have hclass : root.isClassAt p = false := by
    by_contra h
    rw [Node.isFunctionAt_of_isClassAt (Bool.of_not_eq_false h)] at hfunction
    cases hfunction
  simp [Node.countsAt, Node.countsFunctionAt, hclass, howner, habove]

end Counted

/-- The definitions of a file can be given addresses that classify them. Every class is found once.
A function is found once, in the scope of the class that it stands in directly, or in that of the
file if there is no class above it; other functions are not found. The methods of a class come right
behind it. -/
theorem exists_classified (t : Tree) :
    ∃ found : List (Address × Definition),
      found.map Prod.snd = ofTree t ∧ Classified t.root found := by
  have hlength := (forall₂_ofTree t).length_eq
  have haddresses : ((counted false t.root).zip (ofTree t)).map Prod.fst = counted false t.root :=
    List.map_fst_zip hlength.le
  refine ⟨(counted false t.root).zip (ofTree t), List.map_snd_zip hlength.ge, ?_⟩
  constructor
  case nodup =>
    rw [haddresses]
    exact nodup_counted false t.root
  case class_iff =>
    intro p m decl
    rw [mem_zip_counted_iff, countsAt_ofClass_iff]
  case method_iff =>
    intro p m decl className
    rw [mem_zip_counted_iff, countsAt_ofMethod_iff]
  case free_iff =>
    intro p m decl
    rw [mem_zip_counted_iff, countsAt_ofFree_iff]
  case hidden =>
    intro p hfunction habove howner hmem
    rw [haddresses, mem_counted_file_iff, not_countsAt_of_hidden hfunction habove howner] at hmem
    cases hmem
  case followed =>
    intro p m hm hclass
    rw [haddresses]
    exact exists_split_at_class false hm hclass

end CodeAtlas.Analysis.Definition
