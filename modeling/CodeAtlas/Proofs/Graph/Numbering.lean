import CodeAtlas.Graph.Numbering
import CodeAtlas.Proofs.Graph.Digraph
import CodeAtlas.Proofs.Graph.Walk

/-!
# What a numbering holds

A numbering grows while a call graph is read. The invariant `Holds` says what it holds after some
names were met and some calls were read: each name once, in the order in which the names were first
met, and an edge between the numbers of each call.

Main results:

- Theorems `Holds.nodeIndex` and `Holds.addEdge`: asking for a number meets a name, and an edge
  stands for a call.
- Theorem `holds_ofGraph`: in the end the numbering holds all names and all calls of the graph.
- Theorems `edge_number` and `edge_name`: numbering keeps the edges, in both directions.
- Theorem `idxOf_name_lt`: a smaller number was met earlier.
-/

namespace CodeAtlas.Graph

/-- The names that are met when each caller is read with its callees. -/
def reading (g : CallGraph) : List String :=
  g.callers.flatMap (fun caller => caller :: g.calleesOf caller)

/-- The calls that are read, each one as the pair of its caller and its callee. -/
def readCalls (g : CallGraph) : List (String × String) :=
  g.callers.flatMap (fun caller => (g.calleesOf caller).map (fun callee => (caller, callee)))

theorem mem_readCalls_iff {g : CallGraph} {a b : String} : (a, b) ∈ readCalls g ↔ g.Edge a b := by
  constructor
  · intro h
    obtain ⟨caller, -, hcall⟩ := List.mem_flatMap.1 h
    obtain ⟨callee, hcallee, heq⟩ := List.mem_map.1 hcall
    obtain ⟨rfl, rfl⟩ := Prod.mk.inj heq
    exact CallGraph.edge_iff_mem_calleesOf.2 hcallee
  · intro h
    refine List.mem_flatMap.2 ⟨a, CallGraph.mem_callers_of_edge h, ?_⟩
    exact List.mem_map.2 ⟨b, CallGraph.edge_iff_mem_calleesOf.1 h, rfl⟩

/-- What has an edge is met. -/
theorem mem_reading_of_edge {g : CallGraph} {a b : String} (h : g.Edge a b) :
    a ∈ reading g ∧ b ∈ reading g := by
  have ha := CallGraph.mem_callers_of_edge h
  have hb := CallGraph.edge_iff_mem_calleesOf.1 h
  exact ⟨List.mem_flatMap.2 ⟨a, ha, List.mem_cons_self⟩,
    List.mem_flatMap.2 ⟨a, ha, List.mem_cons_of_mem a hb⟩⟩

namespace Numbering

variable {n : Numbering} {met : List String} {calls : List (String × String)}

/-- Numbers that were given out stay as they are. -/
theorem getElem?_names_nodeIndex_iff {name a : String} (ha : a ∈ n.names) {v : Nat} :
    (n.nodeIndex name).1.names[v]? = some a ↔ n.names[v]? = some a := by
  rw [names_nodeIndex]
  split
  · exact Iff.rfl
  · next hname =>
    rw [Array.getElem?_push]
    split
    · next hv =>
      subst hv
      have hne : name ≠ a := fun heq => hname (heq ▸ ha)
      simp [hne]
    · exact Iff.rfl

/-- What a numbering holds after some names were met and some calls were read. -/
structure Holds (n : Numbering) (met : List String) (calls : List (String × String)) : Prop where
  mem_names_iff : ∀ a, a ∈ n.names ↔ a ∈ met
  ordered : n.names.toList.Pairwise (fun a b => met.idxOf a < met.idxOf b)
  edge_iff : ∀ v w, n.digraph.Edge v w ↔
    ∃ e ∈ calls, n.names[v]? = some e.1 ∧ n.names[w]? = some e.2
  mem_met : ∀ e ∈ calls, e.1 ∈ met ∧ e.2 ∈ met

/-- Asking for the number of a name meets the name. -/
theorem Holds.nodeIndex (h : n.Holds met calls) (name : String) :
    (n.nodeIndex name).1.Holds (met ++ [name]) calls := by
  have hsame : ∀ a ∈ n.names, (met ++ [name]).idxOf a = met.idxOf a :=
    fun a ha => List.idxOf_append_of_mem ((h.mem_names_iff a).1 ha)
  have hordered : n.names.toList.Pairwise
      (fun a b => (met ++ [name]).idxOf a < (met ++ [name]).idxOf b) := by
    refine h.ordered.imp_of_mem ?_
    intro a b ha hb hlt
    rwa [hsame a (Array.mem_toList_iff.1 ha), hsame b (Array.mem_toList_iff.1 hb)]
  refine ⟨?_, ?_, ?_, ?_⟩
  · intro a
    rw [names_nodeIndex, List.mem_append, List.mem_singleton]
    split
    · next hname =>
      rw [h.mem_names_iff a]
      constructor
      · exact Or.inl
      · rintro (ha | rfl)
        · exact ha
        · exact (h.mem_names_iff a).1 hname
    · rw [Array.mem_push, h.mem_names_iff a]
  · rw [names_nodeIndex]
    split
    · exact hordered
    · next hname =>
      rw [Array.toList_push]
      refine List.pairwise_append.2 ⟨hordered, List.pairwise_singleton _ name, ?_⟩
      intro a ha b hb
      have ha := Array.mem_toList_iff.1 ha
      have hnew : name ∉ met := fun hmem => hname ((h.mem_names_iff name).2 hmem)
      rw [List.mem_singleton.1 hb, hsame a ha, List.idxOf_append_of_notMem hnew]
      exact Nat.lt_add_right _ (List.idxOf_lt_length_of_mem ((h.mem_names_iff a).1 ha))
  · intro v w
    unfold Digraph.Edge
    rw [successorsOf_nodeIndex]
    refine (h.edge_iff v w).trans (exists_congr fun e => and_congr_right fun he => ?_)
    have hmet := h.mem_met e he
    rw [getElem?_names_nodeIndex_iff ((h.mem_names_iff e.1).2 hmet.1),
      getElem?_names_nodeIndex_iff ((h.mem_names_iff e.2).2 hmet.2)]
  · intro e he
    have hmet := h.mem_met e he
    exact ⟨List.mem_append_left _ hmet.1, List.mem_append_left _ hmet.2⟩

/-- An edge between the numbers of two names stands for a call. -/
theorem Holds.addEdge (h : n.Holds met calls) {v w : Nat} {a b : String}
    (hv : n.names[v]? = some a) (hw : n.names[w]? = some b) :
    (n.addEdge v w).Holds met (calls ++ [(a, b)]) := by
  have hlt : ∀ {x c}, n.names[x]? = some c → x < n.digraph.size := by
    intro x c hx
    rw [n.size_eq]
    exact (Array.getElem?_eq_some_iff.1 hx).1
  refine ⟨h.mem_names_iff, h.ordered, ?_, ?_⟩
  · intro x y
    have hedge : (n.addEdge v w).digraph.Edge x y ↔ n.digraph.Edge x y ∨ x = v ∧ y = w :=
      Digraph.mem_successorsOf_addEdge (hlt hv) (hlt hw)
    rw [hedge, h.edge_iff]
    constructor
    · rintro (⟨e, he, hxy⟩ | ⟨rfl, rfl⟩)
      · exact ⟨e, List.mem_append_left _ he, hxy⟩
      · exact ⟨(a, b), List.mem_append_right _ List.mem_cons_self, hv, hw⟩
    · rintro ⟨e, he, hx, hy⟩
      rcases List.mem_append.1 he with he | he
      · exact Or.inl ⟨e, he, hx, hy⟩
      · obtain rfl := List.mem_singleton.1 he
        exact Or.inr ⟨n.places.unique hx hv, n.places.unique hy hw⟩
  · intro e he
    rcases List.mem_append.1 he with he | he
    · exact h.mem_met e he
    · obtain rfl := List.mem_singleton.1 he
      exact ⟨(h.mem_names_iff a).1 (Array.mem_of_getElem? hv),
        (h.mem_names_iff b).1 (Array.mem_of_getElem? hw)⟩

/-! ## Reading a graph -/

/-- Reading a callee meets it and reads the call; the caller keeps its number. -/
theorem Holds.readCallee (h : n.Holds met calls) {source : Nat} {caller : String}
    (hsource : n.names[source]? = some caller) (callee : String) :
    (n.readCallee source callee).Holds (met ++ [callee]) (calls ++ [(caller, callee)]) ∧
      (n.readCallee source callee).names[source]? = some caller := by
  have hcaller : (n.nodeIndex callee).1.names[source]? = some caller :=
    (getElem?_names_nodeIndex_iff (Array.mem_of_getElem? hsource)).2 hsource
  exact ⟨(h.nodeIndex callee).addEdge hcaller (n.getElem?_names_nodeIndex callee), hcaller⟩

theorem Holds.foldl_readCallee (h : n.Holds met calls) {source : Nat} {caller : String}
    (hsource : n.names[source]? = some caller) (callees : List String) :
    (callees.foldl (Numbering.readCallee source) n).Holds (met ++ callees)
      (calls ++ callees.map (fun callee => (caller, callee))) := by
  induction callees generalizing n met calls with
  | nil => simpa using h
  | cons callee callees ih =>
    obtain ⟨hread, hsource⟩ := h.readCallee hsource callee
    have ih := ih hread hsource
    rw [List.append_assoc, List.append_assoc] at ih
    exact ih

/-- Reading a caller meets it and its callees, and reads all its calls. -/
theorem Holds.readCaller (h : n.Holds met calls) (g : CallGraph) (caller : String) :
    (Numbering.readCaller g n caller).Holds (met ++ caller :: g.calleesOf caller)
      (calls ++ (g.calleesOf caller).map (fun callee => (caller, callee))) := by
  have hread := (h.nodeIndex caller).foldl_readCallee (n.getElem?_names_nodeIndex caller)
    (g.calleesOf caller)
  rw [List.append_assoc] at hread
  exact hread

theorem Holds.foldl_readCaller (h : n.Holds met calls) (g : CallGraph) (callers : List String) :
    (callers.foldl (Numbering.readCaller g) n).Holds
      (met ++ callers.flatMap (fun caller => caller :: g.calleesOf caller))
      (calls ++ callers.flatMap
        (fun caller => (g.calleesOf caller).map (fun callee => (caller, callee)))) := by
  induction callers generalizing n met calls with
  | nil => simpa using h
  | cons caller callers ih =>
    have ih := ih (h.readCaller g caller)
    rw [List.append_assoc, List.append_assoc] at ih
    exact ih

/-- In the end the numbering holds all names and all calls of the graph. -/
theorem holds_ofGraph (g : CallGraph) : (ofGraph g).Holds (reading g) (readCalls g) := by
  have hempty : ({} : Numbering).Holds [] [] := by
    refine ⟨by simp, List.Pairwise.nil, ?_, by simp⟩
    intro v w
    simp [Digraph.Edge, Digraph.successorsOf, Digraph.empty]
  exact hempty.foldl_readCaller g g.callers

/-! ## Numbers and names -/

/-- The number of a name. -/
def number (g : CallGraph) (a : String) : Nat := ((ofGraph g).numbers.get? a).getD 0

/-- The name of a number. -/
def name (g : CallGraph) (v : Nat) : String := (ofGraph g).names.getD v ""

/-- The number of nodes. -/
def count (g : CallGraph) : Nat := (ofGraph g).names.size

variable {g : CallGraph}

theorem size_digraph (g : CallGraph) : (ofGraph g).digraph.size = count g := (ofGraph g).size_eq

theorem getElem?_names_number {a : String} (h : a ∈ reading g) :
    (ofGraph g).names[number g a]? = some a := by
  obtain ⟨v, hv⟩ := Array.mem_iff_getElem?.1 (((holds_ofGraph g).mem_names_iff a).2 h)
  rw [number, ((ofGraph g).places a v).2 hv]
  exact hv

theorem getElem?_names_of_lt {v : Nat} (hv : v < count g) :
    (ofGraph g).names[v]? = some (name g v) := by
  rw [name, Array.getD_eq_getD_getElem?, Array.getElem?_eq_getElem hv]
  rfl

theorem number_lt {a : String} (h : a ∈ reading g) : number g a < count g :=
  (Array.getElem?_eq_some_iff.1 (getElem?_names_number h)).1

theorem name_number {a : String} (h : a ∈ reading g) : name g (number g a) = a :=
  Option.some.inj ((getElem?_names_of_lt (number_lt h)).symm.trans (getElem?_names_number h))

theorem number_name {v : Nat} (hv : v < count g) : number g (name g v) = v := by
  rw [number, ((ofGraph g).places (name g v) v).2 (getElem?_names_of_lt hv)]
  rfl

/-- A smaller number was met earlier. -/
theorem idxOf_name_lt {v w : Nat} (hvw : v < w) (hw : w < count g) :
    (reading g).idxOf (name g v) < (reading g).idxOf (name g w) := by
  have hv : v < count g := Nat.lt_trans hvw hw
  have hpairs := List.pairwise_iff_getElem.1 (holds_ofGraph g).ordered v w hv hw hvw
  have hnames : ∀ {x}, (hx : x < count g) → (ofGraph g).names.toList[x] = name g x := by
    intro x hx
    exact (Array.getElem?_eq_some_iff.1 (getElem?_names_of_lt hx)).2
  rwa [hnames hv, hnames hw] at hpairs

/-- Numbering keeps the edges. -/
theorem edge_number {a b : String} (h : g.Edge a b) :
    (ofGraph g).digraph.Edge (number g a) (number g b) := by
  have hmet := mem_reading_of_edge h
  exact ((holds_ofGraph g).edge_iff _ _).2
    ⟨(a, b), mem_readCalls_iff.2 h, getElem?_names_number hmet.1, getElem?_names_number hmet.2⟩

/-- The edges between numbers are edges between their names. -/
theorem edge_name {v w : Nat} (h : (ofGraph g).digraph.Edge v w) :
    g.Edge (name g v) (name g w) := by
  obtain ⟨hv, hw⟩ := Digraph.lt_size_of_mem_successorsOf h
  obtain ⟨e, he, hev, hew⟩ := ((holds_ofGraph g).edge_iff v w).1 h
  rw [size_digraph] at hv hw
  rw [getElem?_names_of_lt hv, Option.some.injEq] at hev
  rw [getElem?_names_of_lt hw, Option.some.injEq] at hew
  rw [hev, hew]
  exact mem_readCalls_iff.1 he

/-- Names that reach each other have connected numbers. -/
theorem connected_number {a b : String} (hab : g.Reaches a b) (hba : g.Reaches b a) :
    (ofGraph g).digraph.Connected (number g a) (number g b) :=
  ⟨hab.lift (number g) (fun _ _ => edge_number), hba.lift (number g) (fun _ _ => edge_number)⟩

/-- Connected numbers have names that reach each other. -/
theorem reaches_name {v w : Nat} (h : (ofGraph g).digraph.Connected v w) :
    g.Reaches (name g v) (name g w) ∧ g.Reaches (name g w) (name g v) :=
  ⟨h.1.lift (name g) (fun _ _ => edge_name), h.2.lift (name g) (fun _ _ => edge_name)⟩

end Numbering

end CodeAtlas.Graph
