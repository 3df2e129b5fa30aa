import CodeAtlas.Table

/-!
# The call graph

A directed graph from callers to callees. Each edge carries the number of calls that it stands for
and disappears when that number reaches zero. Both directions are kept. In each direction the
sources are in the order in which they last got their first edge, and the targets of a source are
in the order in which their edges last appeared. The order of the sources is kept apart from their
targets, so that every change has to keep the two in step.

Main statements:

* `Links.get?_edges_add`, `Links.remove_cases`: what one call more or less does to the targets;
* `Links.weight_add`, `Links.weight_remove`: what it does to the weights.
-/

namespace CodeAtlas.Graph

/-- One direction of a graph: the sources in order, and for each source its targets with the number
of calls. A source is in the order exactly as long as targets are kept for it. -/
structure Links where
  order : List String := []
  edges : Table String (Table String Nat) := ∅
  nodup_order : order.Nodup := by simp
  mem_order_iff : ∀ a, a ∈ order ↔ (edges.get? a).isSome = true := by simp
  deriving DecidableEq

namespace Links

instance : Inhabited Links := ⟨{}⟩

/-- One call more. -/
def increment : Option Nat → Option Nat
  | none => some 1
  | some n => some (n + 1)

/-- One call less; an edge without calls is no edge. -/
def decrement : Option Nat → Option Nat
  | none => none
  | some n => if n ≤ 1 then none else some (n - 1)

theorem not_mem_order_iff (l : Links) {a : String} : a ∉ l.order ↔ l.edges.get? a = none := by
  rw [l.mem_order_iff, Option.not_isSome_iff_eq_none]

/-- The links with a source at the end that has no targets yet, unless it is a source already. -/
def openSource (l : Links) (source : String) : Links :=
  if h : source ∈ l.order then l
  else
    { order := l.order ++ [source]
      edges := l.edges.insert source ∅
      nodup_order := by
        refine List.nodup_append.2 ⟨l.nodup_order, List.pairwise_singleton _ source, ?_⟩
        intro a ha b hb heq
        rw [heq, List.mem_singleton.1 hb] at ha
        exact h ha
      mem_order_iff := by
        intro a
        rw [List.mem_append, List.mem_singleton]
        by_cases ha : a = source
        · subst ha
          simp
        · rw [Table.get?_insert_of_ne _ _ ha, l.mem_order_iff, or_iff_left ha] }

/-- The links with other targets for a source; nothing happens if it is no source. -/
def modify (l : Links) (source : String) (f : Table String Nat → Table String Nat) : Links where
  order := l.order
  edges := l.edges.alter source (Option.map f)
  nodup_order := l.nodup_order
  mem_order_iff := by
    intro a
    rw [l.mem_order_iff, Table.get?_alter]
    split
    · next ha => rw [ha, Option.isSome_map]
    · exact Iff.rfl

/-- The links without a source. -/
def dropSource (l : Links) (source : String) : Links where
  order := l.order.filter (· ≠ source)
  edges := l.edges.erase source
  nodup_order := l.nodup_order.filter _
  mem_order_iff := by
    intro a
    rw [List.mem_filter, decide_eq_true_iff]
    by_cases ha : a = source
    · subst ha
      simp
    · rw [Table.get?_erase_of_ne _ ha, l.mem_order_iff, and_iff_left ha]

/-- Records one more call. -/
def add (l : Links) (source target : String) : Links :=
  (l.openSource source).modify source (fun targets => targets.alter target increment)

/-- Forgets one call; nothing happens if there is none. A source without targets is no source. -/
def remove (l : Links) (source target : String) : Links :=
  match l.edges.get? source with
  | none => l
  | some targets =>
    if targets.contains target then
      if (targets.alter target decrement).isEmpty then l.dropSource source
      else l.modify source (fun targets => targets.alter target decrement)
    else l

/-- The sources of edges. -/
def sources (l : Links) : List String := l.order

/-- The targets of a source. -/
def targets (l : Links) (source : String) : List String :=
  match l.edges.get? source with
  | none => []
  | some ts => ts.keys

/-- The number of calls of an edge, if there is such an edge. -/
def weight? (l : Links) (source target : String) : Option Nat :=
  (l.edges.get? source).bind (fun ts => ts.get? target)

/-- The number of calls from a source to a target. -/
def weight (l : Links) (source target : String) : Nat := (l.weight? source target).getD 0

/-- The number of edges. -/
def edgeCount (l : Links) : Nat := l.edges.values.foldr (fun ts n => ts.size + n) 0

/-- Each source with its targets. -/
def snapshot (l : Links) : List (String × List String) :=
  l.sources.map (fun source => (source, l.targets source))

/-- No source is listed twice. -/
theorem nodup_sources (l : Links) : l.sources.Nodup := l.nodup_order

/-- The sources are what targets are kept for. -/
theorem mem_sources_iff (l : Links) {source : String} :
    source ∈ l.sources ↔ ∃ ts, l.edges.get? source = some ts := by
  rw [sources, l.mem_order_iff, Option.isSome_iff_exists]

/-- No target of a source is listed twice. -/
theorem nodup_targets (l : Links) (source : String) : (l.targets source).Nodup := by
  unfold targets
  split
  · exact List.nodup_nil
  · next ts _ => exact ts.nodup_keys

/-- The targets of a source are what it has edges to. -/
theorem mem_targets_iff (l : Links) {source target : String} :
    target ∈ l.targets source ↔ ∃ n, l.weight? source target = some n := by
  unfold targets weight?
  cases l.edges.get? source with
  | none => simp
  | some ts => simpa using ts.mem_keys_iff

/-- What has a target is a source. -/
theorem mem_sources_of_mem_targets (l : Links) {source target : String}
    (h : target ∈ l.targets source) : source ∈ l.sources := by
  obtain ⟨n, hn⟩ := l.mem_targets_iff.1 h
  obtain ⟨ts, hts, -⟩ := Option.bind_eq_some_iff.1 hn
  exact l.mem_sources_iff.2 ⟨ts, hts⟩

/-! ## One call more, one call less -/

/-- A call more changes the targets of its source, which may be a new source. -/
theorem get?_edges_add (l : Links) (a b c : String) :
    (l.add a b).edges.get? c =
      if c = a then some (((l.edges.get? a).getD ∅).alter b increment) else l.edges.get? c := by
  unfold add modify openSource
  rw [Table.get?_alter]
  split
  · split
    · next ha =>
      obtain ⟨ts, hts⟩ := l.mem_sources_iff.1 ha
      rw [hts]
      rfl
    · next ha =>
      rw [l.not_mem_order_iff.1 ha, Table.get?_insert_self]
      rfl
  · next hc =>
    split
    · rfl
    · rw [Table.get?_insert_of_ne _ _ hc]

theorem weight?_add (l : Links) (a b c d : String) :
    (l.add a b).weight? c d =
      if c = a ∧ d = b then increment (l.weight? a b) else l.weight? c d := by
  rw [weight?, get?_edges_add]
  by_cases hc : c = a
  · subst hc
    rw [if_pos rfl, Option.bind_some, Table.get?_alter]
    cases ht : l.edges.get? c with
    | none => simp [weight?, ht]
    | some ts => simp [weight?, ht]
  · simp [weight?, hc]

/-- One call more raises the weight of its edge by one and leaves the others. -/
theorem weight_add (l : Links) (a b c d : String) :
    (l.add a b).weight c d = l.weight c d + (if c = a ∧ d = b then 1 else 0) := by
  simp only [weight, weight?_add]
  split
  · next h =>
    obtain ⟨rfl, rfl⟩ := h
    cases l.weight? c d <;> simp [increment]
  · simp

/-- A call less changes nothing, takes away its source, or changes the targets of its source. -/
theorem remove_cases (l : Links) (a b : String) :
    (l.weight? a b = none ∧ l.remove a b = l) ∨
      ∃ ts, l.edges.get? a = some ts ∧
        (((ts.alter b decrement).isEmpty = true ∧ l.remove a b = l.dropSource a) ∨
          ((ts.alter b decrement).isEmpty = false ∧
            l.remove a b = l.modify a (fun ts => ts.alter b decrement))) := by
  cases hts : l.edges.get? a with
  | none => exact Or.inl ⟨by simp [weight?, hts], by simp [remove, hts]⟩
  | some ts =>
    by_cases hb : ts.contains b = true
    · refine Or.inr ⟨ts, rfl, ?_⟩
      cases hempty : (ts.alter b decrement).isEmpty with
      | true => exact Or.inl ⟨rfl, by simp [remove, hts, hb, hempty]⟩
      | false => exact Or.inr ⟨rfl, by simp [remove, hts, hb, hempty]⟩
    · have hnone : ts.get? b = none := by simpa [Table.contains] using hb
      exact Or.inl ⟨by simp [weight?, hts, hnone], by simp [remove, hts, hb]⟩

theorem weight?_remove (l : Links) (a b c d : String) :
    (l.remove a b).weight? c d =
      if c = a ∧ d = b then decrement (l.weight? a b) else l.weight? c d := by
  rcases l.remove_cases a b with ⟨hnone, hremove⟩ | ⟨ts, hts, ⟨hempty, hremove⟩ | ⟨-, hremove⟩⟩
  · rw [hremove]
    split
    · next h =>
      obtain ⟨rfl, rfl⟩ := h
      rw [hnone]
      rfl
    · rfl
  · rw [hremove]
    by_cases hc : c = a
    · subst hc
      have hd : (ts.alter b decrement).get? d = none := by
        have hentries : (ts.alter b decrement).entries = [] := by
          simpa [Table.isEmpty] using hempty
        simp [Table.get?, hentries, Entries.find]
      rw [Table.get?_alter] at hd
      simpa [dropSource, weight?, hts] using hd.symm
    · simp [dropSource, weight?, Table.get?_erase_of_ne _ hc, hc]
  · rw [hremove]
    by_cases hc : c = a
    · subst hc
      simp [modify, weight?, hts, Table.get?_alter]
    · simp [modify, weight?, Table.get?_alter_of_ne _ _ hc, hc]

/-- One call less lowers the weight of its edge by one, but not below zero. -/
theorem weight_remove (l : Links) (a b c d : String) :
    (l.remove a b).weight c d = l.weight c d - (if c = a ∧ d = b then 1 else 0) := by
  simp only [weight, weight?_remove]
  split
  · next h =>
    obtain ⟨rfl, rfl⟩ := h
    cases l.weight? c d with
    | none => simp [decrement]
    | some n =>
      simp only [decrement]
      split
      · simp
        omega
      · simp
  · simp

end Links

end Graph

/-- The graph of calls, in both directions. -/
structure CallGraph where
  /-- From callers to callees. -/
  forward : Graph.Links := {}
  /-- From callees to callers. -/
  backward : Graph.Links := {}
  deriving DecidableEq, Inhabited

namespace CallGraph

/-- The graph without edges. -/
def empty : CallGraph := {}

/-- Records one more call. -/
def addEdge (g : CallGraph) (caller callee : String) : CallGraph :=
  ⟨g.forward.add caller callee, g.backward.add callee caller⟩

/-- Forgets one call. -/
def removeEdge (g : CallGraph) (caller callee : String) : CallGraph :=
  ⟨g.forward.remove caller callee, g.backward.remove callee caller⟩

/-- The names that call. -/
def callers (g : CallGraph) : List String := g.forward.sources

/-- The names that are called. -/
def callees (g : CallGraph) : List String := g.backward.sources

/-- What a name calls. -/
def calleesOf (g : CallGraph) (caller : String) : List String := g.forward.targets caller

/-- What calls a name. -/
def callersOf (g : CallGraph) (callee : String) : List String := g.backward.targets callee

/-- Whether there is an edge. -/
def containsEdge (g : CallGraph) (caller callee : String) : Bool :=
  (g.forward.weight? caller callee).isSome

/-- The number of calls of an edge. -/
def edgeWeight (g : CallGraph) (caller callee : String) : Nat := g.forward.weight caller callee

/-- The number of names that call. -/
def callerCount (g : CallGraph) : Nat := g.callers.length

/-- The number of names that are called. -/
def calleeCount (g : CallGraph) : Nat := g.callees.length

/-- The number of edges. -/
def edgeCount (g : CallGraph) : Nat := g.forward.edgeCount

/-- Whether there are no edges. -/
def isEmpty (g : CallGraph) : Bool := g.callers.isEmpty

/-- The graph of a list of calls. -/
def ofEdges (edges : List (String × String)) : CallGraph :=
  edges.foldl (fun g e => g.addEdge e.1 e.2) empty

end CallGraph

end CodeAtlas
