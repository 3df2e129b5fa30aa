import CodeAtlas.Proofs.Graph.LinkOrder
import Mathlib.Data.List.Induction

/-!
# Histories of a call graph

A call graph starts empty and changes by calls that are recorded, forgotten or cleared away. What it
answers can be said by this history alone: the weight of an edge is a count of its calls, and every
list is in the order in which its entries last appeared. An edge that is gone and comes back goes
behind those that stayed, and so does a name that lost all its edges.

Main results:

- Theorem `turnsAt_concat`: what one more change turns.
- Theorem `ListsByAge.concat`: a list stays in the order of age if entries are taken out of it and
  no more than one new entry is put at its end.
- Theorems `Links.FollowsCount.add` and `Links.FollowsCount.remove`: one direction of a graph stays
  in step with its history.
- Theorem `CallGraph.tellsHistory_run`: after every history the graph is what the history says.
-/

namespace CodeAtlas

/-! ## Since when something is so -/

section Age

variable {α ω : Type}

/-- Something was not so before a step and is so after it. -/
def TurnsAt (p : List ω → Prop) (ops : List ω) (i : Nat) : Prop :=
  i < ops.length ∧ ¬p (ops.take i) ∧ p (ops.take (i + 1))

/-- This is the last step at which something became so. -/
def LastTurnsAt (p : List ω → Prop) (ops : List ω) (i : Nat) : Prop :=
  TurnsAt p ops i ∧ ∀ j, TurnsAt p ops j → j ≤ i

/-- A list has what is so after some steps, each once, in the order of the steps at which it last
became so. -/
structure ListsByAge (p : α → List ω → Prop) (ops : List ω) (xs : List α) : Prop where
  nodup : xs.Nodup
  mem_iff : ∀ x, x ∈ xs ↔ p x ops
  order : xs.Pairwise (fun x y =>
    ∃ i j, LastTurnsAt (p x) ops i ∧ LastTurnsAt (p y) ops j ∧ i < j)

variable {p : List ω → Prop} {ops : List ω} {op : ω} {i : Nat}

/-- One more step turns what was not so and is so after it. -/
theorem turnsAt_concat :
    TurnsAt p (ops ++ [op]) i ↔
      TurnsAt p ops i ∨ (i = ops.length ∧ ¬p ops ∧ p (ops ++ [op])) := by
  unfold TurnsAt
  rcases Nat.lt_trichotomy i ops.length with hlt | rfl | hgt
  · have hne : i ≠ ops.length := Nat.ne_of_lt hlt
    have hle : i ≤ ops.length := Nat.le_of_lt hlt
    rw [List.take_append_of_le_length hle, List.take_append_of_le_length hlt]
    simp [hlt, hne, Nat.lt_succ_of_lt hlt]
  · simp [List.take_of_length_le]
  · have hnot : ¬i < ops.length := Nat.not_lt.2 (Nat.le_of_lt hgt)
    have hpast : ¬i < ops.length + 1 := Nat.not_lt.2 hgt
    simp [hnot, hpast, Nat.ne_of_gt hgt]

/-- What is so and stays so has last become so when it had before. -/
theorem LastTurnsAt.concat (h : LastTurnsAt p ops i) (hp : p ops) :
    LastTurnsAt p (ops ++ [op]) i := by
  refine ⟨turnsAt_concat.2 (Or.inl h.1), fun j hj => ?_⟩
  rcases turnsAt_concat.1 hj with hj | ⟨-, hnot, -⟩
  · exact h.2 j hj
  · exact absurd hp hnot

/-- What becomes so with the last step has last become so with that step. -/
theorem lastTurnsAt_length (hnot : ¬p ops) (hp : p (ops ++ [op])) :
    LastTurnsAt p (ops ++ [op]) ops.length := by
  refine ⟨turnsAt_concat.2 (Or.inr ⟨rfl, hnot, hp⟩), fun j hj => ?_⟩
  rcases turnsAt_concat.1 hj with hj | ⟨rfl, -⟩
  · exact Nat.le_of_lt hj.1
  · exact Nat.le_refl _

/-- What is so after some steps, though not before any, became so at one of them for the last
time. -/
theorem exists_lastTurnsAt (hnil : ¬p []) (hp : p ops) : ∃ i, LastTurnsAt p ops i := by
  induction ops using List.reverseRecOn with
  | nil => exact absurd hp hnil
  | append_singleton ops op ih =>
    by_cases hops : p ops
    · obtain ⟨i, hi⟩ := ih hops
      exact ⟨i, hi.concat hops⟩
    · exact ⟨ops.length, lastTurnsAt_length hops hp⟩

variable {q : α → List ω → Prop} {xs kept : List α} {new : Option α}

/-- Nothing is listed of what is not so. -/
theorem listsByAge_nil (h : ∀ x, ¬q x ops) : ListsByAge q ops [] :=
  ⟨List.nodup_nil, fun x => iff_of_false List.not_mem_nil (h x), List.Pairwise.nil⟩

/-- A list stays in the order of age if entries are taken out and at most one new entry is put at
its end. -/
theorem ListsByAge.concat (h : ListsByAge q ops xs) (hnil : ∀ x, ¬q x [])
    (hkept : kept.Sublist xs) (hnew : ∀ x ∈ new, x ∉ xs)
    (hmem : ∀ x, x ∈ kept ++ new.toList ↔ q x (ops ++ [op])) :
    ListsByAge q (ops ++ [op]) (kept ++ new.toList) where
  nodup := by
    rw [List.nodup_append]
    refine ⟨h.nodup.sublist hkept, by cases new <;> simp, ?_⟩
    rintro x hx y hy rfl
    exact hnew x (Option.mem_toList.1 hy) (hkept.subset hx)
  mem_iff := hmem
  order := by
    rw [List.pairwise_append]
    refine ⟨?_, by cases new <;> simp, ?_⟩
    · refine (h.order.sublist hkept).imp_of_mem (fun {x y} hx hy hxy => ?_)
      obtain ⟨i, j, hi, hj, hlt⟩ := hxy
      exact ⟨i, j, hi.concat ((h.mem_iff x).1 (hkept.subset hx)),
        hj.concat ((h.mem_iff y).1 (hkept.subset hy)), hlt⟩
    · intro x hx y hy
      have hxs := (h.mem_iff x).1 (hkept.subset hx)
      have hys : ¬q y ops := fun hq => hnew y (Option.mem_toList.1 hy) ((h.mem_iff y).2 hq)
      obtain ⟨i, hi⟩ := exists_lastTurnsAt (hnil x) hxs
      exact ⟨i, ops.length, hi.concat hxs,
        lastTurnsAt_length hys ((hmem y).1 (List.mem_append_right _ hy)), hi.1.1⟩

/-- A list stays in the order of age if entries are taken out. -/
theorem ListsByAge.of_sublist (h : ListsByAge q ops xs) (hnil : ∀ x, ¬q x [])
    (hkept : kept.Sublist xs) (hmem : ∀ x, x ∈ kept ↔ q x (ops ++ [op])) :
    ListsByAge q (ops ++ [op]) kept := by
  have hshape : kept = kept ++ (none : Option α).toList := (List.append_nil kept).symm
  rw [hshape] at hmem ⊢
  exact h.concat hnil hkept (by simp) hmem

end Age

/-! ## One direction of a graph -/

namespace Graph.Links

section FollowsCount

variable {ω : Type} {count : List ω → String → String → Nat} {ops : List ω} {op : ω} {l : Links}
  {a b : String}

/-- Links are in step with the counts of a history: the weights are the counts, and sources and
targets are listed by age. -/
structure FollowsCount (count : List ω → String → String → Nat) (ops : List ω) (l : Links) :
    Prop where
  tight : l.Tight
  weight_eq : ∀ a b, l.weight a b = count ops a b
  sources : ListsByAge (fun a ops => ∃ b, 0 < count ops a b) ops l.sources
  targets : ∀ a, ListsByAge (fun b ops => 0 < count ops a b) ops (l.targets a)

/-- Without counts there are no links. -/
theorem followsCount_empty (h : ∀ a b, count ops a b = 0) : FollowsCount count ops {} where
  tight := counts_nil.tight
  weight_eq a b := (h a b).symm
  sources := listsByAge_nil (fun a => by simp [h])
  targets a := listsByAge_nil (fun b => by simp [h])

/-- A history that starts without counts has links in step with it after one more call. -/
theorem FollowsCount.add (h : FollowsCount count ops l) (hnil : ∀ a b, count [] a b = 0)
    (hcount : ∀ c d, count (ops ++ [op]) c d = count ops c d + if c = a ∧ d = b then 1 else 0) :
    FollowsCount count (ops ++ [op]) (l.add a b) := by
  have htight := h.tight.add a b
  have hweight : ∀ c d, (l.add a b).weight c d = count (ops ++ [op]) c d := fun c d => by
    rw [weight_add, h.weight_eq, hcount]
  refine ⟨htight, hweight, ?_, fun c => ?_⟩
  · have hmem : ∀ c, c ∈ (l.add a b).sources ↔ ∃ d, 0 < count (ops ++ [op]) c d := fun c => by
      simp only [htight.mem_sources_iff, hweight]
    have hshape : (l.add a b).sources =
        l.sources ++ (if a ∈ l.sources then none else some a).toList := by
      rw [sources_add]
      split <;> simp
    rw [hshape] at hmem ⊢
    refine h.sources.concat (by simp [hnil]) (List.Sublist.refl _) (fun x hx => ?_) hmem
    split at hx
    · contradiction
    · next ha => exact Option.mem_some_iff.1 hx ▸ ha
  · have hmem : ∀ d, d ∈ (l.add a b).targets c ↔ 0 < count (ops ++ [op]) c d := fun d => by
      rw [htight.mem_targets_iff, hweight]
    have hshape : (l.add a b).targets c =
        l.targets c ++ (if c = a ∧ b ∉ l.targets a then some b else none).toList := by
      rw [targets_add]
      split <;> simp
    rw [hshape] at hmem ⊢
    refine (h.targets c).concat (by simp [hnil]) (List.Sublist.refl _) (fun x hx => ?_) hmem
    split at hx
    · next hb => exact Option.mem_some_iff.1 hx ▸ hb.1 ▸ hb.2
    · contradiction

/-- A history that starts without counts has links in step with it after one call less. -/
theorem FollowsCount.remove (h : FollowsCount count ops l) (hnil : ∀ a b, count [] a b = 0)
    (hcount : ∀ c d, count (ops ++ [op]) c d = count ops c d - if c = a ∧ d = b then 1 else 0) :
    FollowsCount count (ops ++ [op]) (l.remove a b) := by
  have htight := h.tight.remove a b
  have hweight : ∀ c d, (l.remove a b).weight c d = count (ops ++ [op]) c d := fun c d => by
    rw [weight_remove, h.weight_eq, hcount]
  refine ⟨htight, hweight, ?_, fun c => ?_⟩
  · have hmem : ∀ c, c ∈ (l.remove a b).sources ↔ ∃ d, 0 < count (ops ++ [op]) c d := fun c => by
      simp only [htight.mem_sources_iff, hweight]
    exact h.sources.of_sublist (by simp [hnil]) (sources_remove_sublist l a b) hmem
  · have hmem : ∀ d, d ∈ (l.remove a b).targets c ↔ 0 < count (ops ++ [op]) c d := fun d => by
      rw [htight.mem_targets_iff, hweight]
    exact (h.targets c).of_sublist (by simp [hnil]) (targets_remove_sublist l a b c) hmem

/-- A snapshot has the sources by age, each with its targets by age. -/
theorem FollowsCount.snapshot (h : FollowsCount count ops l) :
    ListsByAge (fun a ops => ∃ b, 0 < count ops a b) ops (l.snapshot.map Prod.fst) ∧
      ∀ e ∈ l.snapshot, ListsByAge (fun b ops => 0 < count ops e.1 b) ops e.2 := by
  constructor
  · have hsources : l.snapshot.map Prod.fst = l.sources := by
      simp [Links.snapshot, Function.comp_def]
    rw [hsources]
    exact h.sources
  · intro e he
    obtain ⟨-, htargets⟩ := mem_snapshot_iff.1 he
    exact htargets ▸ h.targets e.1

end FollowsCount

end Graph.Links

/-! ## Both directions -/

namespace CallGraph

/-- What changes a call graph. -/
inductive Change where
  | add (caller callee : String)
  | remove (caller callee : String)
  | clear
  deriving Inhabited

/-- The graph after a change. -/
def apply (g : CallGraph) : Change → CallGraph
  | .add caller callee => g.addEdge caller callee
  | .remove caller callee => g.removeEdge caller callee
  | .clear => empty

/-- The graph after some changes, starting with the empty graph. -/
def run (changes : List Change) : CallGraph := changes.foldl apply empty

/-- The number of calls of an edge after one more change. -/
def Change.countAfter (caller callee : String) (n : Nat) : Change → Nat
  | .add a b => n + if caller = a ∧ callee = b then 1 else 0
  | .remove a b => n - if caller = a ∧ callee = b then 1 else 0
  | .clear => 0

/-- The number of calls of an edge by its history: one that is recorded raises it, one that is
forgotten lowers it as long as there is one. -/
def callCount (changes : List Change) (caller callee : String) : Nat :=
  changes.foldl (Change.countAfter caller callee) 0

/-- A graph is what its history says. -/
structure TellsHistory (changes : List Change) (g : CallGraph) : Prop where
  edgeWeight_eq : ∀ a b, g.edgeWeight a b = callCount changes a b
  /-- The other direction has the same weights. -/
  backward_weight_eq : ∀ a b, g.backward.weight b a = callCount changes a b
  containsEdge_iff : ∀ a b, g.containsEdge a b = true ↔ 0 < callCount changes a b
  /-- The callers stand in the order in which they last got their first edge. -/
  callers : ListsByAge (fun a changes => ∃ b, 0 < callCount changes a b) changes g.callers
  /-- The callees of a name stand in the order in which their edges last appeared. -/
  calleesOf : ∀ a, ListsByAge (fun b changes => 0 < callCount changes a b) changes (g.calleesOf a)
  callees : ListsByAge (fun b changes => ∃ a, 0 < callCount changes a b) changes g.callees
  callersOf : ∀ b, ListsByAge (fun a changes => 0 < callCount changes a b) changes (g.callersOf b)
  /-- The snapshots list the same names in the same orders. -/
  forward_snapshot :
    ListsByAge (fun a changes => ∃ b, 0 < callCount changes a b) changes
        (g.forward.snapshot.map Prod.fst) ∧
      ∀ e ∈ g.forward.snapshot,
        ListsByAge (fun b changes => 0 < callCount changes e.1 b) changes e.2
  backward_snapshot :
    ListsByAge (fun b changes => ∃ a, 0 < callCount changes a b) changes
        (g.backward.snapshot.map Prod.fst) ∧
      ∀ e ∈ g.backward.snapshot,
        ListsByAge (fun a changes => 0 < callCount changes a e.1) changes e.2
  /-- Where there is no edge there is nothing to forget. -/
  removeEdge_eq : ∀ a b, callCount changes a b = 0 → g.removeEdge a b = g

variable {changes : List Change} {g : CallGraph}

/-- Both directions of a graph are in step with its history. -/
structure Follows (changes : List Change) (g : CallGraph) : Prop where
  forward : g.forward.FollowsCount callCount changes
  backward : g.backward.FollowsCount (fun changes b a => callCount changes a b) changes

/-- The count after one more change. -/
theorem callCount_concat (changes : List Change) (change : Change) (a b : String) :
    callCount (changes ++ [change]) a b = change.countAfter a b (callCount changes a b) := by
  simp [callCount]

/-- Every change keeps both directions in step with the history. -/
theorem Follows.apply (h : Follows changes g) (change : Change) :
    Follows (changes ++ [change]) (g.apply change) := by
  have hcount := callCount_concat changes change
  cases change with
  | add a b =>
    refine ⟨h.forward.add (fun _ _ => rfl) hcount, h.backward.add (fun _ _ => rfl) ?_⟩
    intro d c
    simp only [hcount, Change.countAfter, and_comm]
  | remove a b =>
    refine ⟨h.forward.remove (fun _ _ => rfl) hcount, h.backward.remove (fun _ _ => rfl) ?_⟩
    intro d c
    simp only [hcount, Change.countAfter, and_comm]
  | clear =>
    exact ⟨Graph.Links.followsCount_empty hcount,
      Graph.Links.followsCount_empty (fun b a => hcount a b)⟩

/-- After every history both directions are in step with it. -/
theorem follows_run (changes : List Change) : Follows changes (run changes) := by
  induction changes using List.reverseRecOn with
  | nil =>
    exact ⟨Graph.Links.followsCount_empty (fun _ _ => rfl),
      Graph.Links.followsCount_empty (fun _ _ => rfl)⟩
  | append_singleton changes change ih =>
    have hrun : run (changes ++ [change]) = (run changes).apply change := by simp [run]
    rw [hrun]
    exact ih.apply change

/-- After every history the graph is what the history says: weights are counts, and every list is in
the order in which its entries last appeared. -/
theorem tellsHistory_run (changes : List Change) : TellsHistory changes (run changes) := by
  obtain ⟨hforward, hbackward⟩ := follows_run changes
  exact {
    edgeWeight_eq := hforward.weight_eq
    backward_weight_eq := fun a b => hbackward.weight_eq b a
    containsEdge_iff := fun a b => by
      rw [containsEdge, Option.isSome_iff_exists, hforward.tight.exists_weight?_iff,
        hforward.weight_eq]
    callers := hforward.sources
    calleesOf := hforward.targets
    callees := hbackward.sources
    callersOf := hbackward.targets
    forward_snapshot := hforward.snapshot
    backward_snapshot := hbackward.snapshot
    removeEdge_eq := fun a b hzero => by
      rw [removeEdge,
        hforward.tight.remove_of_weight_eq_zero ((hforward.weight_eq a b).trans hzero),
        hbackward.tight.remove_of_weight_eq_zero ((hbackward.weight_eq b a).trans hzero)] }

/-- A caller that lost its only edge comes last when it calls again. -/
example :
    (run [.add "z" "b", .add "a" "c", .remove "z" "b", .remove "z" "b", .add "z" "c"]).callers =
      ["a", "z"] := by
  decide

end CallGraph

end CodeAtlas
