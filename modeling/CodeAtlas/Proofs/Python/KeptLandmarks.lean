import CodeAtlas.Proofs.Python.Limbs

/-!
# Kept landmarks

What becomes of the landmarks of a concrete tree in its outline. A landmark is the one of the frame
of some construct, and its node is the node around those of the limbs; what is in a limb is where
the outline of the limb is put into the whole.

Main results:

- Theorem `Becomes.isAbove_iff`: one node is below another one if the landmarks are so, or one of
  them is in a decorator of the other.
- Theorems `exists_becomes` and `exists_becomes_of_node`: nothing is lost, and nothing is added.
- Theorem `exists_keepsLandmarks`: the outline of a whole text keeps its landmarks.
-/

namespace CodeAtlas.Syntax

/-! ## Nodes side by side -/

/-- The node that an address leads to among nodes side by side. -/
def nodeAt (ns : List Node) : Address → Option Node
  | [] => none
  | k :: q => ns[k]?.bind (fun n => n.at? q)

/-- An address among nodes that stand behind so many others. -/
def Address.shift (n : Nat) : Address → Address
  | [] => []
  | k :: q => (n + k) :: q

theorem nodeAt_cons_eq_some_iff {ns : List Node} {k : Nat} {q : Address} {m : Node} :
    nodeAt ns (k :: q) = some m ↔ ∃ n, ns[k]? = some n ∧ n.at? q = some m := by
  rw [nodeAt, Option.bind_eq_some_iff]

/-- The nodes below a node are among its children. -/
theorem Node.at?_eq_nodeAt (n : Node) {q : Address} (hq : q ≠ []) :
    n.at? q = nodeAt n.children q := by
  cases q with
  | nil => exact absurd rfl hq
  | cons k q => rfl

theorem ne_nil_of_nodeAt {ns : List Node} {q : Address} {m : Node} (h : nodeAt ns q = some m) :
    q ≠ [] := by
  rintro rfl
  exact Option.some_ne_none m h.symm

/-- What is among a single node is the node itself or is below it. -/
theorem nodeAt_singleton_cases {n m : Node} {q : Address} (h : nodeAt [n] q = some m) :
    (q = [0] ∧ m = n) ∨ ∃ r, q = 0 :: r ∧ nodeAt n.children r = some m := by
  obtain ⟨k, q, rfl⟩ := List.exists_cons_of_ne_nil (ne_nil_of_nodeAt h)
  obtain ⟨n', hn, hm⟩ := nodeAt_cons_eq_some_iff.1 h
  obtain rfl : k = 0 := Nat.lt_one_iff.1 (List.getElem?_eq_some_iff.1 hn).1
  obtain rfl : n = n' := Option.some.inj hn
  cases q with
  | nil => exact Or.inl ⟨rfl, (Option.some.inj hm).symm⟩
  | cons i q => exact Or.inr ⟨i :: q, rfl, hm⟩

theorem nodeAt_append_left {ns ms : List Node} {q : Address} {m : Node}
    (h : nodeAt ns q = some m) : nodeAt (ns ++ ms) q = some m := by
  obtain ⟨k, q, rfl⟩ := List.exists_cons_of_ne_nil (ne_nil_of_nodeAt h)
  obtain ⟨n, hn, hm⟩ := nodeAt_cons_eq_some_iff.1 h
  refine nodeAt_cons_eq_some_iff.2 ⟨n, ?_, hm⟩
  rw [List.getElem?_append_left (List.getElem?_eq_some_iff.1 hn).1, hn]

theorem nodeAt_append_shift (ns ms : List Node) (q : Address) :
    nodeAt (ns ++ ms) (q.shift ns.length) = nodeAt ms q := by
  cases q with
  | nil => rfl
  | cons k q =>
    rw [Address.shift, nodeAt, nodeAt, List.getElem?_append_right (Nat.le_add_right _ _),
      Nat.add_sub_cancel_left]

/-- What is among some nodes and others is among the ones or among the others. -/
theorem nodeAt_append_cases {ns ms : List Node} {q : Address} {m : Node}
    (h : nodeAt (ns ++ ms) q = some m) :
    nodeAt ns q = some m ∨ ∃ q', q = q'.shift ns.length ∧ nodeAt ms q' = some m := by
  obtain ⟨k, q, rfl⟩ := List.exists_cons_of_ne_nil (ne_nil_of_nodeAt h)
  rcases Nat.lt_or_ge k ns.length with hk | hk
  · rw [nodeAt, List.getElem?_append_left hk] at h
    exact Or.inl h
  · rw [nodeAt, List.getElem?_append_right hk] at h
    refine Or.inr ⟨(k - ns.length) :: q, ?_, h⟩
    rw [Address.shift, Nat.add_sub_cancel' hk]

namespace Address

theorem shift_ne_nil {n : Nat} {q : Address} (h : q ≠ []) : q.shift n ≠ [] := by
  obtain ⟨k, q, rfl⟩ := List.exists_cons_of_ne_nil h
  exact List.cons_ne_nil _ _

theorem shift_append {n : Nat} {q : Address} (h : q ≠ []) (r : Address) :
    (q ++ r).shift n = q.shift n ++ r := by
  obtain ⟨k, q, rfl⟩ := List.exists_cons_of_ne_nil h
  rfl

theorem shift_shift (n k : Nat) (q : Address) : (q.shift k).shift n = q.shift (n + k) := by
  cases q with
  | nil => rfl
  | cons j q => rw [shift, shift, shift, Nat.add_assoc]

theorem shift_inj {n : Nat} {q r : Address} : q.shift n = r.shift n ↔ q = r := by
  cases q <;> cases r <;> simp [shift]

theorem append_isAbove_append_iff {a p q : Address} : (a ++ p).IsAbove (a ++ q) ↔ p.IsAbove q := by
  induction a with
  | nil => rfl
  | cons i a ih =>
    rw [List.cons_append, List.cons_append, cons_isAbove_cons_iff, ih, and_iff_right rfl]

theorem shift_isAbove_shift_iff {n : Nat} {q r : Address} :
    (q.shift n).IsAbove (r.shift n) ↔ q.IsAbove r := by
  cases q <;> cases r <;> simp [shift]

end Address

end CodeAtlas.Syntax

namespace CodeAtlas.Python.Concrete

open CodeAtlas.Syntax

/-! ## Where the outlines of limbs are -/

/-- An address within a frame, as one outside. -/
def Frame.lift (q : Address) : Frame → Address
  | .dissolved => q
  | .landmark .. | .wrapped .. => 0 :: q

/-- How many nodes there are before those of a construct among constructs in a row. -/
def nodesBefore (cs : List Concrete) (i : Nat) : Nat := (outlineAll (cs.take i)).length

/-- Where a node in the outline of a limb is in the whole outline. -/
def place (c : Concrete) (i : Nat) (q : Address) : Address :=
  c.frame.lift (q.shift (nodesBefore (c.limbs.map Prod.snd) i))

theorem nodeAt_lift (f : Frame) (inner : List Node) {q : Address} (hq : q ≠ []) :
    nodeAt (f.around inner) (f.lift q) = nodeAt inner q := by
  cases f with
  | dissolved => rfl
  | landmark own kind span => exact Node.at?_eq_nodeAt ⟨kind, span, inner⟩ hq
  | wrapped label span =>
    cases inner with
    | nil =>
      obtain ⟨k, q, rfl⟩ := List.exists_cons_of_ne_nil hq
      rfl
    | cons n rest => exact Node.at?_eq_nodeAt ⟨.other label, span, n :: rest⟩ hq

/-- A node within a frame is the one of the frame or one of those that it is around. -/
theorem nodeAt_around_cases {f : Frame} {inner : List Node} {q : Address} {m : Node}
    (hm : nodeAt (f.around inner) q = some m) :
    (∃ own, q = [0] ∧ f = .landmark own m.kind m.span) ∨
      (∃ label, m.kind = .other label ∧ m.children ≠ []) ∨
        ∃ r, q = f.lift r ∧ nodeAt inner r = some m := by
  cases f with
  | dissolved => exact Or.inr (Or.inr ⟨q, rfl, hm⟩)
  | landmark own kind span =>
    rcases nodeAt_singleton_cases hm with ⟨rfl, rfl⟩ | ⟨r, rfl, hr⟩
    · exact Or.inl ⟨own, rfl, rfl⟩
    · exact Or.inr (Or.inr ⟨r, rfl, hr⟩)
  | wrapped label span =>
    cases inner with
    | nil =>
      obtain ⟨k, q, rfl⟩ := List.exists_cons_of_ne_nil (ne_nil_of_nodeAt hm)
      obtain ⟨n, hn, -⟩ := nodeAt_cons_eq_some_iff.1 hm
      simp [Frame.around] at hn
    | cons n rest =>
      rcases nodeAt_singleton_cases hm with ⟨rfl, rfl⟩ | ⟨r, rfl, hr⟩
      · exact Or.inr (Or.inl ⟨label, rfl, List.cons_ne_nil n rest⟩)
      · exact Or.inr (Or.inr ⟨r, rfl, hr⟩)

theorem nodeAt_outlineAll {cs : List Concrete} {i : Nat} {d : Concrete} (hd : cs[i]? = some d)
    {q : Address} {m : Node} (hm : nodeAt d.outline q = some m) :
    nodeAt (outlineAll cs) (q.shift (nodesBefore cs i)) = some m := by
  obtain ⟨hi, rfl⟩ := List.getElem?_eq_some_iff.1 hd
  have hsplit : cs = cs.take i ++ (cs[i] :: cs.drop (i + 1)) := by
    rw [← List.drop_eq_getElem_cons hi, List.take_append_drop]
  have houtline : outlineAll cs =
      outlineAll (cs.take i) ++ (cs[i].outline ++ outlineAll (cs.drop (i + 1))) := by
    conv_lhs => rw [hsplit, outlineAll_append, outlineAll]
  rw [houtline, nodesBefore, nodeAt_append_shift]
  exact nodeAt_append_left hm

theorem exists_of_nodeAt_outlineAll {cs : List Concrete} {q : Address} {m : Node}
    (hm : nodeAt (outlineAll cs) q = some m) :
    ∃ i d q', cs[i]? = some d ∧ q = q'.shift (nodesBefore cs i) ∧ nodeAt d.outline q' = some m := by
  induction cs generalizing q with
  | nil =>
    obtain ⟨k, q, rfl⟩ := List.exists_cons_of_ne_nil (ne_nil_of_nodeAt hm)
    obtain ⟨n, hn, -⟩ := nodeAt_cons_eq_some_iff.1 hm
    exact absurd hn (by simp [outlineAll])
  | cons c rest ih =>
    rw [outlineAll] at hm
    rcases nodeAt_append_cases hm with hfirst | ⟨q', rfl, hrest⟩
    · refine ⟨0, c, q, rfl, ?_, hfirst⟩
      obtain ⟨k, q, rfl⟩ := List.exists_cons_of_ne_nil (ne_nil_of_nodeAt hm)
      rw [nodesBefore, List.take_zero, outlineAll, List.length_nil, Address.shift, Nat.zero_add]
    · obtain ⟨i, d, q', hd, rfl, hnode⟩ := ih hrest
      refine ⟨i + 1, d, q', hd, ?_, hnode⟩
      rw [Address.shift_shift, nodesBefore, nodesBefore, List.take_succ_cons, outlineAll,
        List.length_append]

/-- Nodes of different constructs in a row are not above each other. -/
theorem eq_of_shift_leads {cs : List Concrete} {i j : Nat} {d e : Concrete}
    (hd : cs[i]? = some d) (he : cs[j]? = some e) {q r : Address} {m n : Node}
    (hm : nodeAt d.outline q = some m) (hn : nodeAt e.outline r = some n)
    (hleads : q.shift (nodesBefore cs i) <+: r.shift (nodesBefore cs j)) : i = j := by
  -- the nodes of a construct that stands earlier come before all of those of a later one
  have hbefore : ∀ {i j : Nat} {d : Concrete}, cs[i]? = some d → i < j →
      nodesBefore cs i + d.outline.length ≤ nodesBefore cs j := by
    intro i j d hd hij
    obtain ⟨hi, rfl⟩ := List.getElem?_eq_some_iff.1 hd
    have htake : cs.take j = cs.take i ++ (cs[i] :: (cs.take j).drop (i + 1)) := by
      conv_lhs => rw [← List.take_append_drop i (cs.take j)]
      rw [List.take_take, Nat.min_eq_left (Nat.le_of_lt hij),
        List.drop_eq_getElem_cons (by rw [List.length_take]; omega), List.getElem_take]
    rw [nodesBefore, nodesBefore, htake, outlineAll_append, outlineAll]
    simp only [List.length_append]
    omega
  obtain ⟨k, q, rfl⟩ := List.exists_cons_of_ne_nil (ne_nil_of_nodeAt hm)
  obtain ⟨l, r, rfl⟩ := List.exists_cons_of_ne_nil (ne_nil_of_nodeAt hn)
  obtain ⟨_, hk, -⟩ := nodeAt_cons_eq_some_iff.1 hm
  obtain ⟨_, hl, -⟩ := nodeAt_cons_eq_some_iff.1 hn
  have hk := (List.getElem?_eq_some_iff.1 hk).1
  have hl := (List.getElem?_eq_some_iff.1 hl).1
  have hnumbers : nodesBefore cs i + k = nodesBefore cs j + l := (List.cons_prefix_cons.1 hleads).1
  rcases Nat.lt_trichotomy i j with hij | hij | hij
  · have := hbefore hd hij
    omega
  · exact hij
  · have := hbefore he hij
    omega

section Place

variable {c d e : Concrete} {i j : Nat} {a b q r : Address} {m n : Node}

theorem place_ne_nil (hq : q ≠ []) : c.place i q ≠ [] := by
  unfold place
  cases c.frame with
  | dissolved => exact Address.shift_ne_nil hq
  | landmark own kind span => exact List.cons_ne_nil _ _
  | wrapped label span => exact List.cons_ne_nil _ _

theorem place_append (hq : q ≠ []) (r : Address) : c.place i (q ++ r) = c.place i q ++ r := by
  unfold place
  rw [Address.shift_append hq]
  cases c.frame <;> rfl

theorem place_inj : c.place i q = c.place i r ↔ q = r := by
  unfold place
  cases c.frame <;> simp [Frame.lift, Address.shift_inj]

theorem place_isAbove_place_iff : (c.place i q).IsAbove (c.place i r) ↔ q.IsAbove r := by
  unfold place
  cases c.frame <;> simp [Frame.lift, Address.shift_isAbove_shift_iff]

/-- The node of a landmark is above those of the limbs. -/
theorem isAbove_place_of_landmark {own : Address} {kind : NodeKind} {span : Span}
    (hframe : c.frame = .landmark own kind span) (hq : q ≠ []) :
    Address.IsAbove [0] (c.place i q) := by
  rw [place, hframe]
  simpa [Frame.lift] using Address.shift_ne_nil hq

theorem eq_of_place_leads (hd : c.limbs[i]? = some (a, d)) (he : c.limbs[j]? = some (b, e))
    (hm : nodeAt d.outline q = some m) (hn : nodeAt e.outline r = some n)
    (hleads : c.place i q <+: c.place j r) : i = j := by
  have hlimb : (c.limbs.map Prod.snd)[i]? = some d := by
    rw [List.getElem?_map, hd, Option.map_some]
  have hother : (c.limbs.map Prod.snd)[j]? = some e := by
    rw [List.getElem?_map, he, Option.map_some]
  refine eq_of_shift_leads hlimb hother hm hn ?_
  unfold place at hleads
  cases hframe : c.frame <;> simpa [hframe, Frame.lift] using hleads

theorem WellMade.nodeAt_place (h : c.WellMade) (hd : c.limbs[i]? = some (a, d))
    (hm : nodeAt d.outline q = some m) : nodeAt c.outline (c.place i q) = some m := by
  rw [outline_eq h, place, nodeAt_lift _ _ (Address.shift_ne_nil (ne_nil_of_nodeAt hm))]
  refine nodeAt_outlineAll ?_ hm
  rw [List.getElem?_map, hd, Option.map_some]

/-- A node of an outline is the one of the frame or comes from a limb. -/
theorem WellMade.nodeAt_outline_cases (h : c.WellMade) (hm : nodeAt c.outline q = some m) :
    (∃ own, q = [0] ∧ c.frame = .landmark own m.kind m.span) ∨
      (∃ label, m.kind = .other label ∧ m.children ≠ []) ∨
        ∃ i a d r, c.limbs[i]? = some (a, d) ∧ q = c.place i r ∧ nodeAt d.outline r = some m := by
  rw [outline_eq h] at hm
  rcases nodeAt_around_cases hm with hown | hwrapped | ⟨r, rfl, hr⟩
  · exact Or.inl hown
  · exact Or.inr (Or.inl hwrapped)
  · obtain ⟨i, d, r', hd, rfl, hnode⟩ := exists_of_nodeAt_outlineAll hr
    rw [List.getElem?_map, Option.map_eq_some_iff] at hd
    obtain ⟨⟨a, _⟩, hlimb, rfl⟩ := hd
    exact Or.inr (Or.inr ⟨i, a, _, r', hlimb, rfl, hnode⟩)

/-- The node of the landmark of a frame comes first. -/
theorem WellMade.nodeAt_zero (h : c.WellMade) {own : Address} {kind : NodeKind} {span : Span}
    (hframe : c.frame = .landmark own kind span) :
    nodeAt c.outline [0] = some ⟨kind, span, outlineAll (c.limbs.map Prod.snd)⟩ := by
  rw [outline_eq h, hframe]
  rfl

end Place

/-! ## What becomes of a landmark -/

/-- A landmark of a construct becomes a node of its outline. -/
inductive Becomes : Concrete → Address → Address → Prop where
  /-- The landmark of the frame becomes the first node. -/
  | own {c : Concrete} {own : Address} {kind : NodeKind} {span : Span}
    (hframe : c.frame = .landmark own kind span) : Becomes c own [0]
  /-- A landmark in a limb becomes what it becomes there. -/
  | limb {c d : Concrete} {i : Nat} {a p q : Address} (hlimb : c.limbs[i]? = some (a, d))
    (h : Becomes d p q) : Becomes c (a ++ p) (c.place i q)

section Becomes

variable {c d : Concrete} {p p' q q' : Address}

theorem FollowsGrammar.limb (h : c.FollowsGrammar) {i : Nat} {a : Address}
    (hlimb : c.limbs[i]? = some (a, d)) : d.FollowsGrammar :=
  h.at? (at?_of_mem_limbs (List.mem_of_getElem? hlimb))

/-- The node stands for the landmark. -/
theorem Becomes.represents (hb : Becomes c p q) (h : c.FollowsGrammar) :
    ∃ d m, c.at? p = some d ∧ d.isLandmark = true ∧ nodeAt c.outline q = some m ∧
      Represents d m := by
  induction hb with
  | own hframe =>
    obtain ⟨d, hd, hlandmark, hrepresents, -⟩ := h.wellMade.frame_cases hframe
    exact ⟨d, _, hd, hlandmark, h.wellMade.nodeAt_zero hframe, hrepresents _⟩
  | limb hlimb _ ih =>
    obtain ⟨d, m, hd, hlandmark, hm, hrepresents⟩ := ih (h.limb hlimb)
    refine ⟨d, m, ?_, hlandmark, h.wellMade.nodeAt_place hlimb hm, hrepresents⟩
    rw [at?_append_of_eq_some (at?_of_mem_limbs (List.mem_of_getElem? hlimb)), hd]

theorem Becomes.ne_nil (hb : Becomes c p q) : q ≠ [] := by
  induction hb with
  | own hframe => exact List.cons_ne_nil 0 []
  | limb hlimb _ ih => exact place_ne_nil ih

/-- Every landmark becomes a node. -/
theorem exists_becomes (h : c.FollowsGrammar) (hd : c.at? p = some d)
    (hlandmark : d.isLandmark = true) : ∃ q, Becomes c p q := by
  induction c using limbsInduction generalizing p with
  | step c ih =>
    rcases h.wellMade.own_or_limb hd hlandmark with ⟨kind, span, hframe⟩ | ⟨a, e, r, hlimb, rfl⟩
    · exact ⟨[0], .own hframe⟩
    · obtain ⟨i, hi⟩ := List.mem_iff_getElem?.1 hlimb
      rw [at?_append_of_eq_some (at?_of_mem_limbs hlimb)] at hd
      obtain ⟨q, hq⟩ := ih a e hlimb (h.limb hi) hd
      exact ⟨c.place i q, .limb hi hq⟩

/-- Every node is there for a landmark or for what is in it. -/
theorem exists_becomes_of_node {m : Node} (h : c.FollowsGrammar)
    (hm : nodeAt c.outline q = some m) :
    (∃ p, Becomes c p q) ∨ ∃ label, m.kind = .other label ∧ m.children ≠ [] := by
  induction c using limbsInduction generalizing q with
  | step c ih =>
    rcases h.wellMade.nodeAt_outline_cases hm with
      ⟨own, rfl, hframe⟩ | hwrapped | ⟨i, a, d, r, hlimb, rfl, hr⟩
    · exact Or.inl ⟨own, .own hframe⟩
    · exact Or.inr hwrapped
    · rcases ih a d (List.mem_of_getElem? hlimb) (h.limb hlimb) hr with ⟨p, hp⟩ | hwrapped
      · exact Or.inl ⟨a ++ p, .limb hlimb hp⟩
      · exact Or.inr hwrapped

theorem becomes_iff : Becomes c p q ↔
    (∃ kind span, c.frame = .landmark p kind span ∧ q = [0]) ∨
      ∃ i a d r s, c.limbs[i]? = some (a, d) ∧ p = a ++ r ∧ q = c.place i s ∧ Becomes d r s := by
  constructor
  · rintro (hframe | ⟨hlimb, hb⟩)
    · exact Or.inl ⟨_, _, hframe, rfl⟩
    · exact Or.inr ⟨_, _, _, _, _, hlimb, rfl, rfl, hb⟩
  · rintro (⟨kind, span, hframe, rfl⟩ | ⟨i, a, d, r, s, hlimb, rfl, rfl, hb⟩)
    · exact .own hframe
    · exact .limb hlimb hb

/-- An address in a limb does not lead towards the landmark of the frame. -/
theorem WellMade.not_limb_leads_own (h : c.WellMade) {own a : Address} {kind : NodeKind}
    {span : Span} (hframe : c.frame = .landmark own kind span) (hlimb : (a, d) ∈ c.limbs) :
    ¬a ++ p <+: own := by
  intro hleads
  have hown := h.length_own hframe
  have hlength := length_of_mem_limbs hlimb
  have hle := hleads.length_le
  rw [List.length_append] at hle
  omega

/-- Addresses in limbs lead into different directions, unless the limb is the same. -/
theorem WellMade.limb_eq_of_leads (h : c.WellMade) {d' : Concrete} {i i' : Nat} {a a' : Address}
    (hlimb : c.limbs[i]? = some (a, d)) (hlimb' : c.limbs[i']? = some (a', d'))
    (hleads : a ++ p <+: a' ++ p') : i = i' ∧ a = a' ∧ d = d' := by
  obtain rfl := eq_of_leads (List.mem_of_getElem? hlimb) (List.mem_of_getElem? hlimb') hleads
  obtain ⟨hi, hd⟩ := h.limb_unique hlimb hlimb'
  exact ⟨hi, rfl, hd⟩

/-- A landmark becomes one node only. -/
theorem Becomes.unique (hb : Becomes c p q) (h : c.FollowsGrammar) (hb' : Becomes c p q') :
    q = q' := by
  induction hb generalizing q' with
  | own hframe =>
    rcases becomes_iff.1 hb' with ⟨kind, span, -, rfl⟩ | ⟨i, a, d, r, s, hlimb, rfl, -, -⟩
    · rfl
    · exact absurd (List.prefix_refl _)
        (h.wellMade.not_limb_leads_own hframe (List.mem_of_getElem? hlimb))
  | limb hlimb _ ih =>
    rcases becomes_iff.1 hb' with ⟨kind, span, hframe, rfl⟩ | ⟨i, a, d, r, s, hlimb', heq, rfl, hs⟩
    · exact absurd (List.prefix_refl _)
        (h.wellMade.not_limb_leads_own hframe (List.mem_of_getElem? hlimb))
    · obtain ⟨rfl, rfl, rfl⟩ :=
        h.wellMade.limb_eq_of_leads hlimb hlimb' (by rw [heq])
      obtain rfl := List.append_cancel_left heq
      rw [ih (h.limb hlimb) hs]

/-- No two landmarks become the same node. -/
theorem Becomes.inj (hb : Becomes c p q) (h : c.FollowsGrammar) (hb' : Becomes c p' q) :
    p = p' := by
  induction hb generalizing p' with
  | own hframe =>
    rcases becomes_iff.1 hb' with ⟨kind, span, hframe', -⟩ | ⟨i, a, d, r, s, -, rfl, hzero, hs⟩
    · exact (Frame.landmark.inj (hframe.symm.trans hframe')).1
    · have habove := isAbove_place_of_landmark (i := i) hframe hs.ne_nil
      rw [← hzero] at habove
      exact absurd rfl habove.2
  | @limb c d i a p q hlimb hq ih =>
    rcases becomes_iff.1 hb' with
      ⟨kind, span, hframe, hzero⟩ | ⟨i, a, d, r, s, hlimb', rfl, heq, hs⟩
    · have habove := isAbove_place_of_landmark (i := i) hframe hq.ne_nil
      rw [hzero] at habove
      exact absurd rfl habove.2
    · obtain ⟨-, m, -, -, hm, -⟩ := hq.represents (h.limb hlimb)
      obtain ⟨-, m', -, -, hm', -⟩ := hs.represents (h.limb hlimb')
      obtain rfl := eq_of_place_leads hlimb hlimb' hm hm' (heq ▸ List.prefix_rfl)
      obtain ⟨rfl, rfl⟩ := Prod.mk.inj (Option.some.inj (hlimb.symm.trans hlimb'))
      obtain rfl := place_inj.1 heq
      rw [ih (h.limb hlimb) hs]

/-! ## What is below what -/

theorem InDecoratorOf.append {a : Address} (hd : c.at? a = some d) (h : d.InDecoratorOf p p') :
    c.InDecoratorOf (a ++ p) (a ++ p') := by
  obtain ⟨r, e, i, j, s, he, hconstruct, rfl, hdefinition, rfl, hdecorator⟩ := h
  refine ⟨a ++ r, e, i, j, s, ?_, hconstruct, ?_, hdefinition, ?_, hdecorator⟩
  · rw [at?_append_of_eq_some hd, he]
  · rw [List.append_assoc]
  · rw [List.append_assoc]

/-- What is in a decorator of a definition is in the same limb. -/
theorem InDecoratorOf.of_limb {a : Address} (h : c.InDecoratorOf (a ++ p) p') (hc : c.WellMade)
    (hlimb : (a, d) ∈ c.limbs) : ∃ r, p' = a ++ r ∧ d.InDecoratorOf p r := by
  obtain ⟨r, e, i, j, s, he, hconstruct, heq, hdefinition, rfl, hdecorator⟩ := h
  obtain ⟨r, rfl⟩ := hc.prefix_of_decorated hlimb he hconstruct ⟨p, heq⟩
  rw [List.append_assoc] at heq
  rw [at?_append_of_eq_some (at?_of_mem_limbs hlimb)] at he
  exact ⟨r ++ i :: s, List.append_assoc a r _, r, e, i, j, s, he, hconstruct,
    List.append_cancel_left heq, hdefinition, rfl, hdecorator⟩

/-- No definition is in a decorator of its own. -/
theorem FollowsGrammar.not_inDecoratorOf_self (h : c.FollowsGrammar) : ¬c.InDecoratorOf p p := by
  rintro ⟨r, d, i, j, s, hd, hconstruct, rfl, ⟨e, he, hrole⟩, heq, e', he', hdecorator⟩
  obtain ⟨rfl, -⟩ := List.cons.inj (List.append_cancel_left heq)
  obtain rfl : e = e' := Option.some.inj (he.symm.trans he')
  obtain ⟨k, definition, hk⟩ := (h r d hd).decoratedAt hconstruct
  exact hk.construct_ne_decorator he hrole hdecorator

/-- One node is below another one if the landmarks are so, or one of them is in a decorator of the
other. -/
theorem Becomes.isAbove_iff (hb : Becomes c p q) (h : c.FollowsGrammar) (hb' : Becomes c p' q') :
    q.IsAbove q' ↔ p.IsAbove p' ∨ c.InDecoratorOf p p' := by
  induction hb generalizing p' q' with
  | own hframe =>
    -- the node of the frame is above all others, as its landmark is, but for what decorates it
    rcases becomes_iff.1 hb' with ⟨kind, span, hframe', rfl⟩ | ⟨i, a, d, r, s, hlimb, rfl, rfl, hs⟩
    · obtain ⟨rfl, -⟩ := Frame.landmark.inj (hframe.symm.trans hframe')
      simp [Address.IsAbove, h.not_inDecoratorOf_self]
    · exact iff_of_true (isAbove_place_of_landmark hframe hs.ne_nil)
        (h.wellMade.own_above_limb hframe (List.mem_of_getElem? hlimb) r)
  | @limb c d i a p q hlimb hq ih =>
    have hmem := List.mem_of_getElem? hlimb
    rcases becomes_iff.1 hb' with ⟨kind, span, hframe, rfl⟩ | ⟨j, b, e, r, s, hlimb', rfl, rfl, hs⟩
    · -- nothing in a limb is above the landmark of the frame
      have habove := isAbove_place_of_landmark (i := i) hframe hq.ne_nil
      refine iff_of_false (fun hbelow => ?_) ?_
      · exact habove.2 (habove.1.eq_of_length_le hbelow.1.length_le)
      · rintro (hbelow | hdecorator)
        · exact h.wellMade.not_limb_leads_own hframe hmem hbelow.1
        · obtain ⟨r, rfl, -⟩ := hdecorator.of_limb h.wellMade hmem
          exact h.wellMade.not_limb_leads_own hframe hmem (List.prefix_refl _)
    · by_cases hij : i = j
      · subst hij
        obtain ⟨rfl, rfl⟩ := Prod.mk.inj (Option.some.inj (hlimb.symm.trans hlimb'))
        rw [place_isAbove_place_iff, ih (h.limb hlimb) hs, Address.append_isAbove_append_iff]
        refine or_congr_right ⟨fun hdecorator => ?_, fun hdecorator => ?_⟩
        · exact hdecorator.append (at?_of_mem_limbs hmem)
        · obtain ⟨r', heq, hdecorator⟩ := hdecorator.of_limb h.wellMade hmem
          rwa [List.append_cancel_left heq]
      · -- different limbs stand side by side, and so do their outlines
        obtain ⟨-, m, -, -, hm, -⟩ := hq.represents (h.limb hlimb)
        obtain ⟨-, n, -, -, hn, -⟩ := hs.represents (h.limb hlimb')
        refine iff_of_false (fun hbelow => hij ?_) ?_
        · exact eq_of_place_leads hlimb hlimb' hm hn hbelow.1
        · rintro (hbelow | hdecorator)
          · exact hij (h.wellMade.limb_eq_of_leads hlimb hlimb' hbelow.1).1
          · obtain ⟨r', heq, -⟩ := hdecorator.of_limb h.wellMade hmem
            refine hij (h.wellMade.limb_eq_of_leads hlimb' hlimb (by rw [heq])).1.symm

/-! ## Children -/

/-- The first nodes of what stands in a child are children. -/
theorem Becomes.child {e : Concrete} {r s : Address} {j k : Nat} (hb : Becomes c p q)
    (h : c.FollowsGrammar) (hd : c.at? p = some d) (himport : d.isImport = false)
    (he : d.children[j]? = some e) (hr : Becomes e r (k :: s)) :
    ∃ l, Becomes c (p ++ j :: r) (q ++ l :: s) := by
  induction hb with
  | @own c own kind span hframe =>
    obtain ⟨i, hi⟩ := List.mem_iff_getElem?.1 (h.wellMade.child_mem_limbs hframe hd himport he)
    have hlimb := Becomes.limb hi hr
    rw [List.append_assoc, place, hframe] at hlimb
    exact ⟨_, hlimb⟩
  | @limb c d' i a p q hlimb hq ih =>
    rw [at?_append_of_eq_some (at?_of_mem_limbs (List.mem_of_getElem? hlimb))] at hd
    obtain ⟨l, hl⟩ := ih (h.limb hlimb) hd
    refine ⟨l, ?_⟩
    rw [List.append_assoc, ← place_append hq.ne_nil]
    exact .limb hlimb hl

/-- The landmark of a statement comes first. -/
theorem becomes_zero_of_statement (h : c.FollowsGrammar) (hd : c.at? p = some d)
    (hlandmark : d.isLandmark = true) (hlength : p.length < c.limbDepth) : Becomes c p [0] := by
  rcases h.wellMade.own_or_limb hd hlandmark with ⟨kind, span, hframe⟩ | ⟨a, e, r, hlimb, rfl⟩
  · exact .own hframe
  · rw [List.length_append, length_of_mem_limbs hlimb] at hlength
    omega

/-- The definitions in the body of a class are children of the class. -/
theorem Becomes.statement (hb : Becomes c p q) (h : c.FollowsGrammar) (hb' : Becomes c p' q')
    (hstatement : c.StatementOf p p') : ∃ k, q' = q ++ [k] := by
  obtain ⟨d, b, body, j, statement, hd, hclass, hbody, hblock, hj, hp'⟩ := hstatement
  have hstatement : c.at? (p ++ [b, j]) = some statement := by
    rw [at?_append_of_eq_some hd]
    exact at?_cons_eq_some_iff.2 ⟨body, hbody, at?_cons_eq_some_iff.2 ⟨statement, hj, rfl⟩⟩
  have himport : d.isImport = false := by simp [isImport, isA, hclass]
  obtain ⟨own, rfl, hlength⟩ :
      ∃ own, p' = p ++ b :: j :: own ∧ own.length < statement.limbDepth := by
    rcases hp' with rfl | ⟨k, e, hconstruct, -, -, rfl⟩
    · refine ⟨[], rfl, ?_⟩
      rw [limbDepth]
      split <;> simp
    · exact ⟨[k], rfl, by simp [limbDepth, hconstruct]⟩
  have hown : Becomes statement own [0] := by
    obtain ⟨e, -, he, hlandmark, -⟩ := hb'.represents h
    rw [show p ++ b :: j :: own = p ++ [b, j] ++ own by simp,
      at?_append_of_eq_some hstatement] at he
    exact becomes_zero_of_statement (h.at? hstatement) he hlandmark hlength
  -- the block has no node of its own
  have hlimb : ([j], statement) ∈ body.limbs :=
    (mem_limbs_of_plain (by simp [hblock]) (by simp [isImport, isA, hblock])).2 ⟨j, rfl, hj⟩
  obtain ⟨i, hi⟩ := List.mem_iff_getElem?.1 hlimb
  have hplace : Becomes body (j :: own) (body.place i [0]) := .limb hi hown
  have hdissolved : body.frame = .dissolved := by simp [frame, hblock]
  rw [place, hdissolved] at hplace
  obtain ⟨k, hk⟩ := hb.child h hd himport hbody hplace
  exact ⟨k, hb'.unique h hk⟩

end Becomes

/-! ## Whole texts -/

section Module

variable {c : Concrete} {p q : Address}

/-- The node of a whole text has the outlines of what stands in it. -/
theorem nodeAt_outline_of_module (h : c.construct = .moduleText) (hq : q ≠ []) :
    nodeAt c.outline (0 :: q) = c.root.at? q := by
  have hplain : c.construct ≠ .decoratedDefinition := by simp [h]
  have hframe : c.frame = .wrapped Construct.moduleText.label c.extent.span := by simp [frame, h]
  have hlimbs : c.limbs.map Prod.snd = c.children := by
    rw [limbs_of_plain hplain (by simp [isImport, isA, h]), map_snd_childrenAt]
  have hlift := nodeAt_lift c.frame (outlineAll c.children) hq
  rw [Node.at?_eq_nodeAt _ hq, outline_eq_of_plain hplain, hlimbs]
  rw [hframe] at hlift ⊢
  exact hlift

theorem Becomes.of_module (hb : Becomes c p q) (h : c.construct = .moduleText) :
    ∃ r, r ≠ [] ∧ q = 0 :: r := by
  have hframe : c.frame = .wrapped Construct.moduleText.label c.extent.span := by simp [frame, h]
  rcases becomes_iff.1 hb with ⟨kind, span, hown, -⟩ | ⟨i, a, d, r, s, -, -, rfl, hs⟩
  · exact absurd (hframe.symm.trans hown) (by simp)
  · refine ⟨s.shift (nodesBefore (c.limbs.map Prod.snd) i), Address.shift_ne_nil hs.ne_nil, ?_⟩
    rw [place, hframe, Frame.lift]

end Module

end CodeAtlas.Python.Concrete

namespace CodeAtlas.Python

open CodeAtlas.Syntax

/-- The node of a landmark is a landmark. -/
theorem Represents.isLandmark {c : Concrete} {n : Node} (h : Represents c n) :
    n.isLandmark = true := by
  obtain ⟨-, hkind⟩ := h
  split at hkind
  · obtain ⟨decorators, hkind⟩ := hkind
    simp [Node.isLandmark, hkind]
  · obtain ⟨decorators, hkind⟩ := hkind
    simp [Node.isLandmark, hkind]
  · simp [Node.isLandmark, hkind]
  · simp [Node.isLandmark, hkind]
  · simp [Node.isLandmark, hkind]
  · simp [Node.isLandmark, hkind]
  · obtain ⟨a, -, hkind⟩ := hkind
    simp [Node.isLandmark, hkind]
  · exact hkind.elim

open Concrete in
/-- The outline of a whole text keeps its landmarks. -/
theorem exists_keepsLandmarks {c : Concrete} (hmodule : c.construct = .moduleText)
    (h : c.FollowsGrammar) : ∃ f, KeepsLandmarks c c.root f := by
  have hbecomes : ∀ p : c.Landmark, ∃ q : c.root.Landmark, Becomes c p.1 (0 :: q.1) := by
    rintro ⟨p, d, hd, hlandmark⟩
    obtain ⟨q, hq⟩ := exists_becomes h hd hlandmark
    obtain ⟨r, hr, rfl⟩ := hq.of_module hmodule
    obtain ⟨d', m, -, -, hm, hrepresents⟩ := hq.represents h
    rw [nodeAt_outline_of_module hmodule hr] at hm
    exact ⟨⟨r, m, hm, hrepresents.isLandmark⟩, hq⟩
  have hnode : ∀ {q : Address} {m : Node}, c.root.at? q = some m → m.kind ≠ .file →
      (∃ p, Becomes c p (0 :: q)) ∨ ∃ label, m.kind = .other label ∧ m.children ≠ [] := by
    intro q m hm hkind
    have hq : q ≠ [] := by
      rintro rfl
      obtain rfl : c.root = m := Option.some.inj hm
      exact hkind rfl
    exact exists_becomes_of_node h ((nodeAt_outline_of_module hmodule hq).trans hm)
  choose f hf using hbecomes
  have hbijective : Function.Bijective f := by
    refine ⟨fun p q heq => ?_, fun q => ?_⟩
    · have hq := hf q
      rw [← heq] at hq
      exact Subtype.ext ((hf p).inj h hq)
    · obtain ⟨q, m, hm, hlandmark⟩ := q
      rcases hnode hm (fun hfile => by simp [Node.isLandmark, hfile] at hlandmark) with
        ⟨p, hp⟩ | ⟨label, hother, -⟩
      · obtain ⟨d, -, hd, hdlandmark, -⟩ := hp.represents h
        refine ⟨⟨p, d, hd, hdlandmark⟩, Subtype.ext ?_⟩
        exact (List.cons.inj ((hf ⟨p, d, hd, hdlandmark⟩).unique h hp)).2
      · simp [Node.isLandmark, hother] at hlandmark
  refine ⟨Equiv.ofBijective f hbijective, ?_, fun p q => ?_, fun p q hstatement => ?_, ?_⟩
  · intro p d m hd hm
    obtain ⟨d', m', hd', -, hm', hrepresents⟩ := (hf p).represents h
    obtain ⟨r, hr, heq⟩ := (hf p).of_module hmodule
    obtain rfl : (f p).1 = r := (List.cons.inj heq).2
    rw [nodeAt_outline_of_module hmodule hr] at hm'
    obtain rfl : d = d' := Option.some.inj (hd.symm.trans hd')
    obtain rfl : m = m' := Option.some.inj (hm.symm.trans hm')
    exact hrepresents
  · have hiff := (hf p).isAbove_iff h (hf q)
    rwa [Address.cons_isAbove_cons_iff, and_iff_right rfl] at hiff
  · obtain ⟨k, hk⟩ := (hf p).statement h (hf q) hstatement
    exact ⟨k, (List.cons.inj hk).2⟩
  · intro q m label hm hkind
    rcases hnode hm (fun hfile => by simp [hkind] at hfile) with ⟨p, hp⟩ | ⟨-, -, hchildren⟩
    · obtain ⟨d, m', -, -, hm', hrepresents⟩ := hp.represents h
      obtain ⟨r, hr, heq⟩ := hp.of_module hmodule
      obtain rfl : q = r := (List.cons.inj heq).2
      rw [nodeAt_outline_of_module hmodule hr] at hm'
      obtain rfl : m = m' := Option.some.inj (hm.symm.trans hm')
      exact absurd hrepresents.isLandmark (by simp [Node.isLandmark, hkind])
    · exact hchildren

end CodeAtlas.Python
