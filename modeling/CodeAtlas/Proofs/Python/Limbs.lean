import CodeAtlas.Proofs.Python.Landmarks

/-!
# Limbs

The outline of a construct is made of the outlines of its limbs, one after the other, with something
around them. The limbs are the children, but a decorated definition has the limbs of its decorators
and then those of the definition, and an import has none.

Main results:

- Theorem `outline_eq`: the outline of a construct is its frame around the outlines of its limbs.
- Theorem `limbsInduction`: induction over limbs.
- Theorem `WellMade.own_or_limb`: every landmark is the one of the frame or is in a limb.
- Theorems `eq_of_leads` and `WellMade.own_above_limb`: no limb is in another limb, and the
  landmark of the frame is above each one or has it in a decorator.
-/

namespace CodeAtlas.Python.Concrete

open CodeAtlas.Syntax

/-! ## Limbs and frames -/

/-- The children of a node that has an address, each with its own. -/
def childrenAt (a : Address) (c : Concrete) : List (Address × Concrete) :=
  c.children.zipIdx.map (fun e => (a ++ [e.2], e.1))

/-- The decorators and then the definition among the children of a node. -/
def decorations (c : Concrete) : List (Address × Concrete) :=
  (c.childrenAt []).filter (fun e => e.2.isA .decorator) ++
    (c.childrenAt []).filter (fun e => e.2.role == some .definition)

/-- The parts whose outlines make up the outline of a node, with their addresses. -/
def limbs (c : Concrete) : List (Address × Concrete) :=
  match c.construct with
  | .importStatement | .importFromStatement | .futureImportStatement => []
  | .decoratedDefinition => c.decorations.flatMap (fun e => e.2.childrenAt e.1)
  | _ => c.childrenAt []

/-- What the outline of a node puts around those of its limbs. -/
inductive Frame where
  /-- Nothing. -/
  | dissolved
  /-- The node of the landmark with an address. -/
  | landmark (own : Address) (kind : NodeKind) (span : Span)
  /-- A construct that is kept if there is something in it. -/
  | wrapped (label : String) (span : Span)

/-- The frame of a definition that has an address. -/
def definitionFrame (own : Address) (definition : Concrete) (decorators : List Expr) : Frame :=
  match definition.construct with
  | .functionDefinition =>
    .landmark own (.function (definition.functionDef decorators)) definition.extent.span
  | .classDefinition =>
    .landmark own (.classDef (definition.classDef decorators)) definition.extent.span
  | _ => .dissolved

/-- The frame of a node. -/
def frame (c : Concrete) : Frame :=
  match c.construct with
  | .block => .dissolved
  | .decoratedDefinition =>
    match (c.childrenAt []).find? (fun e => e.2.role == some .definition) with
    | some e => definitionFrame e.1 e.2 (decoratorShapes c.children)
    | none => .dissolved
  | .functionDefinition | .classDefinition => definitionFrame [] c []
  | .importStatement => .landmark [] (.imports c.importNames) c.extent.span
  | .importFromStatement | .futureImportStatement =>
    .landmark [] (.importFrom ⟨c.importedModule, c.importNames⟩) c.extent.span
  | .call => .landmark [] (.call c.callSite) c.extent.span
  | .assignment =>
    match c.assignment? with
    | some a => .landmark [] (.assign a) c.extent.span
    | none => .wrapped Construct.assignment.label c.extent.span
  | construct => .wrapped construct.label c.extent.span

/-- A frame with something in it. -/
def Frame.around (inner : List Node) : Frame → List Node
  | .dissolved => inner
  | .landmark _ kind span => [⟨kind, span, inner⟩]
  | .wrapped label span => if inner.isEmpty then [] else [⟨.other label, span, inner⟩]

/-! ## Children -/

theorem mem_childrenAt_iff {a b : Address} {c d : Concrete} :
    (b, d) ∈ c.childrenAt a ↔ ∃ i, b = a ++ [i] ∧ c.children[i]? = some d := by
  simp only [childrenAt, List.mem_map, Prod.mk.injEq, Prod.exists, List.mem_zipIdx_iff_getElem?]
  constructor
  · rintro ⟨d, i, hd, rfl, rfl⟩
    exact ⟨i, rfl, hd⟩
  · rintro ⟨i, rfl, hd⟩
    exact ⟨d, i, hd, rfl, rfl⟩

@[simp]
theorem map_snd_childrenAt (a : Address) (c : Concrete) :
    (c.childrenAt a).map Prod.snd = c.children := by
  rw [childrenAt, List.map_map]
  exact List.zipIdx_map_fst 0 c.children

/-- What is asked of the children may be asked of them with their addresses. -/
theorem map_snd_filter_childrenAt (a : Address) (c : Concrete) (p : Concrete → Bool) :
    ((c.childrenAt a).filter (fun e => p e.2)).map Prod.snd = c.children.filter p := by
  rw [← map_snd_childrenAt a c, List.filter_map]
  rfl

theorem nodup_map_fst_childrenAt (a : Address) (c : Concrete) :
    ((c.childrenAt a).map Prod.fst).Nodup := by
  have hnumbers : (c.childrenAt a).map Prod.fst =
      (List.range' 0 c.children.length).map (fun i => a ++ [i]) := by
    rw [childrenAt, List.map_map, ← List.zipIdx_map_snd 0 c.children, List.map_map]
    rfl
  rw [hnumbers]
  exact (List.nodup_range' 1 Nat.one_pos).map (fun i j h => by simpa using h)

/-! ## Outlines -/

/-- What stands in decorators is what stands in their children. -/
theorem outlineDecorators_eq (cs : List Concrete) :
    outlineDecorators cs = outlineAll ((cs.filter (isA .decorator)).flatMap children) := by
  induction cs with
  | nil => rfl
  | cons c rest ih =>
    obtain ⟨construct, role, extent, text, children⟩ := c
    rw [outlineDecorators, ih]
    by_cases h : construct = .decorator
    · rw [if_pos h, List.filter_cons_of_pos (by simp [isA, h]), List.flatMap_cons,
        outlineAll_append]
    · rw [if_neg h, List.filter_cons_of_neg (by simp [isA, h])]

/-- The definition among some constructs is the one in that role. -/
theorem outlineDecorated_eq (decorators : List Expr) (above : List Node) (cs : List Concrete) :
    outlineDecorated decorators above cs =
      match cs.find? (fun d => d.role == some .definition) with
      | some d => d.definitionNode decorators (above ++ outlineAll d.children)
      | none => [] := by
  induction cs with
  | nil => rfl
  | cons c rest ih =>
    obtain ⟨construct, role, extent, text, children⟩ := c
    rw [outlineDecorated]
    by_cases h : role = some .definition
    · rw [if_pos h, List.find?_cons_of_pos (by simp [h])]
    · rw [if_neg h, ih, List.find?_cons_of_neg (by simp [h])]

/-- The node of a definition is its frame around what stands in it. -/
theorem around_definitionFrame (own : Address) (definition : Concrete) (decorators : List Expr)
    (inner : List Node) (h : definition.isDefinition = true) :
    (definitionFrame own definition decorators).around inner =
      definition.definitionNode decorators inner := by
  rcases Bool.or_eq_true_iff.1 h with hfunction | hclass
  · have hconstruct : definition.construct = .functionDefinition := by simpa [isA] using hfunction
    simp [definitionFrame, definitionNode, hconstruct, Frame.around]
  · have hconstruct : definition.construct = .classDefinition := by simpa [isA] using hclass
    simp [definitionFrame, definitionNode, hconstruct, Frame.around]

theorem limbs_of_import {c : Concrete} (h : c.isImport = true) : c.limbs = [] := by
  simp only [isImport, isA, Bool.or_eq_true, beq_iff_eq, or_assoc] at h
  unfold limbs
  rcases h with h | h | h <;> rw [h]

theorem limbs_of_plain {c : Concrete} (hdecorated : c.construct ≠ .decoratedDefinition)
    (himport : c.isImport = false) : c.limbs = c.childrenAt [] := by
  simp only [isImport, isA, Bool.or_eq_false_iff, beq_eq_false_iff_ne] at himport
  unfold limbs
  split <;> simp_all

theorem limbs_of_decorated {c : Concrete} (h : c.construct = .decoratedDefinition) :
    c.limbs = c.decorations.flatMap (fun e => e.2.childrenAt e.1) := by
  unfold limbs
  rw [h]

/-- The outline of what is not decorated is a frame around the outlines of its children. -/
theorem outline_eq_of_plain {c : Concrete} (hdecorated : c.construct ≠ .decoratedDefinition) :
    c.outline = c.frame.around (outlineAll (c.limbs.map Prod.snd)) := by
  obtain ⟨construct, role, extent, text, children⟩ := c
  cases construct with
  | decoratedDefinition => exact absurd rfl hdecorated
  | assignment =>
    rw [outline, frame, limbs_of_plain hdecorated rfl, map_snd_childrenAt]
    cases hassigns : (⟨.assignment, role, extent, text, children⟩ : Concrete).assignment? with
    | some a => simp [Frame.around]
    | none => simp [Frame.around, wrap]
  | _ =>
    simp [outline, frame, limbs, definitionFrame, definitionNode, Frame.around, wrap, outlineAll]

/-! ## Decorated definitions -/

theorem mem_decorations_iff {c e : Concrete} {a : Address} :
    (a, e) ∈ c.decorations ↔ ∃ i, a = [i] ∧ c.children[i]? = some e ∧
      (e.construct = .decorator ∨ e.role = some .definition) := by
  simp only [decorations, List.mem_append, List.mem_filter, mem_childrenAt_iff, List.nil_append,
    isA, beq_iff_eq]
  constructor
  · rintro (⟨⟨i, rfl, he⟩, hconstruct⟩ | ⟨⟨i, rfl, he⟩, hrole⟩)
    · exact ⟨i, rfl, he, Or.inl hconstruct⟩
    · exact ⟨i, rfl, he, Or.inr hrole⟩
  · rintro ⟨i, rfl, he, hconstruct | hrole⟩
    · exact Or.inl ⟨⟨i, rfl, he⟩, hconstruct⟩
    · exact Or.inr ⟨⟨i, rfl, he⟩, hrole⟩

/-- The only child with the role of a definition, with its address. -/
theorem filter_definition {c definition : Concrete} {k : Nat}
    (hk : c.children[k]? = some definition) (hrole : definition.role = some .definition)
    (hothers : ∀ i d, c.children[i]? = some d → i ≠ k → d.role ≠ some .definition) :
    (c.childrenAt []).filter (fun e => e.2.role == some .definition) = [([k], definition)] := by
  have hnodup : ((c.childrenAt []).filter (fun e => e.2.role == some .definition)).Nodup :=
    ((nodup_map_fst_childrenAt [] c).of_map).filter _
  refine List.perm_singleton.1 ((List.perm_ext_iff_of_nodup hnodup (List.nodup_singleton _)).2 ?_)
  rintro ⟨a, d⟩
  simp only [List.mem_filter, mem_childrenAt_iff, List.nil_append, beq_iff_eq, List.mem_singleton,
    Prod.mk.injEq]
  constructor
  · rintro ⟨⟨i, rfl, hd⟩, hdrole⟩
    by_cases hi : i = k
    · subst hi
      exact ⟨rfl, Option.some.inj (hd.symm.trans hk)⟩
    · exact absurd hdrole (hothers i d hd hi)
  · rintro ⟨rfl, rfl⟩
    exact ⟨⟨k, rfl, hk⟩, hrole⟩

/-- What is put together for a decorated definition. -/
structure DecoratedAt (c : Concrete) (k : Nat) (definition : Concrete) : Prop where
  construct : c.construct = .decoratedDefinition
  child : c.children[k]? = some definition
  role : definition.role = some .definition
  isDefinition : definition.isDefinition = true
  others : ∀ i d, c.children[i]? = some d → i ≠ k → d.role ≠ some .definition ∧
    (d.construct = .decorator ∨ d.IsBare)
  frame : c.frame = definitionFrame [k] definition (decoratorShapes c.children)
  limbs : c.limbs = ((c.childrenAt []).filter (fun e => e.2.isA .decorator)).flatMap
    (fun e => e.2.childrenAt e.1) ++ definition.childrenAt [k]
  outline : c.outline = definition.definitionNode (decoratorShapes c.children)
    (outlineDecorators c.children ++ outlineAll definition.children)

/-- A decorated definition has its definition at one place. -/
theorem WellMade.decoratedAt {c : Concrete} (h : c.WellMade)
    (hconstruct : c.construct = .decoratedDefinition) :
    ∃ k definition, DecoratedAt c k definition := by
  obtain ⟨k, definition, hk, hrole, hdefinition, hothers⟩ := h.decorated hconstruct
  have hfilter := filter_definition hk hrole (fun i d hd hi => (hothers i d hd hi).1)
  have hchildren : c.children.filter (fun d => d.role == some .definition) = [definition] := by
    rw [← map_snd_filter_childrenAt [] c (fun d => d.role == some .definition), hfilter]
    rfl
  refine ⟨k, definition, hconstruct, hk, hrole, hdefinition, hothers, ?_, ?_, ?_⟩
  · unfold frame
    rw [hconstruct]
    dsimp only
    rw [← List.head?_filter, hfilter]
    rfl
  · rw [limbs_of_decorated hconstruct, decorations, hfilter, List.flatMap_append]
    simp only [List.flatMap_cons, List.flatMap_nil, List.append_nil]
  · obtain ⟨construct, role, extent, text, children⟩ := c
    obtain rfl : construct = .decoratedDefinition := hconstruct
    rw [Concrete.outline, outlineDecorated_eq, ← List.head?_filter, hchildren]
    rfl

/-- The outline of a construct is its frame around the outlines of its limbs. -/
theorem outline_eq {c : Concrete} (h : c.WellMade) :
    c.outline = c.frame.around (outlineAll (c.limbs.map Prod.snd)) := by
  by_cases hconstruct : c.construct = .decoratedDefinition
  · obtain ⟨k, definition, hc⟩ := h.decoratedAt hconstruct
    have hdecorators : (((c.childrenAt []).filter (fun e => e.2.isA .decorator)).flatMap
        (fun e => e.2.childrenAt e.1)).map Prod.snd =
          (c.children.filter (isA .decorator)).flatMap children := by
      rw [List.map_flatMap, ← map_snd_filter_childrenAt [] c (isA .decorator), List.flatMap_map]
      simp only [map_snd_childrenAt]
    rw [hc.outline, hc.frame, around_definitionFrame _ _ _ _ hc.isDefinition, hc.limbs,
      List.map_append, hdecorators, map_snd_childrenAt, outlineAll_append, outlineDecorators_eq]
  · exact outline_eq_of_plain hconstruct

/-! ## Where limbs are -/

theorem mem_limbs_of_plain {c d : Concrete} {a : Address}
    (hdecorated : c.construct ≠ .decoratedDefinition) (himport : c.isImport = false) :
    (a, d) ∈ c.limbs ↔ ∃ i, a = [i] ∧ c.children[i]? = some d := by
  rw [limbs_of_plain hdecorated himport, mem_childrenAt_iff]
  simp only [List.nil_append]

theorem mem_limbs_of_decorated {c d : Concrete} {a : Address}
    (h : c.construct = .decoratedDefinition) :
    (a, d) ∈ c.limbs ↔ ∃ i e j, a = [i, j] ∧ c.children[i]? = some e ∧
      (e.construct = .decorator ∨ e.role = some .definition) ∧ e.children[j]? = some d := by
  simp only [limbs_of_decorated h, List.mem_flatMap, Prod.exists, mem_decorations_iff,
    mem_childrenAt_iff]
  constructor
  · rintro ⟨_, e, ⟨i, rfl, he, hpart⟩, j, rfl, hd⟩
    exact ⟨i, e, j, rfl, he, hpart, hd⟩
  · rintro ⟨i, e, j, rfl, he, hpart, hd⟩
    exact ⟨[i], e, ⟨i, rfl, he, hpart⟩, j, rfl, hd⟩

/-- Limbs are children, or children of children. -/
theorem mem_limbs_cases {c d : Concrete} {a : Address} (h : (a, d) ∈ c.limbs) :
    (c.construct ≠ .decoratedDefinition ∧ ∃ i, a = [i] ∧ c.children[i]? = some d) ∨
      (c.construct = .decoratedDefinition ∧ ∃ i e j, a = [i, j] ∧ c.children[i]? = some e ∧
        (e.construct = .decorator ∨ e.role = some .definition) ∧ e.children[j]? = some d) := by
  by_cases hdecorated : c.construct = .decoratedDefinition
  · exact Or.inr ⟨hdecorated, (mem_limbs_of_decorated hdecorated).1 h⟩
  · cases himport : c.isImport with
    | true =>
      rw [limbs_of_import himport] at h
      exact absurd h List.not_mem_nil
    | false => exact Or.inl ⟨hdecorated, (mem_limbs_of_plain hdecorated himport).1 h⟩

theorem at?_of_mem_limbs {c d : Concrete} {a : Address} (h : (a, d) ∈ c.limbs) :
    c.at? a = some d := by
  rcases mem_limbs_cases h with ⟨-, i, rfl, hd⟩ | ⟨-, i, e, j, rfl, he, -, hd⟩
  · exact at?_cons_eq_some_iff.2 ⟨d, hd, rfl⟩
  · exact at?_cons_eq_some_iff.2 ⟨e, he, at?_cons_eq_some_iff.2 ⟨d, hd, rfl⟩⟩

/-- What a tree has whenever its limbs have it, every tree has. -/
theorem limbsInduction {motive : Concrete → Prop}
    (step : ∀ c : Concrete, (∀ a d, (a, d) ∈ c.limbs → motive d) → motive c) (c : Concrete) :
    motive c := by
  -- the limbs of a decorated definition are two levels down
  suffices h : motive c ∧ ∀ d ∈ c.children, motive d from h.1
  induction c using childrenInduction with
  | step c ih =>
    refine ⟨step c (fun a d hlimb => ?_), fun d hd => (ih d hd).1⟩
    rcases mem_limbs_cases hlimb with ⟨-, i, -, hd⟩ | ⟨-, i, e, j, -, he, -, hd⟩
    · exact (ih d (List.mem_of_getElem? hd)).1
    · exact (ih e (List.mem_of_getElem? he)).2 d (List.mem_of_getElem? hd)

/-- How far down the limbs are. -/
def limbDepth (c : Concrete) : Nat := if c.construct = .decoratedDefinition then 2 else 1

theorem length_of_mem_limbs {c d : Concrete} {a : Address} (h : (a, d) ∈ c.limbs) :
    a.length = c.limbDepth := by
  rcases mem_limbs_cases h with ⟨hconstruct, i, rfl, -⟩ | ⟨hconstruct, i, e, j, rfl, -⟩
  · rw [limbDepth, if_neg hconstruct]
    rfl
  · rw [limbDepth, if_pos hconstruct]
    rfl

/-- Limbs are not above each other. -/
theorem eq_of_leads {c d d' : Concrete} {a a' p q : Address} (h : (a, d) ∈ c.limbs)
    (h' : (a', d') ∈ c.limbs) (hleads : a ++ p <+: a' ++ q) : a = a' := by
  have hlength : a.length = a'.length :=
    (length_of_mem_limbs h).trans (length_of_mem_limbs h').symm
  obtain ⟨rest, hrest⟩ := hleads
  rw [List.append_assoc] at hrest
  exact (List.append_inj hrest hlength).1

/-- No decorated child is a definition and a decorator at the same time. -/
theorem DecoratedAt.index {c definition e : Concrete} {k i : Nat} (h : DecoratedAt c k definition)
    (he : c.children[i]? = some e) (hpart : e.construct = .decorator ∨ e.role = some .definition) :
    (i = k ∧ e = definition) ∨ (i ≠ k ∧ e.construct = .decorator) := by
  by_cases hi : i = k
  · subst hi
    exact Or.inl ⟨rfl, Option.some.inj (he.symm.trans h.child)⟩
  · refine Or.inr ⟨hi, hpart.resolve_right (h.others i e he hi).1⟩

/-- The definition is no decorator. -/
theorem DecoratedAt.construct_ne_decorator {c definition e : Concrete} {k i : Nat}
    (h : DecoratedAt c k definition) (he : c.children[i]? = some e)
    (hrole : e.role = some .definition) : e.construct ≠ .decorator := by
  intro hdecorator
  rcases h.index he (Or.inr hrole) with ⟨-, rfl⟩ | ⟨hother, -⟩
  · have hdefinition := h.isDefinition
    simp [Concrete.isDefinition, isA, hdecorator] at hdefinition
  · exact (h.others i e he hother).1 hrole

/-- Decorators and the definition are different children. -/
theorem DecoratedAt.nodup_decorations {c definition : Concrete} {k : Nat}
    (h : DecoratedAt c k definition) : (c.decorations.map Prod.fst).Nodup := by
  rw [decorations, List.map_append, List.nodup_append]
  have hnodup := nodup_map_fst_childrenAt [] c
  refine ⟨hnodup.sublist (List.filter_sublist.map _),
    hnodup.sublist (List.filter_sublist.map _), ?_⟩
  rintro a ha _ hb rfl
  obtain ⟨⟨_, d⟩, hd, rfl⟩ := List.mem_map.1 ha
  obtain ⟨⟨_, e⟩, he, heq⟩ := List.mem_map.1 hb
  simp only [List.mem_filter, mem_childrenAt_iff, List.nil_append, beq_iff_eq, isA] at hd he heq
  obtain ⟨⟨i, rfl, hi⟩, hconstruct⟩ := hd
  obtain ⟨⟨j, rfl, hj⟩, hrole⟩ := he
  obtain rfl : j = i := List.singleton_inj.1 heq
  obtain rfl : d = e := Option.some.inj (hi.symm.trans hj)
  exact h.construct_ne_decorator hi hrole hconstruct

/-- No two limbs have the same address. -/
theorem WellMade.nodup_limbs {c : Concrete} (h : c.WellMade) :
    (c.limbs.map Prod.fst).Nodup := by
  by_cases hdecorated : c.construct = .decoratedDefinition
  · obtain ⟨k, definition, hc⟩ := h.decoratedAt hdecorated
    rw [limbs_of_decorated hdecorated, List.map_flatMap, List.nodup_flatMap]
    refine ⟨fun e _ => nodup_map_fst_childrenAt e.1 e.2, ?_⟩
    -- children of different children have different addresses
    refine (List.pairwise_map.1 hc.nodup_decorations).imp (fun {e e'} hne => ?_)
    intro b hb hb'
    obtain ⟨⟨_, d⟩, hd, rfl⟩ := List.mem_map.1 hb
    obtain ⟨⟨_, d'⟩, hd', heq⟩ := List.mem_map.1 hb'
    obtain ⟨j, rfl, -⟩ := mem_childrenAt_iff.1 hd
    obtain ⟨j', rfl, -⟩ := mem_childrenAt_iff.1 hd'
    exact hne (List.append_inj_left' heq rfl).symm
  · cases himport : c.isImport with
    | true =>
      rw [limbs_of_import himport]
      exact List.nodup_nil
    | false =>
      rw [limbs_of_plain hdecorated himport]
      exact nodup_map_fst_childrenAt [] c

/-- The limb at an address is at one place among the limbs. -/
theorem WellMade.limb_unique {c d d' : Concrete} (h : c.WellMade) {a : Address} {i i' : Nat}
    (hi : c.limbs[i]? = some (a, d)) (hi' : c.limbs[i']? = some (a, d')) : i = i' ∧ d = d' := by
  have hfst : ∀ {n : Nat} {e : Concrete}, c.limbs[n]? = some (a, e) →
      (c.limbs.map Prod.fst)[n]? = some a := by
    intro n e hn
    rw [List.getElem?_map, hn, Option.map_some]
  have hlt : i < (c.limbs.map Prod.fst).length := (List.getElem?_eq_some_iff.1 (hfst hi)).1
  obtain rfl : i = i' := (List.getElem?_inj hlt h.nodup_limbs).1 ((hfst hi).trans (hfst hi').symm)
  exact ⟨rfl, (Prod.mk.inj (Option.some.inj (hi.symm.trans hi'))).2⟩

/-! ## The landmark of a frame -/

/-- Whether an assignment is to a plain name shows in the outline. -/
theorem assignsName_iff {c : Concrete} : c.assignsName = true ↔ ∃ a, c.assignment? = some a := by
  have hright : (c.child? .right).isSome = (shapeIn .right c.children).isSome := by
    unfold child?
    induction c.children with
    | nil => rfl
    | cons d rest ih =>
      rw [shapeIn]
      by_cases h : d.role = some .right
      · rw [if_pos h, List.find?_cons_of_pos (by simp [h])]
        rfl
      · rw [if_neg h, List.find?_cons_of_neg (by simp [h]), ih]
  rw [assignsName, hright, assignment?]
  cases c.child? .left with
  | none => simp
  | some left =>
    cases shapeIn .right c.children with
    | none => simp
    | some value => cases h : left.isA .identifier <;> simp [h]

/-- The frame of a definition is its node. -/
theorem definitionFrame_eq_landmark {definition : Concrete} (h : definition.isDefinition = true)
    (own : Address) (decorators : List Expr) :
    ∃ kind, definitionFrame own definition decorators =
        .landmark own kind definition.extent.span ∧
      ∀ inner, Represents definition ⟨kind, definition.extent.span, inner⟩ := by
  simp only [isDefinition, isA, Bool.or_eq_true, beq_iff_eq] at h
  rcases h with hconstruct | hconstruct
  · refine ⟨.function (definition.functionDef decorators), ?_, fun inner => ⟨rfl, ?_⟩⟩
    · simp only [definitionFrame, hconstruct]
    · simp only [hconstruct]
      exact ⟨decorators, rfl⟩
  · refine ⟨.classDef (definition.classDef decorators), ?_, fun inner => ⟨rfl, ?_⟩⟩
    · simp only [definitionFrame, hconstruct]
    · simp only [hconstruct]
      exact ⟨decorators, rfl⟩

/-- The frame of what is no decorated definition is a landmark if that is one. -/
theorem frame_of_plain {c : Concrete} (hdecorated : c.construct ≠ .decoratedDefinition) :
    (c.isLandmark = true ∧ ∃ kind, c.frame = .landmark [] kind c.extent.span ∧
        ∀ inner, Represents c ⟨kind, c.extent.span, inner⟩) ∨
      (c.isLandmark = false ∧ ∀ own kind span, c.frame ≠ .landmark own kind span) := by
  obtain ⟨construct, role, extent, text, children⟩ := c
  cases construct with
  | functionDefinition => exact Or.inl ⟨rfl, _, rfl, fun _ => ⟨rfl, [], rfl⟩⟩
  | classDefinition => exact Or.inl ⟨rfl, _, rfl, fun _ => ⟨rfl, [], rfl⟩⟩
  | importStatement => exact Or.inl ⟨rfl, _, rfl, fun _ => ⟨rfl, rfl⟩⟩
  | importFromStatement => exact Or.inl ⟨rfl, _, rfl, fun _ => ⟨rfl, rfl⟩⟩
  | futureImportStatement => exact Or.inl ⟨rfl, _, rfl, fun _ => ⟨rfl, rfl⟩⟩
  | call => exact Or.inl ⟨rfl, _, rfl, fun _ => ⟨rfl, rfl⟩⟩
  | decoratedDefinition => exact absurd rfl hdecorated
  | assignment =>
    cases h : (⟨.assignment, role, extent, text, children⟩ : Concrete).assignment? with
    | some a =>
      refine Or.inl ⟨?_, .assign a, ?_, fun _ => ⟨rfl, a, h, rfl⟩⟩
      · simp [isLandmark, isA, assignsName_iff.2 ⟨a, h⟩]
      · simp only [frame, h]
    | none =>
      have hassigns :
          (⟨.assignment, role, extent, text, children⟩ : Concrete).assignsName = false :=
        Bool.eq_false_iff.2 (fun htrue => by simpa [h] using assignsName_iff.1 htrue)
      refine Or.inr ⟨?_, ?_⟩
      · simp [isLandmark, isDefinition, isImport, isA, hassigns]
      · simp [frame, h]
  | _ => exact Or.inr ⟨rfl, fun _ _ _ => by simp [frame]⟩

/-- The frame of a decorated definition is the definition. -/
theorem DecoratedAt.frame_eq_landmark {c definition : Concrete} {k : Nat}
    (h : DecoratedAt c k definition) :
    ∃ kind, c.frame = .landmark [k] kind definition.extent.span ∧
      ∀ inner, Represents definition ⟨kind, definition.extent.span, inner⟩ := by
  rw [h.frame]
  exact definitionFrame_eq_landmark h.isDefinition [k] _

/-- The landmark of a frame is the node itself, or the definition in a decorated definition. -/
theorem WellMade.frame_cases {c : Concrete} (h : c.WellMade) {own : Address} {kind : NodeKind}
    {span : Span} (hframe : c.frame = .landmark own kind span) :
    ∃ d, c.at? own = some d ∧ d.isLandmark = true ∧
      (∀ inner, Represents d ⟨kind, span, inner⟩) ∧
      ((c.construct ≠ .decoratedDefinition ∧ own = []) ∨
        ∃ k, own = [k] ∧ DecoratedAt c k d) := by
  by_cases hdecorated : c.construct = .decoratedDefinition
  · obtain ⟨k, definition, hc⟩ := h.decoratedAt hdecorated
    obtain ⟨kind', hdefinition, hrepresents⟩ := hc.frame_eq_landmark
    obtain ⟨rfl, rfl, rfl⟩ := Frame.landmark.inj (hframe.symm.trans hdefinition)
    refine ⟨definition, at?_cons_eq_some_iff.2 ⟨_, hc.child, rfl⟩, ?_, hrepresents,
      Or.inr ⟨k, rfl, hc⟩⟩
    simp [isLandmark, hc.isDefinition]
  · rcases frame_of_plain hdecorated with ⟨hlandmark, kind', hplain, hrepresents⟩ | ⟨-, hnone⟩
    · obtain ⟨rfl, rfl, rfl⟩ := Frame.landmark.inj (hframe.symm.trans hplain)
      exact ⟨c, rfl, hlandmark, hrepresents, Or.inl ⟨hdecorated, rfl⟩⟩
    · exact absurd hframe (hnone own kind span)

/-- A decorated definition is no landmark, and a decorator is none. -/
theorem isLandmark_of_decorated {c : Concrete}
    (h : c.construct = .decoratedDefinition ∨ c.construct = .decorator) : c.isLandmark = false := by
  rcases h with h | h <;> simp [isLandmark, isDefinition, isImport, isA, h]

/-- A landmark in a decorated definition is its definition, or a limb leads to it. -/
theorem DecoratedAt.own_or_limb {c d definition : Concrete} {k : Nat}
    (h : DecoratedAt c k definition) {p : Address} (hd : c.at? p = some d)
    (hlandmark : d.isLandmark = true) :
    p = [k] ∨ ∃ a e q, (a, e) ∈ c.limbs ∧ p = a ++ q := by
  match p with
  | [] =>
    obtain rfl : c = d := Option.some.inj hd
    simp [isLandmark_of_decorated (Or.inl h.construct)] at hlandmark
  | i :: q =>
    obtain ⟨e, he, hd⟩ := at?_cons_eq_some_iff.1 hd
    have hpart : e.construct = .decorator ∨ e.role = some .definition := by
      by_cases hi : i = k
      · subst hi
        obtain rfl : e = definition := Option.some.inj (he.symm.trans h.child)
        exact Or.inr h.role
      · refine Or.inl ((h.others i e he hi).2.resolve_right (fun hbare => ?_))
        simp [hbare q d hd] at hlandmark
    match q with
    | [] =>
      obtain rfl : e = d := Option.some.inj hd
      rcases h.index he hpart with ⟨rfl, -⟩ | ⟨-, hdecorator⟩
      · exact Or.inl rfl
      · simp [isLandmark_of_decorated (Or.inr hdecorator)] at hlandmark
    | j :: q =>
      obtain ⟨b, hb, -⟩ := at?_cons_eq_some_iff.1 hd
      exact Or.inr ⟨[i, j], b, q,
        (mem_limbs_of_decorated h.construct).2 ⟨i, e, j, rfl, he, hpart, hb⟩, rfl⟩

/-- A landmark is the one of the frame, or a limb leads to it. -/
theorem WellMade.own_or_limb {c d : Concrete} (h : c.WellMade) {p : Address}
    (hd : c.at? p = some d) (hlandmark : d.isLandmark = true) :
    (∃ kind span, c.frame = .landmark p kind span) ∨
      ∃ a e q, (a, e) ∈ c.limbs ∧ p = a ++ q := by
  by_cases hdecorated : c.construct = .decoratedDefinition
  · obtain ⟨k, definition, hc⟩ := h.decoratedAt hdecorated
    obtain ⟨kind, hframe, -⟩ := hc.frame_eq_landmark
    rcases hc.own_or_limb hd hlandmark with rfl | hlimb
    · exact Or.inl ⟨kind, _, hframe⟩
    · exact Or.inr hlimb
  · match p with
    | [] =>
      obtain rfl : c = d := Option.some.inj hd
      rcases frame_of_plain hdecorated with ⟨-, kind, hframe, -⟩ | ⟨hnone, -⟩
      · exact Or.inl ⟨kind, _, hframe⟩
      · simp [hnone] at hlandmark
    | i :: p =>
      obtain ⟨e, he, hd⟩ := at?_cons_eq_some_iff.1 hd
      cases himport : c.isImport with
      | true => simp [h.imports himport e (List.mem_of_getElem? he) p d hd] at hlandmark
      | false =>
        exact Or.inr ⟨[i], e, p, (mem_limbs_of_plain hdecorated himport).2 ⟨i, rfl, he⟩, rfl⟩

/-- The landmark of the frame is one step above the limbs. -/
theorem WellMade.length_own {c : Concrete} (h : c.WellMade) {own : Address} {kind : NodeKind}
    {span : Span} (hframe : c.frame = .landmark own kind span) :
    own.length + 1 = c.limbDepth := by
  obtain ⟨d, -, -, -, ⟨hplain, rfl⟩ | ⟨k, rfl, hc⟩⟩ := h.frame_cases hframe
  · rw [limbDepth, if_neg hplain]
    rfl
  · rw [limbDepth, if_pos hc.construct]
    rfl

/-- A limb is below the landmark of the frame or in a decorator of it. -/
theorem WellMade.own_above_limb {c e : Concrete} (h : c.WellMade) {own a : Address}
    {kind : NodeKind} {span : Span} (hframe : c.frame = .landmark own kind span)
    (hlimb : (a, e) ∈ c.limbs) (q : Address) :
    own.IsAbove (a ++ q) ∨ c.InDecoratorOf own (a ++ q) := by
  obtain ⟨d, -, -, -, ⟨hplain, rfl⟩ | ⟨k, rfl, hc⟩⟩ := h.frame_cases hframe
  · rcases mem_limbs_cases hlimb with ⟨-, i, rfl, -⟩ | ⟨hdecorated, -⟩
    · exact Or.inl ((Address.nil_isAbove_iff _).2 (List.cons_ne_nil i q))
    · exact absurd hdecorated hplain
  · obtain ⟨i, b, j, rfl, hb, hpart, -⟩ := (mem_limbs_of_decorated hc.construct).1 hlimb
    rcases hc.index hb hpart with ⟨rfl, -⟩ | ⟨-, hdecorator⟩
    · refine Or.inl ((Address.cons_isAbove_cons_iff _ _ _ _).2 ⟨rfl, ?_⟩)
      exact (Address.nil_isAbove_iff _).2 (List.cons_ne_nil j q)
    · exact Or.inr ⟨[], c, i, k, j :: q, rfl, hc.construct, rfl, ⟨d, hc.child, hc.role⟩, rfl,
        b, hb, hdecorator⟩

/-- The children of the landmark of the frame are limbs, unless it is an import. -/
theorem WellMade.child_mem_limbs {c d e : Concrete} (h : c.WellMade) {own : Address}
    {kind : NodeKind} {span : Span} (hframe : c.frame = .landmark own kind span)
    (hd : c.at? own = some d) (himport : d.isImport = false) {j : Nat}
    (he : d.children[j]? = some e) : (own ++ [j], e) ∈ c.limbs := by
  obtain ⟨d', hd', -, -, ⟨hplain, rfl⟩ | ⟨k, rfl, hc⟩⟩ := h.frame_cases hframe
  · obtain rfl : c = d := Option.some.inj hd
    exact (mem_limbs_of_plain hplain himport).2 ⟨j, rfl, he⟩
  · obtain rfl : d = d' := Option.some.inj (hd.symm.trans hd')
    exact (mem_limbs_of_decorated hc.construct).2 ⟨k, d, j, rfl, hc.child, Or.inr hc.role, he⟩

/-- What is decorated is in a limb if its definition or a decorator of it is. -/
theorem WellMade.prefix_of_decorated {c d e : Concrete} (h : c.WellMade) {a r : Address} {j : Nat}
    (hlimb : (a, e) ∈ c.limbs) (hd : c.at? r = some d)
    (hconstruct : d.construct = .decoratedDefinition) (hleads : a <+: r ++ [j]) : a <+: r := by
  rcases List.prefix_concat_iff.1 hleads with rfl | hleads
  · -- the limb would be a child of what is decorated, but such children are no limbs
    exfalso
    rcases mem_limbs_cases hlimb with
      ⟨hplain, i, heq, -⟩ | ⟨hdecorated, i, b, j', heq, hb, hpart, -⟩
    · obtain ⟨rfl, -⟩ := List.append_inj' (show r ++ [j] = [] ++ [i] from heq) rfl
      obtain rfl : c = d := Option.some.inj hd
      exact hplain hconstruct
    · obtain ⟨rfl, -⟩ := List.append_inj' (show r ++ [j] = [i] ++ [j'] from heq) rfl
      obtain ⟨d', hd', hnil⟩ := at?_cons_eq_some_iff.1 hd
      obtain rfl : d' = d := Option.some.inj hnil
      obtain rfl : d' = b := Option.some.inj (hd'.symm.trans hb)
      obtain ⟨k, definition, hc⟩ := h.decoratedAt hdecorated
      rcases hc.index hb hpart with ⟨-, rfl⟩ | ⟨-, hdecorator⟩
      · simpa [isDefinition, isA, hconstruct] using hc.isDefinition
      · exact absurd (hconstruct.symm.trans hdecorator) (by decide)
  · exact hleads

end CodeAtlas.Python.Concrete
