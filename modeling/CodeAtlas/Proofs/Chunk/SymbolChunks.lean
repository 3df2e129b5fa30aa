import CodeAtlas.Proofs.Analysis.Symbols
import CodeAtlas.Proofs.Chunk.Passes
import Mathlib.Logic.Embedding.Basic

/-!
# Symbols and structural chunks of one file

The symbols of a file come from a walk that carries scopes along, and its structural chunks from a
visit of all nodes. Every symbol has a chunk of the same definition. The chunks without a symbol are
those of functions that have a class above them but do not stand directly in one.

Main results:

- Theorem `forall₂_definitionAddresses`: the structural chunks stand side by side with the addresses
  of all classes and functions.
- Theorems `exists_places` and `Places.left_iff`: places of some elements among the places of more,
  and what is at the others.
- Theorem `exists_matching`: each symbol goes with a chunk of its own, and what is left are the
  helpers of methods.
-/

namespace CodeAtlas.Syntax.Node

/-- Whether a class or a function is at an address. -/
def isDefinitionAt (n : Node) (p : Address) : Bool := (n.at? p).any isDefinition

/-- The addresses of all classes and functions in the order in which they are visited. -/
def definitionAddresses (n : Node) : List Address := n.addresses.filter n.isDefinitionAt

/-- Whether a function is at an address that has a class above it but does not stand directly in
one. -/
def isHelperAt (n : Node) (p : Address) : Bool :=
  n.isFunctionAt p && n.hasClassAbove p && (n.owner? p).isNone

theorem isDefinition_eq (n : Node) : n.isDefinition = (n.isClass || n.isFunction) := by
  unfold isDefinition isClass isFunction
  cases n.kind <;> rfl

theorem isDefinitionAt_eq (n : Node) (p : Address) :
    n.isDefinitionAt p = (n.isClassAt p || n.isFunctionAt p) := by
  unfold isDefinitionAt isClassAt isFunctionAt
  cases n.at? p with
  | none => rfl
  | some m => exact m.isDefinition_eq

theorem mem_definitionAddresses_iff {n : Node} {p : Address} :
    p ∈ n.definitionAddresses ↔ n.isDefinitionAt p = true := by
  rw [definitionAddresses, List.mem_filter, mem_addresses_iff, and_iff_right_iff_imp]
  intro h
  obtain ⟨m, hm, -⟩ := (Option.any_eq_true _ _).1 h
  exact ⟨m, hm⟩

theorem nodup_definitionAddresses (n : Node) : n.definitionAddresses.Nodup :=
  n.nodup_addresses.filter _

/-- The classes and functions that do not count are the helpers. -/
theorem isHelperAt_iff {n : Node} {p : Address} (h : n.isDefinitionAt p = true) :
    n.isHelperAt p = true ↔ n.countsAt p = false := by
  rw [isDefinitionAt_eq, Bool.or_eq_true] at h
  unfold isHelperAt countsAt countsFunctionAt
  rcases h with hclass | hfunction
  · rw [isFunctionAt_of_isClassAt hclass, hclass]
    simp
  · have hclass : n.isClassAt p = false := by
      by_contra hclass
      rw [isFunctionAt_of_isClassAt (Bool.of_not_eq_false hclass)] at hfunction
      cases hfunction
    cases n.owner? p <;> simp [hfunction, hclass]

end CodeAtlas.Syntax.Node

namespace CodeAtlas.Chunking

open CodeAtlas.Analysis
open CodeAtlas.Syntax

/-! ## Places among places -/

section Embedding

variable {α β γ : Type} {l m : List α} {j k : Nat}

/-- At each place of a list and at the place it goes to in another one stands the same element. -/
def Places (l m : List α) (f : Fin j ↪ Fin k) : Prop :=
  ∀ i, ∃ a, l[i.val]? = some a ∧ m[(f i).val]? = some a

/-- Different elements have different places among more. -/
theorem exists_places (hj : l.length = j) (hk : m.length = k) (hl : l.Nodup)
    (h : ∀ a ∈ l, a ∈ m) : ∃ f : Fin j ↪ Fin k, Places l m f := by
  have hplace : ∀ i : Fin j, ∃ i' : Fin k, ∃ a, l[i.val]? = some a ∧ m[i'.val]? = some a := by
    intro i
    have hi : i.val < l.length := hj.symm ▸ i.isLt
    obtain ⟨i', hi'⟩ := List.mem_iff_getElem?.1 (h l[i.val] (List.getElem_mem hi))
    have hlt : i' < k := hk ▸ (List.getElem?_eq_some_iff.1 hi').1
    exact ⟨⟨i', hlt⟩, l[i.val], List.getElem?_eq_getElem hi, hi'⟩
  choose f hf using hplace
  refine ⟨⟨f, fun i i' heq => ?_⟩, hf⟩
  obtain ⟨a, hi, ha⟩ := hf i
  obtain ⟨b, hi', hb⟩ := hf i'
  rw [heq, hb] at ha
  rw [← Option.some.inj ha] at hi
  have hlt := (List.getElem?_eq_some_iff.1 hi).1
  exact Fin.ext ((List.getElem?_inj hlt hl).1 (hi.trans hi'.symm))

/-- The places that nothing goes to are those of the other elements. -/
theorem Places.left_iff {f : Fin j ↪ Fin k} (h : Places l m f) (hj : l.length = j) (hm : m.Nodup)
    {i' : Fin k} {a : α} (ha : m[i'.val]? = some a) : (∀ i, f i ≠ i') ↔ a ∉ l := by
  constructor
  · intro hleft hmem
    obtain ⟨i, hi⟩ := List.mem_iff_getElem?.1 hmem
    have hlt : i < j := hj ▸ (List.getElem?_eq_some_iff.1 hi).1
    obtain ⟨b, hb, hfb⟩ := h ⟨i, hlt⟩
    obtain rfl : a = b := Option.some.inj (hi.symm.trans hb)
    have hlt' := (List.getElem?_eq_some_iff.1 ha).1
    exact hleft ⟨i, hlt⟩ (Fin.ext ((List.getElem?_inj hlt' hm).1 (ha.trans hfb.symm)).symm)
  · rintro hmem i rfl
    obtain ⟨b, hb, hfb⟩ := h i
    obtain rfl : a = b := Option.some.inj (ha.symm.trans hfb)
    exact hmem (List.mem_of_getElem? hb)

/-- What stands at a place of a list stands at that place of what is side by side with it. -/
theorem rel_getElem {r : α → β → Prop} {xs : List β} (h : List.Forall₂ r l xs)
    {i : Fin xs.length} {a : α} (ha : l[i.val]? = some a) : r a xs[i] := by
  obtain ⟨x, hx, hr⟩ := exists_getElem?_right h ha
  rw [List.getElem?_eq_getElem i.isLt] at hx
  exact Option.some.inj hx ▸ hr

end Embedding

/-! ## Chunks of definitions -/

/-- What the chunk of a definition in a file says. -/
structure Covers (file : SourceFile) (n : Node) (c : Chunk) : Prop where
  symbolName : c.symbolName = n.name?
  kind : c.kind = chunkKind n
  startLine : c.startLine = n.span.startLine
  endLine : c.endLine = n.span.endLine
  filePath : c.filePath = file.filePath
  modulePath : c.modulePath = file.modulePath

variable {config : ChunkerConfig} {file : SourceFile}

/-- The chunk of a definition says what the definition is. -/
theorem covers_of_definitionChunk {n : Node} {c : Chunk}
    (h : definitionChunk config file n = .ok c) : Covers file n c := by
  rw [eq_of_definitionChunk h]
  exact ⟨rfl, rfl, rfl, rfl, rfl, rfl⟩

/-- The metadata change none of that. -/
theorem covers_of_structuralChunk {n : Node} {c : Chunk} (h : IsStructuralChunk config file n c) :
    Covers file n c := by
  obtain ⟨d, hd, metadata, rfl⟩ := exists_of_structuralChunk h
  have hcovers := covers_of_definitionChunk hd
  exact ⟨hcovers.symbolName, hcovers.kind, hcovers.startLine, hcovers.endLine, hcovers.filePath,
    hcovers.modulePath⟩

/-- The classes and functions of a file stand side by side with their addresses. -/
theorem forall₂_definitionNodes (t : Tree) :
    List.Forall₂ (fun p n => t.root.at? p = some n) t.root.definitionAddresses
      t.definitionNodes := by
  rw [Node.definitionAddresses, Tree.definitionNodes_eq]
  refine forall₂_filter (Node.forall₂_addresses t.root) (fun p _ n hn => ?_)
  rw [Node.isDefinitionAt, hn, Option.any_some]

/-- The chunk is the structural one of the definition at an address. -/
def IsChunkAt (config : ChunkerConfig) (file : SourceFile) (p : Address) (c : Chunk) : Prop :=
  ∃ n, file.tree.root.at? p = some n ∧ IsStructuralChunk config file n c

/-- The structural chunks of a file stand side by side with the addresses of its classes and
functions. -/
theorem forall₂_definitionAddresses {chunks : List Chunk}
    (h : structuralPass config file = .ok chunks) :
    List.Forall₂ (IsChunkAt config file) file.tree.root.definitionAddresses chunks :=
  forall₂_comp (forall₂_definitionNodes file.tree) (structuralPass_eq_ok_iff.1 h)

/-! ## Symbols and chunks -/

/-- A symbol and a chunk are of one definition, as far as they say. -/
structure SameDefinition (x : Symbol) (c : Chunk) : Prop where
  name : c.symbolName = some x.name
  kind : x.kind = .classDef ∧ c.kind = .classDef ∨ x.kind = .function ∧ c.kind = .function
  startLine : c.startLine = x.startLine
  endLine : c.endLine = x.endLine
  filePath : c.filePath = x.filePath
  modulePath : c.modulePath = x.modulePath

/-- The symbol and the chunk of what is at an address say the same. -/
theorem sameDefinition_of_isAt {p : Address} {d : Definition} {x : Symbol} {c : Chunk}
    (hd : d.IsAt file.tree.root p) (hx : Symbol.Declares file.filePath file.modulePath d x)
    (hc : IsChunkAt config file p c) : SameDefinition x c := by
  obtain ⟨n, hn, hchunk⟩ := hc
  have hcovers := covers_of_structuralChunk hchunk
  obtain ⟨hnode, hname, hkind⟩ : d.node = n ∧ n.name? = some d.name ∧
      (d.symbolKind = .classDef ∧ chunkKind n = .classDef ∨
        d.symbolKind = .function ∧ chunkKind n = .function) := by
    cases d with
    | ofClass m decl =>
      obtain rfl : m = n := Option.some.inj (hd.1.symm.trans hn)
      refine ⟨rfl, ?_, Or.inl ⟨rfl, ?_⟩⟩
      · rw [Node.name?, hd.2]
        rfl
      · rw [chunkKind, hd.2]
    | ofFunction m decl s =>
      obtain rfl : m = n := Option.some.inj (hd.1.symm.trans hn)
      refine ⟨rfl, ?_, Or.inr ⟨rfl, ?_⟩⟩
      · rw [Node.name?, hd.2.1]
        rfl
      · rw [chunkKind, hd.2.1]
  exact {
    name := by rw [hcovers.symbolName, hname, hx.name]
    kind := by rwa [hx.kind, hcovers.kind]
    startLine := by rw [hcovers.startLine, hx.startLine, hnode]
    endLine := by rw [hcovers.endLine, hx.endLine, hnode]
    filePath := by rw [hcovers.filePath, hx.filePath]
    modulePath := by rw [hcovers.modulePath, hx.modulePath] }

/-- What stands where a class is has the symbol of a class. -/
theorem symbolKind_of_isClassAt {n : Node} {p : Address} {d : Definition} (hd : d.IsAt n p)
    (h : n.isClassAt p = true) : d.symbolKind = .classDef := by
  cases d with
  | ofClass m decl => rfl
  | ofFunction m decl s =>
    obtain ⟨hm, hkind, -⟩ := hd
    simp [Node.isClassAt, hm, Node.isClass, hkind] at h

/-- Each symbol of a file goes with a structural chunk of its own. -/
structure Matching (config : ChunkerConfig) (file : SourceFile) (symbols : List Symbol)
    (chunks : List Chunk) (f : Fin symbols.length ↪ Fin chunks.length) : Prop where
  /-- They say the same. -/
  same : ∀ i, SameDefinition symbols[i] chunks[f i]
  /-- The chunks are those of all classes and functions. -/
  cut : List.Forall₂ (IsChunkAt config file) file.tree.root.definitionAddresses chunks
  /-- A symbol goes with the chunk of its own definition. -/
  definition : ∀ i, ∃ p d, file.tree.root.definitionAddresses[(f i).val]? = some p ∧
    (Definition.ofTree file.tree)[i.val]? = some d ∧ d.IsAt file.tree.root p
  /-- The chunks without a symbol are those of the helpers. -/
  left : ∀ (j : Fin chunks.length) (p : Address),
    file.tree.root.definitionAddresses[j.val]? = some p →
      ((∀ i, f i ≠ j) ↔ file.tree.root.isHelperAt p = true)
  /-- Every class has both. -/
  classes : ∀ p, file.tree.root.isClassAt p = true →
    ∃ i, file.tree.root.definitionAddresses[(f i).val]? = some p ∧ symbols[i].kind = .classDef

/-- Every definition that counts is a class or a function. -/
theorem mem_definitionAddresses_of_mem_counted {n : Node} {p : Address}
    (h : p ∈ Definition.counted false n) : p ∈ n.definitionAddresses := by
  have hcounts := Definition.mem_counted_file_iff.1 h
  rw [Node.mem_definitionAddresses_iff, Node.isDefinitionAt_eq, Bool.or_eq_true]
  rw [Node.countsAt, Node.countsFunctionAt, Bool.or_eq_true, Bool.and_eq_true] at hcounts
  exact hcounts.imp_right And.left

/-- The symbols of a file stand side by side with the addresses of the definitions that count. -/
theorem forall₂_symbols {symbols : List Symbol}
    (h : Symbol.ofTree file.tree file.filePath file.modulePath = .ok symbols) :
    List.Forall₂ (fun p x => ∃ d, d.IsAt file.tree.root p ∧
      Symbol.Declares file.filePath file.modulePath d x)
      (Definition.counted false file.tree.root) symbols :=
  forall₂_comp (Definition.forall₂_ofTree file.tree) (Symbol.forall₂_declares h)

/-- If a file has symbols and structural chunks, each symbol goes with a chunk of its own, and what
is left are the chunks of helpers. -/
theorem exists_matching {symbols : List Symbol} {chunks : List Chunk}
    (hsymbols : Symbol.ofTree file.tree file.filePath file.modulePath = .ok symbols)
    (hchunks : structuralPass config file = .ok chunks) :
    ∃ f, Matching config file symbols chunks f := by
  have hcounted := forall₂_symbols hsymbols
  have hcut := forall₂_definitionAddresses hchunks
  obtain ⟨f, hf⟩ := exists_places hcounted.length_eq hcut.length_eq
    (Definition.nodup_counted false file.tree.root)
    (fun p => mem_definitionAddresses_of_mem_counted)
  refine ⟨f, ⟨?same, hcut, ?definition, ?left, ?classes⟩⟩
  case same =>
    intro i
    obtain ⟨p, hi, hp⟩ := hf i
    obtain ⟨d, hd, hx⟩ := rel_getElem hcounted hi
    exact sameDefinition_of_isAt hd hx (rel_getElem hcut hp)
  case definition =>
    intro i
    obtain ⟨p, hi, hp⟩ := hf i
    obtain ⟨d, hd, hisAt⟩ := exists_getElem?_right (Definition.forall₂_ofTree file.tree) hi
    exact ⟨p, d, hp, hd, hisAt⟩
  case left =>
    intro j p hp
    have hdefinition := Node.mem_definitionAddresses_iff.1 (List.mem_of_getElem? hp)
    rw [hf.left_iff hcounted.length_eq file.tree.root.nodup_definitionAddresses hp,
      Definition.mem_counted_file_iff, Node.isHelperAt_iff hdefinition, Bool.not_eq_true]
  case classes =>
    intro p hclass
    have hcounts : file.tree.root.countsAt p = true := by rw [Node.countsAt, hclass, Bool.true_or]
    obtain ⟨i, hi⟩ := List.mem_iff_getElem?.1 (Definition.mem_counted_file_iff.2 hcounts)
    obtain ⟨x, hx, -⟩ := exists_getElem?_right hcounted hi
    have hlt := (List.getElem?_eq_some_iff.1 hx).1
    obtain ⟨q, hq, hfq⟩ := hf ⟨i, hlt⟩
    obtain rfl : p = q := Option.some.inj (hi.symm.trans hq)
    obtain ⟨d, hd, hdeclares⟩ := rel_getElem hcounted hq
    exact ⟨⟨i, hlt⟩, hfq, by rw [hdeclares.kind, symbolKind_of_isClassAt hd hclass]⟩

/-- A class with a method that has a helper, and a function. -/
def shopFile : SourceFile where
  tree := {
    root := ⟨.file, ⟨1, 6, 0⟩, [
      ⟨.classDef { name := "Shop" }, ⟨1, 4, 0⟩, [
        ⟨.function { name := "sell" }, ⟨2, 4, 4⟩, [
          ⟨.function { name := "price" }, ⟨3, 4, 8⟩, []⟩]⟩]⟩,
      ⟨.function { name := "main" }, ⟨5, 6, 0⟩, []⟩]⟩
    source := "class Shop:\n    def sell(self):\n        def price():\n            pass\ndef main():\n    pass\n" }
  filePath := "shop.py"
  modulePath := "shop"

/-- The symbols of that file. -/
def shopSymbols : List Symbol :=
  (Symbol.ofTree shopFile.tree shopFile.filePath shopFile.modulePath).toOption.getD []

/-- All but the helper have a symbol, and the helper has a chunk only. -/
theorem exists_matching_shop :
    Symbol.ofTree shopFile.tree shopFile.filePath shopFile.modulePath = .ok shopSymbols ∧
      ∃ chunks, structuralPass {} shopFile = .ok chunks ∧
        (∃ f, Matching {} shopFile shopSymbols chunks f) ∧
        shopSymbols.map (fun x => x.name) = ["Shop", "sell", "main"] ∧
        chunks.map (fun c => c.symbolName) =
          [some "Shop", some "sell", some "price", some "main"] ∧
        shopFile.tree.root.isHelperAt [0, 0, 0] = true := by
  have hsymbols :
      Symbol.ofTree shopFile.tree shopFile.filePath shopFile.modulePath = .ok shopSymbols := by
    decide +kernel
  obtain ⟨chunks, hchunks, hnames⟩ : ∃ chunks, structuralPass {} shopFile = .ok chunks ∧
      chunks.map (fun c => c.symbolName) =
        [some "Shop", some "sell", some "price", some "main"] := by
    have hsome : ((structuralPass {} shopFile).toOption.map (List.map Chunk.symbolName)) =
        some [some "Shop", some "sell", some "price", some "main"] := by
      rw [structuralPass, Tree.definitionNodes_eq]
      decide +kernel
    cases hpass : structuralPass {} shopFile with
    | error e => simp [hpass, Except.toOption] at hsome
    | ok chunks => exact ⟨chunks, rfl, by simpa [hpass, Except.toOption] using hsome⟩
  exact ⟨hsymbols, chunks, hchunks, exists_matching hsymbols hchunks, by decide +kernel, hnames,
    by decide +kernel⟩

end CodeAtlas.Chunking
