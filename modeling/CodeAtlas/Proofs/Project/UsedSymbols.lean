import CodeAtlas.Project.Analyzer
import CodeAtlas.Proofs.Analysis.Symbols
import CodeAtlas.Proofs.Attempt
import CodeAtlas.Proofs.Store.SymbolNames
import CodeAtlas.Proofs.Store.SymbolReferences
import CodeAtlas.Python.Reader

/-!
# Who uses the symbols of a file

When a file is stored, each of its calls becomes a reference to the symbol that its callee leads to.
A callee that is the qualified name of a class or function of the file need not lead there: another
symbol may have the callee as its key, or may answer to it and stand before.

Main results:

- Theorem `modulePath_of_mem_symbols`: the symbols of a file are in its module.
- Theorem `symbols_store`: the symbols of a file are saved before its calls are looked up.
- Theorem `isUsed_of_free`: a callee that is a qualified name makes the symbol used, unless another
  symbol is in its way.
- Theorem `not_isUsed`: methods, functions and modules of one name are in each other's way.
-/

namespace CodeAtlas.Project

open CodeAtlas.Analysis
open CodeAtlas.Store
open CodeAtlas.Syntax

/-! ## The symbols of a file -/

variable {p : FileParser} {t : Option Tree} {bytes : List UInt8} {filePath : String}
  {mode : AnalysisMode} {found : FileAnalysis}

/-- The symbols of a file are in its module. -/
theorem modulePath_of_mem_symbols (h : p.analyzeOutline t bytes filePath mode = .ok found)
    {x : Symbol} (hx : x ∈ found.symbols) : x.modulePath = modulePathOf filePath := by
  cases t with
  | none =>
    simp only [FileParser.analyzeOutline, bind_eq_ok_iff, Except.ok.injEq, pure, Except.pure] at h
    obtain ⟨_, rfl, rfl⟩ := h
    cases hx
  | some t =>
    simp only [FileParser.analyzeOutline, FileParser.analyzeTree, bind_eq_ok_iff,
      mapError_eq_ok_iff, Except.ok.injEq, pure, Except.pure] at h
    obtain ⟨_, ⟨symbols, hsymbols, _, _, _, _, rfl⟩, rfl⟩ := h
    obtain ⟨d, -, hd⟩ := exists_of_mem_right (mapM_eq_ok_iff.1 hsymbols) hx
    exact (Symbol.declares_of_ofDefinition hd).modulePath

/-! ## Storing a file -/

/-- What no step changes is the same after all of them. -/
theorem foldl_eq_of_unchanged {α β : Type} (step : Analyzer → α → Analyzer) (part : Analyzer → β)
    (hstep : ∀ a x, part (step a x) = part a) (a : Analyzer) (l : List α) :
    part (l.foldl step a) = part a := by
  induction l generalizing a with
  | nil => rfl
  | cons x l ih => exact (ih (step a x)).trans (hstep a x)

/-- The symbols of a file are saved before its calls are looked up. -/
theorem symbols_store (a : Analyzer) (found : FileAnalysis) :
    (a.store found).symbols = (a.symbols.saveAll found.symbols).referAll found.calls := by
  have hsymbols : (found.symbols.foldl Analyzer.addSymbol a).symbols =
      a.symbols.saveAll found.symbols :=
    (List.foldl_hom Analyzer.symbols (fun _ _ => rfl)).symm
  have hcalls : ∀ b : Analyzer, (found.calls.foldl Analyzer.addCall b).symbols =
      b.symbols.referAll found.calls :=
    fun b => (List.foldl_hom Analyzer.symbols (fun _ _ => rfl)).symm
  rw [Analyzer.store, foldl_eq_of_unchanged Analyzer.addChunk Analyzer.symbols (fun _ _ => rfl),
    hcalls, hsymbols]

/-- A call uses a stored symbol: the caller is noted as a reference, and the symbol is not listed as
unused. -/
def Uses (s : SymbolStore) (c : Call) (z : Symbol) : Prop :=
  c.caller ∈ s.referencesTo z.key ∧ z ∉ s.findUnused

instance (s : SymbolStore) (c : Call) (z : Symbol) : Decidable (Uses s c z) :=
  inferInstanceAs (Decidable (c.caller ∈ s.referencesTo z.key ∧ z ∉ s.findUnused))

/-- A call uses the symbol that is stored for a symbol of a file. -/
def IsUsed (s : SymbolStore) (c : Call) (x : Symbol) : Prop :=
  ∃ z ∈ s.getAll, z.modulePath = x.modulePath ∧ z.qualifiedName = x.qualifiedName ∧ Uses s c z

instance (s : SymbolStore) (c : Call) (x : Symbol) : Decidable (IsUsed s c x) :=
  inferInstanceAs (Decidable (∃ z ∈ s.getAll, z.modulePath = x.modulePath ∧
    z.qualifiedName = x.qualifiedName ∧ Uses s c z))

/-- A symbol answers to its qualified name. -/
theorem answersTo_qualifiedName (x : Symbol) :
    SymbolStore.answersTo x.qualifiedName x = true := by
  have hsuffix : ('.' :: x.qualifiedName.toList).isSuffixOf x.key.toList = true := by
    refine List.isSuffixOf_iff_suffix.2 ⟨x.modulePath.toList, ?_⟩
    simp [Symbol.key]
  simp [SymbolStore.answersTo, hsuffix]

/-- In one module, symbols with the same key have the same qualified name. -/
theorem qualifiedName_eq {x z : Symbol} (hpath : z.modulePath = x.modulePath)
    (hkey : z.key = x.key) : z.qualifiedName = x.qualifiedName := by
  have hlist := congrArg String.toList hkey
  simp only [Symbol.key, hpath, String.toList_append, List.append_cancel_left_eq] at hlist
  exact String.toList_inj.1 hlist

/-- A call uses the symbol that its callee leads to. -/
theorem uses_of_findByName {s : SymbolStore} {calls : List Call} {c : Call} (hc : c ∈ calls)
    {y : Symbol} (hy : s.findByName c.callee = some y) : Uses (s.referAll calls) c y := by
  have hcaller : c.caller ∈ (s.referAll calls).referencesTo y.key := by
    rw [SymbolStore.referencesTo_referAll]
    refine List.mem_append_right _ (List.mem_map_of_mem (List.mem_filter.2 ⟨hc, ?_⟩))
    simp [SymbolStore.leadsTo, hy]
  exact ⟨hcaller, SymbolStore.not_mem_findUnused hcaller⟩

/-- A callee that is the qualified name of a symbol of the file leads to a stored symbol, which the
call then uses. That is the symbol of the file itself, unless another one is in its way. -/
theorem isUsed_of_free (a : Analyzer) (hfound : p.analyzeOutline t bytes filePath mode = .ok found)
    {c : Call} (hc : c ∈ found.calls) {x : Symbol} (hx : x ∈ found.symbols)
    (hcallee : c.callee = x.qualifiedName)
    (hplain : ∀ z ∈ found.symbols, z.key = x.key → SymbolStore.PlainName z.name) :
    let s := (a.clear.store found).symbols
    (∃ y ∈ s.getAll, s.findByName c.callee = some y ∧ Uses s c y) ∧
    ∃ z ∈ s.getAll, z.modulePath = x.modulePath ∧ z.qualifiedName = x.qualifiedName ∧
      (¬s.Displaced c.callee z → Uses s c z) := by
  intro s
  obtain ⟨later, hrows, hfrom, hkeys⟩ := a.symbols.rows_clear.saveAll found.symbols
  obtain ⟨⟨i, z⟩, hrow, hkey⟩ := hkeys x.key (Or.inr ⟨x, hx, rfl⟩)
  have hz : z ∈ found.symbols := (hfrom _ hrow).resolve_left List.not_mem_nil
  have hmem : z ∈ (a.symbols.clear.saveAll found.symbols).getAll :=
    hrows.mem_getAll_iff.2 (List.mem_map_of_mem hrow)
  have hpath : z.modulePath = x.modulePath :=
    (modulePath_of_mem_symbols hfound hz).trans (modulePath_of_mem_symbols hfound hx).symm
  have hname : z.qualifiedName = x.qualifiedName := qualifiedName_eq hpath hkey
  have hanswers : SymbolStore.answersTo c.callee z = true := by
    rw [hcallee, ← hname]
    exact answersTo_qualifiedName z
  have hs : s = (a.symbols.clear.saveAll found.symbols).referAll found.calls :=
    symbols_store a.clear found
  clear_value s
  subst hs
  simp only [SymbolStore.Displaced, SymbolStore.before, SymbolStore.getAll_referAll,
    SymbolStore.findByName_referAll]
  constructor
  · obtain ⟨y, hy, hfind⟩ := hrows.exists_findByName hmem (hplain z hz hkey) hanswers
    exact ⟨y, hy, hfind, uses_of_findByName hc hfind⟩
  · refine ⟨z, hmem, hpath, hname, fun hfree => ?_⟩
    exact uses_of_findByName hc (hrows.findByName_of_free hmem (hplain z hz hkey) hanswers hfree)

/-! ## Files with and without clashes -/

/-- A parser that makes no chunks. -/
def outlineOnly (outline : String → Option Tree) : FileParser :=
  ⟨outline, ⟨{ patterns := [] }, ⟨[]⟩, Regex.isMatch⟩, .ast⟩

/-- What a text holds, and nothing if it cannot be analysed. -/
def foundIn (outline : String → Option Tree) (source filePath : String) : FileAnalysis :=
  ((outlineOnly outline).analyzeText source filePath .ast).toOption.getD {}

/-- The symbols after a file is stored and nothing else. -/
def symbolsOf (found : FileAnalysis) : SymbolStore :=
  (({ config := {}, parser := outlineOnly (fun _ => none) } : Analyzer).clear.store found).symbols

/-- An analysis that succeeds gives what is found. -/
theorem analyzeText_eq_ok {outline : String → Option Tree} {source filePath : String}
    (h : ((outlineOnly outline).analyzeText source filePath .ast).toOption.isSome = true) :
    (outlineOnly outline).analyzeText source filePath .ast =
      .ok (foundIn outline source filePath) := by
  unfold foundIn
  cases hfound : (outlineOnly outline).analyzeText source filePath .ast with
  | error e => simp [hfound, Except.toOption] at h
  | ok found => rfl

/-- A function and a function that calls it. -/
def helperText : String :=
  "def helper():\n    pass\n\ndef main():\n    helper()\n"

/-- What that text holds. -/
def helperFound : FileAnalysis := foundIn Python.readTree helperText "tools.py"

/-- The call uses the function. -/
theorem isUsed_of_free_helper :
    (outlineOnly Python.readTree).analyzeText helperText "tools.py" .ast = .ok helperFound ∧
      ∃ c ∈ helperFound.calls, ∃ x ∈ helperFound.symbols, c.callee = x.qualifiedName ∧
        IsUsed (symbolsOf helperFound) c x := by
  have hfound : (outlineOnly Python.readTree).analyzeText helperText "tools.py" .ast =
      .ok helperFound := analyzeText_eq_ok (by decide +kernel)
  have hfree : ∃ c ∈ helperFound.calls, ∃ x ∈ helperFound.symbols, c.callee = x.qualifiedName ∧
      (∀ z ∈ helperFound.symbols, z.key = x.key → SymbolStore.PlainName z.name) ∧
      ∀ z ∈ (symbolsOf helperFound).getAll, z.qualifiedName = x.qualifiedName →
        ¬(symbolsOf helperFound).Displaced c.callee z := by
    decide +kernel
  obtain ⟨c, hc, x, hx, hcallee, hplain, hfree⟩ := hfree
  obtain ⟨-, z, hz, hpath, hname, hused⟩ := isUsed_of_free _ hfound hc hx hcallee hplain
  exact ⟨hfound, c, hc, x, hx, hcallee, z, hz, hpath, hname, hused (hfree z hz hname)⟩

/-- A class in a module of its name, with two methods whose names are those of functions. -/
def clashText : String :=
  "class A:\n    def b(self):\n        pass\n    def c(self):\n        pass\n" ++
    "    def run(self):\n        self.b()\n\ndef b():\n    pass\n\ndef c():\n    pass\n\n" ++
    "def main():\n    c()\n"

/-- A function whose name holds a dot, and a function that calls it. -/
def dottedTree : Tree where
  root := ⟨.file, ⟨1, 2, 0⟩, [
    ⟨.function { name := "a.b" }, ⟨1, 1, 0⟩, []⟩,
    ⟨.function { name := "main" }, ⟨2, 2, 0⟩, [
      ⟨.call { callee := .name "a.b" }, ⟨2, 2, 0⟩, []⟩]⟩]⟩
  source := ""

/-- The method call leads to the function with the callee as its key, and the function call to the
method that stands before. A name that holds a dot leads nowhere. -/
theorem not_isUsed :
    (∃ found, (outlineOnly Python.readTree).analyzeText clashText "A.py" .ast = .ok found ∧
      found.calls.map Call.callee = ["A.b", "c"] ∧
      ∀ c ∈ found.calls, ∃ x ∈ found.symbols, c.callee = x.qualifiedName ∧
        ¬IsUsed (symbolsOf found) c x) ∧
    ∃ found, (outlineOnly (fun _ => some dottedTree)).analyzeText "" "A.py" .ast = .ok found ∧
      ∃ c ∈ found.calls, ∃ x ∈ found.symbols, c.callee = x.qualifiedName ∧
        ¬IsUsed (symbolsOf found) c x := by
  refine ⟨⟨_, analyzeText_eq_ok (by decide +kernel), by decide +kernel, by decide +kernel⟩,
    ⟨_, analyzeText_eq_ok (by decide +kernel), by decide +kernel⟩⟩

end CodeAtlas.Project
