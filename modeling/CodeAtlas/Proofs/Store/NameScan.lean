import CodeAtlas.Proofs.Store.SymbolHistory
import CodeAtlas.Proofs.Store.SymbolNames
import Mathlib.Data.List.Find

/-!
# Looking up by the index and by scanning

The store looks a name up in the index of names, among the symbols that are named like the last part
of the name. The order of that index is the order of the last saves, not that of the symbols. As
long as all saved names are plain, the answer is still that of a scan over all symbols.

Main results:

- Theorem `answers_iff`: a plainly named symbol is found in the index by every name that it answers
  to.
- Theorem `findByName_eq_scanByName`: after every history of plainly named symbols both look-ups
  agree on every name.
-/

namespace CodeAtlas.Store.SymbolStore

open CodeAtlas.Analysis

/-- A look-up without indices: the symbol with the name as its key, or else the first symbol that has
the name or a key that ends with it behind a dot. -/
def scanByName (s : SymbolStore) (name : String) : Option Symbol :=
  (s.getAll.find? (fun x => x.key = name)).or
    (s.getAll.find? (fun x => x.name = name ∨ '.' :: name.toList <:+ x.key.toList))

variable {ops : List Operation} {x : Symbol} {name : String}

/-- A symbol is called by its name and by the parts that its key ends with. -/
theorem answersTo_iff :
    answersTo name x = true ↔ x.name = name ∨ '.' :: name.toList <:+ x.key.toList := by
  rw [answersTo, Bool.or_eq_true, beq_iff_eq, List.isSuffixOf_iff_suffix]

/-- A plainly named symbol is found in the index by every name that it answers to. -/
theorem answers_iff (hx : PlainName x.name) :
    (x.name == lastSegment name && answersTo name x) = true ↔
      x.name = name ∨ '.' :: name.toList <:+ x.key.toList := by
  rw [Bool.and_eq_true, beq_iff_eq, answersTo_iff]
  constructor
  · exact And.right
  · exact fun h => ⟨name_eq_lastSegment hx (answersTo_iff.2 h), h⟩

/-- What is in store was saved. -/
theorem mem_saved_of_mem_getAll (hx : x ∈ (run ops).getAll) :
    x ∈ ops.filterMap Operation.saved? := by
  obtain ⟨rows, h⟩ := follows_run ops
  obtain ⟨i, hsave, -⟩ := (h.recorded.mem_getAll_iff x).1 hx
  exact List.mem_filterMap.2 ⟨.save x, List.mem_of_getElem? hsave, rfl⟩

/-- After every history of plainly named symbols, looking a name up is a scan over all symbols. -/
theorem findByName_eq_scanByName (h : ∀ x ∈ ops.filterMap Operation.saved?, PlainName x.name)
    (name : String) : (run ops).findByName name = (run ops).scanByName name := by
  obtain ⟨rows, hfollows⟩ := follows_run ops
  have hscan : (run ops).getAll.find? (fun x => x.name == lastSegment name && answersTo name x) =
      (run ops).getAll.find? (fun x => x.name = name ∨ '.' :: name.toList <:+ x.key.toList) := by
    refine List.find?_congr (fun x hx => ?_)
    have hplain := h x (mem_saved_of_mem_getAll hx)
    rw [Bool.eq_iff_iff, answers_iff hplain, decide_eq_true_iff]
  rw [hfollows.kept.findByName_eq, hscan, scanByName]

/-- Two functions of the same name, of which the earlier one is saved again later. -/
def savedAgain : List Operation :=
  let inClass : Symbol :=
    { name := "add", kind := .function, filePath := "calc.py", modulePath := "calc", startLine := 2,
      endLine := 3, parentClass := some "Calculator" }
  let free : Symbol :=
    { name := "add", kind := .function, filePath := "app.py", modulePath := "app", startLine := 1,
      endLine := 2 }
  [.save inClass, .save free, .save { inClass with endLine := 5 }]

/-- The index lists the free function first, and still the method is found. -/
theorem findByName_savedAgain :
    (∀ x ∈ savedAgain.filterMap Operation.saved?, PlainName x.name) ∧
      (run savedAgain).findByName "add" = (run savedAgain).scanByName "add" ∧
      ((run savedAgain).scanByName "add").map Symbol.key = some "calc.Calculator.add" := by
  have hplain : ∀ x ∈ savedAgain.filterMap Operation.saved?, PlainName x.name := by decide
  exact ⟨hplain, findByName_eq_scanByName hplain "add", by decide +kernel⟩

end CodeAtlas.Store.SymbolStore
