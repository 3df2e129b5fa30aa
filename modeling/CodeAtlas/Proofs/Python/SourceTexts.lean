import CodeAtlas.Proofs.Python.Comments
import CodeAtlas.Proofs.Python.KeptLandmarks
import CodeAtlas.Proofs.Python.Grammar.CompoundStatement

/-!
# Outlines of source texts

Every tree that is read from a text follows the grammar, so the outline of a text keeps the
landmarks of its tree.

Main results:

- Theorem `followsGrammar_of_readConcrete`: the tree of a text follows the grammar.
- Theorem `root_keepsLandmarks`: outlines keep landmarks.
-/

namespace CodeAtlas.Python

open Concrete

/-- The tree of a text follows the grammar, comments included. -/
theorem followsGrammar_of_readConcrete {text : String} {c : Concrete}
    (h : readConcrete text = some c) : c.construct = .moduleText ∧ c.FollowsGrammar := by
  unfold readConcrete at h
  obtain ⟨t, -, ht⟩ := Option.bind_eq_some_iff.1 h
  unfold TokenText.concrete? at ht
  obtain ⟨⟨statements, rest⟩, hread, htree⟩ := Option.bind_eq_some_iff.1 ht
  obtain rfl := Option.some.inj htree
  have hstatements := (Grammar.reads_allStatements
    (Grammar.rulesOf (t.tokens.length + 1) (t.tokens.length + 1)) _).of_eq_some hread
  refine ⟨construct_withComments _ _, FollowsGrammar.withComments _ ?_⟩
  exact (followsGrammar_of_isFree (by simp)).2 hstatements

/-- The outline of a whole tree that follows the grammar keeps the landmarks of the tree, and so
does that of every text that can be read. -/
theorem root_keepsLandmarks :
    (∀ c : Concrete, c.construct = .moduleText → c.FollowsGrammar →
        ∃ f, KeepsLandmarks c c.root f) ∧
      ∀ text c, readConcrete text = some c → ∃ f, KeepsLandmarks c c.root f := by
  have hall : ∀ c : Concrete, c.construct = .moduleText → c.FollowsGrammar →
      ∃ f, KeepsLandmarks c c.root f := fun c hmodule h => exists_keepsLandmarks hmodule h
  refine ⟨hall, fun text c hc => ?_⟩
  obtain ⟨hmodule, hfollows⟩ := followsGrammar_of_readConcrete hc
  exact hall c hmodule hfollows

/-- A class with a decorated method; there are calls in decorators, in a default value and in a
comprehension. -/
def decoratedClass : String :=
  "import app\n@app.register(app.name())\nclass A:\n    # one\n    @app.cached(size())\n" ++
    "    def f(self, x=start()):\n        y = [g(z) for z in h(x)]\n"

theorem root_keepsLandmarks_decorated :
    ∃ c, readConcrete decoratedClass = some c ∧ c.construct = .moduleText ∧ c.FollowsGrammar ∧
      ∃ f, KeepsLandmarks c c.root f := by
  have hreads : (readConcrete decoratedClass).isSome = true := by decide +kernel
  obtain ⟨c, hc⟩ := Option.isSome_iff_exists.1 hreads
  obtain ⟨hmodule, hfollows⟩ := followsGrammar_of_readConcrete hc
  exact ⟨c, hc, hmodule, hfollows, root_keepsLandmarks.1 c hmodule hfollows⟩

end CodeAtlas.Python
