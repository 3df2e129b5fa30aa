import CodeAtlas.Chunk.Config
import CodeAtlas.Text.Search

/-!
# Classifying definitions

A pattern library is the list of categories with their patterns read. A definition is classified by
its name and docstring, both in lowercase: the first pattern of each category that matches either
becomes a key phrase, and the last category that matches gives the type.

Main statements:

* `PatternLibrary.ofConfigWith_eq_compileWith`: settings that keep the default categories may share
  their library;
* `PatternLibrary.classifyBy_append`: classifying with the categories of two libraries in a row
  joins the key phrases, and the type is that of the second one if it matches.
-/

namespace CodeAtlas.Chunking

/-- A category whose patterns were read, each with its text. -/
structure CompiledCategory where
  name : String
  patterns : List (String × Regex)
  deriving DecidableEq, Repr, Inhabited

/-- The categories whose patterns were read. -/
structure PatternLibrary where
  categories : List CompiledCategory
  deriving DecidableEq, Repr, Inhabited

/-- What a definition was found to be. -/
structure SemanticMatch where
  /-- The last category that matched. -/
  semanticType : Option String := none
  /-- The first pattern of each category that matched. -/
  keyPhrases : List String := []
  deriving DecidableEq, Repr, Inhabited

/-- Whether any category matched. -/
def SemanticMatch.isMatch (m : SemanticMatch) : Bool := m.semanticType.isSome

namespace PatternLibrary

section Reading

variable (read : String → Option Regex)

/-- Reads one pattern. -/
def compilePattern (text : String) : Except ChunkError (String × Regex) :=
  match read text with
  | some r => .ok (text, r)
  | none => .error (.invalidPattern text)

/-- Reads the patterns of a category. -/
def compileCategory (c : PatternCategory) : Except ChunkError CompiledCategory :=
  (c.patterns.mapM (compilePattern read)).map (fun ps => ⟨c.name, ps⟩)

/-- Reads the patterns of all categories; the first text that cannot be read is the error. -/
def compileWith (categories : List PatternCategory) : Except ChunkError PatternLibrary :=
  (categories.mapM (compileCategory read)).map PatternLibrary.mk

/-- The library of the default categories, which is read once for all settings. -/
def shared? : Option PatternLibrary := (compileWith read defaultPatterns).toOption

/-- The library of some settings. Settings that keep the default categories use the shared one. -/
def ofConfigWith (config : ChunkerConfig) : Except ChunkError PatternLibrary :=
  match if config.patterns = defaultPatterns then shared? read else none with
  | some library => .ok library
  | none => compileWith read config.patterns

end Reading

/-- Reads the patterns of all categories; the first text that denotes no pattern is the error. -/
def compile (categories : List PatternCategory) : Except ChunkError PatternLibrary :=
  compileWith Regex.parse categories

/-- The names of the categories. -/
def categoryNames (l : PatternLibrary) : List String := l.categories.map CompiledCategory.name

/-- The first pattern of a category that matches, given which patterns match. -/
def firstHit (hits : Regex → Bool) (c : CompiledCategory) : Option String :=
  (c.patterns.find? (fun p => hits p.2)).map Prod.fst

/-- Adds what one category says. -/
def consider (hits : Regex → Bool) (m : SemanticMatch) (c : CompiledCategory) : SemanticMatch :=
  match firstHit hits c with
  | none => m
  | some phrase => ⟨some c.name, m.keyPhrases ++ [phrase]⟩

/-- Classifies with the categories, given which patterns match. -/
def classifyBy (hits : Regex → Bool) (l : PatternLibrary) : SemanticMatch :=
  l.categories.foldl (consider hits) {}

/-- Classifies a definition by its name and docstring, given which patterns match which texts. -/
def classifyWith (isMatch : Regex → List Char → Bool) (l : PatternLibrary) (name : String)
    (doc : Option String) : SemanticMatch :=
  let name := Text.lowercase name.toList
  let doc := Text.lowercase (doc.getD "").toList
  l.classifyBy (fun r => isMatch r name || isMatch r doc)

/-- Classifies a definition by its name and docstring. -/
def classify (l : PatternLibrary) (name : String) (doc : Option String) : SemanticMatch :=
  l.classifyWith Regex.isMatch name doc

/-- The shared library is what the default categories are read as. -/
theorem compileWith_of_shared {read : String → Option Regex} {library : PatternLibrary}
    (h : shared? read = some library) : compileWith read defaultPatterns = .ok library := by
  unfold shared? at h
  cases hread : compileWith read defaultPatterns with
  | error e => simp [hread, Except.toOption] at h
  | ok shared =>
    rw [hread] at h
    exact congrArg Except.ok (Option.some.inj h)

/-- Sharing a library changes nothing: the library of some settings is that of their categories. -/
theorem ofConfigWith_eq_compileWith (read : String → Option Regex) (config : ChunkerConfig) :
    ofConfigWith read config = compileWith read config.patterns := by
  unfold ofConfigWith
  by_cases hdefault : config.patterns = defaultPatterns
  · rw [if_pos hdefault]
    cases hshared : shared? read with
    | none => rfl
    | some library => rw [hdefault, compileWith_of_shared hshared]
  · rw [if_neg hdefault]

theorem foldl_consider (hits : Regex → Bool) (cs : List CompiledCategory) (m : SemanticMatch) :
    cs.foldl (consider hits) m =
      ⟨(cs.foldl (consider hits) {}).semanticType.or m.semanticType,
        m.keyPhrases ++ (cs.foldl (consider hits) {}).keyPhrases⟩ := by
  induction cs generalizing m with
  | nil => simp
  | cons c rest ih =>
    simp only [List.foldl_cons]
    rw [ih (consider hits m c), ih (consider hits {} c)]
    cases h : firstHit hits c with
    | none => simp [consider, h]
    | some phrase =>
      simp only [consider, h, List.nil_append, List.append_assoc]
      cases (rest.foldl (consider hits) {}).semanticType <;> rfl

/-- The key phrases of two libraries are joined; the second one's type wins if it has one. -/
theorem classifyBy_append (hits : Regex → Bool) (k l : PatternLibrary) :
    classifyBy hits ⟨k.categories ++ l.categories⟩ =
      ⟨(classifyBy hits l).semanticType.or (classifyBy hits k).semanticType,
        (classifyBy hits k).keyPhrases ++ (classifyBy hits l).keyPhrases⟩ := by
  simp only [classifyBy, List.foldl_append]
  rw [foldl_consider]

end PatternLibrary

/-- Whether one of some texts occurs in another one. -/
def containsAny (text : List Char) (parts : List String) : Bool :=
  parts.any (fun p => Text.occursIn p.toList text)

/-- The field of business that a name hints at. -/
def businessDomain (name : String) : Option String :=
  let name := Text.lowercase name.toList
  if containsAny name ["revenue", "payment"] then some "finance"
  else if containsAny name ["user", "auth"] then some "user_management"
  else if containsAny name ["data", "process"] then some "data_processing"
  else none

end CodeAtlas.Chunking
