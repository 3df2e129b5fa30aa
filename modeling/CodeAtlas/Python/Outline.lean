import CodeAtlas.Python.Concrete
import CodeAtlas.Python.Literal.Integer
import CodeAtlas.Python.Literal.Text
import CodeAtlas.Text.Docstring

/-!
# From concrete syntax to outlines

The outline of a source file keeps definitions, imports, calls and assignments to plain names. What
stands between them is kept only where it contains one of these; blocks are dissolved into the
construct they belong to. A decorated definition has what stands in its decorators as its first
children, and starts at its own first word.

Main statements:

- Theorem `outlineAll_append`: the outline of constructs in a row is that of each one in turn.
- Theorem `outline_wildcardImport`: a wildcard import is outlined as an import of no names.
-/

namespace CodeAtlas.Python

open CodeAtlas.Syntax

namespace Concrete

/-! ## Literals and expressions -/

/-- The value of a string, unless it is a template with something to fill in. -/
def literalValue? (c : Concrete) : Option String :=
  if c.isA .string && !c.children.any (isA .interpolation) then Literal.stringValue? c.text
  else none

/-- The value of a string or of several strings in a row. -/
def stringValue? (c : Concrete) : Option String :=
  match c.construct with
  | .string => c.literalValue?
  | .concatenatedString => (c.parts.mapM literalValue?).map String.join
  | _ => none

/-- The text of the first node in a role. -/
def textIn (role : Role) (cs : List Concrete) : Option String :=
  (cs.find? (fun c => c.role == some role)).map text

mutual

/-- The shape of an expression. -/
def shape : Concrete → Expr
  | ⟨construct, role, extent, text, children⟩ =>
    match construct with
    | .identifier => .name text
    | .attribute =>
      match shapeIn .object children, textIn .attribute children with
      | some value, some attr => .attribute value attr
      | _, _ => .other
    | .call => .call ((shapeIn .function children).getD .other)
    | .parenthesizedExpression =>
      match partShapes children with
      | [e] => e
      | _ => .other
    | .string | .concatenatedString =>
      match stringValue? ⟨construct, role, extent, text, children⟩ with
      | some value => .constant value
      | none => .other
    | .integer => .constant (Literal.integerText text)
    | .float => .constant (Literal.floatText text)
    | .trueLiteral => .constant "True"
    | .falseLiteral => .constant "False"
    | .noneLiteral => .constant "None"
    | .ellipsis => .constant "Ellipsis"
    | _ => .other

/-- The shape of the first node in a role. -/
def shapeIn (role : Role) : List Concrete → Option Expr
  | [] => none
  | c :: rest => if c.role = some role then some (shape c) else shapeIn role rest

/-- The shapes of the nodes that are not comments. -/
def partShapes : List Concrete → List Expr
  | [] => []
  | c :: rest => if c.isA .comment then partShapes rest else shape c :: partShapes rest

end

/-! ## Parameters -/

/-- The parameters read so far, and whether a star was among them. -/
structure ParameterReading where
  parameters : Parameters := {}
  afterStar : Bool := false
  deriving DecidableEq, Repr, Inhabited

namespace ParameterReading

/-- One more plain parameter. -/
def push (r : ParameterReading) (name : String) : ParameterReading :=
  let p := r.parameters
  if r.afterStar then
    { r with parameters := { p with keywordOnly := p.keywordOnly ++ [name] } }
  else { r with parameters := { p with positional := p.positional ++ [name] } }

/-- The name behind a star. -/
def splatName (c : Concrete) : Option String :=
  (c.children.find? (isA .identifier)).map Concrete.text

/-- One more parameter or separator, without its annotation. -/
def addTarget (r : ParameterReading) (c : Concrete) : ParameterReading :=
  let p := r.parameters
  match c.construct with
  | .identifier => r.push c.text
  | .defaultParameter | .typedDefaultParameter =>
    match c.child? .name with
    | some name => if name.isA .identifier then r.push name.text else r
    | none => r
  | .listSplatPattern => ⟨{ p with vararg := splatName c }, true⟩
  | .dictionarySplatPattern => { r with parameters := { p with kwarg := splatName c } }
  | .keywordSeparator => { r with afterStar := true }
  | .positionalSeparator =>
    { r with
      parameters :=
        { p with positionalOnly := p.positionalOnly ++ p.positional, positional := [] } }
  | _ => r

/-- One more item of a parameter list. -/
def add (r : ParameterReading) (c : Concrete) : ParameterReading :=
  if c.isA .typedParameter then
    match c.children with
    | [] => r
    | target :: _ => r.addTarget target
  else r.addTarget c

end ParameterReading

/-- The names in a parameter list. -/
def parametersOf (items : List Concrete) : Parameters :=
  (items.foldl ParameterReading.add {}).parameters

/-! ## Imports -/

/-- A dotted name without blanks. Comments between its parts count as parts of it. -/
def dottedText (c : Concrete) : String :=
  if c.isA .dottedName then ".".intercalate (c.children.map text) else c.text

/-- One imported name. -/
def importAlias? (c : Concrete) : Option ImportAlias :=
  match c.construct with
  | .dottedName => some ⟨c.dottedText, none⟩
  | .aliasedImport =>
    (c.child? .name).map (fun name => ⟨name.dottedText, (c.child? .newName).map text⟩)
  | _ => none

/-- The imported names. -/
def importNames (c : Concrete) : List ImportAlias :=
  (c.children.filter (fun d => d.role == some .name)).filterMap importAlias?

/-- The module that names are imported from; leading dots do not count. -/
def importedModule (c : Concrete) : Option String :=
  if c.isA .futureImportStatement then some "__future__"
  else
    (c.child? .moduleName).bind (fun m =>
      if m.isA .relativeImport then (m.children.find? (isA .dottedName)).map dottedText
      else some m.dottedText)

/-! ## Calls, assignments and definitions -/

/-- A positional argument. -/
def positionalArgument? (c : Concrete) : Option Expr :=
  match c.construct with
  | .comment | .keywordArgument | .dictionarySplat => none
  | _ => some c.shape

/-- A keyword argument or a splatted mapping. -/
def keyword? (c : Concrete) : Option Keyword :=
  match c.construct with
  | .keywordArgument =>
    some ⟨textIn .name c.children, (shapeIn .value c.children).getD .other⟩
  | .dictionarySplat => some ⟨none, (c.children.head?.map shape).getD .other⟩
  | _ => none

/-- The callee and the arguments of a call. A bare generator is its only argument. -/
def callSite (c : Concrete) : CallSite :=
  let callee := (shapeIn .function c.children).getD .other
  match c.child? .arguments with
  | none => { callee }
  | some arguments =>
    if arguments.isA .argumentList then
      { callee
        arguments := arguments.children.filterMap positionalArgument?
        keywords := arguments.children.filterMap keyword? }
    else { callee, arguments := [.other] }

/-- The assignment of a value to a plain name. -/
def assignment? (c : Concrete) : Option Assignment :=
  match c.child? .left, shapeIn .right c.children with
  | some left, some value => if left.isA .identifier then some ⟨left.text, value⟩ else none
  | _, _ => none

/-- The cleaned docstring of a definition: the first statement of its body, if that is just a
string. -/
def docComment? (definition : Concrete) : Option String := do
  let body ← definition.child? .body
  let first ← body.parts.head?
  if !first.isA .expressionStatement then none
  else
    match first.children with
    | [literal] => literal.stringValue?.map Text.cleanDocstring
    | _ => none

/-- The declared name. -/
def declaredName (definition : Concrete) : String := (textIn .name definition.children).getD ""

/-- The declaration of a function. -/
def functionDef (definition : Concrete) (decorators : List Expr) : FunctionDef :=
  { name := definition.declaredName
    isAsync := (definition.children.head?.map (isA .asyncWord)).getD false
    parameters := ((definition.child? .parameters).map (fun p => parametersOf p.children)).getD {}
    docComment := definition.docComment?
    decorators }

/-- The declaration of a class. -/
def classDef (definition : Concrete) (decorators : List Expr) : ClassDef :=
  { name := definition.declaredName, docComment := definition.docComment?, decorators }

/-- The shapes of decorators. -/
def decoratorShapes (cs : List Concrete) : List Expr :=
  ((cs.filter (isA .decorator)).filterMap (fun d => d.parts.head?)).map shape

/-! ## Outlines -/

/-- A construct around others, which is kept if there are any. -/
def wrap (construct : Construct) (extent : Extent) (inner : List Node) : List Node :=
  if inner.isEmpty then [] else [⟨.other construct.label, extent.span, inner⟩]

/-- The node of a definition, if the construct is one. -/
def definitionNode (definition : Concrete) (decorators : List Expr) (inner : List Node) :
    List Node :=
  match definition.construct with
  | .functionDefinition =>
    [⟨.function (definition.functionDef decorators), definition.extent.span, inner⟩]
  | .classDefinition =>
    [⟨.classDef (definition.classDef decorators), definition.extent.span, inner⟩]
  | _ => []

mutual

/-- The outline of a construct. -/
def outline : Concrete → List Node
  | ⟨construct, role, extent, text, children⟩ =>
    let c : Concrete := ⟨construct, role, extent, text, children⟩
    match construct with
    | .block => outlineAll children
    | .decoratedDefinition =>
      outlineDecorated (decoratorShapes children) (outlineDecorators children) children
    | .functionDefinition | .classDefinition => c.definitionNode [] (outlineAll children)
    | .importStatement => [⟨.imports c.importNames, extent.span, []⟩]
    | .importFromStatement | .futureImportStatement =>
      [⟨.importFrom ⟨c.importedModule, c.importNames⟩, extent.span, []⟩]
    | .call => [⟨.call c.callSite, extent.span, outlineAll children⟩]
    | .assignment =>
      match c.assignment? with
      | some a => [⟨.assign a, extent.span, outlineAll children⟩]
      | none => wrap .assignment extent (outlineAll children)
    | construct => wrap construct extent (outlineAll children)

/-- The outlines of constructs in a row. -/
def outlineAll : List Concrete → List Node
  | [] => []
  | c :: rest => outline c ++ outlineAll rest

/-- The outlines of what stands in decorators. -/
def outlineDecorators : List Concrete → List Node
  | [] => []
  | ⟨construct, _, _, _, children⟩ :: rest =>
    if construct = .decorator then outlineAll children ++ outlineDecorators rest
    else outlineDecorators rest

/-- The outline of the definition among some constructs, with the decorators and what stands in
them. -/
def outlineDecorated (decorators : List Expr) (above : List Node) : List Concrete → List Node
  | [] => []
  | ⟨construct, role, extent, text, children⟩ :: rest =>
    if role = some .definition then
      definitionNode ⟨construct, role, extent, text, children⟩ decorators
        (above ++ outlineAll children)
    else outlineDecorated decorators above rest

end

theorem outlineAll_append (cs ds : List Concrete) :
    outlineAll (cs ++ ds) = outlineAll cs ++ outlineAll ds := by
  induction cs with
  | nil => simp [outlineAll]
  | cons c rest ih => simp [outlineAll, ih]

/-- Behind the module that it imports from, a wildcard import has a star without a role. -/
theorem outline_wildcardImport {c source star : Concrete} (hc : c.construct = .importFromStatement)
    (hchildren : c.children = [source, star]) (hsource : source.role = some .moduleName)
    (hstar : star.role = none) :
    c.outline = [⟨.importFrom ⟨c.importedModule, []⟩, c.extent.span, []⟩] := by
  have hnames : c.importNames = [] := by simp [importNames, hchildren, hsource, hstar]
  rw [← hnames]
  cases c
  cases hc
  rw [outline]

end Concrete

/-- The outline of a whole text. -/
def Concrete.root (c : Concrete) : Node := ⟨.file, c.extent.span, outlineAll c.children⟩

end CodeAtlas.Python
