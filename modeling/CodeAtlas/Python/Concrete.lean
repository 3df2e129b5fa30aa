import CodeAtlas.Syntax.Node

/-!
# Concrete syntax trees

The syntax tree of a source text as the grammar gives it: every construct is a node with the part
of the text that it covers. Punctuation and keywords have no nodes, except for the word that makes
a definition asynchronous. Comments are nodes and stand in the innermost construct around them.

A node may have a role in its parent, by which the parent's meaning is read off.
-/

namespace CodeAtlas.Python

open CodeAtlas.Syntax (Span)

/-- A place in a text: a line counted from 0, and a column in bytes. -/
structure Position where
  line : Nat
  column : Nat
  deriving DecidableEq, Repr, Inhabited

/-- Whether a place is in front of another one. -/
def Position.isBefore (p q : Position) : Bool :=
  p.line < q.line || (p.line == q.line && p.column < q.column)

/-- The part of a text from one place up to another one. -/
structure Extent where
  start : Position
  stop : Position
  deriving DecidableEq, Repr, Inhabited

/-- The lines of an extent counted from 1, and the column it starts at. -/
def Extent.span (r : Extent) : Span := ⟨r.start.line + 1, r.stop.line + 1, r.start.column⟩

/-- The constructs of the grammar. -/
inductive Construct where
  | aliasedImport
  | argumentList
  | asPattern
  | asPatternTarget
  | assertStatement
  | assignment
  | asyncWord
  | attribute
  | augmentedAssignment
  | await
  | binaryOperator
  | block
  | booleanOperator
  | breakStatement
  | call
  | caseClause
  | casePattern
  | chevron
  | classDefinition
  | comment
  | comparisonOperator
  | concatenatedString
  | conditionalExpression
  | constrainedType
  | continueStatement
  | decoratedDefinition
  | decorator
  | defaultParameter
  | deleteStatement
  | dictionary
  | dictionaryComprehension
  | dictionarySplat
  | dictionarySplatPattern
  | dottedName
  | elifClause
  | ellipsis
  | elseClause
  | exceptClause
  | exceptGroupClause
  | execStatement
  | expressionList
  | expressionStatement
  | falseLiteral
  | finallyClause
  | float
  | forInClause
  | forStatement
  | formatExpression
  | formatSpecifier
  | functionDefinition
  | futureImportStatement
  | generatorExpression
  | genericType
  | globalStatement
  | identifier
  | ifClause
  | ifStatement
  | importFromStatement
  | importStatement
  | integer
  | interpolation
  | keywordArgument
  | keywordSeparator
  | lambda
  | lambdaParameters
  | list
  | listComprehension
  | listPattern
  | listSplat
  | listSplatPattern
  | matchStatement
  | memberType
  | moduleText
  | namedExpression
  | noneLiteral
  | nonlocalStatement
  | notOperator
  | pair
  | parameters
  | parenthesizedExpression
  | passStatement
  | patternList
  | positionalSeparator
  | printStatement
  | raiseStatement
  | relativeImport
  | returnStatement
  | set
  | setComprehension
  | slice
  | splatType
  | string
  | subscript
  | trueLiteral
  | tryStatement
  | tuple
  | tuplePattern
  | type
  | typeAliasStatement
  | typeParameter
  | typedDefaultParameter
  | typedParameter
  | unaryOperator
  | unionType
  | whileStatement
  | wildcardImport
  | withClause
  | withItem
  | withStatement
  | yield
  deriving DecidableEq, Repr, Inhabited

/-- The name of a construct. -/
def Construct.label : Construct → String
  | .aliasedImport => "aliased_import"
  | .argumentList => "argument_list"
  | .asPattern => "as_pattern"
  | .asPatternTarget => "as_pattern_target"
  | .assertStatement => "assert_statement"
  | .assignment => "assignment"
  | .asyncWord => "async"
  | .attribute => "attribute"
  | .augmentedAssignment => "augmented_assignment"
  | .await => "await"
  | .binaryOperator => "binary_operator"
  | .block => "block"
  | .booleanOperator => "boolean_operator"
  | .breakStatement => "break_statement"
  | .call => "call"
  | .caseClause => "case_clause"
  | .casePattern => "case_pattern"
  | .chevron => "chevron"
  | .classDefinition => "class_definition"
  | .comment => "comment"
  | .comparisonOperator => "comparison_operator"
  | .concatenatedString => "concatenated_string"
  | .conditionalExpression => "conditional_expression"
  | .constrainedType => "constrained_type"
  | .continueStatement => "continue_statement"
  | .decoratedDefinition => "decorated_definition"
  | .decorator => "decorator"
  | .defaultParameter => "default_parameter"
  | .deleteStatement => "delete_statement"
  | .dictionary => "dictionary"
  | .dictionaryComprehension => "dictionary_comprehension"
  | .dictionarySplat => "dictionary_splat"
  | .dictionarySplatPattern => "dictionary_splat_pattern"
  | .dottedName => "dotted_name"
  | .elifClause => "elif_clause"
  | .ellipsis => "ellipsis"
  | .elseClause => "else_clause"
  | .exceptClause => "except_clause"
  | .exceptGroupClause => "except_group_clause"
  | .execStatement => "exec_statement"
  | .expressionList => "expression_list"
  | .expressionStatement => "expression_statement"
  | .falseLiteral => "false"
  | .finallyClause => "finally_clause"
  | .float => "float"
  | .forInClause => "for_in_clause"
  | .forStatement => "for_statement"
  | .formatExpression => "format_expression"
  | .formatSpecifier => "format_specifier"
  | .functionDefinition => "function_definition"
  | .futureImportStatement => "future_import_statement"
  | .generatorExpression => "generator_expression"
  | .genericType => "generic_type"
  | .globalStatement => "global_statement"
  | .identifier => "identifier"
  | .ifClause => "if_clause"
  | .ifStatement => "if_statement"
  | .importFromStatement => "import_from_statement"
  | .importStatement => "import_statement"
  | .integer => "integer"
  | .interpolation => "interpolation"
  | .keywordArgument => "keyword_argument"
  | .keywordSeparator => "keyword_separator"
  | .lambda => "lambda"
  | .lambdaParameters => "lambda_parameters"
  | .list => "list"
  | .listComprehension => "list_comprehension"
  | .listPattern => "list_pattern"
  | .listSplat => "list_splat"
  | .listSplatPattern => "list_splat_pattern"
  | .matchStatement => "match_statement"
  | .memberType => "member_type"
  | .moduleText => "module"
  | .namedExpression => "named_expression"
  | .noneLiteral => "none"
  | .nonlocalStatement => "nonlocal_statement"
  | .notOperator => "not_operator"
  | .pair => "pair"
  | .parameters => "parameters"
  | .parenthesizedExpression => "parenthesized_expression"
  | .passStatement => "pass_statement"
  | .patternList => "pattern_list"
  | .positionalSeparator => "positional_separator"
  | .printStatement => "print_statement"
  | .raiseStatement => "raise_statement"
  | .relativeImport => "relative_import"
  | .returnStatement => "return_statement"
  | .set => "set"
  | .setComprehension => "set_comprehension"
  | .slice => "slice"
  | .splatType => "splat_type"
  | .string => "string"
  | .subscript => "subscript"
  | .trueLiteral => "true"
  | .tryStatement => "try_statement"
  | .tuple => "tuple"
  | .tuplePattern => "tuple_pattern"
  | .type => "type"
  | .typeAliasStatement => "type_alias_statement"
  | .typeParameter => "type_parameter"
  | .typedDefaultParameter => "typed_default_parameter"
  | .typedParameter => "typed_parameter"
  | .unaryOperator => "unary_operator"
  | .unionType => "union_type"
  | .whileStatement => "while_statement"
  | .wildcardImport => "wildcard_import"
  | .withClause => "with_clause"
  | .withItem => "with_item"
  | .withStatement => "with_statement"
  | .yield => "yield"

/-- What a node is in its parent. -/
inductive Role where
  | newName
  | arguments
  | attribute
  | body
  | definition
  | function
  | left
  | moduleName
  | name
  | object
  | parameters
  | right
  | value
  deriving DecidableEq, Repr, Inhabited

/-- A node of a concrete syntax tree. -/
structure Concrete where
  construct : Construct
  role : Option Role
  extent : Extent
  /-- The source text of a name or a literal. -/
  text : String
  children : List Concrete
  deriving Inhabited

namespace Concrete

/-- The node in a role. -/
def withRole (role : Role) (c : Concrete) : Concrete := { c with role := some role }

/-- Whether the node is of a construct. -/
def isA (construct : Construct) (c : Concrete) : Bool := c.construct == construct

/-- The first child in a role. -/
def child? (role : Role) (c : Concrete) : Option Concrete :=
  c.children.find? (fun d => d.role == some role)

/-- The children that are not comments. -/
def parts (c : Concrete) : List Concrete := c.children.filter (fun d => !d.isA .comment)

end Concrete

end CodeAtlas.Python
