import TaintWeave.Category
import TaintWeave.Diagnostic.Code
import TaintWeave.Text.Quoted

/-!
# Diagnostics

A `Diagnostic` is a documented error of the tool: its class, its code, a text
and a hint. The constructors below are the causes, each with its wording.

* `Diagnostic.message`: the line that is reported.
-/

namespace TaintWeave

/-- The classes of documented errors. -/
inductive ErrorClass where
  /-- The class of all of them. -/
  | any
  /-- The table, the catalog, the mocks or the generated code cannot be built. -/
  | configuration
  /-- An operator belongs to no category. -/
  | unclassifiedOperator
  /-- A symbol or a replacement name occurs twice in a table. -/
  | duplicateOperator
  /-- Two rules apply to one node. -/
  | overlappingRule
  /-- A definition that does not exist is to be generated. -/
  | missingExport
  /-- A configuration cannot be loaded. -/
  | configFile
  /-- A document is not a syntax tree. -/
  | nodeConversion
  /-- A text is not a provenance label. -/
  | provenanceSyntax
  deriving DecidableEq, Repr

namespace ErrorClass

/-- All classes. -/
def all : List ErrorClass :=
  [any, configuration, unclassifiedOperator, duplicateOperator, overlappingRule,
   missingExport, configFile, nodeConversion, provenanceSyntax]

/-- The name of a class. -/
def name : ErrorClass → String
  | any => "OptaintError"
  | configuration => "ConfigurationError"
  | unclassifiedOperator => "UnclassifiedOperatorError"
  | duplicateOperator => "DuplicateOperatorError"
  | overlappingRule => "OverlappingRuleError"
  | missingExport => "MissingExportError"
  | configFile => "ConfigFileError"
  | nodeConversion => "NodeConversionError"
  | provenanceSyntax => "ProvenanceSyntaxError"

/-- The class with a name. -/
def ofName? (s : String) : Option ErrorClass := all.find? fun c => c.name == s

/-- The classes that contain a class, from itself to the widest. -/
def lineage : ErrorClass → List ErrorClass
  | any => [any]
  | configuration => [configuration, any]
  | nodeConversion => [nodeConversion, any]
  | provenanceSyntax => [provenanceSyntax, any]
  | c => [c, configuration, any]

/-- Whether errors of a class are errors of the configuration. -/
def isConfiguration (c : ErrorClass) : Bool := c.lineage.contains configuration

/-- The code of an error that has no code of its own. -/
def defaultCode : ErrorClass → ErrorCode
  | any | configuration => .internalError
  | unclassifiedOperator => .unclassifiedOperator
  | duplicateOperator => .duplicateSymbol
  | overlappingRule => .overlappingRules
  | missingExport => .missingExport
  | configFile => .configFile
  | nodeConversion => .badNode
  | provenanceSyntax => .badLabel

end ErrorClass

/-- A documented error. -/
structure Diagnostic where
  /-- Its class. -/
  errorClass : ErrorClass
  /-- What is wrong. -/
  text : String
  /-- Its code. -/
  code : ErrorCode := errorClass.defaultCode
  /-- How to mend it; may be empty. -/
  hint : String := ""
  deriving DecidableEq, Repr

namespace Diagnostic

/-- The line that is reported. -/
def message (d : Diagnostic) : String :=
  "[" ++ d.code.label ++ "] " ++ d.text ++
    if d.hint.isEmpty then "" else " (hint: " ++ d.hint ++ ")"

/-! ## Operator tables and rules -/

/-- A category has an unknown name, given as it is shown. -/
def unknownCategory (shown : String) : Diagnostic where
  errorClass := .configuration
  code := .unknownCategory
  text := "unknown operator category " ++ shown
  hint := "expected one of: " ++ String.intercalate ", " (Category.all.map Category.name)

/-- An operator has no category, or something else in its place. Both are given
    as they are shown. -/
def unclassifiedOperator (symbol : String) (category : Option String) : Diagnostic where
  errorClass := .unclassifiedOperator
  text := "operator " ++ symbol ++
    match category with
    | none => " has no category"
    | some shown => " has unsupported category " ++ shown

/-- A symbol is listed under two categories. -/
def duplicateSymbol (symbol : String) (first second : Category) : Diagnostic where
  errorClass := .duplicateOperator
  code := .duplicateSymbol
  text := "operator " ++ Text.quote symbol ++ " listed as both " ++ first.name ++ " and " ++
    second.name

/-- Two symbols have one replacement name. -/
def duplicateReplacement (name first second : String) : Diagnostic where
  errorClass := .duplicateOperator
  code := .duplicateReplacement
  text := "replacement name " ++ Text.quote name ++ " used for both " ++ Text.quote first ++
    " and " ++ Text.quote second

/-- A replacement name is not an identifier. -/
def invalidReplacement (name : String) : Diagnostic where
  errorClass := .configuration
  code := .invalidReplacement
  text := "replacement name " ++ Text.quote name ++ " is not an identifier"

/-- The native of an operator does not exist. -/
def unknownNative (native symbol : String) : Diagnostic where
  errorClass := .configuration
  code := .unknownNative
  text := "no native semantics " ++ Text.quote native ++ " for operator " ++ Text.quote symbol

/-- No native is known for an operator. -/
def unregisteredNative (symbol : String) : Diagnostic where
  errorClass := .configuration
  code := .unknownNative
  text := "no native semantics registered for operator " ++ Text.quote symbol

/-- An operator is not in the table. -/
def unknownSymbol (symbol : String) : Diagnostic where
  errorClass := .configuration
  code := .unknownSymbol
  text := "operator " ++ Text.quote symbol ++ " is not in the operator table"

/-- A name replaces no operator of the table. -/
def unknownReplacement (name : String) : Diagnostic where
  errorClass := .configuration
  code := .unknownSymbol
  text := "no operator is replaced by " ++ Text.quote name

/-- Two rules apply to the nodes of a type with an operator. -/
def overlappingRules (first second nodeType symbol : String) : Diagnostic where
  errorClass := .overlappingRule
  text := "rules for " ++ Text.quote first ++ " and " ++ Text.quote second ++ " both match " ++
    nodeType ++ " nodes with operator " ++ Text.quote symbol

/-- A replacement would be replaced again. -/
def unstableReplacement (name symbol : String) : Diagnostic where
  errorClass := .overlappingRule
  text := "replacement name " ++ Text.quote name ++ " for " ++ Text.quote symbol ++
    " would be matched again by a function rule"

/-! ## Mocks and generated code -/

/-- A taint substrate lacks operations. -/
def incompleteSubstrate (name : String) : Diagnostic where
  errorClass := .configuration
  text := name ++ " does not implement the taint substrate protocol"
  hint := "needs is_tainted, unwrap, wrap and provenance_name"

/-- There is no template for a category, given as it is shown. -/
def missingTemplate (category : String) : Diagnostic where
  errorClass := .configuration
  code := .unclassifiedOperator
  text := "no code template for category " ++ category

/-- A definition is to be generated for a name, given as it is shown, without a
    mock. -/
def missingExport (shown : String) (hint : String := "") : Diagnostic where
  errorClass := .missingExport
  text := "requested export " ++ shown ++ " has no live mock definition"
  hint := hint

/-- The generated code is not well-formed. The report of the compiler follows
    the words that say so. -/
def invalidGeneratedCode (report : String) : Diagnostic where
  errorClass := .configuration
  code := .invalidGeneratedCode
  text := "generated code does not compile" ++ report

/-! ## Configuration -/

/-- A configuration is not well-formed. -/
def configFile (text : String) : Diagnostic where
  errorClass := .configFile
  text := text

/-- A configuration has unknown keys. -/
def unknownKeys (unknown known : List String) : Diagnostic where
  errorClass := .configFile
  code := .configKey
  text := "unknown configuration key(s): " ++ String.intercalate ", " unknown
  hint := "valid keys: " ++ String.intercalate ", " known

/-! ## Documents and labels -/

/-- A document is not a syntax tree. -/
def nodeConversion (text : String) (hint : String := "") : Diagnostic where
  errorClass := .nodeConversion
  text := text
  hint := hint

/-- A text, given as it is shown, is not a label. -/
def provenanceSyntax (label : String) (detail : String := "") : Diagnostic where
  errorClass := .provenanceSyntax
  text := "cannot parse provenance label " ++ label ++
    if detail.isEmpty then "" else ": " ++ detail

end Diagnostic

end TaintWeave
