/-!
# Error codes

Every documented error has a code `OPT-NNNN`. The code tells the phase in which
the error was found, by which the command line picks its exit code.

* `ErrorCode.label`: the text of a code.
* `ErrorCode.all`: the codes in order.
-/

namespace TaintWeave

/-- The phases of the tool. -/
inductive Phase where
  /-- The operator table and its rules are built. -/
  | catalog
  /-- The mocks are built. -/
  | mocks
  /-- Code is generated. -/
  | codegen
  /-- A configuration is loaded. -/
  | config
  /-- A document or a label is read. -/
  | input
  /-- Anything else. -/
  | internal
  deriving DecidableEq, Repr

/-- The name of a phase. -/
def Phase.name : Phase → String
  | catalog => "catalog"
  | mocks => "mocks"
  | codegen => "codegen"
  | config => "config"
  | input => "input"
  | internal => "internal"

/-- The documented errors. -/
inductive ErrorCode where
  | unknownCategory | duplicateSymbol | duplicateReplacement | unknownNative
  | overlappingRules | unknownSymbol | invalidReplacement
  | unclassifiedOperator | missingExport | invalidGeneratedCode
  | configFile | configKey | badNode | badLabel | internalError
  deriving DecidableEq, Repr

namespace ErrorCode

/-- The number of a code. -/
def number : ErrorCode → Nat
  | unknownCategory => 1001
  | duplicateSymbol => 1002
  | duplicateReplacement => 1003
  | unknownNative => 1004
  | overlappingRules => 1005
  | unknownSymbol => 1006
  | invalidReplacement => 1007
  | unclassifiedOperator => 2001
  | missingExport => 2101
  | invalidGeneratedCode => 2102
  | configFile => 3001
  | configKey => 3002
  | badNode => 4001
  | badLabel => 4101
  | internalError => 9001

/-- The phase of a code. -/
def phase : ErrorCode → Phase
  | unknownCategory | duplicateSymbol | duplicateReplacement | unknownNative
  | overlappingRules | unknownSymbol | invalidReplacement => .catalog
  | unclassifiedOperator => .mocks
  | missingExport | invalidGeneratedCode => .codegen
  | configFile | configKey => .config
  | badNode | badLabel => .input
  | internalError => .internal

/-- What a code stands for. -/
def title : ErrorCode → String
  | unknownCategory => "unknown operator category"
  | duplicateSymbol => "operator listed twice"
  | duplicateReplacement => "replacement name reused"
  | unknownNative => "native semantics not found"
  | overlappingRules => "rewrite rules overlap"
  | unknownSymbol => "symbol not in operator table"
  | invalidReplacement => "replacement name is not an identifier"
  | unclassifiedOperator => "no mock factory for category"
  | missingExport => "export has no live definition"
  | invalidGeneratedCode => "generated code does not compile"
  | configFile => "invalid configuration file"
  | configKey => "unknown configuration key"
  | badNode => "malformed ESTree node"
  | badLabel => "malformed provenance label"
  | internalError => "internal error"

/-- All codes. -/
def all : List ErrorCode :=
  [unknownCategory, duplicateSymbol, duplicateReplacement, unknownNative, overlappingRules,
   unknownSymbol, invalidReplacement, unclassifiedOperator, missingExport,
   invalidGeneratedCode, configFile, configKey, badNode, badLabel, internalError]

/-- The text of a code. -/
def label (c : ErrorCode) : String := "OPT-" ++ toString c.number

/-- The code with a text. -/
def ofLabel? (s : String) : Option ErrorCode := all.find? fun c => c.label == s

/-- How a code is shown. -/
def display (c : ErrorCode) : String :=
  "ErrorCode('" ++ c.label ++ "', " ++ c.phase.name.toUpper ++ ")"

end ErrorCode

end TaintWeave
