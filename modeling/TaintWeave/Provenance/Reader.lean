import TaintWeave.Failure
import TaintWeave.Operator.Table
import TaintWeave.Provenance.Derivation

/-!
# Reading labels

The grammar of labels, with ordered choice and greedy repetition:

    label    = value / derived / source
    value    = "value(" balanced ")"
    balanced = text without parentheses, then nested*
    nested   = "(" balanced ")", then text without parentheses
    derived  = operator "(" operands ")"
    operands = label more?
    more     = "," label
    operator = the longest symbol of the table that stands here
    source   = characters other than parentheses and commas, at least one

A label that does not match is reported with the offset of the failure that has
got farthest, counting the rules above alone; a label that matches in part, with
the end of that part.

* `Derivation.read`: the derivation of a label.
-/

namespace TaintWeave.Reading

/-- A step of reading, which may fail. The state is the least length that was
    left of the text when a rule failed. -/
abbrev Step := OptionT (StateM Nat)

/-- What has been read, and the rest of the text. -/
abbrev Parsed (α : Type) := α × List Char

/-- Notes that a rule fails where a rest of the text begins. -/
def note (cs : List Char) : StateM Nat Unit := modify (min cs.length)

/-- A rule that begins at a rest of the text: its failure is noted. -/
def rule {α : Type} (cs : List Char) (step : Step α) : Step α :=
  step <|> (do note cs; failure)

/-- Reads given characters. -/
def literal (s : String) (cs : List Char) : Step (List Char) :=
  if s.toList.isPrefixOf cs then pure (cs.drop s.length) else failure

/-- Whether a character is no parenthesis. -/
def isPlain (c : Char) : Bool := c ≠ '(' && c ≠ ')'

/-- Whether a character may stand in the name of a source. -/
def isSourceChar (c : Char) : Bool := isPlain c && c ≠ ','

/-- Reads nested texts as long as there are any, and gives the rest. There is no
    attempt at the end of the text. -/
def nestedTexts : Nat → List Char → StateM Nat (List Char)
  | _, [] => pure []
  | fuel + 1, '(' :: inner => do
    let rest ← nestedTexts fuel (inner.dropWhile isPlain)
    match rest with
    | ')' :: tail => nestedTexts fuel (tail.dropWhile isPlain)
    | _ =>
      note ('(' :: inner)
      return '(' :: inner
  | _, cs => do
    note cs
    return cs

/-- Reads a text in which parentheses are nested, and gives the rest. -/
def balanced (cs : List Char) : StateM Nat (List Char) :=
  nestedTexts cs.length (cs.dropWhile isPlain)

/-- The symbols in the order in which they are tried: longer ones first. Without
    symbols, nothing at all counts as one. -/
def trialOrder (symbols : List String) : List String :=
  if symbols.isEmpty then [""] else symbols.mergeSort fun s t => t.length ≤ s.length

/-- Reads an operator. -/
def operator (symbols : List String) (cs : List Char) : Step (Parsed String) :=
  rule cs do
    match (trialOrder symbols).find? fun s => s.toList.isPrefixOf cs with
    | some s => return (s, cs.drop s.length)
    | none => failure

/-- Reads the name of a source. -/
def source (cs : List Char) : Step (Parsed Derivation) :=
  rule cs do
    let name := cs.takeWhile isSourceChar
    if name.isEmpty then failure
    return (.source (String.ofList name), cs.dropWhile isSourceChar)

/-- Reads an operand without taint. -/
def value (cs : List Char) : Step (Parsed Derivation) :=
  rule cs do
    let inside ← literal "value(" cs
    let rest ← balanced inside
    let tail ← literal ")" rest
    return (.value (String.ofList (inside.take (inside.length - rest.length))), tail)

/-- Reads one operand or two; there is no attempt at a second one at the end of
    the text. -/
def operands (label : List Char → Step (Parsed Derivation)) (cs : List Char) : Step (Parsed (List Derivation)) :=
  rule cs do
    let (first, rest) ← label cs
    if rest.isEmpty then return ([first], rest)
    let more := rule rest do
      let (second, tail) ← label (← literal "," rest)
      return ([first, second], tail)
    more <|> pure ([first], rest)

/-- Reads an operation. -/
def derived (label : List Char → Step (Parsed Derivation)) (symbols : List String) (cs : List Char) :
    Step (Parsed Derivation) :=
  rule cs do
    let (symbol, rest) ← operator symbols cs
    let (parts, tail) ← operands label (← literal "(" rest)
    return (.operation symbol parts, ← literal ")" tail)

/-- Reads a label. Every operation takes a parenthesis off the text, so that its
    length bounds the nesting. -/
def label (symbols : List String) : Nat → List Char → Step (Parsed Derivation)
  | 0, cs => rule cs failure
  | fuel + 1, cs =>
    rule cs (value cs <|> derived (label symbols fuel) symbols cs <|> source cs)

end TaintWeave.Reading

namespace TaintWeave.Derivation

/-- The outcome of reading a whole label: the derivation, or the offset to
    report. -/
def readChars (symbols : List String) (cs : List Char) : Except Nat Derivation :=
  match (Reading.label symbols (cs.length + 1) cs).run cs.length with
  | (some (d, []), _) => .ok d
  | (some (_, rest), _) => .error (cs.length - rest.length)
  | (none, left) => .error (cs.length - left)

/-- The derivation of a label over the operators of a table. -/
def read (table : Table) (text : String) : Except Diagnostic Derivation :=
  if text.isEmpty then .error (.provenanceSyntax (Text.quote text) "empty label")
  else
    match readChars (table.specs.map Entry.symbol) text.toList with
    | .ok d => .ok d
    | .error offset =>
      .error (.provenanceSyntax (Text.quote text)
        ("unexpected text at offset " ++ toString offset))

/-- The derivation of what stands as a label; only a text can be one. -/
def ofValue (table : Table) (v : Value) : Except Failure Derivation :=
  match v.text? with
  | some text => read table text
  | none =>
    if v.kind = .null then .error (.diagnostic (.provenanceSyntax (v.display.getD "") "empty label"))
    else .error (.fault .missingPart)

end TaintWeave.Derivation
