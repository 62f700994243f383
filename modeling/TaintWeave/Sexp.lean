import TaintWeave.Value.Basic

/-!
# S-expressions

Trees and derivations are shown as S-expressions on one line. A symbol is
written bare and a text in double quotes, with a backslash before a double quote
and a backslash; a list is written in parentheses.

* `Sexp.write`: the text of an S-expression.
* `Value.toSexp`: a value as an S-expression.
-/

namespace TaintWeave

/-- An S-expression. -/
inductive Sexp where
  /-- A bare atom. -/
  | symbol (s : String)
  /-- A quoted atom. -/
  | text (s : String)
  /-- A list. -/
  | list (items : List Sexp)
  deriving Inhabited

namespace Sexp

/-- The characters of a text, with others in place of one of them. -/
def replaceAll (c : Char) (others cs : List Char) : List Char :=
  cs.flatMap fun d => if d = c then others else [d]

/-- How characters stand between quotes: with every backslash doubled, and then
    with a backslash before every double quote. -/
def escape (cs : List Char) : List Char :=
  replaceAll '"' ['\\', '"'] (replaceAll '\\' ['\\', '\\'] cs)

/-- A text in quotes. -/
def writeText (s : String) : String := String.ofList ('"' :: escape s.toList ++ ['"'])

mutual

/-- The text of an S-expression. -/
def write : Sexp → String
  | symbol s => s
  | text s => writeText s
  | list items => "(" ++ String.intercalate " " (writeAll items) ++ ")"

/-- The texts of the items of a list. -/
def writeAll : List Sexp → List String
  | [] => []
  | e :: es => write e :: writeAll es

end

/-- A truth value. -/
def boolean (b : Bool) : Sexp := symbol (if b then "true" else "false")

/-- A number. -/
def number (n : Number) : Sexp := symbol (n.write .plain)

end Sexp

mutual

/-- A value as an S-expression. What has no form of its own is a symbol that
    reads as the value is shown. -/
def Value.toSexp : Value → Sexp
  | .symbol s => .symbol s
  | .text s => .text s
  | .boolean b => .boolean b
  | .number n => .number n
  | .sequence _ _ items => .list (Value.toSexps items)
  | v => .symbol (v.display.getD "")

/-- The items of a sequence as S-expressions. -/
def Value.toSexps : List Value → List Sexp
  | [] => []
  | v :: vs => v.toSexp :: Value.toSexps vs

end

end TaintWeave
