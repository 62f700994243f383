import TaintWeave.Proofs.Provenance.Nested

/-!
# Well-formed derivations

Not every derivation can be read off its label: a source `a,b` looks like two operands, and a text
with an odd parenthesis ends too early. The derivations without such parts are well-formed. This
depends on the symbols of the operators, and these must not look like other parts of a label either.

* `Legible`: the symbols with which labels can be read.
* `Derivation.WellFormed`: the derivations that can be read off their labels.
-/

namespace TaintWeave

open Reading

/-- Symbols that no other part of a label can be taken for. -/
structure Legible (symbols : List String) : Prop where
  nonempty : symbols ≠ []
  ne_empty : ∀ s ∈ symbols, s ≠ ""
  ne_value : ∀ s ∈ symbols, s ≠ "value"
  chars : ∀ s ∈ symbols, ∀ c ∈ s.toList, '!' ≤ c ∧ c ≤ '~' ∧ c ∉ ['(', ')', ',', '"', '\\']

/-- A derivation that can be read off its label. An operation has one or two operands and one of
    the symbols; the text of an operand without taint has nested parentheses; the name of a source
    is not empty and has neither parentheses nor commas in it. -/
inductive Derivation.WellFormed (symbols : List String) : Derivation → Prop
  | operation {symbol : String} {operands : List Derivation} (hsymbol : symbol ∈ symbols)
      (hlength : operands.length = 1 ∨ operands.length = 2)
      (hoperands : ∀ d ∈ operands, WellFormed symbols d) :
      WellFormed symbols (.operation symbol operands)
  | value {text : String} (htext : Nested text.toList) : WellFormed symbols (.value text)
  | source {name : String} (hne : name ≠ "")
      (hchars : ∀ c ∈ name.toList, c ≠ '(' ∧ c ≠ ')' ∧ c ≠ ',') : WellFormed symbols (.source name)

/-! ## Characters of names -/

theorem isSourceChar_iff {c : Char} : isSourceChar c = true ↔ c ≠ '(' ∧ c ≠ ')' ∧ c ≠ ',' := by
  simp [isSourceChar, isPlain, and_assoc]

/-- The characters of symbols may stand in names too. -/
theorem Legible.isSourceChar {symbols : List String} (h : Legible symbols) {s : String}
    (hs : s ∈ symbols) : ∀ c ∈ s.toList, isSourceChar c = true := by
  intro c hc
  obtain ⟨-, -, hspecial⟩ := h.chars s hs c hc
  simp only [List.mem_cons, not_or] at hspecial
  exact isSourceChar_iff.2 ⟨hspecial.1, hspecial.2.1, hspecial.2.2.1⟩

/-- A rest of a text before which a name is over. -/
def Ends (rest : List Char) : Prop := ∀ c ∈ rest.head?, isSourceChar c = false

theorem ends_nil : Ends [] := nofun

theorem ends_cons {c : Char} {rest : List Char} (h : isSourceChar c = false) :
    Ends (c :: rest) := by
  rintro _ ⟨⟩
  exact h

/-! ## Texts of derivations -/

namespace Derivation

theorem toList_toText_unary (symbol : String) (d : Derivation) :
    (operation symbol [d]).toText.toList = symbol.toList ++ '(' :: (d.toText.toList ++ [')']) := by
  simp [toText, toTexts]

theorem toList_toText_binary (symbol : String) (d e : Derivation) :
    (operation symbol [d, e]).toText.toList =
      symbol.toList ++ '(' :: (d.toText.toList ++ ',' :: (e.toText.toList ++ [')'])) := by
  have hoperands : String.intercalate "," [d.toText, e.toText] = d.toText ++ "," ++ e.toText := rfl
  simp [toText, toTexts, hoperands]

theorem toList_toText_value (text : String) :
    (value text).toText.toList = "value(".toList ++ (text.toList ++ [')']) := by
  simp [toText]

end Derivation

end TaintWeave
