import TaintWeave.Proofs.Provenance.RoundTrip
import TaintWeave.Proofs.Taint.Exactness

/-!
# Labels that lead to another derivation

The label on a tainted value is the text of the derivation of its term. Of what a well-formed
derivation asks, terms of standard mocks provide all but one thing: an operand without taint may
have any text. So a label leads back to the derivation if and only if the parentheses of all such
texts are nested. Any other label is reported, or it is read as another derivation with the same
label: a text can close what it has not opened, and so play the part of several operands.

* `Derivation.wellFormed_iff`: what nested texts add to the form of a derivation.
* `Term.formed_of_evaluate`: the derivations of terms with a value have this form.
* `Term.read_label_iff_nested`: which labels lead back.
* `Term.read_label_of_unbalanced_text`: a label that is read as another derivation.
-/

namespace TaintWeave

namespace Derivation

variable {symbols : List String}

/-- The texts of the operands without taint, from left to right. -/
def texts (d : Derivation) : List String :=
  d.walk.filterMap fun
    | value text => some text
    | _ => none

/-- The texts in an operation are those in its operands. -/
theorem texts_operation (symbol : String) (ds : List Derivation) :
    (operation symbol ds).texts = ds.flatMap texts := by
  rw [texts, walk, walkAll_eq_flatMap, List.filterMap_cons_none rfl, List.filterMap_flatMap]
  rfl

/-- A derivation that is well-formed but for the texts of operands without taint. -/
inductive Formed (symbols : List String) : Derivation → Prop
  | operation {symbol : String} {operands : List Derivation} (hsymbol : symbol ∈ symbols)
      (hlength : operands.length = 1 ∨ operands.length = 2)
      (hoperands : ∀ d ∈ operands, Formed symbols d) : Formed symbols (.operation symbol operands)
  | value (text : String) : Formed symbols (.value text)
  | source {name : String} (hne : name ≠ "")
      (hchars : ∀ c ∈ name.toList, c ≠ '(' ∧ c ≠ ')' ∧ c ≠ ',') : Formed symbols (.source name)

/-- A well-formed derivation has the form, and texts with nested parentheses. -/
theorem WellFormed.formed {d : Derivation} (h : d.WellFormed symbols) :
    d.Formed symbols ∧ ∀ text ∈ d.texts, Nested text.toList := by
  induction h with
  | operation hsymbol hlength _ ih =>
    refine ⟨.operation hsymbol hlength fun d hd => (ih d hd).1, ?_⟩
    rw [texts_operation]
    intro text htext
    obtain ⟨d, hd, htext⟩ := List.mem_flatMap.1 htext
    exact (ih d hd).2 text htext
  | value htext =>
    exact ⟨.value _, List.forall_mem_singleton.2 htext⟩
  | source hne hchars => exact ⟨.source hne hchars, nofun⟩

/-- A derivation of the form is well-formed if its texts have nested parentheses. -/
theorem Formed.wellFormed {d : Derivation} (h : d.Formed symbols)
    (htexts : ∀ text ∈ d.texts, Nested text.toList) : d.WellFormed symbols := by
  induction h with
  | operation hsymbol hlength _ ih =>
    rw [texts_operation] at htexts
    refine .operation hsymbol hlength fun d hd => ih d hd fun text htext => ?_
    exact htexts text (List.mem_flatMap.2 ⟨d, hd, htext⟩)
  | value text => exact .value (htexts text List.mem_cons_self)
  | source hne hchars => exact .source hne hchars

/-- What nested texts add to the form of a derivation. -/
theorem wellFormed_iff {d : Derivation} :
    d.WellFormed symbols ↔ d.Formed symbols ∧ ∀ text ∈ d.texts, Nested text.toList :=
  ⟨WellFormed.formed, fun h => h.1.wellFormed h.2⟩

end Derivation

/-- The symbol of a mock of a table is one of the symbols of the table. -/
theorem Table.symbol_mem_of_mem_mocks {table : Table} {name : String} {mock : Mock}
    (h : (name, mock) ∈ table.mocks) : mock.spec.symbol ∈ table.specs.map Entry.symbol := by
  obtain ⟨spec, hspec, hmock⟩ := List.mem_filterMap.1 h
  obtain ⟨native, -, heq⟩ := Option.map_eq_some_iff.1 hmock
  cases heq
  exact List.mem_map_of_mem hspec

/-- Every operator has one operand or two. -/
theorem Category.arity_eq_one_or_two (category : Category) :
    category.arity = 1 ∨ category.arity = 2 := by
  cases category with
  | unary | function => exact .inl rfl
  | binary | equality => exact .inr rfl

namespace Term

variable {α : Type} {ns : Namespace} {evaluator : Evaluator} {values : α → Value}
  {symbols : List String}

/-- The sources among the leaves have names that may stand in labels. -/
def NamesSources (values : α → Value) : Prop :=
  ∀ a name, (values a).label? = some name →
    name ≠ "" ∧ ∀ c ∈ name.toList, c ≠ '(' ∧ c ≠ ')' ∧ c ≠ ','

/-- The derivation of a leaf has the form of a label. -/
theorem formed_leaf (hsources : NamesSources values) {a : α} {d : Derivation}
    (h : (Term.leaf a).derivation ns evaluator values = .ok d) : d.Formed symbols := by
  rw [derivation] at h
  split at h
  · rename_i name hname
    cases h
    obtain ⟨hne, hchars⟩ := hsources a name hname
    exact .source hne hchars
  · cases h
    exact .value _

mutual

/-- The derivation of a term that has a value has the form of a label. -/
theorem formed_of_evaluate (hsources : NamesSources values)
    (hsymbols : ∀ name mock, ns.get name = .ok mock → mock.spec.symbol ∈ symbols) :
    ∀ (t : Term α) {v : Value} {s s' : RunState} {d : Derivation},
      (t.evaluate ns evaluator values).run.run s = (.ok v, s') →
        t.derivation ns evaluator values = .ok d → d.Formed symbols
  | .leaf a, v, s, s', d, _, hd => formed_leaf hsources hd
  | .call name operands, v, s, s', d, h, hd => by
    rw [evaluate] at h
    obtain ⟨vs, s₁, hvs, h⟩ := Run.bind_eq_ok h
    obtain ⟨mock, s₂, hmock, h⟩ := Run.bind_eq_ok h
    obtain ⟨hget, _⟩ := Run.lift_eq_ok hmock
    obtain ⟨hlength, -⟩ := Mock.call_eq_ok h
    rw [derivation] at hd
    split at hd
    · -- Without exposed sources, the call stands for its value.
      obtain ⟨r, -, hr⟩ := bind_eq_ok.1 hd
      cases hr
      exact .value _
    · obtain ⟨mock', hget', hd⟩ := bind_eq_ok.1 hd
      obtain ⟨ds, hds, hd⟩ := bind_eq_ok.1 hd
      cases hd
      rw [hget] at hget'
      cases hget'
      obtain ⟨hall, hcount⟩ := formedAll_of_evaluateAll hsources hsymbols operands hvs hds
      refine .operation (hsymbols name mock hget) ?_ hall
      rw [hcount, hlength]
      exact mock.spec.category.arity_eq_one_or_two

/-- The derivations of terms that have values have the form of labels. -/
theorem formedAll_of_evaluateAll (hsources : NamesSources values)
    (hsymbols : ∀ name mock, ns.get name = .ok mock → mock.spec.symbol ∈ symbols) :
    ∀ (ts : List (Term α)) {vs : List Value} {s s' : RunState} {ds : List Derivation},
      (evaluateAll ns evaluator values ts).run.run s = (.ok vs, s') →
        derivations ns evaluator values ts = .ok ds →
          (∀ d ∈ ds, d.Formed symbols) ∧ ds.length = vs.length
  | [], vs, s, s', ds, h, hds => by
    cases h
    cases hds
    exact ⟨nofun, rfl⟩
  | t :: ts, vs, s, s', ds, h, hds => by
    rw [evaluateAll] at h
    obtain ⟨v, s₁, hv, h⟩ := Run.bind_eq_ok h
    obtain ⟨rest, s₂, hrest, h⟩ := Run.bind_eq_ok h
    cases h
    obtain ⟨d, hd, hds⟩ := bind_eq_ok.1 hds
    obtain ⟨ds', hds', hds⟩ := bind_eq_ok.1 hds
    cases hds
    obtain ⟨hall, hcount⟩ := formedAll_of_evaluateAll hsources hsymbols ts hrest hds'
    refine ⟨List.forall_mem_cons.2 ⟨formed_of_evaluate hsources hsymbols t hv hd, hall⟩, ?_⟩
    rw [List.length_cons, List.length_cons, hcount]

end

end Term

/-! ## Standard mocks -/

/-- No equality among the standard operators gives one of its operands back. -/
theorem Namespace.decidesEqualities_standard {catalog : Catalog} {ns : Namespace}
    (hcatalog : Catalog.ofTable .standard = .ok catalog) (hns : build catalog = .ok ns) :
    ns.DecidesEqualities := by
  have hmocks : ∀ m ∈ Table.standard.mocks,
      m.2.spec.category = .equality → m.2.native.isChoice = false := by decide +kernel
  intro name mock hget
  exact hmocks (name, mock) (mem_mocks_standard hcatalog hns hget)

namespace Term

variable {α : Type} {ns : Namespace} {evaluator : Evaluator} {values : α → Value}

/-- The label on the value of a term leads back to the derivation of the term if and only if the
    parentheses in all texts of operands without taint are nested. What else may be read off it
    has the same label, and a label off which nothing is read is reported as such. -/
theorem read_label_iff_nested {catalog : Catalog} {t : Term α} {v : Value} {s s' : RunState}
    (hcatalog : Catalog.ofTable .standard = .ok catalog) (hns : Namespace.build catalog = .ok ns)
    (hevaluator : evaluator.Untainted) (hsources : NamesSources values)
    (h : (t.evaluate ns evaluator values).run.run s = (.ok v, s')) (htainted : ¬v.Untainted) :
    ∃ d label, t.derivation ns evaluator values = .ok d ∧ v.label? = some label ∧
      (Derivation.read .standard label = .ok d ↔ ∀ text ∈ d.texts, Nested text.toList) ∧
      (∀ other, Derivation.read .standard label = .ok other → other.toText = d.toText) ∧
      ∀ diagnostic, Derivation.read .standard label = .error diagnostic →
        diagnostic.errorClass = .provenanceSyntax := by
  have hdecides := Namespace.decidesEqualities_standard hcatalog hns
  obtain ⟨d, hd, htext, -⟩ := (exact_of_evaluate hevaluator (.inr hdecides) t h).derived
  obtain ⟨label, hlabel⟩ := Option.ne_none_iff_exists'.1 htainted
  rw [Value.inLabel_of_label? hlabel] at htext
  have hformed : d.Formed (Table.standard.specs.map Entry.symbol) :=
    formed_of_evaluate hsources (fun name mock hget =>
      Table.symbol_mem_of_mem_mocks (Namespace.mem_mocks_standard hcatalog hns hget)) t h hd
  refine ⟨d, label, hd, hlabel, ?_, ?_, fun _ => Derivation.errorClass_of_read⟩
  · rw [Derivation.read_eq_ok_iff Derivation.legible_standard, Derivation.wellFormed_iff,
      and_iff_left htext, and_iff_right hformed]
  · intro other hother
    rw [htext, ((Derivation.read_eq_ok_iff Derivation.legible_standard).1 hother).2]

/-- The term `!(x + "f(y)")` for a tainted `x`: the label leads back to its derivation. -/
theorem read_label_iff_nested_call :
    ∃ catalog ns v s s' label, Catalog.ofTable .standard = .ok catalog ∧
      Namespace.build catalog = .ok ns ∧
      (evaluate ns (fun _ => .ok .null)
        (fun b => bif b then .tainted 0 (.text "a") "src" else .text "f(y)")
        (.call "__logical_not__" [.call "__plus__" [.leaf true, .leaf false]])).run.run s =
        (.ok v, s') ∧
      ¬v.Untainted ∧ v.label? = some label ∧
      Derivation.read .standard label =
        .ok (.operation "!" [.operation "+" [.source "src", .value "f(y)"]]) := by
  obtain ⟨catalog, hcatalog⟩ := Catalog.exists_ofTable_standard
  have hbuild := Namespace.build_eq (Table.valid_of_ofEntries Table.ofEntries_standard)
    (Catalog.rules_of_ofSpecs hcatalog)
  have hevaluator : Evaluator.Untainted fun _ => .ok .null := fun _ _ h => by
    cases h
    rfl
  have hsources : NamesSources
      (fun b => bif b then .tainted 0 (.text "a") "src" else .text "f(y)" : Bool → Value) := by
    rintro (_ | _) name ⟨⟩
    exact ⟨by decide, by simp⟩
  have hrun : (evaluate (Namespace.ofTable Table.standard catalog) (fun _ => .ok .null)
      (fun b => bif b then .tainted 0 (.text "a") "src" else .text "f(y)")
      (.call "__logical_not__" [.call "__plus__" [.leaf true, .leaf false]])).run.run
        { records := { limit := none } } =
      (.ok (.tainted 1 (.boolean false) "!(+(src,value(f(y))))"),
        { fresh := 2, records := { limit := none } }) := rfl
  have htext : Nested "f(y)".toList := .plain rfl (.group (.plain rfl .nil) .nil)
  obtain ⟨d, label, hd, hlabel, hread, -, -⟩ :=
    read_label_iff_nested hcatalog hbuild hevaluator hsources hrun nofun
  cases hd
  exact ⟨catalog, _, _, _, _, label, hcatalog, hbuild, hrun, nofun, hlabel,
    hread.2 (List.forall_mem_singleton.2 htext)⟩

/-- The term `!(x + "a)),+(value(b")` for a tainted `x`: its label is read, but as the derivation
    of an operation with two operands. The text closes the operand and the sum that it is in, and
    opens another sum with another operand. -/
theorem read_label_of_unbalanced_text :
    ∃ catalog ns v s s' d label other, Catalog.ofTable .standard = .ok catalog ∧
      Namespace.build catalog = .ok ns ∧
      NamesSources
        (fun b => bif b then .tainted 0 (.text "a") "src" else .text "a)),+(value(b" :
          Bool → Value) ∧
      (evaluate ns (fun _ => .ok .null)
        (fun b => bif b then .tainted 0 (.text "a") "src" else .text "a)),+(value(b")
        (.call "__logical_not__" [.call "__plus__" [.leaf true, .leaf false]])).run.run s =
        (.ok v, s') ∧
      derivation ns (fun _ => .ok .null)
        (fun b => bif b then .tainted 0 (.text "a") "src" else .text "a)),+(value(b")
        (.call "__logical_not__" [.call "__plus__" [.leaf true, .leaf false]]) = .ok d ∧
      d = .operation "!" [.operation "+" [.source "src", .value "a)),+(value(b"]] ∧
      v.label? = some label ∧ Derivation.read .standard label = .ok other ∧
      other = .operation "!"
        [.operation "+" [.source "src", .value "a"], .operation "+" [.value "b"]] ∧
      other ≠ d := by
  obtain ⟨catalog, hcatalog⟩ := Catalog.exists_ofTable_standard
  have hbuild := Namespace.build_eq (Table.valid_of_ofEntries Table.ofEntries_standard)
    (Catalog.rules_of_ofSpecs hcatalog)
  have hsources : NamesSources
      (fun b => bif b then .tainted 0 (.text "a") "src" else .text "a)),+(value(b" :
        Bool → Value) := by
    rintro (_ | _) name ⟨⟩
    exact ⟨by decide, by simp⟩
  have hrun : (evaluate (Namespace.ofTable Table.standard catalog) (fun _ => .ok .null)
      (fun b => bif b then .tainted 0 (.text "a") "src" else .text "a)),+(value(b")
      (.call "__logical_not__" [.call "__plus__" [.leaf true, .leaf false]])).run.run
        { records := { limit := none } } =
      (.ok (.tainted 1 (.boolean false) "!(+(src,value(a)),+(value(b)))"),
        { fresh := 2, records := { limit := none } }) := rfl
  have hsum : Derivation.WellFormed (Table.standard.specs.map Entry.symbol)
      (.operation "+" [.source "src", .value "a"]) := by
    refine .operation (by decide +kernel) (.inr rfl) (List.forall_mem_cons.2 ⟨?_, ?_⟩)
    · exact .source (by decide) (by simp)
    · exact List.forall_mem_singleton.2 (.value (.plain rfl .nil))
  have hrest : Derivation.WellFormed (Table.standard.specs.map Entry.symbol)
      (.operation "+" [.value "b"]) :=
    .operation (by decide +kernel) (.inl rfl)
      (List.forall_mem_singleton.2 (.value (.plain rfl .nil)))
  have hother : Derivation.WellFormed (Table.standard.specs.map Entry.symbol)
      (.operation "!"
        [.operation "+" [.source "src", .value "a"], .operation "+" [.value "b"]]) :=
    .operation (by decide +kernel) (.inr rfl)
      (List.forall_mem_cons.2 ⟨hsum, List.forall_mem_singleton.2 hrest⟩)
  refine ⟨catalog, _, _, _, _, _, _, _, hcatalog, hbuild, hsources, hrun, rfl, rfl, rfl,
    (Derivation.read_eq_ok_iff Derivation.legible_standard).2 ⟨hother, rfl⟩, rfl, ?_⟩
  intro heq
  have hlength := congrArg (fun d => d.operands.length) heq
  cases hlength

end Term

end TaintWeave
