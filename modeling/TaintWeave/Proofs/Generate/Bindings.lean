import TaintWeave.Proofs.Generate.Layout
import TaintWeave.Proofs.Generate.Selection
import TaintWeave.Proofs.Taint.Namespace

/-!
# Names bound by generated modules

What the text of a generated module binds at top level can be read off its lines: a line that is
not indented imports names, starts the definition of a function or binds one name to a value, and
all others bind nothing. Names are compared in their normal form; how they are normalized is a
parameter, of which nothing is asked but that it leaves plain names alone.

A module that is rendered binds the names that it needs itself and those of its mocks, in a fixed
order, if the substrate is taken from what is the name of a module. They are all different if and
only if those of the mocks are, and none of these is one that the module needs; and nothing keeps a
mock from having such a name.

* `Generated.Statement`, `Generated.statements`: what the lines of a text bind.
* `Generated.boundNames`, `Generated.definedNames`: the names that a text binds, and those of its
  functions.
* `Generated.statements_code`: the statements of a module that is rendered.
* `Generated.mem_definedNames`: it defines its mocks, wherever the substrate is taken from.
* `Generated.boundNames_of_render`: the names that it binds, and when they are different.
-/

namespace TaintWeave

open Text

namespace Generated

/-! ## Reading names off lines -/

/-- A line that binds names. -/
inductive Statement where
  /-- An import of several names. -/
  | imports (names : List String)
  /-- The first line of the definition of a function. -/
  | definition (name : String)
  /-- A name bound to a value. -/
  | binding (name : String)
  deriving DecidableEq, Repr

/-- The names that a statement binds. -/
def Statement.names : Statement → List String
  | imports names => names
  | definition name | binding name => [name]

/-- The function that a statement defines. -/
def Statement.defined? : Statement → Option String
  | definition name => some name
  | imports _ | binding _ => none

/-- The words of a line, between blanks. -/
def words (line : List Char) : List (List Char) := line.splitOn ' '

/-- The name that a word starts with. -/
def leadingName (word : List Char) : String :=
  String.ofList (word.takeWhile fun c => c != ',' && c != '(')

/-- The names in the words of a list: for each name its other name, if it has one. -/
def importedNames : List (List Char) → List String
  | name :: keyword :: other :: rest =>
    if keyword = ['a', 's'] then leadingName other :: importedNames rest
    else leadingName name :: importedNames (keyword :: other :: rest)
  | names => names.map leadingName

/-- The keyword in front of the names of an import. -/
def importKeyword : List Char := ['i', 'm', 'p', 'o', 'r', 't']

/-- The keyword in front of the module of an import. -/
def fromKeyword : List Char := ['f', 'r', 'o', 'm']

/-- The statement that a line is, if it binds names at top level. An import from a module has the
    module in one word. -/
def statementOf (line : List Char) : Option Statement :=
  match words line with
  | keyword :: second :: rest =>
    if keyword = importKeyword then some (.imports (importedNames (second :: rest)))
    else if keyword = fromKeyword then
      if rest.head? = some importKeyword then some (.imports (importedNames rest.tail)) else none
    else if keyword = ['d', 'e', 'f'] then some (.definition (leadingName second))
    else if second = ['='] then some (.binding (leadingName keyword))
    else none
  | _ => none

/-- The statements of a text that bind names at top level, in order. -/
def statements (code : String) : List Statement :=
  (textLines code).filterMap fun line => statementOf line.toList

/-- The names that a text binds at top level, in order and in their normal form. -/
def boundNames (normalize : String → String) (code : String) : List String :=
  ((statements code).flatMap Statement.names).map normalize

/-- The functions that a text defines at top level, in order. -/
def definedNames (code : String) : List String := (statements code).filterMap Statement.defined?

/-- Plain names are in their normal form. -/
def LeavesAscii (normalize : String → String) : Prop :=
  ∀ s : String, (s.toList.all fun c => c.toNat < 128) = true → normalize s = s

/-- Whether a text is the name of a module: names between dots, after any number of dots. -/
def isModuleName (module : String) : Bool :=
  let names := module.toList.dropWhile (· == '.')
  !module.isEmpty && (names.isEmpty || (names.splitOn '.').all isIdentifier)

/-! ## Words -/

/-- The words on both sides of a blank are those of the whole. -/
theorem words_append_blank (front rest : List Char) :
    words (front ++ ' ' :: rest) = words front ++ words rest :=
  List.splitOnP_append_cons front rest (by decide)

/-- A text without a blank is one word. -/
theorem words_of_notMem {word : List Char} (h : ' ' ∉ word) : words word = [word] :=
  List.splitOn_eq_singleton h

/-- A text without a blank belongs to the first word of what follows it. -/
theorem words_append {front : List Char} (h : ' ' ∉ front) (rest : List Char) :
    words (front ++ rest) = (words rest).modifyHead (front ++ ·) := by
  induction front with
  | nil =>
    rw [List.nil_append]
    cases words rest <;> rfl
  | cons c front ih =>
    rw [List.mem_cons, not_or] at h
    have hc : ¬(c == ' ') = true := mt beq_iff_eq.1 (Ne.symm h.1)
    rw [List.cons_append, words, List.splitOn, List.splitOnP_cons_eq_if_modifyHead, if_neg hc,
      ← List.splitOn, ← words, ih h.2, List.modifyHead_modifyHead]
    rfl

/-- There is always a word. -/
theorem words_ne_nil (line : List Char) : words line ≠ [] := List.splitOnP_ne_nil _ line

/-- A name ends where its parameters start. -/
theorem leadingName_append {name : String} (h : isIdentifier name.toList = true)
    (rest : List Char) : leadingName (name.toList ++ '(' :: rest) = name := by
  have hparts : ∀ c ∈ name.toList, (c != ',' && c != '(') = true := by
    intro c hc
    have hcomma : ',' ∉ name.toList :=
      notMem_of_isIdentifier h (by decide +kernel) (by decide +kernel)
    have hparenthesis : '(' ∉ name.toList :=
      notMem_of_isIdentifier h (by decide +kernel) (by decide +kernel)
    rw [Bool.and_eq_true, bne_iff_ne, bne_iff_ne]
    exact ⟨fun e => hcomma (e ▸ hc), fun e => hparenthesis (e ▸ hc)⟩
  rw [leadingName, List.takeWhile_append_of_pos hparts]
  simp

/-! ## Lines that bind nothing -/

/-- A line is indented. -/
def Indented (line : String) : Prop := ∃ cs, line.toList = ' ' :: ' ' :: cs

/-- A text that starts with blanks is indented. -/
theorem indented_ofList (cs : List Char) : Indented (String.ofList (' ' :: ' ' :: cs)) :=
  ⟨cs, String.toList_ofList⟩

/-- What follows does not matter for the indentation. -/
theorem Indented.append {line : String} (h : Indented line) (rest : String) :
    Indented (line ++ rest) := by
  obtain ⟨cs, hcs⟩ := h
  exact ⟨cs ++ rest.toList, by rw [String.toList_append, hcs]; rfl⟩

/-- An indented line binds nothing. -/
theorem Indented.statementOf_eq {line : String} (h : Indented line) :
    statementOf line.toList = none := by
  obtain ⟨cs, hcs⟩ := h
  rw [hcs]
  rfl

/-- A comment binds nothing. -/
theorem statementOf_comment {c : Char} (hblank : c ≠ ' ') (hequal : c ≠ '=') (cs : List Char) :
    statementOf ('#' :: ' ' :: c :: cs) = none := by
  have hwords : words ('#' :: ' ' :: c :: cs) = ['#'] :: words (c :: cs) :=
    words_append_blank ['#'] (c :: cs)
  obtain ⟨word, rest, hrest⟩ := List.exists_cons_of_ne_nil (words_ne_nil cs)
  have hcs : words (c :: cs) = (c :: word) :: rest := by
    have hsplit := @words_append [c] (by simpa using hblank.symm) cs
    rw [hrest] at hsplit
    exact hsplit
  rw [statementOf, hwords, hcs]
  simp [importKeyword, fromKeyword, hequal]

/-! ## Lines that bind names -/

/-- The first line of a definition defines the function that it names. -/
theorem statementOf_definition {name : String} (h : isIdentifier name.toList = true)
    (rest : List Char) :
    statementOf (['d', 'e', 'f', ' '] ++ name.toList ++ '(' :: rest) = some (.definition name) := by
  have hblank : ' ' ∉ name.toList :=
    notMem_of_isIdentifier h (by decide +kernel) (by decide +kernel)
  have hwords : words (['d', 'e', 'f', ' '] ++ name.toList ++ '(' :: rest) =
      ['d', 'e', 'f'] :: words (name.toList ++ '(' :: rest) :=
    words_append_blank ['d', 'e', 'f'] (name.toList ++ '(' :: rest)
  have hsplit : words ('(' :: rest) = (words rest).modifyHead ('(' :: ·) :=
    @words_append ['('] (by decide) rest
  obtain ⟨word, others, hothers⟩ := List.exists_cons_of_ne_nil (words_ne_nil rest)
  rw [statementOf, hwords, words_append hblank, hsplit, hothers]
  simp only [List.modifyHead_cons, importKeyword, fromKeyword]
  rw [if_neg (by decide), if_neg (by decide), if_pos trivial, leadingName_append h]

/-- The operations of the substrate are the names in the line that imports them. -/
theorem importedNames_substrateOperations (recordSinks : Bool) :
    importedNames (words (String.intercalate ", " (substrateOperations recordSinks)).toList) =
      substrateOperations recordSinks := by
  cases recordSinks <;> decide +kernel

/-- The line that imports the operations of the substrate, as characters. -/
theorem toList_import (module : String) (operations : List String) :
    ("from " ++ module ++ " import " ++ String.intercalate ", " operations).toList =
      fromKeyword ++ ' ' :: (module.toList ++ ' ' :: (importKeyword ++ ' ' ::
        (String.intercalate ", " operations).toList)) := by
  simp [fromKeyword, importKeyword]

/-- An import from a module in one word binds the operations of the substrate. -/
theorem statementOf_import {module : String} (h : ' ' ∉ module.toList) (recordSinks : Bool) :
    statementOf ("from " ++ module ++ " import " ++
        String.intercalate ", " (substrateOperations recordSinks)).toList =
      some (.imports (substrateOperations recordSinks)) := by
  have hfrom : words fromKeyword = [fromKeyword] := rfl
  have himport : words importKeyword = [importKeyword] := rfl
  rw [statementOf, toList_import, words_append_blank, words_append_blank, words_append_blank, hfrom,
    words_of_notMem h, himport]
  simp only [List.cons_append, List.nil_append, List.head?_cons, List.tail_cons, if_true,
    importedNames_substrateOperations]
  rw [if_neg (by decide)]

/-- An import from a module defines no function. -/
theorem defined?_import (module : String) (operations : List String) :
    (statementOf ("from " ++ module ++ " import " ++
      String.intercalate ", " operations).toList).bind Statement.defined? = none := by
  have hfrom : words fromKeyword = [fromKeyword] := rfl
  rw [statementOf, toList_import, words_append_blank, hfrom]
  obtain ⟨word, others, hothers⟩ := List.exists_cons_of_ne_nil (words_ne_nil
    (module.toList ++ ' ' :: (importKeyword ++ ' ' :: (String.intercalate ", " operations).toList)))
  rw [hothers]
  simp only [List.cons_append, List.nil_append]
  rw [if_neg (by decide), if_pos trivial]
  split <;> rfl

/-! ## Modules -/

/-- All lines of a definition but the first are indented. -/
theorem indented_of_mem_tail (spec : Spec) (name : String) (recordSinks : Bool) :
    ∀ line ∈ (Definition.lines spec name recordSinks).tail, Indented line := by
  unfold Definition.lines
  cases spec.category <;> cases recordSinks <;>
    simp only [Definition.unary, Definition.binary, Definition.equality, Definition.function,
      Bool.false_eq_true, if_true, if_false, List.cons_append, List.nil_append, List.tail_cons,
      List.forall_mem_cons, List.not_mem_nil, false_implies, implies_true, and_true]
  -- Each of these lines is a text of its template, or starts with one.
  all_goals
    and_intros <;> first
      | with_reducible exact indented_ofList _
      | with_reducible exact ((indented_ofList _).append _).append _

/-- The first line of a definition defines its name. -/
theorem statementOf_heading (spec : Spec) {name : String} (h : isIdentifier name.toList = true) :
    statementOf (Definition.heading spec name).toList = some (.definition name) := by
  obtain ⟨parameters, hparameters⟩ : ∃ parameters, (Definition.heading spec name).toList =
      ['d', 'e', 'f', ' '] ++ name.toList ++ '(' :: parameters := by
    rw [Definition.heading, String.toList_append, String.toList_append]
    split <;> exact ⟨_, rfl⟩
  rw [hparameters, statementOf_definition h]

/-- What a definition binds at top level is the function. -/
theorem filterMap_definitionLines (spec : Spec) {name : String}
    (h : isIdentifier name.toList = true) (recordSinks : Bool) :
    (Definition.lines spec name recordSinks).filterMap (fun line => statementOf line.toList) =
      [.definition name] := by
  have hrest : (Definition.lines spec name recordSinks).tail.filterMap
      (fun line => statementOf line.toList) = [] :=
    List.filterMap_eq_nil_iff.2 fun line hline =>
      (indented_of_mem_tail spec name recordSinks line hline).statementOf_eq
  rw [Definition.lines_eq_cons, List.filterMap_cons, statementOf_heading spec h, hrest]

/-- The comment of the header binds nothing. -/
theorem filterMap_commentLines {module generated : String} (hmodule : OneLine module)
    (hgenerated : OneLine generated) (count : Nat) :
    (commentLines module generated count).filterMap (fun line => statementOf line.toList) = [] := by
  have hcomment : statementOf "# Generated by optaint".toList = none := by decide +kernel
  have hsubstrate : statementOf ("# Substrate: " ++ module).toList = none := by
    rw [String.toList_append]
    exact statementOf_comment (c := 'S') (by decide) (by decide) _
  have htime : statementOf ("# Generated: " ++ generated).toList = none := by
    rw [String.toList_append]
    exact statementOf_comment (c := 'G') (by decide) (by decide) _
  have hcount : statementOf ("# Exports: " ++ toString count).toList = none := by
    rw [String.toList_append]
    exact statementOf_comment (c := 'E') (by decide) (by decide) _
  rw [commentLines_eq hmodule hgenerated]
  simp only [List.filterMap_cons, List.filterMap_nil, hcomment, hsubstrate, htime, hcount]

/-- The statements of the header are its imports, the log and the key of the marker. -/
theorem filterMap_headerStatements (module : String) (recordSinks : Bool) :
    (headerStatements module (substrateOperations recordSinks)).filterMap
        (fun line => statementOf line.toList) =
      [.imports ["logging"], .imports ["_js"]] ++
        (statementOf ("from " ++ module ++ " import " ++
          String.intercalate ", " (substrateOperations recordSinks)).toList).toList ++
        [.binding "_log", .binding "MOCK_FUNCTION_KEY"] := by
  have hlogging : ["import logging", "", "from optaint import jsops as _js"].filterMap
      (fun line => statementOf line.toList) = [.imports ["logging"], .imports ["_js"]] := by
    decide +kernel
  have hlog : ["", "_log = logging.getLogger('optaint.generated')", "",
      "MOCK_FUNCTION_KEY = " ++ Text.quote Namespace.markerName].filterMap
      (fun line => statementOf line.toList) = [.binding "_log", .binding "MOCK_FUNCTION_KEY"] := by
    decide +kernel
  have hlines : headerStatements module (substrateOperations recordSinks) =
      ["import logging", "", "from optaint import jsops as _js"] ++
      (["from " ++ module ++ " import " ++
        String.intercalate ", " (substrateOperations recordSinks)] ++
      ["", "_log = logging.getLogger('optaint.generated')", "",
        "MOCK_FUNCTION_KEY = " ++ Text.quote Namespace.markerName]) := rfl
  rw [hlines, List.filterMap_append, hlogging, List.filterMap_append, hlog, List.append_assoc,
    List.filterMap_cons, List.filterMap_nil]
  cases statementOf ("from " ++ module ++ " import " ++
    String.intercalate ", " (substrateOperations recordSinks)).toList <;> rfl

/-- Items of a sequence bind nothing. -/
theorem filterMap_items (item : String → String) (names : List String) :
    (names.map fun name => "    " ++ item name ++ ",").filterMap
      (fun line => statementOf line.toList) = [] := by
  rw [List.filterMap_eq_nil_iff, List.forall_mem_map]
  exact fun name _ => (((indented_ofList _).append _).append _).statementOf_eq

/-- The statements of the footer are the registry, the marker and the list of the names. -/
theorem filterMap_footerLines (names : List String) :
    (footerLines names).filterMap (fun line => statementOf line.toList) =
      [.binding "_MOCK_FUNCTION_IDS", .definition Namespace.markerName, .binding "__all__"] := by
  have hregistry : ["", "", "_MOCK_FUNCTION_IDS = frozenset(id(f) for f in ("].filterMap
      (fun line => statementOf line.toList) = [.binding "_MOCK_FUNCTION_IDS"] := by decide +kernel
  have hmarker : ["))", "", "", "def " ++ Namespace.markerName ++ "(f):",
      "    \"\"\"Whether \x60\x60f\x60\x60 is one of the mocks defined above.\"\"\"",
      "    return id(f) in _MOCK_FUNCTION_IDS", "", "", "__all__ = ["].filterMap
      (fun line => statementOf line.toList) =
      [.definition Namespace.markerName, .binding "__all__"] := by decide +kernel
  have hclosing : ["]"].filterMap (fun line => statementOf line.toList) = [] := by decide +kernel
  have hnames : (names.map fun name => "    " ++ name ++ ",").filterMap
      (fun line => statementOf line.toList) = [] := filterMap_items (fun name => name) names
  rw [footerLines]
  simp only [List.filterMap_append]
  rw [hregistry, hmarker, hclosing, hnames, filterMap_items Text.quote]
  rfl

variable {ns : Namespace} {config : Config} {generated : String}
  {exports : Option (List String)} {compile : Compiler} {g : Generated}

/-- A mock is defined under an identifier, and the name of its native is on one line. -/
def Definable (ns : Namespace) : Prop :=
  ∀ name mock, ns.get? name = some mock →
    isIdentifier name.toList = true ∧ OneLine mock.spec.native

/-- A mock that can be defined has its name and that of its native on one line each. -/
theorem Definable.oneLine (hns : Definable ns) {name : String} {mock : Mock}
    (h : ns.get? name = some mock) : OneLine name ∧ OneLine mock.spec.native :=
  ⟨oneLine_of_isIdentifier (hns name mock h).1, (hns name mock h).2⟩

/-- The name of a native is on one line. -/
theorem oneLine_of_isSome_ofName? (name : String) (h : (Native.ofName? name).isSome = true) :
    OneLine name := by
  have hall : ∀ native : Native, OneLine native.name := by
    rintro (op | op) <;> cases op <;> exact oneLine_ofList rfl
  obtain ⟨native, hnative⟩ := Option.isSome_iff_exists.1 h
  rw [Native.ofName?] at hnative
  have hname := List.find?_some hnative
  exact beq_iff_eq.1 hname ▸ hall native

/-- Whether a module with the mocks of some names records the sinks that are reached. -/
def recordsSinks (ns : Namespace) (config : Config) (names : List String) : Bool :=
  Config.isOn config.recordSinks &&
    names.any fun name => (ns.get? name).any fun mock => mock.spec.category == .function

/-- That is asked of the mocks under their names. -/
theorem importsSinks_eq {mocks : Members Mock} (h : ∀ m ∈ mocks, ns.get? m.1 = some m.2) :
    importsSinks config mocks = recordsSinks ns config (Members.keys mocks) := by
  rw [importsSinks, recordsSinks, Members.keys, List.any_map]
  congr 1
  rw [Bool.eq_iff_iff, List.any_eq_true, List.any_eq_true]
  refine exists_congr fun m => and_congr_right fun hm => ?_
  rw [Function.comp_apply, h m hm, Option.any_some]

/-- What the definitions of mocks bind are their names. -/
theorem filterMap_definitions {mocks : Members Mock}
    (h : ∀ m ∈ mocks, isIdentifier m.1.toList = true) (recordSinks : Bool) :
    (mocks.flatMap fun m => "" :: "" :: Definition.lines m.2.spec m.1 recordSinks).filterMap
      (fun line => statementOf line.toList) = (Members.keys mocks).map .definition := by
  induction mocks with
  | nil => rfl
  | cons m mocks ih =>
    rw [List.forall_mem_cons] at h
    have hfirst : ("" :: "" :: Definition.lines m.2.spec m.1 recordSinks).filterMap
        (fun line => statementOf line.toList) = [.definition m.1] :=
      filterMap_definitionLines m.2.spec h.1 recordSinks
    rw [List.flatMap_cons, List.filterMap_append, hfirst, ih h.2]
    rfl

/-- A module that is rendered for mocks that can be defined is its lines. -/
theorem exists_lines_of_render (hns : Definable ns)
    (h : render ns config generated exports compile = .ok g) :
    ∃ mocks : Members Mock, g.exports = Members.keys mocks ∧
      (∀ m ∈ mocks, ns.get? m.1 = some m.2) ∧
      (∀ m ∈ mocks, OneLine m.1 ∧ OneLine m.2.spec.native) ∧
      g.code = Definition.ofLines (lines config.substrateName generated
        (substrateOperations (importsSinks config mocks)) mocks
        (Config.isOn config.recordSinks)) := by
  obtain ⟨selected, hselected, rfl, -⟩ := render_eq_ok h
  have hfound := (ofPairs_of_select hselected).2
  have hmocks : ∀ m ∈ Members.ofPairs selected, OneLine m.1 ∧ OneLine m.2.spec.native :=
    fun m hm => hns.oneLine (hfound m hm)
  exact ⟨_, rfl, hfound, hmocks, code_ofMocks hmocks⟩

/-- The statements of a module that is rendered: what it needs itself, around the definitions of
    its mocks. -/
theorem statements_code (hns : Definable ns) (hmodule : OneLine config.substrateName)
    (hgenerated : OneLine generated) (h : render ns config generated exports compile = .ok g) :
    statements g.code =
      [.imports ["logging"], .imports ["_js"]] ++
      (statementOf ("from " ++ config.substrateName ++ " import " ++ String.intercalate ", "
        (substrateOperations (recordsSinks ns config g.exports))).toList).toList ++
      [.binding "_log", .binding "MOCK_FUNCTION_KEY"] ++
      g.exports.map .definition ++
      [.binding "_MOCK_FUNCTION_IDS", .definition Namespace.markerName, .binding "__all__"] := by
  obtain ⟨mocks, hexports, hfound, hmocks, hcode⟩ := exists_lines_of_render hns h
  have hlast : [""].filterMap (fun line => statementOf line.toList) = [] := rfl
  rw [statements, hcode, textLines_ofLines_of_oneLine (oneLine_lines hmodule hgenerated hmocks _ _),
    lines, headerLines, List.filterMap_append, List.filterMap_append, List.filterMap_append,
    List.filterMap_append, hlast, List.append_nil, filterMap_commentLines hmodule hgenerated,
    filterMap_headerStatements, List.nil_append, filterMap_definitions (fun m hm => (hns m.1 m.2 (hfound m hm)).1),
    filterMap_footerLines, importsSinks_eq hfound, hexports]

/-- The mocks of a valid table can be defined. -/
theorem definable_ofTable {table : Table} {natives : String → Option Native}
    (htable : table.Valid natives)
    (hnatives : ∀ name, (natives name).isSome = true → OneLine name) (catalog : Catalog) :
    Definable (Namespace.ofTable table catalog natives) := by
  intro name mock hmock
  obtain ⟨spec, hspec, hmock⟩ := List.mem_filterMap.1 (Members.mem_of_get? hmock)
  obtain ⟨native, hnative, hpair⟩ := Option.map_eq_some_iff.1 hmock
  cases hpair
  exact ⟨htable.identifiers spec hspec, hnatives _ (Option.isSome_iff_exists.2 ⟨native, hnative⟩)⟩

/-- The namespace of a table can be defined. -/
theorem definable_of_build {natives : String → Option Native} {entries : List (Entry Value)}
    {table : Table} {catalog : Catalog}
    (hnatives : ∀ name, (natives name).isSome = true → OneLine name)
    (htable : Table.construct (fun s => (natives s).isSome) entries = .ok table)
    (hcatalog : Catalog.ofTable table = .ok catalog)
    (hns : Namespace.build catalog Category.all natives = .ok ns) : Definable ns := by
  have hvalid := Table.valid_of_construct htable
  rw [Namespace.build_eq hvalid (Catalog.rules_of_ofSpecs hcatalog)] at hns
  cases hns
  exact definable_ofTable hvalid hnatives catalog

/-! ## Functions -/

/-- The functions that a module defines that is rendered: its mocks and their marker. -/
theorem definedNames_code (hns : Definable ns) (hmodule : OneLine config.substrateName)
    (hgenerated : OneLine generated) (h : render ns config generated exports compile = .ok g) :
    definedNames g.code = g.exports ++ [Namespace.markerName] := by
  have hdefined : Statement.defined? ∘ Statement.definition = some := rfl
  have himport := defined?_import config.substrateName
    (substrateOperations (recordsSinks ns config g.exports))
  rw [definedNames, statements_code hns hmodule hgenerated h]
  generalize statementOf _ = statement at himport ⊢
  have hnone : statement.toList.filterMap Statement.defined? = [] := by
    cases statement with
    | none => rfl
    | some statement =>
      have hnone : statement.defined? = none := himport
      rw [Option.toList_some, List.filterMap_cons_none hnone, List.filterMap_nil]
  simp only [List.filterMap_append, hnone, List.filterMap_map, hdefined, List.filterMap_some]
  rfl

/-- A module that is rendered defines its mocks, whatever module it takes the substrate from. -/
theorem mem_definedNames (hns : Definable ns)
    (h : render ns config generated exports compile = .ok g) {name : String}
    (hname : name ∈ g.exports) : name ∈ definedNames g.code := by
  obtain ⟨mocks, hexports, hfound, hmocks, hcode⟩ := exists_lines_of_render hns h
  rw [hexports] at hname
  obtain ⟨m, hm, rfl⟩ := List.mem_map.1 hname
  have hfirst : Definition.heading m.2.spec m.1 ∈
      Definition.lines m.2.spec m.1 (Config.isOn config.recordSinks) := by
    rw [Definition.lines_eq_cons]
    exact List.mem_cons_self
  have honeLine : OneLine (Definition.heading m.2.spec m.1) :=
    Definition.oneLine_lines (hmocks m hm).1 (hmocks m hm).2 _ hfirst
  -- The first line of the definition is a line of its own among those of the module.
  have hline : Definition.heading m.2.spec m.1 ∈ lines config.substrateName generated
      (substrateOperations (importsSinks config mocks)) mocks (Config.isOn config.recordSinks) := by
    refine List.mem_append_left _ (List.mem_append_right _ (List.mem_flatMap.2 ⟨m, hm, ?_⟩))
    exact List.mem_cons_of_mem _ (List.mem_cons_of_mem _ hfirst)
  have hsplit : Definition.heading m.2.spec m.1 ∈
      (splitLines (Definition.heading m.2.spec m.1).toList).map String.ofList := by
    rw [splitLines_of_notMem honeLine, List.map_singleton, String.ofList_toList]
    exact List.mem_singleton_self _
  have hmem : Definition.heading m.2.spec m.1 ∈ textLines g.code := by
    rw [hcode, textLines_ofLines]
    exact List.mem_append_left _ (List.mem_flatMap.2 ⟨_, hline, hsplit⟩)
  rw [definedNames, statements, List.filterMap_filterMap]
  refine List.mem_filterMap.2 ⟨_, hmem, ?_⟩
  rw [statementOf_heading m.2.spec (hns m.1 m.2 (hfound m hm)).1]
  rfl

/-! ## Names of modules -/

/-- A character of items that are joined by another one is in one of them. -/
theorem exists_mem_of_mem_intercalate {a c : Char} {parts : List (List Char)}
    (h : c ∈ [a].intercalate parts) (hc : c ≠ a) : ∃ part ∈ parts, c ∈ part := by
  induction parts with
  | nil => simp at h
  | cons part parts ih =>
    cases parts with
    | nil => exact ⟨part, List.mem_cons_self, by simpa using h⟩
    | cons next parts =>
      rw [List.intercalate_cons_cons, List.mem_append, List.mem_append, List.mem_singleton] at h
      rcases h with (h | h) | h
      · exact ⟨part, List.mem_cons_self, h⟩
      · exact absurd h hc
      · obtain ⟨part', hpart, hmem⟩ := ih h
        exact ⟨part', List.mem_cons_of_mem _ hpart, hmem⟩

/-- The name of a module has no characters in it that are neither dots nor parts of identifiers. -/
theorem notMem_of_isModuleName {module : String} (h : isModuleName module = true) {c : Char}
    (hdot : c ≠ '.') (hstart : identifierStarts.contains c.toNat = false)
    (hpart : identifierParts.contains c.toNat = false) : c ∉ module.toList := by
  intro hmem
  have hnames : c ∈ module.toList.dropWhile (· == '.') :=
    mem_dropWhile hmem (beq_eq_false_iff_ne.2 hdot)
  rw [isModuleName] at h
  generalize module.toList.dropWhile (· == '.') = names at h hnames
  rw [Bool.and_eq_true, Bool.or_eq_true, List.all_eq_true] at h
  rcases h.2 with hempty | hall
  · rw [List.isEmpty_iff.1 hempty] at hnames
    cases hnames
  · have hjoined : ['.'].intercalate (names.splitOn '.') = names := List.intercalate_splitOn '.'
    rw [← hjoined] at hnames
    obtain ⟨part, hmem, hc⟩ := exists_mem_of_mem_intercalate hnames hdot
    exact notMem_of_isIdentifier (hall part hmem) hstart hpart hc

/-! ## Bound names -/

/-- The names that a module binds before those of its mocks. -/
def namesBefore (recordsSinks : Bool) : List String :=
  ["logging", "_js"] ++ substrateOperations recordsSinks ++ ["_log", "MOCK_FUNCTION_KEY"]

/-- The names that a module binds after those of its mocks. -/
def namesAfter : List String := ["_MOCK_FUNCTION_IDS", Namespace.markerName, "__all__"]

/-- The names that a module needs itself are different. -/
theorem nodup_namesBefore_append_namesAfter (recordsSinks : Bool) :
    (namesBefore recordsSinks ++ namesAfter).Nodup := by
  cases recordsSinks <;> decide +kernel

/-- The names that a module needs itself are plain. -/
theorem map_normalize_own {normalize : String → String} (h : LeavesAscii normalize)
    (recordsSinks : Bool) : (namesBefore recordsSinks).map normalize = namesBefore recordsSinks ∧
      namesAfter.map normalize = namesAfter := by
  have hbefore : ∀ name ∈ namesBefore recordsSinks,
      (name.toList.all fun c => c.toNat < 128) = true := by
    cases recordsSinks <;> decide +kernel
  have hafter : ∀ name ∈ namesAfter, (name.toList.all fun c => c.toNat < 128) = true := by
    decide +kernel
  constructor
  · exact (List.map_congr_left fun name hname => h name (hbefore name hname)).trans (List.map_id _)
  · exact (List.map_congr_left fun name hname => h name (hafter name hname)).trans (List.map_id _)

variable {normalize : String → String}

/-- The names that a module binds that is rendered: those of its mocks, and around them those that
    it needs itself. -/
theorem boundNames_code (hns : Definable ns) (hnormalize : LeavesAscii normalize)
    (hmodule : isModuleName config.substrateName = true) (hgenerated : OneLine generated)
    (h : render ns config generated exports compile = .ok g) :
    boundNames normalize g.code = namesBefore (recordsSinks ns config g.exports) ++
      g.exports.map normalize ++ namesAfter := by
  have hline : OneLine config.substrateName :=
    notMem_of_isModuleName hmodule (by decide) (by decide +kernel) (by decide +kernel)
  have hword : ' ' ∉ config.substrateName.toList :=
    notMem_of_isModuleName hmodule (by decide) (by decide +kernel) (by decide +kernel)
  have hnames : (statements g.code).flatMap Statement.names =
      namesBefore (recordsSinks ns config g.exports) ++ g.exports ++ namesAfter := by
    rw [statements_code hns hline hgenerated h, statementOf_import hword]
    simp [Statement.names, namesBefore, namesAfter, List.flatMap_append, List.flatMap_map]
  obtain ⟨hbefore, hafter⟩ := map_normalize_own hnormalize (recordsSinks ns config g.exports)
  rw [boundNames, hnames, List.map_append, List.map_append, hbefore, hafter]

/-- The names that a module binds which is rendered for a table, in their normal form: those that it
    needs itself, and in between those of its mocks. They are all different if and only if those of
    the mocks are different, and none of these is a name that the module needs. -/
theorem boundNames_of_render {natives : String → Option Native} {entries : List (Entry Value)}
    {table : Table} {catalog : Catalog}
    (hnatives : ∀ name, (natives name).isSome = true → OneLine name)
    (htable : Table.construct (fun s => (natives s).isSome) entries = .ok table)
    (hcatalog : Catalog.ofTable table = .ok catalog)
    (hns : Namespace.build catalog Category.all natives = .ok ns)
    (hnormalize : LeavesAscii normalize)
    (hmodule : isModuleName config.substrateName = true) (hgenerated : OneLine generated)
    (h : render ns config generated exports compile = .ok g) :
    boundNames normalize g.code = namesBefore (recordsSinks ns config g.exports) ++
      g.exports.map normalize ++ namesAfter ∧
    ((boundNames normalize g.code).Nodup ↔ (g.exports.map normalize).Nodup ∧
      ∀ name ∈ g.exports,
        normalize name ∉ namesBefore (recordsSinks ns config g.exports) ++ namesAfter) := by
  have hnames := boundNames_code (definable_of_build hnatives htable hcatalog hns) hnormalize
    hmodule hgenerated h
  refine ⟨hnames, ?_⟩
  -- The order does not matter, so the names of the mocks may come first.
  have hperm : (namesBefore (recordsSinks ns config g.exports) ++ g.exports.map normalize ++
      namesAfter).Perm (g.exports.map normalize ++
        (namesBefore (recordsSinks ns config g.exports) ++ namesAfter)) := by
    rw [← List.append_assoc]
    exact List.perm_append_comm.append_right namesAfter
  rw [hnames, hperm.nodup_iff, List.nodup_append']
  constructor
  · rintro ⟨hexports, -, hdisjoint⟩
    exact ⟨hexports, fun name hname hown => hdisjoint (List.mem_map_of_mem hname) hown⟩
  · rintro ⟨hexports, hdisjoint⟩
    refine ⟨hexports, nodup_namesBefore_append_namesAfter _, fun bound hbound hown => ?_⟩
    obtain ⟨name, hname, rfl⟩ := List.mem_map.1 hbound
    exact hdisjoint name hname hown

/-- A table of one operator and the module for it: nine names that are different. -/
theorem boundNames_of_render_not :
    ∃ table catalog ns g,
      Table.ofEntries [⟨"!", .category .unary, "__not__", "js_logical_not"⟩] = .ok table ∧
      Catalog.ofTable table = .ok catalog ∧ Namespace.build catalog = .ok ns ∧
      render ns {} "now" none (fun _ => .ok ()) = .ok g ∧ LeavesAscii id ∧
      "__not__" ∈ boundNames id g.code ∧ (boundNames id g.code).Nodup := by
  have htable : Table.ofEntries [⟨"!", .category .unary, "__not__", "js_logical_not"⟩] =
      .ok ⟨[⟨"!", .unary, "__not__", "js_logical_not"⟩]⟩ := rfl
  have hbuilt := (Table.ofEntries_eq_construct _).symm.trans htable
  obtain ⟨catalog, hcatalog⟩ : ∃ catalog,
      Catalog.ofTable ⟨[⟨"!", .unary, "__not__", "js_logical_not"⟩]⟩ = .ok catalog := ⟨_, rfl⟩
  have hns := Namespace.build_eq (Table.valid_of_ofEntries htable)
    (Catalog.rules_of_ofSpecs hcatalog)
  obtain ⟨g, hrender, hexports⟩ : ∃ g, render (Namespace.ofTable
      ⟨[⟨"!", .unary, "__not__", "js_logical_not"⟩]⟩ catalog) {} "now" none (fun _ => .ok ()) =
        .ok g ∧ g.exports = ["__not__"] := ⟨_, rfl, rfl⟩
  have hnormalize : LeavesAscii id := fun _ _ => rfl
  have hmodule : isModuleName (Config.substrateName {}) = true := by decide +kernel
  obtain ⟨hnames, hnodup⟩ := boundNames_of_render oneLine_of_isSome_ofName? hbuilt hcatalog hns
    hnormalize hmodule (oneLine_ofList rfl) hrender
  refine ⟨_, catalog, _, g, htable, hcatalog, hns, hrender, hnormalize, ?_, hnodup.2 ?_⟩
  · rw [hnames, hexports]
    simp
  · rw [hexports, List.map_singleton, List.forall_mem_singleton]
    refine ⟨List.nodup_singleton _, ?_⟩
    cases recordsSinks _ _ _ <;> decide +kernel

/-- A mock may have the name of an operation of the substrate, which it then takes in the module
    that is rendered. -/
theorem not_nodup_boundNames_wrap :
    ∃ table catalog ns g,
      Table.ofEntries [⟨"!", .category .unary, "wrap", "js_logical_not"⟩] = .ok table ∧
      Catalog.ofTable table = .ok catalog ∧ Namespace.build catalog = .ok ns ∧
      render ns {} "now" none (fun _ => .ok ()) = .ok g ∧
      ∀ normalize, LeavesAscii normalize → ¬(boundNames normalize g.code).Nodup := by
  have htable : Table.ofEntries [⟨"!", .category .unary, "wrap", "js_logical_not"⟩] =
      .ok ⟨[⟨"!", .unary, "wrap", "js_logical_not"⟩]⟩ := rfl
  have hbuilt := (Table.ofEntries_eq_construct _).symm.trans htable
  obtain ⟨catalog, hcatalog⟩ : ∃ catalog,
      Catalog.ofTable ⟨[⟨"!", .unary, "wrap", "js_logical_not"⟩]⟩ = .ok catalog := ⟨_, rfl⟩
  have hns := Namespace.build_eq (Table.valid_of_ofEntries htable)
    (Catalog.rules_of_ofSpecs hcatalog)
  obtain ⟨g, hrender, hexports⟩ : ∃ g, render (Namespace.ofTable
      ⟨[⟨"!", .unary, "wrap", "js_logical_not"⟩]⟩ catalog) {} "now" none (fun _ => .ok ()) =
        .ok g ∧ g.exports = ["wrap"] := ⟨_, rfl, rfl⟩
  refine ⟨_, catalog, _, g, htable, hcatalog, hns, hrender, fun normalize hnormalize => ?_⟩
  have hwrap : normalize "wrap" = "wrap" := hnormalize "wrap" (by decide)
  rw [boundNames_code (definable_of_build oneLine_of_isSome_ofName? hbuilt hcatalog hns) hnormalize
    (by decide +kernel) (oneLine_ofList rfl) hrender, hexports, List.map_singleton, hwrap]
  cases recordsSinks _ _ _ <;> decide +kernel

end Generated

end TaintWeave
