import TaintWeave.Generate.Module
import TaintWeave.Proofs.Arrangement
import TaintWeave.Proofs.Outcome
import TaintWeave.Proofs.Text.Dedent

/-!
# Layout of generated modules

A generated module is put together from lines: those of the header, of one definition per mock after
two blank lines each, and of the footer. None of them has a line feed in it, unless there is one in
the name of the module that the substrate is taken from, or in the time that is noted.

* `Generated.textLines`: the lines of a text.
* `Generated.headerLines`, `Generated.footerLines`, `Definition.lines`: the lines of a module.
* `Generated.commentLines_eq`: those of the comment in front, without their margin.
* `Generated.code_ofMocks`: a module has these lines.
* `Generated.oneLine_lines`: they are lines.
-/

namespace TaintWeave

open Text

/-- A text on one line. -/
def OneLine (s : String) : Prop := '\n' ∉ s.toList

/-- Characters without a line feed among them are a text on one line. -/
theorem oneLine_ofList {cs : List Char} (h : (cs.all fun c => c.toNat != 10) = true) :
    OneLine (String.ofList cs) := by
  rw [OneLine, String.toList_ofList]
  exact fun hmem => absurd (List.all_eq_true.1 h _ hmem) (by decide)

/-- Two texts on one line are one after the other. -/
theorem oneLine_append {s t : String} : OneLine (s ++ t) ↔ OneLine s ∧ OneLine t := by
  rw [OneLine, OneLine, OneLine, String.toList_append, List.mem_append, not_or]

/-- Lines with a line feed each, as characters. -/
theorem Definition.toList_ofLines (lines : List String) :
    (ofLines lines).toList = endLines (lines.map String.toList) := by
  simp [ofLines, endLines, String.toList_join, List.flatMap_map]

/-- Lines of which the last is not empty are those of the text without the line feeds at its end. -/
theorem Definition.splitLines_ofLines {lines : List String} (hne : lines ≠ [])
    (hlast : lines.getLast hne ≠ "") (h : ∀ line ∈ lines, OneLine line) :
    (splitLines (dropFinalLineFeeds (ofLines lines).toList)).map String.ofList = lines := by
  obtain ⟨init, last, rfl⟩ := List.eq_nil_or_concat' lines |>.resolve_left hne
  rw [List.getLast_append_singleton] at hlast
  have hmap : (init ++ [last]).map String.toList = init.map String.toList ++ [last.toList] := by
    rw [List.map_append, List.map_singleton]
  rw [toList_ofLines, hmap,
    splitLines_dropFinalLineFeeds_endLines (by simpa using hlast) (hmap ▸ List.forall_mem_map.2 h),
    ← hmap, List.map_map]
  simp [Function.comp_def]

/-- The lines of a text. -/
def Generated.textLines (code : String) : List String :=
  (splitLines code.toList).map String.ofList

/-- The lines of texts that are ended are those of each. -/
theorem Generated.textLines_ofLines (texts : List String) :
    Generated.textLines (Definition.ofLines texts) =
      (texts.flatMap fun text => (splitLines text.toList).map String.ofList) ++ [""] := by
  have hsplit := splitLines_endLines_append (texts.map String.toList) []
  rw [List.append_nil, List.flatMap_map] at hsplit
  rw [Generated.textLines, Definition.toList_ofLines, hsplit, List.map_append, List.map_flatMap]
  rfl

/-- Lines that are ended are the lines of the text. -/
theorem Generated.textLines_ofLines_of_oneLine {lines : List String}
    (h : ∀ line ∈ lines, OneLine line) :
    Generated.textLines (Definition.ofLines lines) = lines ++ [""] := by
  have hlines : (lines.map String.toList).flatMap splitLines = lines.map String.toList :=
    flatMap_splitLines (List.forall_mem_map.2 h)
  rw [List.flatMap_map] at hlines
  rw [Generated.textLines_ofLines, ← List.map_flatMap, hlines, List.map_map]
  simp [Function.comp_def]

/-! ## Emitting lines -/

namespace Emitter

/-- The lines so far, outside of all blocks. -/
def topLevel (lines : List String) : Emitter := { lines }

variable {before : List String}

/-- A line that is not blank stands at the current depth. -/
theorem lineAt_eq {e : Emitter} {code : String} (h : ∃ c ∈ code.toList, isBlank c = false) :
    e.lineAt code = String.join (List.replicate e.depth e.indent) ++ code := by
  obtain ⟨c, hmem, hc⟩ := h
  have hne : (stripBlanks code.toList).isEmpty = false := by
    rw [List.isEmpty_eq_false_iff_exists_mem]
    exact ⟨c, mem_trim hmem hc⟩
  rw [lineAt, hne]
  rfl

/-- A line that is not blank is added as it is. -/
theorem topLevel_emit {code : String} (h : ∃ c ∈ code.toList, isBlank c = false) :
    (topLevel before).emit code = topLevel (before ++ [code]) := by
  rw [emit, lineAt_eq h]
  rfl

/-- Blank lines are added. -/
theorem topLevel_emitBlank (count : Nat) :
    (topLevel before).emitBlank count = topLevel (before ++ List.replicate count "") := rfl

/-- The lines of a text are added as they are. -/
theorem topLevel_emitRaw (code : String) :
    (topLevel before).emitRaw code = topLevel
      (before ++ (splitLines (dropFinalLineFeeds code.toList)).map String.ofList) := rfl

/-- Lines of which the last is not empty are added as they are. -/
theorem topLevel_emitRaw_ofLines {lines : List String} (hne : lines ≠ [])
    (hlast : lines.getLast hne ≠ "") (h : ∀ line ∈ lines, OneLine line) :
    (topLevel before).emitRaw (Definition.ofLines lines) = topLevel (before ++ lines) := by
  rw [topLevel_emitRaw, Definition.splitLines_ofLines hne hlast h]

/-- The code of lines is these, ended one after the other. -/
theorem code_topLevel (lines : List String) :
    (topLevel lines).code = Definition.ofLines lines := rfl

/-- A block starts with its header. -/
theorem topLevel_openBlock {header : String} (h : ∃ c ∈ header.toList, isBlank c = false) :
    (topLevel before).openBlock header =
      { topLevel (before ++ [header]) with depth := 1 } := by
  rw [openBlock, topLevel_emit h]
  rfl

/-- A block of two lines. -/
theorem topLevel_block {header first second : String}
    (hheader : ∃ c ∈ header.toList, isBlank c = false)
    (hfirst : ∃ c ∈ first.toList, isBlank c = false)
    (hsecond : ∃ c ∈ second.toList, isBlank c = false) :
    ((((topLevel before).openBlock header).emit first).emit second).closeBlock =
      topLevel (before ++ [header, "    " ++ first, "    " ++ second]) := by
  rw [topLevel_openBlock hheader, emit, emit, lineAt_eq hfirst, lineAt_eq hsecond]
  simp [topLevel, addLines, closeBlock, String.join]

/-- In a block, items are added with a comma each, one per line. -/
theorem foldl_emit {e : Emitter} (hdepth : e.depth = 1) (items : List String) :
    items.foldl (fun e item => e.emit (item ++ ",")) e =
      e.addLines (items.map fun item => e.indent ++ item ++ ",") := by
  induction items generalizing e with
  | nil => rw [List.foldl_nil, List.map_nil, addLines, List.append_nil]
  | cons item items ih =>
    have hitem : e.emit (item ++ ",") = e.addLines [e.indent ++ item ++ ","] := by
      rw [emit, lineAt_eq ⟨',', by simp, by decide⟩, hdepth, String.append_assoc]
      simp [String.join]
    rw [List.foldl_cons, hitem, ih (e := e.addLines _) hdepth]
    simp [addLines]

/-- A sequence is an opening line, an indented line per item and a closing line. -/
theorem topLevel_emitSequence {opening closing : String}
    (hopening : ∃ c ∈ opening.toList, isBlank c = false)
    (hclosing : ∃ c ∈ closing.toList, isBlank c = false) (items : List String) :
    (topLevel before).emitSequence opening items closing =
      topLevel
        (before ++ opening :: items.map (fun item => "    " ++ item ++ ",") ++ [closing]) := by
  have hopen : (topLevel before).openBlock opening =
      { topLevel (before ++ [opening]) with depth := 1 } := topLevel_openBlock hopening
  have hclose (lines : List String) :
      (({ topLevel (before ++ [opening]) with depth := 1 } : Emitter).addLines lines).closeBlock =
        topLevel (before ++ [opening] ++ lines) := rfl
  rw [emitSequence, hopen, foldl_emit rfl, hclose, topLevel_emit hclosing]
  simp [topLevel]

end Emitter

namespace Definition

/-- The lines of the definition of an operator's mock under a name. -/
def lines (spec : Spec) (name : String) (recordSinks : Bool) : List String :=
  match spec.category with
  | .unary => unary name (Text.quote spec.symbol) spec.native
  | .binary => binary name (Text.quote spec.symbol) spec.native
  | .equality => equality name (Text.quote spec.symbol) spec.native
  | .function => function recordSinks name (Text.quote spec.symbol) spec.native

/-- The first line of the definition of an operator's mock under a name. -/
def heading (spec : Spec) (name : String) : String :=
  "def " ++ name ++ if spec.category.arity = 1 then "(value):" else "(left, right):"

/-- A definition starts with its first line. -/
theorem lines_eq_cons (spec : Spec) (name : String) (recordSinks : Bool) :
    lines spec name recordSinks = heading spec name :: (lines spec name recordSinks).tail := by
  unfold lines heading
  cases spec.category <;> rfl

variable {spec : Spec} {name : String} {recordSinks : Bool}

/-- A definition is its lines. -/
theorem render_eq_ofLines :
    render spec name recordSinks = ofLines (lines spec name recordSinks) := by
  unfold render lines
  cases spec.category <;> rfl

/-- The lines of a definition are lines if the name and the native stand on one. -/
theorem oneLine_lines (hname : OneLine name) (hnative : OneLine spec.native) :
    ∀ line ∈ lines spec name recordSinks, OneLine line := by
  have hquote : OneLine (Text.quote spec.symbol) := lineFeed_notMem_quote spec.symbol
  unfold lines
  cases spec.category <;> cases recordSinks <;>
    simp only [unary, binary, equality, function, Bool.false_eq_true, if_true, if_false,
      List.cons_append, List.nil_append, List.forall_mem_cons, List.not_mem_nil, false_implies,
      implies_true, oneLine_append, hname, hnative, hquote, and_true]
  -- What is left of each template are the texts between its parts.
  all_goals and_intros <;> exact oneLine_ofList rfl

/-- A definition has lines, and the last of them is not empty. -/
theorem getLast_lines (spec : Spec) (name : String) (recordSinks : Bool) :
    ∃ hne : lines spec name recordSinks ≠ [],
      (lines spec name recordSinks).getLast hne ≠ "" := by
  unfold lines
  cases spec.category with
  | unary => exact ⟨List.cons_ne_nil _ _, by simp [unary]⟩
  | binary => exact ⟨List.cons_ne_nil _ _, by simp [binary]⟩
  | equality => exact ⟨List.cons_ne_nil _ _, by simp [equality]⟩
  | function => cases recordSinks <;> exact ⟨List.cons_ne_nil _ _, by simp [function]⟩

end Definition

namespace Generated

/-! ## Modules -/

/-- The lines of the comment at the beginning of a module. -/
def commentLines (module generated : String) (count : Nat) : List String :=
  (splitLines (dropFinalLineFeeds (comment module generated count).toList)).map String.ofList

/-- The lines between the comment and the first definition. -/
def headerStatements (module : String) (operations : List String) : List String :=
  ["import logging", "", "from optaint import jsops as _js",
   "from " ++ module ++ " import " ++ String.intercalate ", " operations, "",
   "_log = logging.getLogger('optaint.generated')", "",
   "MOCK_FUNCTION_KEY = " ++ Text.quote Namespace.markerName]

/-- The lines before the first definition. -/
def headerLines (module generated : String) (count : Nat) (operations : List String) :
    List String :=
  commentLines module generated count ++ headerStatements module operations

/-- The lines after the last definition. -/
def footerLines (names : List String) : List String :=
  ["", "", "_MOCK_FUNCTION_IDS = frozenset(id(f) for f in ("] ++
  names.map (fun name => "    " ++ name ++ ",") ++
  ["))", "", "", "def " ++ Namespace.markerName ++ "(f):",
   "    \"\"\"Whether \x60\x60f\x60\x60 is one of the mocks defined above.\"\"\"",
   "    return id(f) in _MOCK_FUNCTION_IDS", "", "", "__all__ = ["] ++
  ("MOCK_FUNCTION_KEY" :: Namespace.markerName :: names).map
    (fun name => "    " ++ Text.quote name ++ ",") ++
  ["]"]

/-- The lines of a module for mocks under names. -/
def lines (module generated : String) (operations : List String) (mocks : Members Mock)
    (recordSinks : Bool) : List String :=
  headerLines module generated (Members.keys mocks).length operations ++
  mocks.flatMap (fun m => "" :: "" :: Definition.lines m.2.spec m.1 recordSinks) ++
  footerLines (Members.keys mocks)

variable {module generated : String}

/-- The comment has four lines, if the name of the module and the time are on one line. -/
theorem commentLines_eq (hmodule : OneLine module) (hgenerated : OneLine generated) (count : Nat) :
    commentLines module generated count =
      ["# Generated by optaint", "# Substrate: " ++ module, "# Generated: " ++ generated,
        "# Exports: " ++ toString count] := by
  let comments : List String := ["# Generated by optaint", "# Substrate: " ++ module,
    "# Generated: " ++ generated, "# Exports: " ++ toString count]
  have hcount : OneLine (toString count) := lineFeed_notMem_toString count
  have hlines : ∀ line ∈ comments, OneLine line := by
    simp only [comments, List.forall_mem_cons, List.not_mem_nil, false_implies, implies_true,
      oneLine_append, hmodule, hgenerated, hcount, and_true]
    and_intros <;> exact oneLine_ofList rfl
  have hstarts : ∀ line ∈ comments, StartsText line.toList := by
    simp only [comments, List.forall_mem_cons, List.not_mem_nil, false_implies, implies_true,
      and_true, String.toList_append]
    and_intros <;> exact ⟨'#', _, rfl, rfl⟩
  have hmargin : ∀ c ∈ commentMargin.toList, isMargin c = true :=
    List.all_eq_true.1 (by decide)
  have htext : comment module generated count = String.ofList (dedent
      (endLines ((comments.map String.toList).map (commentMargin.toList ++ ·)) ++
        commentMargin.toList)) := by
    simp [comment, comments, endLines, String.append_assoc]
  have hcomment : comment module generated count = Definition.ofLines comments := by
    rw [htext, dedent_endLines hmargin (List.forall_mem_map.2 fun line hline =>
      ⟨hstarts line hline, hlines line hline⟩) (List.cons_ne_nil _ _), ← Definition.toList_ofLines,
      String.ofList_toList]
  rw [commentLines, hcomment,
    Definition.splitLines_ofLines (List.cons_ne_nil _ _) (by simp) hlines]

/-- The header is its lines. -/
theorem header_eq (count : Nat) (operations : List String) :
    header module generated count operations =
      Emitter.topLevel (headerLines module generated count operations) := by
  have hkey : Definition.binding "MOCK_FUNCTION_KEY" (Text.quote Namespace.markerName) =
      Definition.ofLines ["MOCK_FUNCTION_KEY = " ++ Text.quote Namespace.markerName] := by
    simp [Definition.binding, Definition.ofLines, String.join]
  have hbinding : ∀ line ∈ ["MOCK_FUNCTION_KEY = " ++ Text.quote Namespace.markerName],
      OneLine line := by
    rw [List.forall_mem_singleton, oneLine_append]
    exact ⟨oneLine_ofList rfl, lineFeed_notMem_quote _⟩
  have hempty : ({} : Emitter) = Emitter.topLevel [] := rfl
  rw [header, hempty, hkey, Emitter.topLevel_emitRaw, ← commentLines, List.nil_append,
    Emitter.topLevel_emit ⟨'i', by simp, by decide⟩, Emitter.topLevel_emitBlank,
    Emitter.topLevel_emit ⟨'f', by simp, by decide⟩,
    Emitter.topLevel_emit ⟨'f', by simp, by decide⟩, Emitter.topLevel_emitBlank,
    Emitter.topLevel_emit ⟨'_', by simp, by decide⟩, Emitter.topLevel_emitBlank,
    Emitter.topLevel_emitRaw_ofLines (List.cons_ne_nil _ _) (by simp) hbinding]
  simp [headerLines, headerStatements]

/-- The footer is its lines, after those that are there. -/
theorem footer_eq (before names : List String) :
    footer (Emitter.topLevel before) names = Emitter.topLevel (before ++ footerLines names) := by
  unfold footer
  dsimp only
  rw [Emitter.topLevel_emitBlank,
    Emitter.topLevel_emitSequence ⟨'_', by simp, by decide⟩ ⟨')', by simp, by decide⟩,
    Emitter.topLevel_emitBlank,
    Emitter.topLevel_block ⟨'d', by simp, by decide⟩ ⟨'W', by simp, by decide⟩
      ⟨'r', by simp, by decide⟩,
    Emitter.topLevel_emitBlank,
    Emitter.topLevel_emitSequence ⟨'_', by simp, by decide⟩ ⟨']', by simp, by decide⟩]
  simp [footerLines, Function.comp_def]

/-- The definitions of mocks are their lines, after two blank ones each. -/
theorem definitions_eq {recordSinks : Bool} {mocks : Members Mock}
    (hmocks : ∀ m ∈ mocks, OneLine m.1 ∧ OneLine m.2.spec.native) (before : List String) :
    mocks.foldl (fun e m => e.emitDefinition (Definition.render m.2.spec m.1 recordSinks))
      (Emitter.topLevel before) = Emitter.topLevel
        (before ++
          mocks.flatMap fun m => "" :: "" :: Definition.lines m.2.spec m.1 recordSinks) := by
  induction mocks generalizing before with
  | nil => rw [List.foldl_nil, List.flatMap_nil, List.append_nil]
  | cons m mocks ih =>
    rw [List.forall_mem_cons] at hmocks
    obtain ⟨hne, hlast⟩ := Definition.getLast_lines m.2.spec m.1 recordSinks
    rw [List.foldl_cons, Emitter.emitDefinition, Emitter.topLevel_emitBlank,
      Definition.render_eq_ofLines, Emitter.topLevel_emitRaw_ofLines hne hlast
        (Definition.oneLine_lines hmocks.1.1 hmocks.1.2), ih hmocks.2]
    simp

/-- The lines that are assembled for mocks whose names and natives are on one line. -/
theorem assemble_eq {config : Config} {mocks : Members Mock}
    (hmocks : ∀ m ∈ mocks, OneLine m.1 ∧ OneLine m.2.spec.native) :
    assemble config generated mocks = Emitter.topLevel
      (lines config.substrateName generated (substrateOperations (importsSinks config mocks)) mocks
        (Config.isOn config.recordSinks)) := by
  rw [assemble, header_eq, definitions_eq hmocks, footer_eq, lines]

/-- A module is its lines, ended one after the other. -/
theorem code_ofMocks {config : Config} {mocks : Members Mock}
    (hmocks : ∀ m ∈ mocks, OneLine m.1 ∧ OneLine m.2.spec.native) :
    (ofMocks config generated mocks).code = Definition.ofLines
      (lines config.substrateName generated (substrateOperations (importsSinks config mocks)) mocks
        (Config.isOn config.recordSinks)) := by
  change (assemble config generated mocks).code = _
  rw [assemble_eq hmocks, Emitter.code_topLevel]

/-! ## One line each -/

/-- An identifier is on one line. -/
theorem oneLine_of_isIdentifier {s : String} (h : isIdentifier s.toList = true) : OneLine s :=
  notMem_of_isIdentifier h (by decide +kernel) (by decide +kernel)

/-- How the operations of the substrate stand in the line that imports them. -/
theorem intercalate_substrateOperations (recordSinks : Bool) :
    String.intercalate ", " (substrateOperations recordSinks) =
      "is_tainted, unwrap, wrap, provenance_name" ++
        if recordSinks then ", record_sink" else "" := by
  cases recordSinks <;> rfl

/-- The lines of the header are lines if its parts are. -/
theorem oneLine_headerLines (hmodule : OneLine module) (hgenerated : OneLine generated)
    (count : Nat) (recordSinks : Bool) :
    ∀ line ∈ headerLines module generated count (substrateOperations recordSinks),
      OneLine line := by
  have hcount : OneLine (toString count) := lineFeed_notMem_toString count
  have hquote : OneLine (Text.quote Namespace.markerName) := lineFeed_notMem_quote _
  have hsink : OneLine (if recordSinks then ", record_sink" else "") := by
    cases recordSinks <;> exact oneLine_ofList rfl
  rw [headerLines, commentLines_eq hmodule hgenerated]
  simp only [headerStatements, List.forall_mem_append, List.forall_mem_cons, List.not_mem_nil,
    false_implies, implies_true, oneLine_append, intercalate_substrateOperations, hmodule,
    hgenerated, hcount, hquote, hsink, and_true]
  and_intros <;> exact oneLine_ofList rfl

/-- The lines of the footer are lines if its parts are. -/
theorem oneLine_footerLines {names : List String} (hnames : ∀ name ∈ names, OneLine name) :
    ∀ line ∈ footerLines names, OneLine line := by
  have hquote (s : String) : OneLine (Text.quote s) := lineFeed_notMem_quote s
  have hmarker : OneLine Namespace.markerName := oneLine_ofList rfl
  have hindent : OneLine "    " := oneLine_ofList rfl
  have hcomma : OneLine "," := oneLine_ofList rfl
  have hitems : ∀ line ∈ names.map (fun name => "    " ++ name ++ ","), OneLine line := by
    rw [List.forall_mem_map]
    exact fun name hname => oneLine_append.2 ⟨oneLine_append.2 ⟨hindent, hnames name hname⟩, hcomma⟩
  have hquoted : ∀ line ∈ ("MOCK_FUNCTION_KEY" :: Namespace.markerName :: names).map
      (fun name => "    " ++ Text.quote name ++ ","), OneLine line := by
    rw [List.forall_mem_map]
    exact fun name _ => oneLine_append.2 ⟨oneLine_append.2 ⟨hindent, hquote name⟩, hcomma⟩
  rw [footerLines]
  simp only [List.forall_mem_append, List.forall_mem_cons, List.not_mem_nil, false_implies,
    implies_true, oneLine_append, hmarker, and_true]
  and_intros
  any_goals exact oneLine_ofList rfl
  · exact hitems
  · exact hquoted

/-- The lines of a module are lines if its parts are. -/
theorem oneLine_lines {mocks : Members Mock} (hmodule : OneLine module)
    (hgenerated : OneLine generated)
    (hmocks : ∀ m ∈ mocks, OneLine m.1 ∧ OneLine m.2.spec.native)
    (importsSinks recordSinks : Bool) :
    ∀ line ∈ lines module generated (substrateOperations importsSinks) mocks recordSinks,
      OneLine line := by
  intro line hline
  rw [lines, List.mem_append, List.mem_append, List.mem_flatMap] at hline
  rcases hline with (hline | ⟨m, hm, hline⟩) | hline
  · exact oneLine_headerLines hmodule hgenerated _ _ line hline
  · rcases List.mem_cons.1 hline with rfl | hline
    · exact oneLine_ofList rfl
    · rcases List.mem_cons.1 hline with rfl | hline
      · exact oneLine_ofList rfl
      · exact Definition.oneLine_lines (hmocks m hm).1 (hmocks m hm).2 line hline
  · refine oneLine_footerLines (fun name hname => ?_) line hline
    obtain ⟨m, hm, rfl⟩ := List.mem_map.1 hname
    exact (hmocks m hm).1

end Generated

end TaintWeave
