import TaintWeave.Failure
import TaintWeave.Json.Reader
import TaintWeave.Text.Lines

/-!
# Configuration

The settings of the tool. They start from defaults and are overridden by
documents, which are checked, and by settings from elsewhere, such as the
command line, which are taken as they come; each later one wins.

* `Config.update`: a configuration overridden by a document.
* `Config.override`: a configuration overridden by settings that are present.
-/

namespace TaintWeave

/-- The settings. A document can only set the type of value that is named here. -/
structure Config where
  /-- The module that generated code takes the substrate from: a text. -/
  substrateModule : Json := .text "optaint.substrate"
  /-- The mocks to generate, by their names; all of them if there is none. -/
  exports : List Json := []
  /-- The name of the source that the command line taints: a text. -/
  taintName : Json := .text "taint"
  /-- Whether generated code records sinks: a truth value. -/
  recordSinks : Json := .boolean true
  /-- Whether everything is logged: a truth value. -/
  debug : Json := .boolean false

namespace Config

/-- The keys of the settings. -/
def keys : List String := ["substrate_module", "exports", "taint_name", "record_sinks", "debug"]

/-- Sets a setting by its key; the exports are not among these. -/
def set (c : Config) (key : String) (value : Json) : Config :=
  if key = "substrate_module" then { c with substrateModule := value }
  else if key = "taint_name" then { c with taintName := value }
  else if key = "record_sinks" then { c with recordSinks := value }
  else if key = "debug" then { c with debug := value }
  else c

/-- The parts of a value that is made of parts: the items of an array, the
    characters of a text, the keys of an object. -/
def parts : Json → Except Fault (List Json)
  | .array items => .ok items
  | .text s => .ok (s.toList.map fun c => .text (String.ofList [c]))
  | .object members => .ok (members.map fun m => .text m.1)
  | _ => .error .wrongType

/-! ## Documents -/

/-- Whether a value is a text. -/
def isText : Json → Bool
  | .text _ => true
  | _ => false

/-- Whether a value is a truth value. -/
def isBoolean : Json → Bool
  | .boolean _ => true
  | _ => false

/-- The exports that a document sets, if it sets them. -/
def checkExports (members : Members Json) : Except Failure (Option (List Json)) := do
  match Members.get? "exports" members with
  | none => return none
  | some value =>
    let names ← parts value
    if isText value || !names.all isText then
      throw (.diagnostic (.configFile "'exports' must be a list of names"))
    return some names

/-- Checks the value under a key, if there is one. -/
def checkSetting (isValid : Json → Bool) (requirement : String) (members : Members Json)
    (key : String) : Except Failure Unit :=
  match Members.get? key members with
  | none => .ok ()
  | some value =>
    if isValid value then .ok ()
    else .error (.diagnostic (.configFile (Text.quote key ++ " must be " ++ requirement)))

/-- Checks that all keys are known. -/
def checkKeys (found : List String) : Except Failure Unit :=
  let unknown := (found.filter fun key => !keys.contains key).eraseDups.mergeSort (· ≤ ·)
  if unknown.isEmpty then .ok () else .error (.diagnostic (.unknownKeys unknown keys))

/-- A configuration overridden by the members of an object. -/
def updateMembers (base : Config) (members : Members Json) : Except Failure Config := do
  checkKeys (Members.keys members)
  let exports ← checkExports members
  for key in ["substrate_module", "taint_name"] do
    checkSetting isText "a string" members key
  for key in ["record_sinks", "debug"] do
    checkSetting isBoolean "true or false" members key
  let config := members.foldl (fun c m => c.set m.1 m.2) base
  return match exports with
    | none => config
    | some names => { config with exports := names }

/-- A configuration overridden by a document. One without parts says nothing;
    another one that is not an object can at most have parts that are no keys. -/
def update (base : Config) (document : Json) : Except Failure Config := do
  match document with
  | .object members => base.updateMembers members
  | document =>
    let found ← parts document
    match found.mapM Json.text? with
    | none => throw (.fault .wrongType)
    | some names =>
      checkKeys names
      if names.isEmpty then return base else throw (.fault .wrongContent)

/-- The members of the object in the text of a file with a path. -/
def readText (path text : String) : Except Failure (Members Json) := do
  let text := String.ofList (Text.unifyLineEnds text.toList)
  match Json.read text with
  | .error .numeralTooLong => throw (.fault .numeralTooLong)
  | .error (.problem offset what) =>
    let (line, column) := Json.position text offset
    throw (.diagnostic (.configFile (path ++ ":" ++ toString line ++ ":" ++ toString column ++
      ": " ++ what.message)))
  | .ok (.object members) => return members
  | .ok _ => throw (.diagnostic (.configFile (path ++ ": top level must be a JSON object")))

/-- A configuration overridden by the text of a file with a path. -/
def updateText (base : Config) (path text : String) : Except Failure Config := do
  base.updateMembers (← readText path text)

/-- The error for a file that cannot be read, with the cause. -/
def unreadableFile (path cause : String) : Diagnostic :=
  .configFile ("cannot read configuration " ++ path ++ ": " ++ cause ++ ": " ++ Text.quote path)

/-- The error for a file that does not exist. -/
def missingFile (path : String) : Diagnostic :=
  unreadableFile path "[Errno 2] No such file or directory"

/-- The error for a directory in place of a file. -/
def directoryFile (path : String) : Diagnostic :=
  unreadableFile path "[Errno 21] Is a directory"

/-! ## Settings from elsewhere -/

/-- Whether a setting counts as given. -/
def isGiven : Json → Bool
  | .null | .array [] => false
  | _ => true

/-- A configuration overridden by the settings that are given. -/
def override (base : Config) (settings : Members Json) : Except Fault Config :=
  keys.foldlM (fun c key =>
    match Members.get? key settings with
    | none => .ok c
    | some value =>
      if !isGiven value then .ok c
      else if key = "exports" then (parts value).map fun names => { c with exports := names }
      else .ok (c.set key value)) base

/-! ## Use -/

/-- The module of the substrate. -/
def substrateName (c : Config) : String := c.substrateModule.text?.getD ""

/-- The name of the tainted source. -/
def sourceName (c : Config) : String := c.taintName.text?.getD ""

/-- The names of the mocks to generate. -/
def exportNames (c : Config) : List String := c.exports.filterMap Json.text?

/-- Whether a setting is switched on. -/
def isOn : Json → Bool
  | .boolean b => b
  | _ => false

end Config

end TaintWeave
