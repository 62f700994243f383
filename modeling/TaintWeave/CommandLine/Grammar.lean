import TaintWeave.Text.Digit

/-!
# Command-line grammars

A grammar has switches, which may stand anywhere, and places, which are filled
in order by the words between them. A switch has short names (`-o`) and long
names (`--output`); a long name may be cut short as long as only one fits, and
an argument may be attached, to a long name by an equals sign. Short switches
without arguments may be written in one word. What follows a word `--` is never
a switch.

* `Grammar.read`: the settings that a command line makes, in order.
-/

namespace TaintWeave.CommandLine

/-- Why a command line is not carried out. -/
inductive Stop where
  /-- It does not fit the grammar. -/
  | usage
  /-- It asks for help. -/
  | help
  /-- It asks for the version. -/
  | version
  deriving DecidableEq, Repr

/-- How many arguments a switch takes. -/
inductive Arguments where
  | none | one | several
  deriving DecidableEq, Repr

/-- What a switch does. -/
inductive Effect where
  /-- It makes a setting of its arguments. -/
  | set
  /-- It stops the reading. -/
  | stop (reason : Stop)
  deriving DecidableEq, Repr

/-- A switch. -/
structure Switch where
  /-- Its names, with their hyphens. -/
  names : List String
  /-- The setting that it makes. -/
  key : String
  /-- The number of its arguments. -/
  arguments : Arguments := .none
  /-- The arguments that are allowed; all, if there is none. -/
  choices : List String := []
  /-- What it does. -/
  effect : Effect := .set
  deriving DecidableEq, Repr

/-- How many words fill a place. -/
inductive Extent where
  /-- One word. -/
  | one
  /-- All words up to the next switch, but at least one. -/
  | several
  /-- A word and all that follows it. -/
  | rest
  deriving DecidableEq, Repr

/-- A place. -/
structure Place where
  /-- The setting that it makes. -/
  key : String
  /-- How many words fill it. -/
  extent : Extent := .one
  /-- Whether it must be filled. -/
  isRequired : Bool := true
  deriving DecidableEq, Repr

/-- A grammar. A place that takes several words is its last one. -/
structure Grammar where
  /-- The switches. -/
  switches : List Switch
  /-- The places, in order. -/
  places : List Place := []
  deriving DecidableEq, Repr

/-! ## Words and switches -/

/-- A text attached to a switch. -/
structure Attached where
  /-- Whether it follows an equals sign. -/
  isAssigned : Bool
  /-- The text. -/
  text : List Char
  deriving DecidableEq, Repr

/-- A switch as it stands on a command line. -/
structure Occurrence where
  /-- The switch. -/
  switch : Switch
  /-- Whether it stands there by a short name. -/
  isShort : Bool
  /-- What is attached to it. -/
  attached : Option Attached
  deriving DecidableEq, Repr

/-- What an argument is taken for. -/
inductive Role where
  /-- The first `--`. -/
  | separator
  /-- A word. -/
  | word
  /-- A switch. -/
  | switch (occurrence : Occurrence)
  /-- A switch that the grammar does not have. -/
  | unknownSwitch
  deriving DecidableEq, Repr

/-- An argument and its role. -/
structure Token where
  /-- The argument. -/
  text : String
  /-- Its role. -/
  role : Role
  deriving DecidableEq, Repr

/-- Whether a token is a word. -/
def Token.isWord (t : Token) : Bool := t.role == .word

/-- Whether a token is the separator. -/
def Token.isSeparator (t : Token) : Bool := t.role == .separator

/-- Whether characters form a negative number: digits, perhaps with a point
    before the last of them. A line feed at the end does not count. -/
def isNegativeNumber : List Char → Bool
  | '-' :: cs =>
    let cs := if cs.getLast? = some '\n' then cs.dropLast else cs
    match cs.dropWhile Text.isDecimal with
    | [] => !cs.isEmpty
    | '.' :: places => !places.isEmpty && places.all Text.isDecimal
    | _ => false
  | _ => false

/-- A text before and after its first equals sign, if it has one. -/
def splitAssignment : List Char → List Char × Option (List Char)
  | [] => ([], none)
  | c :: cs =>
    if c = '=' then ([], some cs)
    else
      let (name, value) := splitAssignment cs
      (c :: name, value)

namespace Grammar

/-- The switch with a name. -/
def switch? (g : Grammar) (name : List Char) : Option Switch :=
  g.switches.find? fun s => s.names.contains (String.ofList name)

/-- Whether an argument begins as a long name does. -/
def isLong : List Char → Bool
  | '-' :: '-' :: _ => true
  | _ => false

/-- The switches that an argument without an exact match may stand for: for a
    long name all that it begins, and for a short one that of its letter. -/
def candidates (g : Grammar) (argument : List Char) : List Occurrence :=
  if isLong argument then
    let (name, value) := splitAssignment argument
    g.switches.flatMap fun s =>
      (s.names.filter fun n => name.isPrefixOf n.toList).map fun _ =>
        ⟨s, false, value.map fun v => ⟨true, v⟩⟩
  else
    match g.switch? (argument.take 2) with
    | some s => [⟨s, true, some ⟨false, argument.drop 2⟩⟩]
    | none => []

/-- What an argument is taken for; one that may stand for two switches is an
    error. What looks like a number, or has a space in it, is a word unless it
    is a switch. -/
def role (g : Grammar) (argument : List Char) : Except Stop Role :=
  match argument with
  | '-' :: _ :: _ =>
    match g.switch? argument with
    | some s => .ok (.switch ⟨s, !isLong argument, none⟩)
    | none =>
      let (name, value) := splitAssignment argument
      match g.switch? name, value with
      | some s, some v => .ok (.switch ⟨s, !isLong argument, some ⟨true, v⟩⟩)
      | _, _ =>
        match g.candidates argument with
        | [] =>
          .ok (if isNegativeNumber argument || argument.contains ' ' then .word
            else .unknownSwitch)
        | [occurrence] => .ok (.switch occurrence)
        | _ => .error .usage
  | _ => .ok .word

/-- The arguments of a command line with their roles. -/
def tokens (g : Grammar) : List String → Except Stop (List Token)
  | [] => .ok []
  | argument :: rest => do
    if argument = "--" then
      return ⟨argument, .separator⟩ :: rest.map fun word => ⟨word, .word⟩
    let role ← g.role argument.toList
    let rest ← tokens g rest
    return ⟨argument, role⟩ :: rest

/-! ## Switches -/

/-- What one argument stands for. -/
structure Expansion where
  /-- Switches with their arguments. -/
  uses : List (Switch × List String)
  /-- What cannot be read. -/
  leftover : List String := []
  /-- The number of tokens that follow and are used up. -/
  taken : Nat := 0

/-- A switch whose arguments follow it as words. -/
def expandBare (switch : Switch) (following : List Token) : Except Stop Expansion :=
  let words := (following.takeWhile Token.isWord).map Token.text
  match switch.arguments, words with
  | .none, _ => .ok { uses := [(switch, [])] }
  | .one, word :: _ => .ok { uses := [(switch, [word])], taken := 1 }
  | .several, _ :: _ => .ok { uses := [(switch, words)], taken := words.length }
  | _, [] => .error .usage

/-- An expansion after a switch without arguments. -/
def Expansion.after (switch : Switch) (e : Expansion) : Expansion :=
  { e with uses := (switch, []) :: e.uses }

/-- A switch with an attached text: its argument, or more switches in short
    form. An equals sign in front of the text is no part of it. -/
def expandAttached (g : Grammar) (following : List Token) (switch : Switch)
    (isShort isAssigned : Bool) : List Char → Except Stop Expansion
  | [] => if switch.arguments = .none then .error .usage else .ok { uses := [(switch, [""])] }
  | c :: cs =>
    if !isAssigned && c = '=' then expandAttached g following switch isShort true cs
    else if switch.arguments ≠ .none then
      .ok { uses := [(switch, [String.ofList (c :: cs)])] }
    else if !isShort || isAssigned || c = '-' then .error .usage
    else
      match g.switch? ['-', c] with
      | none => .ok { uses := [(switch, [])], leftover := [String.ofList ('-' :: c :: cs)] }
      | some next =>
        if cs.isEmpty then (expandBare next following).map (Expansion.after switch)
        else (expandAttached g following next true false cs).map (Expansion.after switch)

/-- What a switch on the command line stands for, with the tokens that follow. -/
def expand (g : Grammar) (occurrence : Occurrence) (following : List Token) :
    Except Stop Expansion :=
  match occurrence.attached with
  | none => expandBare occurrence.switch following
  | some attached =>
    g.expandAttached following occurrence.switch occurrence.isShort attached.isAssigned
      attached.text

end Grammar

/-! ## Places -/

/-- The number of tokens that fill a place, if it can be filled. A separator
    before or after a word belongs to it. -/
def Extent.size (extent : Extent) (tokens : List Token) : Option Nat :=
  let before := (tokens.takeWhile Token.isSeparator).length
  match tokens.drop before with
  | [] => none
  | first :: following =>
    if !first.isWord then none
    else some (before + 1 +
      match extent with
      | .one => (following.takeWhile Token.isSeparator).length
      | .several => (following.takeWhile fun t => t.isWord || t.isSeparator).length
      | .rest => following.length)

/-- The words in a place. The separator is not one of them, except in a place
    that takes all. -/
def Extent.words (extent : Extent) (tokens : List Token) : List String :=
  let texts := tokens.map Token.text
  match extent with
  | .rest => texts
  | _ => texts.erase "--"

/-- Fills places in order, as many as there are words for: gives the settings,
    the places that are still empty, and the number of tokens used up. -/
def Place.fill : List Place → List Token → List (String × List String) × List Place × Nat
  | [], _ => ([], [], 0)
  | place :: places, tokens =>
    match place.extent.size tokens with
    | none => ([], place :: places, 0)
    | some n =>
      let (settings, empty, m) := Place.fill places (tokens.drop n)
      ((place.key, place.extent.words (tokens.take n)) :: settings, empty, n + m)

/-! ## Reading -/

/-- What has been read of a command line. -/
structure Parsed where
  /-- The settings, in order. -/
  settings : List (String × List String) := []
  /-- The arguments that do not belong anywhere. -/
  leftover : List String := []
  deriving DecidableEq, Repr

namespace Parsed

/-- Adds the use of a switch. -/
def use (r : Parsed) (switch : Switch) (arguments : List String) : Except Stop Parsed :=
  if !switch.choices.isEmpty && !arguments.all switch.choices.contains then .error .usage
  else
    match switch.effect with
    | .stop reason => .error reason
    | .set => .ok { r with settings := r.settings ++ [(switch.key, arguments)] }

/-- The arguments of the last setting with a key. -/
def last? (r : Parsed) (key : String) : Option (List String) :=
  (r.settings.reverse.find? fun s => s.1 == key).map (·.2)

/-- The argument of the last setting with a key. -/
def argument? (r : Parsed) (key : String) : Option String := (r.last? key).bind List.head?

/-- Whether there is a setting with a key. -/
def has (r : Parsed) (key : String) : Bool := (r.last? key).isSome

/-- The number of settings with a key. -/
def count (r : Parsed) (key : String) : Nat := (r.settings.filter fun s => s.1 == key).length

end Parsed

namespace Grammar

/-- Reads tokens while there are any. -/
def readTokens (g : Grammar) (places : List Place) (r : Parsed) :
    List Token → Except Stop (Parsed × List Place)
  | [] => .ok (r, places)
  | token :: rest =>
    match token.role with
    | .switch occurrence => do
      let expansion ← g.expand occurrence rest
      let r ← expansion.uses.foldlM (fun r use => r.use use.1 use.2) r
      readTokens g places { r with leftover := r.leftover ++ expansion.leftover }
        (rest.drop expansion.taken)
    | .unknownSwitch => readTokens g places { r with leftover := r.leftover ++ [token.text] } rest
    | .separator | .word =>
      let (settings, empty, n) := Place.fill places (token :: rest)
      if n = 0 then
        readTokens g places { r with leftover := r.leftover ++ [token.text] } rest
      else
        readTokens g empty { r with settings := r.settings ++ settings } (rest.drop (n - 1))
termination_by tokens => tokens.length
decreasing_by all_goals grind

/-- Reads a command line. What is left over is for the caller to judge; an empty
    place that must be filled is an error. -/
def read (g : Grammar) (arguments : List String) : Except Stop Parsed := do
  let tokens ← g.tokens arguments
  let (r, empty) ← g.readTokens g.places {} tokens
  if empty.any Place.isRequired then throw .usage
  return r

end Grammar

end TaintWeave.CommandLine
