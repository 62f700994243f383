import TaintWeave.Json.Basic
import TaintWeave.Number.Numeral

/-!
# Reading JSON

A text is cut into tokens (`Json.tokens`), and the tokens build up a document
one after the other (`Json.step`). A token that is itself malformed carries its
error, which counts only where a value or a key is due: so the first error of a
text is that of its first part that does not fit.

* `Json.read`: the document of a text.
* `Json.ReadError`: what is wrong with a text, and where.
-/

namespace TaintWeave.Json

/-- What is wrong with a text. -/
inductive Problem where
  | markAtStart | valueDue | keyDue | colonDue | commaDue | extraData
  | unterminatedText | controlCharacter | unknownEscape | malformedEscape
  deriving DecidableEq, Repr

/-- The message of a problem. -/
def Problem.message : Problem → String
  | markAtStart => "Unexpected UTF-8 BOM (decode using utf-8-sig)"
  | valueDue => "Expecting value"
  | keyDue => "Expecting property name enclosed in double quotes"
  | colonDue => "Expecting ':' delimiter"
  | commaDue => "Expecting ',' delimiter"
  | extraData => "Extra data"
  | unterminatedText => "Unterminated string starting at"
  | controlCharacter => "Invalid control character at"
  | unknownEscape => "Invalid \\escape"
  | malformedEscape => "Invalid \\uXXXX escape"

/-- Why a text cannot be read. -/
inductive ReadError where
  /-- A problem at a character, counted from the start of the text. -/
  | problem (offset : Nat) (what : Problem)
  /-- An integer has more digits than are read. -/
  | numeralTooLong
  deriving DecidableEq, Repr

/-! ## Tokens -/

/-- A token. -/
inductive Token where
  | openArray | closeArray | openObject | closeObject | comma | colon
  /-- A number or a word. -/
  | literal (value : Json)
  /-- An integer of too many digits. -/
  | longNumeral
  /-- A text. -/
  | text (s : String)
  /-- A text that is malformed. -/
  | malformedText (offset : Nat) (what : Problem)
  /-- A character that starts no token. -/
  | other
  deriving Inhabited

/-- The character of a letter after a backslash, other than `u`. -/
def unescape (c : Char) : Option Char :=
  if c = '"' ∨ c = '\\' ∨ c = '/' then some c
  else if c = 'b' then some '\x08'
  else if c = 'f' then some '\x0c'
  else if c = 'n' then some '\n'
  else if c = 'r' then some '\r'
  else if c = 't' then some '\t'
  else none

/-- The unit that hexadecimal digits denote. -/
def hexUnit (cs : List Char) : Option Nat :=
  if cs.all (Numeral.isDigit 16) then some (Numeral.ofDigits 16 cs) else none

/-- Whether a unit is the first half of a pair. -/
def isHighHalf (unit : Nat) : Bool := 0xD800 ≤ unit && unit ≤ 0xDBFF

/-- Whether a unit is the second half of a pair. -/
def isLowHalf (unit : Nat) : Bool := 0xDC00 ≤ unit && unit ≤ 0xDFFF

/-- The character of a pair of units. -/
def charOfPair (high low : Nat) : Char :=
  Char.ofNat (0x10000 + (high - 0xD800) * 0x400 + (low - 0xDC00))

/-- The character of a code; half of a pair counts as the replacement
    character. -/
def charOfCode (code : Nat) : Char :=
  if isHighHalf code || isLowHalf code then '\ufffd' else Char.ofNat code

/-- The characters of codes, of which neighbouring halves form a pair. -/
def charsOfCodes : List Nat → List Char
  | high :: low :: rest =>
    if isHighHalf high && isLowHalf low then charOfPair high low :: charsOfCodes rest
    else charOfCode high :: charsOfCodes (low :: rest)
  | [code] => [charOfCode code]
  | [] => []

/-- Reads a text up to its closing quote. `start` is the offset of the opening
    quote and `offset` that of the next character; `seen` holds the codes so far,
    the last one first. Gives the text and the number of characters read, or the
    place and kind of an error. -/
def scanText (start : Nat) (offset : Nat) (seen : List Nat) :
    List Char → Except (Nat × Problem) (String × Nat)
  | [] => .error (start, .unterminatedText)
  | '"' :: _ => .ok (String.ofList (charsOfCodes seen.reverse), offset - start)
  | '\\' :: 'u' :: a :: b :: c :: d :: rest =>
    -- The text must not end right behind the digits.
    match hexUnit [a, b, c, d], rest.isEmpty with
    | some unit, false => scanText start (offset + 6) (unit :: seen) rest
    | _, _ => .error (offset + 1, .malformedEscape)
  | '\\' :: 'u' :: _ => .error (offset + 1, .malformedEscape)
  | '\\' :: c :: rest =>
    match unescape c with
    | some d => scanText start (offset + 2) (d.toNat :: seen) rest
    | none => .error (offset, .unknownEscape)
  | ['\\'] => .error (start, .unterminatedText)
  | c :: rest =>
    if c.toNat < 0x20 then .error (offset, .controlCharacter)
    else scanText start (offset + 1) (c.toNat :: seen) rest

/-- The token of digits with a sign, a fraction and an exponent, as far as they
    are there, and its length; `none` without a digit. -/
def scanNumber (cs : List Char) : Option (Token × Nat) :=
  let (negative, digits) := match cs with
    | '-' :: rest => (true, rest)
    | _ => (false, cs)
  let whole := match digits with
    | '0' :: _ => ['0']
    | _ => digits.takeWhile (Numeral.isDigit 10)
  if whole.isEmpty then none
  else
    let afterWhole := digits.drop whole.length
    let fraction := match afterWhole with
      | '.' :: rest => rest.takeWhile (Numeral.isDigit 10)
      | _ => []
    let fractionLength := if fraction.isEmpty then 0 else fraction.length + 1
    let afterFraction := afterWhole.drop fractionLength
    let (exponent, exponentLength) := match afterFraction with
      | c :: rest =>
        if c = 'e' ∨ c = 'E' then
          let (minus, tail) := Numeral.splitSign rest
          let power := tail.takeWhile (Numeral.isDigit 10)
          if power.isEmpty then ((0 : Int), 0)
          else (Numeral.signed minus (Numeral.ofDigits 10 power),
            1 + (rest.length - tail.length) + power.length)
        else (0, 0)
      | [] => (0, 0)
    let length := (if negative then 1 else 0) + whole.length + fractionLength + exponentLength
    if fractionLength + exponentLength = 0 then
      let token := if whole.length ≤ Numeral.digitLimit then
          .literal (.number (.int (Numeral.signed negative (Numeral.ofDigits 10 whole))))
        else .longNumeral
      some (token, length)
    else
      let value : Decimal :=
        ⟨Numeral.ofDigits 10 (whole ++ fraction), exponent - fraction.length⟩
      some (.literal (.number (.float (.ofDecimal negative value))), length)

/-- The words of the format. -/
def words : List (String × Json) :=
  [("null", .null), ("true", .boolean true), ("false", .boolean false),
   ("NaN", .number (.float .nan)), ("Infinity", .number (.float (.infinite false))),
   ("-Infinity", .number (.float (.infinite true)))]

/-- The token at the start of a text, and its length. -/
def scanToken (offset : Nat) (cs : List Char) : Token × Nat :=
  match cs with
  | '[' :: _ => (.openArray, 1)
  | ']' :: _ => (.closeArray, 1)
  | '\x7b' :: _ => (.openObject, 1)
  | '\x7d' :: _ => (.closeObject, 1)
  | ',' :: _ => (.comma, 1)
  | ':' :: _ => (.colon, 1)
  | '"' :: rest =>
    match scanText offset (offset + 1) [] rest with
    | .ok (s, length) => (.text s, length + 1)
    | .error (place, what) => (.malformedText place what, cs.length)
  | _ =>
    match scanNumber cs with
    | some found => found
    | none =>
      match words.find? fun word => word.1.toList.isPrefixOf cs with
      | some (word, value) => (.literal value, word.length)
      | none => (.other, 1)

/-- Whether a character may stand between tokens. -/
def isSpace (c : Char) : Bool := c = ' ' || c = '\t' || c = '\n' || c = '\r'

/-- The tokens of a text with their offsets. -/
def tokensFrom (offset : Nat) : List Char → List (Nat × Token)
  | [] => []
  | c :: cs =>
    if isSpace c then tokensFrom (offset + 1) cs
    else
      let (token, length) := scanToken offset (c :: cs)
      (offset, token) :: tokensFrom (offset + 1 + (length - 1)) (cs.drop (length - 1))
  termination_by cs => cs.length

/-- The tokens of a text with their offsets. -/
def tokens (s : String) : List (Nat × Token) := tokensFrom 0 s.toList

/-! ## Documents -/

/-- The unfinished arrays and objects around a place in a document, from the
    inside out. -/
inductive Context where
  /-- The place is the document itself. -/
  | document
  /-- The place is an item after others, the last one first. -/
  | item (before : List Json) (outer : Context)
  /-- The place is the value of a member after others. -/
  | member (before : Members Json) (key : String) (outer : Context)

/-- What the text so far has led to. -/
inductive State where
  /-- A value is due. -/
  | value (context : Context)
  /-- An array has been opened. -/
  | firstItem (outer : Context)
  /-- An object has been opened. -/
  | firstKey (outer : Context)
  /-- A key is due. -/
  | key (before : Members Json) (outer : Context)
  /-- A colon is due. -/
  | colon (before : Members Json) (key : String) (outer : Context)
  /-- A value is complete. -/
  | complete (value : Json) (context : Context)

/-- Takes a token where a value is due. -/
def takeValue (offset : Nat) (context : Context) : Token → Except ReadError State
  | .literal value => .ok (.complete value context)
  | .text s => .ok (.complete (.text s) context)
  | .openArray => .ok (.firstItem context)
  | .openObject => .ok (.firstKey context)
  | .malformedText place what => .error (.problem place what)
  | .longNumeral => .error .numeralTooLong
  | _ => .error (.problem offset .valueDue)

/-- Takes a token where a key is due. -/
def takeKey (offset : Nat) (before : Members Json) (outer : Context) :
    Token → Except ReadError State
  | .text s => .ok (.colon before s outer)
  | .malformedText place what => .error (.problem place what)
  | _ => .error (.problem offset .keyDue)

/-- Takes a token after a complete value. -/
def takeSeparator (offset : Nat) (value : Json) : Context → Token → Except ReadError State
  | .document, _ => .error (.problem offset .extraData)
  | .item before outer, .comma => .ok (.value (.item (value :: before) outer))
  | .item before outer, .closeArray =>
    .ok (.complete (.array (value :: before).reverse) outer)
  | .member before key outer, .comma => .ok (.key (before.insert key value) outer)
  | .member before key outer, .closeObject =>
    .ok (.complete (.object (before.insert key value)) outer)
  | _, _ => .error (.problem offset .commaDue)

/-- Takes a token. -/
def step (state : State) (placed : Nat × Token) : Except ReadError State :=
  let (offset, token) := placed
  match state with
  | .value context => takeValue offset context token
  | .firstItem outer =>
    match token with
    | .closeArray => .ok (.complete (.array []) outer)
    | token => takeValue offset (.item [] outer) token
  | .firstKey outer =>
    match token with
    | .closeObject => .ok (.complete (.object []) outer)
    | token => takeKey offset [] outer token
  | .key before outer => takeKey offset before outer token
  | .colon before key outer =>
    match token with
    | .colon => .ok (.value (.member before key outer))
    | _ => .error (.problem offset .colonDue)
  | .complete value context => takeSeparator offset value context token

/-- The document when the text has ended. -/
def finish (offset : Nat) : State → Except ReadError Json
  | .complete value .document => .ok value
  | .complete _ _ => .error (.problem offset .commaDue)
  | .value _ | .firstItem _ => .error (.problem offset .valueDue)
  | .firstKey _ | .key _ _ => .error (.problem offset .keyDue)
  | .colon _ _ _ => .error (.problem offset .colonDue)

/-- The document of a text. -/
def read (s : String) : Except ReadError Json :=
  if s.toList.head? = some '\ufeff' then .error (.problem 0 .markAtStart)
  else do finish s.length (← (tokens s).foldlM step (.value .document))

/-- The line and column of an offset, both counted from one. -/
def position (s : String) (offset : Nat) : Nat × Nat :=
  let before := s.toList.take offset
  (before.count '\n' + 1, (before.reverse.takeWhile (· ≠ '\n')).length + 1)

end TaintWeave.Json
