import TaintWeave.Taint.Run

/-!
# Taint substrates

A substrate decides how tainted values are represented. Everything else asks it
whether a value is tainted, for the raw value and the label, and for a tainted
value of a raw value and a label.

* `Substrate.inMemory`: tainted values are values of their own kind.
* `Substrate.boxed`: tainted values are tuples with a mark in front.
-/

namespace TaintWeave

/-- A representation of tainted values. -/
structure Substrate where
  /-- Whether a value is tainted. -/
  isTainted : Value → Bool
  /-- The raw value of a tainted value. -/
  unwrap : Value → Except Fault Value
  /-- The label of a tainted value. -/
  provenance : Value → Except Fault Value
  /-- A tainted value of a raw value and a label. -/
  wrap : Value → String → Run Value
  /-- Whether sinks that are reached are recorded. -/
  recordsSinks : Bool

namespace Substrate

/-- Tainted values as values of their own kind, with a record of sinks. -/
def inMemory : Substrate where
  isTainted
    | .tainted _ _ _ => true
    | _ => false
  unwrap
    | .tainted _ raw _ => .ok raw
    | v => .ok v
  provenance
    | .tainted _ _ label => .ok (.text label)
    | v => .error (.notTainted v.display)
  wrap raw label := do return .tainted (← Run.freshIdentity) raw label
  recordsSinks := true

/-- The part of a value at a position, for values that have such parts. -/
def part (v : Value) (i : Nat) : Except Fault Value :=
  match v with
  | .sequence _ _ items =>
    match items[i]? with
    | some item => .ok item
    | none => .error .outOfRange
  | .text s | .symbol s =>
    match s.toList[i]? with
    | some c => .ok (.text (String.ofList [c]))
    | none => .error .outOfRange
  | .object _ _ => .error .missingKey
  | _ => .error .wrongType

/-- Tainted values as tuples of a mark, the raw value and the label. Nothing but
    the question whether a value is tainted looks at the mark. -/
def boxed : Substrate where
  isTainted
    | .sequence _ .tuple [mark, _, _] => mark.text? == some "T"
    | _ => false
  unwrap v := part v 1
  provenance v := part v 2
  wrap raw label := do
    return .sequence (← Run.freshIdentity) .tuple [.text "T", raw, .text label]
  recordsSinks := false

/-- The operations that a substrate must have, by name. -/
def requiredOperations : List String := ["is_tainted", "unwrap", "wrap", "provenance_name"]

/-- The bound of the records where a host shares them with all its code. -/
def sharedLimit : Nat := 10000

end Substrate

end TaintWeave
