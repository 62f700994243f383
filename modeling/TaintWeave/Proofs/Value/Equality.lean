import TaintWeave.Proofs.Number.Order
import TaintWeave.Proofs.Outcome

/-!
# Equality of values

Strict equality is a comparison of marks: a value is told apart from others by its place if it is a
number, by its characters if it is a text, by its identity if it is an object (`Value.mark?`). A NaN
has no mark. So strict equality is symmetric and transitive, and reflexive but for the NaN.

Loose equality is given as a cascade: a value that is a truth value is replaced by its number, and
an object by its text, one side at a time, and the comparison starts again (`Value.turn`). Every
turn that starts again leaves one value less to replace, so that there is an end, and there the
answer is that of `Value.looseEqual` (`Value.answers_iff`).

* `Value.strictEqual_iff`: strict equality compares marks.
* `Value.continues_wellFounded`: the cascade ends.
* `Value.looseEqual_comm`: both sides of loose equality count the same.
* `Value.equality_laws`: all laws together.
-/

namespace TaintWeave

namespace Value

variable {u v w : Value}

/-! ## Strict equality -/

/-- What a value is told apart by. -/
inductive Mark where
  | undefined
  | null
  | boolean (b : Bool)
  | number (p : Position)
  | text (s : String)
  | sequence (id : Option Identity)
  | object (id : Identity)
  | function (id : Identity)
  | tainted (id : Identity)
  | category (c : Category)

/-- The mark of a value; a NaN has none. -/
def mark? : Value → Option Mark
  | .undefined => some .undefined
  | .null => some .null
  | .boolean b => some (.boolean b)
  | .number n => n.position?.map .number
  | .text s | .symbol s => some (.text s)
  | .sequence id shape items => some (.sequence (sequenceIdentity id shape items))
  | .object id _ => some (.object id)
  | .function id _ => some (.function id)
  | .tainted id _ _ => some (.tainted id)
  | .category c => some (.category c)

/-- Values are strictly equal if they have the same mark. -/
theorem strictEqual_iff : v.strictEqual w = true ↔ ∃ k, v.mark? = some k ∧ w.mark? = some k := by
  rw [exists_congr fun _ => and_comm]
  cases v with
  | number m =>
    cases w with
    | number n =>
      rw [strictEqual, Number.equal_iff]
      simp only [mark?, Option.map_eq_some_iff]
      constructor
      · rintro ⟨p, hm, hn⟩
        exact ⟨_, ⟨p, hn, rfl⟩, p, hm, rfl⟩
      · rintro ⟨_, ⟨p, hn, rfl⟩, q, hm, hq⟩
        cases hq
        exact ⟨p, hm, hn⟩
    | _ => simp [strictEqual, mark?, text?, sameObject]
  | _ => cases w <;> simp [strictEqual, mark?, text?, sameObject]

/-- Strict equality does not depend on the order of the values. -/
theorem strictEqual_comm (v w : Value) : v.strictEqual w = w.strictEqual v := by
  rw [Bool.eq_iff_iff, strictEqual_iff, strictEqual_iff]
  exact exists_congr fun _ => and_comm

/-- Two values that are strictly equal to a third one are strictly equal. -/
theorem strictEqual_trans (h : u.strictEqual v = true) (h' : v.strictEqual w = true) :
    u.strictEqual w = true := by
  rw [strictEqual_iff] at h h' ⊢
  obtain ⟨k, hu, hv⟩ := h
  obtain ⟨l, hv', hw⟩ := h'
  exact ⟨k, hu, hw.trans (hv'.symm.trans hv)⟩

/-- Every value but the NaN is strictly equal to itself. -/
theorem strictEqual_self_iff : v.strictEqual v = true ↔ v ≠ .number (.float .nan) := by
  rw [strictEqual_iff]
  constructor
  · rintro ⟨k, hk, -⟩ rfl
    cases hk
  · intro h
    cases v with
    | number n =>
      have hn : n.isNaN = false := by
        rcases n with n | _ | _ | _
        · rfl
        · exact absurd rfl h
        · rfl
        · rfl
      obtain ⟨p, hp⟩ := Number.exists_position hn
      have hmark : (Value.number n).mark? = some (.number p) := congrArg (Option.map _) hp
      exact ⟨_, hmark, hmark⟩
    | _ => exact ⟨_, rfl, rfl⟩

/-! ## Conversions of operands -/

/-- Of values, only `undefined` and `null` are absent. -/
theorem isAbsent_iff : v.isAbsent = true ↔ v = .undefined ∨ v = .null := by
  cases v <;> simp [isAbsent]

/-- The number of a value is not found only if a numeral is too long. -/
theorem failsWith_toNumber (v : Value) : FailsWith (· = .numeralTooLong) v.toNumber := by
  have hnumeral : ∀ n : Numeral, FailsWith (· = .numeralTooLong) n.value := by
    intro n
    cases n with
    | whole negative digits =>
      rw [Numeral.value]
      split
      · exact .ok _
      · exact .error rfl
    | _ => exact .ok _
  cases v with
  | undefined | null | boolean _ | number _ => exact .ok _
  | _ => exact hnumeral _

/-- Equality of the numbers of two values. -/
def numbersEqual (v w : Value) : Except Fault Bool := do
  let m ← v.toNumber
  let n ← w.toNumber
  return (number m).strictEqual (number n)

/-- It does not matter which number is found first. -/
theorem numbersEqual_comm (v w : Value) : v.numbersEqual w = w.numbersEqual v := by
  rw [numbersEqual, numbersEqual]
  cases hv : v.toNumber with
  | error f =>
    cases hw : w.toNumber with
    | error g => exact congrArg _ ((failsWith_toNumber v f hv).trans (failsWith_toNumber w g hw).symm)
    | ok n => rfl
  | ok m =>
    cases hw : w.toNumber with
    | error g => rfl
    | ok n => exact congrArg Except.ok (strictEqual_comm _ _)

/-! ## Loose equality -/

/-- It does not matter which of two primitives comes first. -/
theorem looseEqualPrimitive_comm (v w : Value) :
    looseEqualPrimitive v w = looseEqualPrimitive w v := by
  rw [looseEqualPrimitive, looseEqualPrimitive]
  by_cases h : v.kind = w.kind
  · rw [if_pos h, if_pos h.symm, strictEqual_comm]
  · rw [if_neg h, if_neg (Ne.symm h), Bool.or_comm, Bool.and_comm]
    exact if_congr Iff.rfl rfl (numbersEqual_comm v w)

/-- Loose equality does not depend on the order of the values, nor does its fault. -/
theorem looseEqual_comm (v w : Value) : v.looseEqual w = w.looseEqual v := by
  rw [looseEqual, looseEqual]
  by_cases h : v.kind = w.kind
  · rw [if_pos h, if_pos h.symm, strictEqual_comm]
  · rw [if_neg h, if_neg (Ne.symm h), Bool.or_comm, Bool.and_comm, looseEqualPrimitive_comm]

/-- Values of one type are loosely equal if they are strictly equal. -/
theorem looseEqual_of_kind (h : v.kind = w.kind) : v.looseEqual w = .ok (v.strictEqual w) :=
  if_pos h

/-- An absent value is loosely equal to the absent values and to no other. -/
theorem looseEqual_of_isAbsent (h : v.isAbsent = true) (w : Value) :
    v.looseEqual w = .ok w.isAbsent := by
  rcases isAbsent_iff.1 h with rfl | rfl <;> cases w <;> rfl

/-- A number and a text are loosely equal if their numbers are. -/
theorem looseEqual_number_text (hv : v.kind = .number) (hw : w.kind = .text) :
    v.looseEqual w = v.numbersEqual w := by
  cases v with
  | number _ =>
    cases w with
    | text _ | symbol _ => rfl
    | _ => cases hw
  | _ => cases hv

/-- A truth value is loosely equal to what its number is loosely equal to. -/
theorem looseEqual_boolean (hv : v.kind = .boolean) (hw : w.kind ≠ .boolean) :
    ∃ n : ℤ, v.toNumber = .ok (.int n) ∧ v.looseEqual w = (int n).looseEqual w := by
  cases v with
  | boolean b =>
    refine ⟨if b then 1 else 0, rfl, ?_⟩
    cases w with
    | boolean _ => exact absurd rfl hw
    | number n =>
      -- The number is compared as the language holds it, which cannot be told from a small one.
      refine congrArg Except.ok (Number.equal_normalize_of_lt ?_ n)
      cases b <;> decide
    | _ => cases b <;> rfl
  | _ => cases hv

/-- An object is loosely equal to a primitive if its text is. -/
theorem looseEqual_object (hv : v.kind = .object) (hw : w.kind ≠ .object) :
    v.looseEqual w = v.toPrimitive.looseEqual w := by
  rw [toPrimitive, if_pos hv]
  cases v with
  | undefined | null | boolean _ | number _ | text _ | symbol _ => cases hv
  | _ =>
    cases w with
    | undefined | null | boolean _ | number _ | text _ | symbol _ => rfl
    | _ => exact absurd rfl hw

/-! ## The cascade -/

/-- What a turn of the cascade comes to. -/
inductive Turn where
  /-- An answer. -/
  | answer (b : Bool)
  /-- Two values to compare instead. -/
  | again (v w : Value)

/-- The answer after a turn, by loose equality. -/
def Turn.result : Turn → Except Fault Bool
  | answer b => .ok b
  | again v w => v.looseEqual w

/-- A turn of loose equality: one of the values is converted, if it has to be. -/
def turn (v w : Value) : Except Fault Turn :=
  if v.kind = w.kind then .ok (.answer (v.strictEqual w))
  else if v.isAbsent && w.isAbsent then .ok (.answer true)
  else if v.isAbsent || w.isAbsent then .ok (.answer false)
  else if v.kind = .boolean then do return .again (number (← v.toNumber)) w
  else if w.kind = .boolean then do return .again v (number (← w.toNumber))
  else if v.kind = .number ∧ w.kind = .text ∨ v.kind = .text ∧ w.kind = .number then do
    return .answer (← v.numbersEqual w)
  else if v.kind = .object then .ok (.again v.toPrimitive w)
  else if w.kind = .object then .ok (.again v w.toPrimitive)
  else .ok (.answer false)

/-- The cascade on two values, from turn to turn. -/
inductive Answers : Value → Value → Except Fault Bool → Prop
  /-- A conversion fails. -/
  | fault {v w : Value} {f : Fault} : turn v w = .error f → Answers v w (.error f)
  /-- There is an answer. -/
  | answer {v w : Value} {b : Bool} : turn v w = .ok (.answer b) → Answers v w (.ok b)
  /-- The comparison starts again. -/
  | again {v w v' w' : Value} {r : Except Fault Bool} :
    turn v w = .ok (.again v' w') → Answers v' w' r → Answers v w r

/-- Whether the comparison of the second two values starts again with the first two. -/
def Continues (q p : Value × Value) : Prop := turn p.1 p.2 = .ok (.again q.1 q.2)

/-- How often a value of a type is converted until it is a number or a text. -/
def Kind.conversions : Kind → ℕ
  | .boolean | .object => 1
  | _ => 0

/-- The conversions that are left in a comparison. -/
def conversions (p : Value × Value) : ℕ := p.1.kind.conversions + p.2.kind.conversions

/-- The primitive form of an object is a text. -/
theorem kind_toPrimitive (h : v.kind = .object) : v.toPrimitive.kind = .text := by
  rw [toPrimitive, if_pos h]
  rfl

/-- What needs no conversion is a number or a text. -/
theorem kind_eq_number_or_text (habsent : v.isAbsent = false) (hboolean : v.kind ≠ .boolean)
    (hobject : v.kind ≠ .object) : v.kind = .number ∨ v.kind = .text := by
  cases v with
  | undefined | null => cases habsent
  | boolean _ => exact absurd rfl hboolean
  | number _ => exact .inl rfl
  | text _ | symbol _ => exact .inr rfl
  | _ => exact absurd rfl hobject

/-- With every turn that starts again, a conversion is done. -/
theorem Continues.conversions_lt {p q : Value × Value} (h : Continues q p) :
    conversions q < conversions p := by
  obtain ⟨v, w⟩ := p
  obtain ⟨v', w'⟩ := q
  rw [Continues, turn] at h
  dsimp only at h
  rw [conversions, conversions]
  split at h
  · cases h
  split at h
  · cases h
  split at h
  · cases h
  split at h
  · rename_i hboolean
    obtain ⟨n, -, ⟨⟩⟩ := bind_eq_ok.1 h
    rw [hboolean]
    simp [Kind.conversions, kind]
  split at h
  · rename_i hboolean
    obtain ⟨n, -, ⟨⟩⟩ := bind_eq_ok.1 h
    rw [hboolean]
    simp [Kind.conversions, kind]
  split at h
  · obtain ⟨b, -, ⟨⟩⟩ := bind_eq_ok.1 h
  split at h
  · rename_i hobject
    cases h
    rw [kind_toPrimitive hobject, hobject]
    simp [Kind.conversions]
  split at h
  · rename_i hobject
    cases h
    rw [kind_toPrimitive hobject, hobject]
    simp [Kind.conversions]
  · cases h

/-- The cascade ends, whatever the values are. -/
theorem continues_wellFounded : WellFounded Continues :=
  Subrelation.wf Continues.conversions_lt (measure conversions).wf

/-- A turn does not change the answer. -/
theorem looseEqual_eq_turn (v w : Value) : v.looseEqual w = turn v w >>= Turn.result := by
  rw [turn]
  split
  · rename_i hkind
    exact looseEqual_of_kind hkind
  rename_i hkind
  split
  · rename_i habsent
    rw [Bool.and_eq_true] at habsent
    rw [looseEqual_of_isAbsent habsent.1, habsent.2]
    rfl
  rename_i hboth
  split
  · rename_i habsent
    rcases Bool.or_eq_true_iff.1 habsent with h | h
    · have hw : w.isAbsent = false := by simpa [h] using hboth
      rw [looseEqual_of_isAbsent h, hw]
      rfl
    · have hv : v.isAbsent = false := by simpa [h] using hboth
      rw [looseEqual_comm, looseEqual_of_isAbsent h, hv]
      rfl
  rename_i hpresent
  split
  · rename_i hv
    obtain ⟨n, hn, heq⟩ := looseEqual_boolean hv (hv ▸ Ne.symm hkind)
    rw [heq, hn]
    rfl
  split
  · rename_i hw
    obtain ⟨n, hn, heq⟩ := looseEqual_boolean hw (hw ▸ hkind)
    rw [looseEqual_comm, heq, looseEqual_comm, hn]
    rfl
  split
  · rename_i hmixed
    have heq : v.looseEqual w = v.numbersEqual w := by
      rcases hmixed with ⟨hv, hw⟩ | ⟨hv, hw⟩
      · exact looseEqual_number_text hv hw
      · rw [looseEqual_comm, looseEqual_number_text hw hv, numbersEqual_comm]
    rw [heq]
    cases v.numbersEqual w <;> rfl
  split
  · rename_i hv
    exact looseEqual_object hv (hv ▸ Ne.symm hkind)
  split
  · rename_i hw
    rw [looseEqual_comm, looseEqual_object hw (hw ▸ hkind), looseEqual_comm]
    rfl
  · -- Two values are left that are numbers or texts, and then one of the cases before holds.
    rename_i hv hw hmixed hv' hw'
    rw [Bool.or_eq_true, not_or, Bool.not_eq_true, Bool.not_eq_true] at hpresent
    rcases kind_eq_number_or_text hpresent.1 hv hv' with hv | hv <;>
      rcases kind_eq_number_or_text hpresent.2 hw hw' with hw | hw
    · exact absurd (hv.trans hw.symm) hkind
    · exact absurd (.inl ⟨hv, hw⟩) hmixed
    · exact absurd (.inr ⟨hv, hw⟩) hmixed
    · exact absurd (hv.trans hw.symm) hkind

/-- The cascade answers what loose equality is. -/
theorem answers_iff {r : Except Fault Bool} : Answers v w r ↔ r = v.looseEqual w := by
  constructor
  · intro h
    induction h with
    | fault h | answer h =>
      rw [looseEqual_eq_turn, h]
      rfl
    | again h _ ih =>
      rw [looseEqual_eq_turn, h]
      exact ih
  · rintro rfl
    -- By induction on what the comparison continues with.
    suffices h : ∀ p : Value × Value, Answers p.1 p.2 (p.1.looseEqual p.2) from h (v, w)
    intro p
    induction p using continues_wellFounded.induction with
    | _ p ih =>
      have heq := looseEqual_eq_turn p.1 p.2
      cases hturn : turn p.1 p.2 with
      | error f =>
        rw [heq, hturn]
        exact .fault hturn
      | ok t =>
        rw [heq, hturn]
        cases t with
        | answer b => exact .answer hturn
        | again v' w' => exact .again hturn (ih (v', w') hturn)

/-! ## The laws -/

/-- The laws of the two equalities: loose equality, or its fault, does not depend on the order of
    the values; the cascade ends, and answers what loose equality is; on values of one type this is
    strict equality; what is absent is loosely equal to what is absent and to nothing else; strict
    equality is symmetric and transitive, and reflexive but for the NaN. -/
theorem equality_laws (u v w : Value) :
    v.looseEqual w = w.looseEqual v ∧
    WellFounded Continues ∧
    (∀ r, Answers v w r ↔ r = v.looseEqual w) ∧
    (v.kind = w.kind → v.looseEqual w = .ok (v.strictEqual w)) ∧
    (v = .undefined ∨ v = .null →
      (w = .undefined ∨ w = .null → v.looseEqual w = .ok true) ∧
      (¬(w = .undefined ∨ w = .null) → v.looseEqual w = .ok false)) ∧
    v.strictEqual w = w.strictEqual v ∧
    (u.strictEqual v = true → v.strictEqual w = true → u.strictEqual w = true) ∧
    (v.strictEqual v = true ↔ v ≠ .number (.float .nan)) := by
  refine ⟨looseEqual_comm v w, continues_wellFounded, fun r => answers_iff, looseEqual_of_kind, ?_,
    strictEqual_comm v w, strictEqual_trans, strictEqual_self_iff⟩
  intro hv
  rw [looseEqual_of_isAbsent (isAbsent_iff.2 hv), ← isAbsent_iff, Bool.not_eq_true]
  exact ⟨congrArg _, congrArg _⟩

/-- An array with a text is loosely equal to a truth value, over three turns; `undefined` to `null`;
    a text to the same one without quotes, strictly too; and a fixed sequence without items is one
    object. -/
theorem equality_laws_mixed :
    Answers (.sequence 1 .list [.text " 1 "]) (.boolean true) (.ok true) ∧
    undefined.looseEqual null = .ok true ∧
    undefined.looseEqual (.text "undefined") = .ok false ∧
    (text "a").looseEqual (symbol "a") = .ok ((text "a").strictEqual (symbol "a")) ∧
    (sequence 1 .tuple []).strictEqual (sequence 3 .tuple []) = true :=
  ⟨((equality_laws null (.sequence 1 .list [.text " 1 "]) (.boolean true)).2.2.1 _).2
      (by decide +kernel),
    ((equality_laws null undefined null).2.2.2.2.1 (.inl rfl)).1 (.inr rfl),
    ((equality_laws null undefined (text "undefined")).2.2.2.2.1 (.inl rfl)).2 (by simp),
    (equality_laws null (text "a") (symbol "a")).2.2.2.1 rfl,
    (equality_laws (sequence 1 .tuple []) (sequence 2 .tuple []) (sequence 3 .tuple [])).2.2.2.2.2.2.1
      (by decide +kernel) (by decide +kernel)⟩

end Value

end TaintWeave
