import Mathlib.Data.List.Basic
import TaintWeave.Proofs.Provenance.WellFormed
import TaintWeave.Proofs.Text.Runs

/-!
# Labels and derivations

Reading a label gives a derivation if and only if the label is the text of a well-formed
derivation, and then it gives that one. The reader commits itself twice, to the longest operator and
to the first kind of label that fits; neither choice ever loses the derivation.

* `Reading.yields_label`: the text of a well-formed derivation is read, whatever comes after it.
* `Reading.wellFormed_of_reads`: what is read is well-formed, and its text has been read.
* `Derivation.read_toText`: reading is the inverse of writing.
-/

namespace TaintWeave

namespace Reading

variable {symbols : List String}

/-! ## Operators -/

/-- What stands before a character that none of its own can be stays before it. -/
theorem prefix_of_prefix_append {p : Char → Bool} {s front tail : List Char} {c : Char}
    (hs : ∀ a ∈ s, p a = true) (hc : p c = false) (h : s <+: front ++ c :: tail) : s <+: front := by
  have hfront : front ++ [c] <+: front ++ c :: tail := ⟨tail, by simp⟩
  rcases List.prefix_or_prefix_of_prefix h hfront with hshort | hlong
  · rcases List.prefix_concat_iff.1 hshort with rfl | hshort
    · simp [hs c (by simp)] at hc
    · exact hshort
  · simp [hs c (hlong.subset (by simp))] at hc

/-- All symbols are tried, and nothing else. -/
theorem mem_trialOrder (h : Legible symbols) {s : String} :
    s ∈ trialOrder symbols ↔ s ∈ symbols := by
  rw [trialOrder, if_neg (by simp [h.nonempty]), List.mem_mergeSort]

/-- Longer symbols are tried first. -/
theorem pairwise_trialOrder (symbols : List String) :
    (trialOrder symbols).Pairwise fun s t => t.length ≤ s.length := by
  rw [trialOrder]
  split
  · exact List.pairwise_singleton _ _
  · have hsorted : (symbols.mergeSort fun s t => t.length ≤ s.length).Pairwise
        fun s t => decide (t.length ≤ s.length) = true :=
      List.pairwise_mergeSort (by simp only [decide_eq_true_eq]; omega) (by simp; omega) symbols
    exact hsorted.imp of_decide_eq_true

/-- The operator before a parenthesis is found, whatever shorter ones it begins with. -/
theorem find?_trialOrder (h : Legible symbols) {symbol : String} (hsymbol : symbol ∈ symbols)
    (tail : List Char) :
    (trialOrder symbols).find? (fun s => s.toList.isPrefixOf (symbol.toList ++ '(' :: tail)) =
      some symbol := by
  have hfits : symbol.toList.isPrefixOf (symbol.toList ++ '(' :: tail) = true :=
    List.isPrefixOf_iff_prefix.2 (List.prefix_append _ _)
  rcases hfind : (trialOrder symbols).find? fun s =>
      s.toList.isPrefixOf (symbol.toList ++ '(' :: tail) with _ | s
  · exact absurd hfits (List.find?_eq_none.1 hfind symbol ((mem_trialOrder h).2 hsymbol))
  · obtain ⟨hs, before, after, horder, hbefore⟩ := List.find?_eq_some_iff_append.1 hfind
    have hmem : s ∈ symbols := (mem_trialOrder h).1 (List.mem_of_find?_eq_some hfind)
    -- What is found ends before the parenthesis, so the operator begins with it.
    have hbegins : s.toList <+: symbol.toList :=
      prefix_of_prefix_append (h.isSourceChar hmem) rfl (List.isPrefixOf_iff_prefix.1 hs)
    -- The operator comes no earlier than what is found, so it is no longer.
    have hle : symbol.toList.length ≤ s.toList.length := by
      have hsorted := pairwise_trialOrder symbols
      have hsymbol' := (mem_trialOrder h).2 hsymbol
      rw [horder] at hsorted hsymbol'
      rw [String.length_toList, String.length_toList]
      rcases List.mem_append.1 hsymbol' with hin | hin
      · have hnot := hbefore symbol hin
        rw [hfits] at hnot
        cases hnot
      · rcases List.mem_cons.1 hin with rfl | hin
        · exact le_rfl
        · exact (List.pairwise_cons.1 (List.pairwise_append.1 hsorted).2.1).1 symbol hin
    rw [hfind, String.toList_inj.1 (hbegins.eq_of_length_le hle)]

/-- The operator before a parenthesis is read. -/
theorem yields_operator (h : Legible symbols) {symbol : String} (hsymbol : symbol ∈ symbols)
    (tail : List Char) :
    Yields (operator symbols (symbol.toList ++ '(' :: tail)) (some (symbol, '(' :: tail)) := by
  refine Yields.rule ?_ _
  have hdrop : (symbol.toList ++ '(' :: tail).drop symbol.length = '(' :: tail := by
    rw [← String.length_toList, List.drop_left]
  rw [find?_trialOrder h hsymbol]
  dsimp only
  rw [hdrop]
  exact yields_pure _

/-- Whether an operator is read does not depend on what has been noted. -/
theorem exists_yields_operator (symbols : List String) (cs : List Char) :
    ∃ outcome, Yields (operator symbols cs) outcome := by
  rcases hfind : (trialOrder symbols).find? fun s => s.toList.isPrefixOf cs with _ | s
  · exact ⟨none, Yields.rule (by rw [hfind]; exact yields_failure) _⟩
  · exact ⟨_, Yields.rule (by rw [hfind]; exact yields_pure _) _⟩

/-- An operator that is read is one of the symbols, and the text begins with it. -/
theorem Reads.eq_of_operator (h : Legible symbols) {cs rest : List Char} {symbol : String}
    (hreads : Reads (operator symbols cs) (symbol, rest)) :
    symbol ∈ symbols ∧ cs = symbol.toList ++ rest := by
  have hstep := hreads.of_rule
  split at hstep
  · rename_i s hfind
    obtain ⟨rfl, rfl⟩ := Prod.mk.inj hstep.of_pure
    have hfits : symbol.toList.isPrefixOf cs = true :=
      List.find?_some (p := fun s : String => s.toList.isPrefixOf cs) hfind
    obtain ⟨tail, rfl⟩ := List.isPrefixOf_iff_prefix.1 hfits
    refine ⟨(mem_trialOrder h).1 (List.mem_of_find?_eq_some hfind), ?_⟩
    rw [← String.length_toList, List.drop_left]
  · exact absurd hstep (not_reads_failure _)

/-! ## Sources -/

/-- A name is read up to its end. -/
theorem yields_source {name : String} {rest : List Char} (hne : name ≠ "")
    (hname : ∀ c ∈ name.toList, isSourceChar c = true) (hrest : Ends rest) :
    Yields (source (name.toList ++ rest)) (some (.source name, rest)) := by
  have hnil : ¬name.toList.isEmpty = true := by simpa using hne
  refine Yields.rule ?_ _
  rw [Text.takeWhile_run hname hrest, Text.dropWhile_run hname hrest, if_neg hnil,
    String.ofList_toList]
  exact yields_pure _

/-- What is read as a source is a name. -/
theorem Reads.eq_of_source {cs rest : List Char} {d : Derivation}
    (h : Reads (source cs) (d, rest)) :
    ∃ name : String, d = .source name ∧ name ≠ "" ∧
      (∀ c ∈ name.toList, isSourceChar c = true) ∧ cs = name.toList ++ rest := by
  have hstep := h.of_rule
  dsimp only at hstep
  split at hstep
  · obtain ⟨_, hfailure, _⟩ := hstep.of_bind
    exact absurd hfailure (not_reads_failure _)
  · rename_i hne
    obtain ⟨rfl, rfl⟩ := Prod.mk.inj hstep.of_pure
    refine ⟨_, rfl, by simpa using hne, fun c hc => ?_, ?_⟩
    · exact List.mem_takeWhile_imp (String.toList_ofList ▸ hc)
    · rw [String.toList_ofList, List.takeWhile_append_dropWhile]

/-! ## Operands without taint -/

/-- An operand without taint is read up to the parenthesis that closes it. -/
theorem yields_value {text : String} (h : Nested text.toList) (rest : List Char) :
    Yields (value ("value(".toList ++ (text.toList ++ ')' :: rest)))
      (some (.value text, rest)) := by
  refine Yields.rule ((yields_literal _ _).bind ?_) _
  refine (yields_lift (run_balanced_append h rest)).bind ?_
  refine (yields_literal ")" rest).bind ?_
  rw [List.take_left' (by rw [List.length_append, Nat.add_sub_cancel]), String.ofList_toList]
  exact yields_pure _

/-- What is read as an operand without taint is nested. -/
theorem Reads.eq_of_value {cs rest : List Char} {d : Derivation} (h : Reads (value cs) (d, rest)) :
    ∃ text : String, d = .value text ∧ Nested text.toList ∧
      cs = "value(".toList ++ (text.toList ++ ')' :: rest) := by
  obtain ⟨inside, hopen, h⟩ := h.of_rule.of_bind
  obtain ⟨closing, hbalanced, h⟩ := h.of_bind
  obtain ⟨tail, hclose, h⟩ := h.of_bind
  obtain ⟨rfl, rfl⟩ := Prod.mk.inj h.of_pure
  obtain ⟨n, hn⟩ := hbalanced.of_lift
  obtain ⟨text, htext, hinside⟩ := exists_nested_balanced inside n
  rw [hn] at hinside
  subst hinside
  have htake : (text ++ closing).take ((text ++ closing).length - closing.length) = text :=
    List.take_left' (by rw [List.length_append, Nat.add_sub_cancel])
  have hlist : (String.ofList text).toList = text := String.toList_ofList
  obtain rfl := hclose.eq_of_literal
  refine ⟨String.ofList text, by rw [htake], hlist.symm ▸ htext, ?_⟩
  rw [hlist, hopen.eq_of_literal]
  rfl

/-- No operand without taint stands where a name is not `value` or ends before no parenthesis. -/
theorem yields_value_none {name rest : List Char} (hname : ∀ c ∈ name, isSourceChar c = true)
    (hrest : Ends rest) (h : name = "value".toList → ∀ tail, rest ≠ '(' :: tail) :
    Yields (value (name ++ rest)) none := by
  refine Yields.rule ((yields_literal_none ?_).bind_none _) _
  rintro ⟨tail, heq⟩
  have hsplit : "value".toList ++ '(' :: tail = name ++ rest := heq
  obtain ⟨hvalue, hparen⟩ :=
    Text.run_append_inj (by simp [isSourceChar_iff]) (ends_cons rfl) hname hrest hsplit
  exact h hvalue.symm tail hparen.symm

/-! ## Operations -/

variable {read : List Char → Step (Parsed Derivation)} {cs rest : List Char} {d e : Derivation}

/-- One operand is read. -/
theorem yields_operands_one (h : Yields (read cs) (some (d, ')' :: rest))) :
    Yields (operands read cs) (some ([d], ')' :: rest)) := by
  refine Yields.rule (h.bind ?_) _
  -- What is left is no comma, so there is no second operand.
  have hcomma : Yields (literal "," (')' :: rest)) none := yields_literal_none (by simp)
  exact (Yields.rule (hcomma.bind_none _) _).orElse_none (yields_pure _)

/-- Two operands are read. -/
theorem yields_operands_two {cs' : List Char} (hd : Yields (read cs) (some (d, ',' :: cs')))
    (he : Yields (read cs') (some (e, rest))) :
    Yields (operands read cs) (some ([d, e], rest)) := by
  refine Yields.rule (hd.bind (Yields.orElse ?_ _)) _
  exact Yields.rule ((yields_literal "," cs').bind (he.bind (yields_pure ([d, e], rest)))) _

/-- What is read as operands is one label, or two with a comma between them. -/
theorem Reads.eq_of_operands {ds : List Derivation} (h : Reads (operands read cs) (ds, rest)) :
    (∃ d, ds = [d] ∧ Reads (read cs) (d, rest)) ∨
      ∃ d e cs', ds = [d, e] ∧ Reads (read cs) (d, ',' :: cs') ∧ Reads (read cs') (e, rest) := by
  obtain ⟨⟨d, after⟩, hd, h⟩ := h.of_rule.of_bind
  dsimp only at h
  split at h
  · obtain ⟨rfl, rfl⟩ := Prod.mk.inj h.of_pure
    exact .inl ⟨d, rfl, hd⟩
  · rcases h.of_orElse with hmore | honly
    · obtain ⟨cs', hcomma, hmore⟩ := hmore.of_rule.of_bind
      obtain ⟨⟨e, tail⟩, he, hpair⟩ := hmore.of_bind
      obtain ⟨rfl, rfl⟩ := Prod.mk.inj hpair.of_pure
      obtain rfl := hcomma.eq_of_literal
      exact .inr ⟨d, e, cs', rfl, hd, he⟩
    · obtain ⟨rfl, rfl⟩ := Prod.mk.inj honly.of_pure
      exact .inl ⟨d, rfl, hd⟩

/-- An operation is read up to the parenthesis that closes it. -/
theorem yields_derived (h : Legible symbols) {symbol : String} (hsymbol : symbol ∈ symbols)
    {ds : List Derivation} (hoperands : Yields (operands read cs) (some (ds, ')' :: rest))) :
    Yields (derived read symbols (symbol.toList ++ '(' :: cs))
      (some (.operation symbol ds, rest)) := by
  refine Yields.rule ((yields_operator h hsymbol cs).bind ?_) _
  refine (yields_literal "(" cs).bind (hoperands.bind ?_)
  exact (yields_literal ")" rest).bind (yields_pure _)

/-- What is read as an operation has one of the symbols and its operands in parentheses. -/
theorem Reads.eq_of_derived (h : Legible symbols)
    (hreads : Reads (derived read symbols cs) (d, rest)) :
    ∃ symbol ∈ symbols, ∃ ds cs', d = .operation symbol ds ∧ cs = symbol.toList ++ '(' :: cs' ∧
      Reads (operands read cs') (ds, ')' :: rest) := by
  obtain ⟨⟨symbol, after⟩, hoperator, hreads⟩ := hreads.of_rule.of_bind
  obtain ⟨cs', hopen, hreads⟩ := hreads.of_bind
  obtain ⟨⟨ds, tail⟩, hoperands, hreads⟩ := hreads.of_bind
  obtain ⟨end', hclose, hreads⟩ := hreads.of_bind
  obtain ⟨rfl, rfl⟩ := Prod.mk.inj hreads.of_pure
  obtain ⟨hsymbol, rfl⟩ := hoperator.eq_of_operator h
  obtain rfl := hopen.eq_of_literal
  obtain rfl := hclose.eq_of_literal
  exact ⟨symbol, hsymbol, ds, cs', rfl, rfl, hoperands⟩

/-- No operation stands where a name ends before no parenthesis, even if the name begins with an
    operator. -/
theorem yields_derived_none (h : Legible symbols) {name : List Char}
    (hname : ∀ c ∈ name, isSourceChar c = true) (hrest : Ends rest)
    (hparen : ∀ tail, rest ≠ '(' :: tail) : Yields (derived read symbols (name ++ rest)) none := by
  obtain ⟨outcome, houtcome⟩ := exists_yields_operator symbols (name ++ rest)
  refine Yields.rule ?_ _
  rcases outcome with _ | ⟨symbol, after⟩
  · exact houtcome.bind_none _
  · -- The name begins with an operator, but no parenthesis comes next: else the name would have
    -- ended there.
    obtain ⟨hsymbol, hsplit⟩ := houtcome.reads.eq_of_operator h
    refine houtcome.bind ((yields_literal_none ?_).bind_none _)
    rintro ⟨tail, rfl⟩
    obtain ⟨-, heq⟩ :=
      Text.run_append_inj hname hrest (h.isSourceChar hsymbol) (ends_cons rfl) hsplit
    exact hparen tail heq

/-! ## Labels -/

/-- An operation is read as a label: its symbol and the parenthesis do not begin an operand without
    taint. -/
theorem yields_label_operation (h : Legible symbols) {symbol : String} (hsymbol : symbol ∈ symbols)
    {fuel : Nat} {ds : List Derivation}
    (hoperands : Yields (operands (label symbols fuel) cs) (some (ds, ')' :: rest))) :
    Yields (label symbols (fuel + 1) (symbol.toList ++ '(' :: cs))
      (some (.operation symbol ds, rest)) := by
  have hvalue : Yields (value (symbol.toList ++ '(' :: cs)) none :=
    yields_value_none (h.isSourceChar hsymbol) (ends_cons rfl) fun heq =>
      absurd (String.toList_inj.1 heq) (h.ne_value symbol hsymbol)
  exact Yields.rule (hvalue.orElse_none ((yields_derived h hsymbol hoperands).orElse _)) _

/-- The text of a well-formed derivation is read, whatever comes after it. -/
theorem yields_label (h : Legible symbols) (hd : d.WellFormed symbols) (hrest : Ends rest)
    (hparen : ∀ tail, rest ≠ '(' :: tail) {fuel : Nat} (hfuel : d.toText.toList.length < fuel) :
    Yields (label symbols fuel (d.toText.toList ++ rest)) (some (d, rest)) := by
  induction hd generalizing fuel rest with
  | @operation symbol ds hsymbol hlength hds ih =>
    obtain ⟨fuel, rfl⟩ : ∃ n, fuel = n + 1 := ⟨fuel - 1, by omega⟩
    -- What comes after an operand is a comma or the parenthesis that closes the operation.
    rcases hlength with hone | htwo
    · obtain ⟨d, rfl⟩ := List.length_eq_one_iff.1 hone
      rw [Derivation.toList_toText_unary] at hfuel ⊢
      simp only [List.length_append, List.length_cons] at hfuel
      simp only [List.append_assoc, List.cons_append, List.nil_append]
      apply yields_label_operation h hsymbol
      apply yields_operands_one
      exact ih d (by simp) (ends_cons rfl) (by simp) (by omega)
    · obtain ⟨d, e, rfl⟩ := List.length_eq_two.1 htwo
      rw [Derivation.toList_toText_binary] at hfuel ⊢
      simp only [List.length_append, List.length_cons] at hfuel
      simp only [List.append_assoc, List.cons_append, List.nil_append]
      apply yields_label_operation h hsymbol
      apply yields_operands_two
      · exact ih d (by simp) (ends_cons rfl) (by simp) (by omega)
      · exact ih e (by simp) (ends_cons rfl) (by simp) (by omega)
  | @value text htext =>
    obtain ⟨fuel, rfl⟩ : ∃ n, fuel = n + 1 := ⟨fuel - 1, by omega⟩
    rw [Derivation.toList_toText_value, List.append_assoc, List.append_assoc]
    exact Yields.rule ((yields_value htext rest).orElse _) _
  | @source name hne hchars =>
    obtain ⟨fuel, rfl⟩ : ∃ n, fuel = n + 1 := ⟨fuel - 1, by omega⟩
    have hname : ∀ c ∈ name.toList, isSourceChar c = true := fun c hc =>
      isSourceChar_iff.2 (hchars c hc)
    -- A source is read last, once the two other kinds of labels have failed.
    have hvalue := yields_value_none hname hrest fun _ => hparen
    have hderived : Yields (derived (label symbols fuel) symbols (name.toList ++ rest)) none :=
      yields_derived_none h hname hrest hparen
    exact Yields.rule (hvalue.orElse_none (hderived.orElse_none (yields_source hne hname hrest))) _

/-- What is read as a label is well-formed, and its text has been read. -/
theorem wellFormed_of_reads (h : Legible symbols) {fuel : Nat}
    (hreads : Reads (label symbols fuel cs) (d, rest)) :
    d.WellFormed symbols ∧ cs = d.toText.toList ++ rest := by
  induction fuel generalizing cs d rest with
  | zero => exact absurd hreads.of_rule (not_reads_failure _)
  | succ fuel ih =>
    rcases hreads.of_rule.of_orElse with hvalue | hother
    · obtain ⟨text, rfl, htext, rfl⟩ := hvalue.eq_of_value
      refine ⟨.value htext, ?_⟩
      rw [Derivation.toList_toText_value, List.append_assoc, List.append_assoc]
      rfl
    rcases hother.of_orElse with hderived | hsource
    · obtain ⟨symbol, hsymbol, ds, cs', rfl, rfl, hoperands⟩ := hderived.eq_of_derived h
      rcases hoperands.eq_of_operands with ⟨d, rfl, hd⟩ | ⟨d, e, cs'', rfl, hd, he⟩
      · obtain ⟨hwell, rfl⟩ := ih hd
        refine ⟨.operation hsymbol (.inl rfl) (by simpa using hwell), ?_⟩
        simp [Derivation.toList_toText_unary]
      · obtain ⟨hwell, rfl⟩ := ih hd
        obtain ⟨hwell', rfl⟩ := ih he
        refine ⟨.operation hsymbol (.inr rfl) (by simp [hwell, hwell']), ?_⟩
        simp [Derivation.toList_toText_binary]
    · obtain ⟨name, rfl, hne, hname, rfl⟩ := hsource.eq_of_source
      exact ⟨.source hne fun c hc => isSourceChar_iff.1 (hname c hc), rfl⟩

end Reading

namespace Derivation

variable {table : Table}

/-- Characters are read as a derivation if and only if they are the text of a well-formed one. -/
theorem readChars_eq_ok_iff {symbols : List String} (h : Legible symbols) {cs : List Char}
    {d : Derivation} :
    readChars symbols cs = .ok d ↔ d.WellFormed symbols ∧ d.toText.toList = cs := by
  constructor
  · intro hread
    rw [readChars] at hread
    split at hread
    · -- Nothing is left of the text, so all of it is the text of what has been read.
      rename_i hrun
      cases hread
      obtain ⟨hwell, hcs⟩ := Reading.wellFormed_of_reads h ⟨cs.length, congrArg Prod.fst hrun⟩
      exact ⟨hwell, by rw [hcs, List.append_nil]⟩
    · cases hread
    · cases hread
  · rintro ⟨hwell, rfl⟩
    have hlabel := Reading.yields_label h hwell ends_nil (by simp) (Nat.lt_succ_self _)
    rw [List.append_nil] at hlabel
    have hrun : (Reading.label symbols (d.toText.toList.length + 1) d.toText.toList).run
        d.toText.toList.length = (some (d, []), _) := Prod.ext (hlabel _) rfl
    rw [readChars, hrun]

/-- The text of a well-formed derivation is not empty. -/
theorem WellFormed.toText_ne_empty {symbols : List String} {d : Derivation}
    (h : d.WellFormed symbols) : d.toText ≠ "" := by
  rcases h with _ | _ | hne
  · simp [toText]
  · simp [toText]
  · exact hne

/-- A label is read as a derivation if and only if it is the text of a well-formed one. -/
theorem read_eq_ok_iff (h : Legible (table.specs.map Entry.symbol)) {text : String}
    {d : Derivation} :
    read table text = .ok d ↔ d.WellFormed (table.specs.map Entry.symbol) ∧ d.toText = text := by
  rw [← String.toList_inj, ← readChars_eq_ok_iff h, read]
  split
  · -- The empty label is reported apart, and would not be read either.
    rename_i hempty
    have hchars : readChars (table.specs.map Entry.symbol) text.toList ≠ .ok d := fun hread => by
      obtain ⟨hwell, htext⟩ := (readChars_eq_ok_iff h).1 hread
      refine hwell.toText_ne_empty ?_
      rw [String.toList_inj.1 htext, String.isEmpty_iff.1 hempty]
    simp [hchars]
  · cases readChars (table.specs.map Entry.symbol) text.toList <;> simp

/-- A label that is not read is reported as one. -/
theorem errorClass_of_read {text : String} {diagnostic : Diagnostic}
    (h : read table text = .error diagnostic) : diagnostic.errorClass = .provenanceSyntax := by
  rw [read] at h
  split at h
  · cases h
    rfl
  · split at h
    · cases h
    · cases h
      rfl

/-- Reading and writing labels are inverse to each other. With legible symbols, a well-formed
    derivation is read off its text; what is read off a label is well-formed and has that label for
    its text; and the labels that are reported are those of no well-formed derivation. -/
theorem read_toText (h : Legible (table.specs.map Entry.symbol)) :
    (∀ d : Derivation, d.WellFormed (table.specs.map Entry.symbol) → read table d.toText = .ok d) ∧
      (∀ text d, read table text = .ok d →
        d.WellFormed (table.specs.map Entry.symbol) ∧ d.toText = text) ∧
      ∀ text, (∃ diagnostic, read table text = .error diagnostic ∧
          diagnostic.errorClass = .provenanceSyntax) ↔
        ∀ d : Derivation, d.WellFormed (table.specs.map Entry.symbol) → d.toText ≠ text := by
  refine ⟨?_, ?_, ?_⟩
  · intro d hd
    exact (read_eq_ok_iff h).2 ⟨hd, rfl⟩
  · intro text d hread
    exact (read_eq_ok_iff h).1 hread
  · intro text
    constructor
    · rintro ⟨diagnostic, herror, -⟩ d hd rfl
      rw [(read_eq_ok_iff h).2 ⟨hd, rfl⟩] at herror
      cases herror
    · intro hnone
      rcases hread : read table text with diagnostic | d
      · exact ⟨diagnostic, rfl, errorClass_of_read hread⟩
      · obtain ⟨hd, htext⟩ := (read_eq_ok_iff h).1 hread
        exact absurd htext (hnone d hd)

/-- The symbols of the standard operators are legible. -/
theorem legible_standard : Legible (Table.standard.specs.map Entry.symbol) where
  nonempty := by decide
  ne_empty := by decide +kernel
  ne_value := by decide +kernel
  chars := by simp [Table.standard]

/-- The label `!(!==(!x,value(f(y))))`: two operators begin with a third, and so does a name. -/
theorem read_toText_nested :
    Legible (Table.standard.specs.map Entry.symbol) ∧
      read Table.standard "!(!==(!x,value(f(y))))" =
        .ok (.operation "!" [.operation "!==" [.source "!x", .value "f(y)"]]) := by
  have hname : WellFormed (Table.standard.specs.map Entry.symbol) (.source "!x") :=
    .source (by decide) (by simp)
  have htext : WellFormed (Table.standard.specs.map Entry.symbol) (.value "f(y)") :=
    .value (.plain rfl (.group (.plain rfl .nil) .nil))
  have hinner : WellFormed (Table.standard.specs.map Entry.symbol)
      (.operation "!==" [.source "!x", .value "f(y)"]) :=
    .operation (by decide +kernel) (.inr rfl) (by simp [hname, htext])
  have houter : WellFormed (Table.standard.specs.map Entry.symbol)
      (.operation "!" [.operation "!==" [.source "!x", .value "f(y)"]]) :=
    .operation (by decide +kernel) (.inl rfl) (by simp [hinner])
  exact ⟨legible_standard, (read_toText legible_standard).1 _ houter⟩

end Derivation

end TaintWeave
