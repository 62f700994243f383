import Mathlib.Data.List.Forall2
import Mathlib.Tactic.SplitIfs
import TaintWeave.Proofs.Text.Runs
import TaintWeave.Sexp

/-!
# The text of an S-expression

An S-expression can be told from its text, whatever characters are in its quoted atoms: between the
quotes there is a backslash before each double quote, and before each backslash too. Symbols are
written as they are, so they must not look like anything else. They must not be empty, and must have
none of the characters in them that separate the parts of an S-expression. Of white space, only the
space is one of these.

The text also shows where the S-expression ends, even if more comes after it. This is what the
induction proves, because the text of an item is the front of what is left of the list.

* `Sexp.IsBare`: symbols that look like nothing else; `Sexp.Separable`: S-expressions without any
  others.
* `Sexp.escape_eq_flatMap`: escaping as a replacement of one character after the other.
* `Sexp.Determined`: an S-expression is determined by its text, and so is where it ends;
  `Sexp.Separable.determined`.
* `Value.IsSexp`, `Value.SameSexp`: nested sequences of symbols and texts, and when two of them are
  the same.
* `Value.write_toSexp_eq_iff`: they have one text if and only if they are the same.
-/

namespace TaintWeave

namespace Sexp

/-! ## Symbols -/

/-- The characters that separate the parts of an S-expression. -/
def delimiters : List Char := [' ', '(', ')', '"']

/-- A symbol that can be told from what is around it. -/
structure IsBare (s : String) : Prop where
  ne_empty : s ≠ ""
  chars : ∀ c ∈ s.toList, c ∉ delimiters

/-- A rest of a text before which a symbol is over. -/
def EndsSymbol (rest : List Char) : Prop := ∀ c ∈ rest.head?, c ∈ delimiters

theorem endsSymbol_nil : EndsSymbol [] := nofun

theorem endsSymbol_cons {c : Char} (h : c ∈ delimiters) (rest : List Char) :
    EndsSymbol (c :: rest) := by
  rintro _ ⟨⟩
  exact h

variable {s t : String} {rest rest' : List Char}

/-- There is only one way to split a text where a symbol ends. -/
theorem symbol_append_inj (hs : IsBare s) (ht : IsBare t) (hrest : EndsSymbol rest)
    (hrest' : EndsSymbol rest') (h : s.toList ++ rest = t.toList ++ rest') :
    s = t ∧ rest = rest' := by
  have hsplit := Text.run_append_inj (p := fun c => decide (c ∉ delimiters))
    (fun c hc => decide_eq_true (hs.chars c hc)) (fun c hc => by simpa using hrest c hc)
    (fun c hc => decide_eq_true (ht.chars c hc)) (fun c hc => by simpa using hrest' c hc) h
  exact ⟨String.toList_inj.1 hsplit.1, hsplit.2⟩

/-- What begins with a symbol does not begin with a delimiter. -/
theorem symbol_append_ne (hs : IsBare s) {c : Char} (hc : c ∈ delimiters) :
    s.toList ++ rest ≠ c :: rest' := by
  intro h
  rcases hlist : s.toList with _ | ⟨d, ds⟩
  · exact hs.ne_empty (String.toList_eq_nil_iff.1 hlist)
  · rw [hlist, List.cons_append, List.cons.injEq] at h
    exact hs.chars d (by simp [hlist]) (h.1 ▸ hc)

/-! ## Texts -/

/-- How a character stands between quotes. -/
def escapeChar (c : Char) : List Char := if c = '"' ∨ c = '\\' then ['\\', c] else [c]

/-- The two replacements, one after the other, come to the same as escaping one character at a
    time: no backslash that is put before a double quote is doubled. -/
theorem escape_eq_flatMap (cs : List Char) : escape cs = cs.flatMap escapeChar := by
  rw [escape, replaceAll, replaceAll, List.flatMap_assoc]
  congr 1
  funext c
  unfold escapeChar
  split_ifs <;> simp_all

/-- An escaped character does not begin with a double quote. -/
theorem escapeChar_append_ne (c : Char) : escapeChar c ++ rest ≠ '"' :: rest' := by
  unfold escapeChar
  split_ifs with hc
  · simp
  · rw [not_or] at hc
    simp [hc.1]

/-- No escaped character is the front of another. -/
theorem escapeChar_append_inj {c d : Char} (h : escapeChar c ++ rest = escapeChar d ++ rest') :
    c = d ∧ rest = rest' := by
  unfold escapeChar at h
  split_ifs at h with hc hd hd
  · simpa using h
  · -- A character that is written as it is would be a backslash.
    simp only [List.cons_append, List.nil_append, List.cons.injEq] at h
    exact absurd (.inr h.1.symm) hd
  · simp only [List.cons_append, List.nil_append, List.cons.injEq] at h
    exact absurd (.inr h.1) hc
  · simpa using h

/-- There is only one way to split a text where a closing quote stands. -/
theorem escape_append_inj {cs ds : List Char}
    (h : escape cs ++ '"' :: rest = escape ds ++ '"' :: rest') : cs = ds ∧ rest = rest' := by
  rw [escape_eq_flatMap, escape_eq_flatMap] at h
  induction cs generalizing ds with
  | nil =>
    cases ds with
    | nil => simpa using h
    | cons d ds =>
      rw [List.flatMap_cons, List.append_assoc] at h
      exact absurd h.symm (escapeChar_append_ne d)
  | cons c cs ih =>
    cases ds with
    | nil =>
      rw [List.flatMap_cons, List.append_assoc] at h
      exact absurd h (escapeChar_append_ne c)
    | cons d ds =>
      rw [List.flatMap_cons, List.flatMap_cons, List.append_assoc, List.append_assoc] at h
      obtain ⟨rfl, htail⟩ := escapeChar_append_inj h
      obtain ⟨rfl, hrest⟩ := ih htail
      exact ⟨rfl, hrest⟩

/-! ## Written forms -/

/-- The text of a list after one of its items. -/
def following : List Sexp → List Char
  | [] => [')']
  | e :: es => ' ' :: (e.write.toList ++ following es)

/-- The text of a list from its first item on. -/
def inside : List Sexp → List Char
  | [] => [')']
  | e :: es => e.write.toList ++ following es

theorem toList_write_symbol (s : String) : (symbol s).write.toList = s.toList := by
  rw [write]

theorem toList_write_text (s : String) :
    (text s).write.toList = '"' :: (escape s.toList ++ ['"']) := by
  rw [write, writeText, String.toList_ofList, List.cons_append]

theorem toList_write_list (items : List Sexp) :
    (list items).write.toList = '(' :: inside items := by
  have hitems (e : Sexp) (es : List Sexp) :
      [' '].intercalate ((writeAll (e :: es)).map String.toList) ++ [')'] =
        e.write.toList ++ following es := by
    induction es generalizing e with
    | nil => simp [writeAll, following]
    | cons f fs ih =>
      rw [following, ← ih f]
      simp [writeAll]
  rw [write, String.toList_append, String.toList_append, String.toList_intercalate]
  cases items with
  | nil => rfl
  | cons e es => exact congrArg ('(' :: ·) (hitems e es)

/-- What comes after an item of a list ends a symbol. -/
theorem endsSymbol_following (items : List Sexp) (rest : List Char) :
    EndsSymbol (following items ++ rest) := by
  cases items with
  | nil => exact endsSymbol_cons (by decide) rest
  | cons e es => exact endsSymbol_cons (by decide) _

/-! ## Where an S-expression ends -/

/-- An S-expression all of whose symbols are bare. -/
inductive Separable : Sexp → Prop
  | symbol {s : String} (h : IsBare s) : Separable (symbol s)
  | text (s : String) : Separable (text s)
  | list {items : List Sexp} (h : ∀ e ∈ items, Separable e) : Separable (list items)

/-- An S-expression that is the only one at the front of a text, and ends in one place there. -/
def Determined (e : Sexp) : Prop :=
  ∀ ⦃f : Sexp⦄ ⦃rest rest' : List Char⦄, f.Separable → EndsSymbol rest → EndsSymbol rest' →
    e.write.toList ++ rest = f.write.toList ++ rest' → e = f ∧ rest = rest'

/-- A bare symbol is determined: it ends where the first delimiter stands. -/
theorem determined_symbol (hs : IsBare s) : (symbol s).Determined := by
  intro f rest rest' hf hrest hrest' h
  rw [toList_write_symbol] at h
  cases hf with
  | symbol ht =>
    rw [toList_write_symbol] at h
    obtain ⟨rfl, rfl⟩ := symbol_append_inj hs ht hrest hrest' h
    exact ⟨rfl, rfl⟩
  | text t =>
    rw [toList_write_text] at h
    exact absurd h (symbol_append_ne hs (by decide))
  | list _ =>
    rw [toList_write_list] at h
    exact absurd h (symbol_append_ne hs (by decide))

/-- A text is determined: it ends at the first double quote without a backslash of its own. -/
theorem determined_text (s : String) : (text s).Determined := by
  intro f rest rest' hf _ _ h
  rw [toList_write_text] at h
  cases hf with
  | symbol ht =>
    rw [toList_write_symbol] at h
    exact absurd h.symm (symbol_append_ne ht (by decide))
  | text t =>
    rw [toList_write_text, List.cons_append, List.cons_append, List.append_assoc,
      List.append_assoc, List.cons.injEq] at h
    obtain ⟨hst, rfl⟩ := escape_append_inj h.2
    rw [String.toList_inj.1 hst]
    exact ⟨rfl, rfl⟩
  | list _ =>
    rw [toList_write_list] at h
    simp at h

/-- No S-expression begins as a list ends. -/
theorem Separable.append_ne {e : Sexp} (he : e.Separable) :
    e.write.toList ++ rest ≠ ')' :: rest' := by
  cases he with
  | symbol hs =>
    rw [toList_write_symbol]
    exact symbol_append_ne hs (by decide)
  | text s => simp [toList_write_text]
  | list _ => simp [toList_write_list]

variable {es fs : List Sexp}

/-- After an item, the other items of a list are determined one by one, and so is its end. -/
theorem following_append_inj (hes : ∀ e ∈ es, e.Determined) (hfs : ∀ f ∈ fs, f.Separable)
    (h : following es ++ rest = following fs ++ rest') : es = fs ∧ rest = rest' := by
  induction es generalizing fs with
  | nil =>
    cases fs with
    | nil => simpa [following] using h
    | cons f fs => simp [following] at h
  | cons e es ih =>
    cases fs with
    | nil => simp [following] at h
    | cons f fs =>
      rw [List.forall_mem_cons] at hes hfs
      rw [following, following, List.cons_append, List.cons_append, List.append_assoc,
        List.append_assoc, List.cons.injEq] at h
      obtain ⟨rfl, htail⟩ :=
        hes.1 hfs.1 (endsSymbol_following es rest) (endsSymbol_following fs rest') h.2
      obtain ⟨rfl, hrest⟩ := ih hes.2 hfs.2 htail
      exact ⟨rfl, hrest⟩

/-- The items of a list are determined, and so is its end. -/
theorem inside_append_inj (hes : ∀ e ∈ es, e.Determined) (hsep : ∀ e ∈ es, e.Separable)
    (hfs : ∀ f ∈ fs, f.Separable) (h : inside es ++ rest = inside fs ++ rest') :
    es = fs ∧ rest = rest' := by
  -- Before the first item there is no space. That there is an item shows from its own first
  -- character, which is not a closing parenthesis.
  cases es with
  | nil =>
    cases fs with
    | nil => simpa [inside] using h
    | cons f fs =>
      rw [inside, inside, List.append_assoc] at h
      exact absurd h.symm (hfs f List.mem_cons_self).append_ne
  | cons e es =>
    cases fs with
    | nil =>
      rw [inside, inside, List.append_assoc] at h
      exact absurd h (hsep e List.mem_cons_self).append_ne
    | cons f fs =>
      have hspaced : following (e :: es) ++ rest = following (f :: fs) ++ rest' :=
        congrArg (' ' :: ·) h
      exact following_append_inj hes hfs hspaced

/-- A list is determined if its items are. -/
theorem determined_list (hes : ∀ e ∈ es, e.Determined) (hsep : ∀ e ∈ es, e.Separable) :
    (list es).Determined := by
  intro f rest rest' hf _ _ h
  rw [toList_write_list, List.cons_append] at h
  cases hf with
  | symbol ht =>
    rw [toList_write_symbol] at h
    exact absurd h.symm (symbol_append_ne ht (by decide))
  | text t =>
    rw [toList_write_text] at h
    simp at h
  | list hfs =>
    rw [toList_write_list, List.cons_append, List.cons.injEq] at h
    obtain ⟨rfl, hrest⟩ := inside_append_inj hes hsep hfs h.2
    exact ⟨rfl, hrest⟩

/-- An S-expression with bare symbols is determined by its text, and so is where it ends. -/
theorem Separable.determined {e : Sexp} (he : e.Separable) : e.Determined := by
  induction he with
  | symbol hs => exact determined_symbol hs
  | text s => exact determined_text s
  | list hitems ih => exact determined_list ih hitems

/-- S-expressions with bare symbols have one text if and only if they are the same. -/
theorem Separable.write_eq_iff {e f : Sexp} (he : e.Separable) (hf : f.Separable) :
    e.write = f.write ↔ e = f := by
  constructor
  · intro h
    exact (he.determined hf endsSymbol_nil endsSymbol_nil (by rw [h])).1
  · exact congrArg write

/-- Without any one of the conditions on symbols, two S-expressions may have one text. -/
example :
    (list [symbol ""]).write = (list []).write ∧
    (list [symbol "a b"]).write = (list [symbol "a", symbol "b"]).write ∧
    (symbol "()").write = (list []).write ∧
    (symbol "\"a\"").write = (text "a").write := by decide

end Sexp

namespace Value

/-! ## Values -/

/-- A value that is a nested sequence of texts and bare symbols, or one of these. -/
inductive IsSexp : Value → Prop
  | symbol {s : String} (h : Sexp.IsBare s) : IsSexp (symbol s)
  | text (s : String) : IsSexp (text s)
  | sequence {id : Identity} {shape : Shape} {items : List Value} (h : ∀ v ∈ items, IsSexp v) :
      IsSexp (sequence id shape items)

/-- Two values are the same nested sequence: they have the same symbols and the same texts in the
    same places. Neither the shapes of the sequences nor their identities count. -/
inductive SameSexp : Value → Value → Prop
  | symbol (s : String) : SameSexp (symbol s) (symbol s)
  | text (s : String) : SameSexp (text s) (text s)
  | sequence {i j : Identity} {shape shape' : Shape} {vs ws : List Value}
      (h : List.Forall₂ SameSexp vs ws) : SameSexp (sequence i shape vs) (sequence j shape' ws)

theorem sameSexp_symbol {s t : String} : SameSexp (symbol s) (symbol t) ↔ s = t := by
  constructor
  · rintro ⟨⟩
    rfl
  · rintro rfl
    exact .symbol s

theorem sameSexp_text {s t : String} : SameSexp (text s) (text t) ↔ s = t := by
  constructor
  · rintro ⟨⟩
    rfl
  · rintro rfl
    exact .text s

theorem sameSexp_sequence {i j : Identity} {shape shape' : Shape} {vs ws : List Value} :
    SameSexp (sequence i shape vs) (sequence j shape' ws) ↔ List.Forall₂ SameSexp vs ws := by
  constructor
  · rintro ⟨⟩
    assumption
  · exact .sequence

variable {v w : Value}

/-- The items of a sequence are turned into S-expressions one by one. -/
theorem toSexps_eq_map (vs : List Value) : toSexps vs = vs.map toSexp := by
  induction vs with
  | nil => rfl
  | cons v vs ih => rw [toSexps, ih, List.map_cons]

/-- The symbols of a nested sequence stay bare. -/
theorem IsSexp.separable (hv : v.IsSexp) : v.toSexp.Separable := by
  induction hv with
  | symbol h => exact .symbol h
  | text s => exact .text s
  | sequence _ ih =>
    rw [toSexp, toSexps_eq_map]
    exact .list (List.forall_mem_map.2 ih)

/-- Items become the same S-expressions if they are the same one by one. -/
theorem toSexps_eq_iff {vs ws : List Value}
    (h : ∀ v ∈ vs, ∀ ⦃w : Value⦄, w.IsSexp → (v.toSexp = w.toSexp ↔ v.SameSexp w))
    (hws : ∀ w ∈ ws, w.IsSexp) : toSexps vs = toSexps ws ↔ List.Forall₂ SameSexp vs ws := by
  induction vs generalizing ws with
  | nil => cases ws <;> simp [toSexps]
  | cons v vs ih =>
    cases ws with
    | nil => simp [toSexps]
    | cons w ws =>
      rw [List.forall_mem_cons] at h hws
      rw [toSexps, toSexps, List.cons.injEq, List.forall₂_cons, h.1 hws.1, ih h.2 hws.2]

/-- Nested sequences become the same S-expression if and only if they are the same. -/
theorem IsSexp.toSexp_eq_iff (hv : v.IsSexp) (hw : w.IsSexp) :
    v.toSexp = w.toSexp ↔ v.SameSexp w := by
  induction hv generalizing w with
  | symbol _ =>
    cases hw with
    | symbol _ => rw [toSexp, toSexp, Sexp.symbol.injEq, sameSexp_symbol]
    | text _ | sequence _ => exact iff_of_false nofun nofun
  | text s =>
    cases hw with
    | text t => rw [toSexp, toSexp, Sexp.text.injEq, sameSexp_text]
    | symbol _ | sequence _ => exact iff_of_false nofun nofun
  | sequence _ ih =>
    cases hw with
    | sequence hws =>
      rw [toSexp, toSexp, Sexp.list.injEq, sameSexp_sequence]
      exact toSexps_eq_iff (fun v hv _ hw => ih v hv hw) hws
    | symbol _ | text _ => exact iff_of_false nofun nofun

/-- Nested sequences of texts and bare symbols are written alike if and only if they are the same: a
    text is never taken for a symbol or for several items, whatever characters are in it. -/
theorem write_toSexp_eq_iff (hv : v.IsSexp) (hw : w.IsSexp) :
    v.toSexp.write = w.toSexp.write ↔ v.SameSexp w := by
  rw [hv.separable.write_eq_iff hw.separable, hv.toSexp_eq_iff hw]

/-- A list and a tuple of the same atoms are written alike. A text that has a closing quote and an
    opening one in it is not written like two texts. -/
theorem write_toSexp_eq_iff_quotes :
    (sequence 0 .list [symbol "f", text "a\" \"b"]).toSexp.write =
      (sequence 1 .tuple [symbol "f", text "a\" \"b"]).toSexp.write ∧
    (sequence 0 .list [symbol "f", text "a\" \"b"]).toSexp.write ≠
      (sequence 1 .tuple [symbol "f", text "a", text "b"]).toSexp.write := by
  have hf : (symbol "f").IsSexp := .symbol ⟨by simp, by simp [Sexp.delimiters]⟩
  have hone (id : Identity) (shape : Shape) :
      (sequence id shape [symbol "f", text "a\" \"b"]).IsSexp := by
    refine .sequence ?_
    simp only [List.forall_mem_cons]
    exact ⟨hf, .text _, List.forall_mem_nil _⟩
  have htwo : (sequence 1 .tuple [symbol "f", text "a", text "b"]).IsSexp := by
    refine .sequence ?_
    simp only [List.forall_mem_cons]
    exact ⟨hf, .text _, .text _, List.forall_mem_nil _⟩
  constructor
  · exact (write_toSexp_eq_iff (hone 0 .list) (hone 1 .tuple)).2
      (.sequence (.cons (.symbol _) (.cons (.text _) .nil)))
  · rw [Ne, write_toSexp_eq_iff (hone 0 .list) htwo, sameSexp_sequence]
    simp

end Value

end TaintWeave
