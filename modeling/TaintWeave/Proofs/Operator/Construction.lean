import Mathlib.Data.List.Nodup
import Mathlib.Data.Set.List
import TaintWeave.Operator.Table
import TaintWeave.Proofs.Outcome

/-!
# Which tables are built

An entry of a table is checked against the operators before it: for its category, its symbol, its
replacement name twice, and its native, in this order. What it is refused for is the first of these
that is *amiss*, and a table is not built for the first entry that is refused. So the entries alone
decide whether there is a table, and the table then holds them, in order.

Which natives there are does not matter here: all is shown for any names (`checkWith`,
`construct`), of which the names of the natives are a case (`ofEntries_eq_construct`).

* `Table.checkWith_eq_ok_iff`, `Table.checkWith_eq_error_iff`: what passes the check, and what an
  entry is refused for.
* `Table.construct_eq_ok_iff`, `Table.construct_eq_error_iff`: the same for all entries of a table.
* `Table.WellFormed.answers`: what the queries of a table answer.
* `Table.construct_exact`: all together.
-/

namespace TaintWeave.Table

variable {hasNative : String → Bool} {before specs : List Spec} {spec : Spec} {entry : Entry Value}
  {entries : List (Entry Value)} {d : Diagnostic}

/-! ## Checks -/

/-- Checks an entry against the operators before it, given which natives there are. -/
def checkWith (hasNative : String → Bool) (before : List Spec) (entry : Entry Value) :
    Except Diagnostic Spec := do
  let spec ← entry.classify
  if let some first := before.find? fun s => s.symbol == spec.symbol then
    throw (.duplicateSymbol spec.symbol first.category spec.category)
  if let some first := before.find? fun s => s.replacement == spec.replacement then
    throw (.duplicateReplacement spec.replacement first.symbol spec.symbol)
  if !Text.isIdentifier spec.replacement.toList then
    throw (.invalidReplacement spec.replacement)
  if !hasNative spec.native then
    throw (.unknownNative spec.native spec.symbol)
  return spec

/-- Adds an entry to the operators before it. -/
def addEntry (hasNative : String → Bool) (specs : List Spec) (entry : Entry Value) :
    Except Diagnostic (List Spec) := do
  return specs ++ [← checkWith hasNative specs entry]

/-- The table of entries, given which natives there are. -/
def construct (hasNative : String → Bool) (entries : List (Entry Value)) :
    Except Diagnostic Table :=
  (entries.foldlM (addEntry hasNative) []).map Table.mk

/-- The natives of the language are such natives. -/
theorem ofEntries_eq_construct (entries : List (Entry Value)) :
    ofEntries entries = construct (fun s => (Native.ofName? s).isSome) entries := by
  have hcheck : check = checkWith fun s => (Native.ofName? s).isSome := by
    funext before entry
    rw [checkWith]
    simp only [Option.not_isSome]
    rfl
  rw [ofEntries, hcheck]
  rfl

/-- Whether an operator fits to those before it. -/
structure Fits (hasNative : String → Bool) (before : List Spec) (spec : Spec) : Prop where
  symbol : spec.symbol ∉ before.map Entry.symbol
  replacement : spec.replacement ∉ before.map Entry.replacement
  identifier : Text.isIdentifier spec.replacement.toList = true
  native : hasNative spec.native = true

/-- What is amiss with an entry, as far as it is not noticed before: the entry has no category; an
    operator before it has its symbol; one has its replacement name; that is no identifier; there is
    no native. -/
inductive Amiss (hasNative : String → Bool) (before : List Spec) : Entry Value → Diagnostic → Prop
  | category {entry : Entry Value} (hcategory : ∀ c, entry.category ≠ .category c) :
      Amiss hasNative before entry
        (.unclassifiedOperator (Text.quote entry.symbol) entry.shownCategory)
  | symbol {spec first : Spec} (hfirst : first ∈ before) (hsymbol : first.symbol = spec.symbol) :
      Amiss hasNative before spec.toEntry
        (.duplicateSymbol spec.symbol first.category spec.category)
  | replacement {spec first : Spec} (hsymbol : spec.symbol ∉ before.map Entry.symbol)
      (hfirst : first ∈ before) (hreplacement : first.replacement = spec.replacement) :
      Amiss hasNative before spec.toEntry
        (.duplicateReplacement spec.replacement first.symbol spec.symbol)
  | identifier {spec : Spec} (hsymbol : spec.symbol ∉ before.map Entry.symbol)
      (hreplacement : spec.replacement ∉ before.map Entry.replacement)
      (hidentifier : Text.isIdentifier spec.replacement.toList = false) :
      Amiss hasNative before spec.toEntry (.invalidReplacement spec.replacement)
  | native {spec : Spec} (hsymbol : spec.symbol ∉ before.map Entry.symbol)
      (hreplacement : spec.replacement ∉ before.map Entry.replacement)
      (hidentifier : Text.isIdentifier spec.replacement.toList = true)
      (hnative : hasNative spec.native = false) :
      Amiss hasNative before spec.toEntry (.unknownNative spec.native spec.symbol)

/-- An entry is that of an operator if its category is one. -/
theorem exists_toEntry_iff : (∃ spec : Spec, entry = spec.toEntry) ↔
    ∃ c, entry.category = .category c := by
  constructor
  · rintro ⟨spec, rfl⟩
    exact ⟨spec.category, rfl⟩
  · rintro ⟨c, hc⟩
    exact ⟨⟨entry.symbol, c, entry.replacement, entry.native⟩, by rw [Spec.toEntry, ← hc]⟩

/-- What is searched for by a key that is not there is not found. -/
theorem find?_eq_none_of_notMem {f : Spec → String} {key : String} (h : key ∉ specs.map f) :
    (specs.find? fun s => f s == key) = none :=
  List.find?_eq_none.2 fun _ hs heq => h (List.mem_map.2 ⟨_, hs, beq_iff_eq.1 heq⟩)

/-- What is searched for by a key is found, if no other has this key. -/
theorem find?_eq_some_of_nodup {f : Spec → String} (h : (specs.map f).Nodup)
    (hspec : spec ∈ specs) : (specs.find? fun s => f s == f spec) = some spec := by
  rcases hfind : specs.find? fun s => f s == f spec with _ | found
  · exact absurd (beq_self_eq_true _) (List.find?_eq_none.1 hfind spec hspec)
  · have hkey := List.find?_some hfind
    rw [List.inj_on_of_nodup_map h (List.mem_of_find?_eq_some hfind) hspec (beq_iff_eq.1 hkey)]

theorem checkWith_of_fits (h : Fits hasNative before spec) :
    checkWith hasNative before spec.toEntry = .ok spec := by
  have hclassify : spec.toEntry.classify = .ok spec := rfl
  simp [checkWith, hclassify, find?_eq_none_of_notMem h.symbol,
    find?_eq_none_of_notMem h.replacement, h.identifier, h.native, bind, Except.bind, pure,
    Except.pure]

/-- Operators that fit to those before them, one after the other. -/
structure WellFormed (hasNative : String → Bool) (specs : List Spec) : Prop where
  symbols : (specs.map Entry.symbol).Nodup
  replacements : (specs.map Entry.replacement).Nodup
  identifiers : ∀ spec ∈ specs, Text.isIdentifier spec.replacement.toList = true
  natives : ∀ spec ∈ specs, hasNative spec.native = true

theorem Amiss.checkWith_eq (hbefore : WellFormed hasNative before)
    (h : Amiss hasNative before entry d) : checkWith hasNative before entry = .error d := by
  have hclassify : ∀ spec : Spec, spec.toEntry.classify = .ok spec := fun _ => rfl
  cases h with
  | category hcategory =>
    have hclassify : entry.classify =
        .error (.unclassifiedOperator (Text.quote entry.symbol) entry.shownCategory) := by
      rw [Entry.classify]
      split
      · rename_i c hc
        exact absurd hc (hcategory c)
      · rfl
    rw [checkWith, hclassify]
    rfl
  | symbol hfirst hsymbol =>
    have hfind := find?_eq_some_of_nodup hbefore.symbols hfirst
    rw [hsymbol] at hfind
    rw [checkWith, hclassify]
    simp only [hfind, bind, Except.bind]
    rfl
  | replacement hsymbol hfirst hreplacement =>
    have hfind := find?_eq_some_of_nodup hbefore.replacements hfirst
    rw [hreplacement] at hfind
    rw [checkWith, hclassify]
    simp only [find?_eq_none_of_notMem hsymbol, hfind, bind, Except.bind]
    rfl
  | identifier hsymbol hreplacement hidentifier =>
    rw [checkWith, hclassify]
    simp only [find?_eq_none_of_notMem hsymbol, find?_eq_none_of_notMem hreplacement, hidentifier,
      bind, Except.bind]
    rfl
  | native hsymbol hreplacement hidentifier hnative =>
    rw [checkWith, hclassify]
    simp only [find?_eq_none_of_notMem hsymbol, find?_eq_none_of_notMem hreplacement, hidentifier,
      hnative, bind, Except.bind]
    rfl

/-- Something is amiss with an entry unless it fits. -/
theorem fits_or_amiss (hasNative : String → Bool) (before : List Spec) (entry : Entry Value) :
    (∃ spec : Spec, entry = spec.toEntry ∧ Fits hasNative before spec) ∨
      ∃ d, Amiss hasNative before entry d := by
  by_cases hcategory : ∃ c, entry.category = .category c
  · obtain ⟨spec, rfl⟩ := exists_toEntry_iff.2 hcategory
    by_cases hsymbol : spec.symbol ∈ before.map Entry.symbol
    · obtain ⟨first, hfirst, heq⟩ := List.mem_map.1 hsymbol
      exact .inr ⟨_, .symbol hfirst heq⟩
    by_cases hreplacement : spec.replacement ∈ before.map Entry.replacement
    · obtain ⟨first, hfirst, heq⟩ := List.mem_map.1 hreplacement
      exact .inr ⟨_, .replacement hsymbol hfirst heq⟩
    cases hidentifier : Text.isIdentifier spec.replacement.toList with
    | false => exact .inr ⟨_, .identifier hsymbol hreplacement hidentifier⟩
    | true =>
      cases hnative : hasNative spec.native with
      | false => exact .inr ⟨_, .native hsymbol hreplacement hidentifier hnative⟩
      | true => exact .inl ⟨spec, rfl, hsymbol, hreplacement, hidentifier, hnative⟩
  · exact .inr ⟨_, .category (not_exists.1 hcategory)⟩

/-- The entries of operators that fit pass the check. -/
theorem checkWith_eq_ok_iff (hbefore : WellFormed hasNative before) :
    checkWith hasNative before entry = .ok spec ↔
      entry = spec.toEntry ∧ Fits hasNative before spec := by
  constructor
  · intro h
    rcases fits_or_amiss hasNative before entry with ⟨other, rfl, hfits⟩ | ⟨d, hamiss⟩
    · rw [checkWith_of_fits hfits] at h
      cases h
      exact ⟨rfl, hfits⟩
    · rw [hamiss.checkWith_eq hbefore] at h
      cases h
  · rintro ⟨rfl, hfits⟩
    exact checkWith_of_fits hfits

/-- An entry is refused for what is amiss with it. -/
theorem checkWith_eq_error_iff (hbefore : WellFormed hasNative before) :
    checkWith hasNative before entry = .error d ↔ Amiss hasNative before entry d := by
  constructor
  · intro h
    rcases fits_or_amiss hasNative before entry with ⟨other, rfl, hfits⟩ | ⟨d, hamiss⟩
    · rw [checkWith_of_fits hfits] at h
      cases h
    · rw [hamiss.checkWith_eq hbefore] at h
      cases h
      exact hamiss
  · exact fun hamiss => hamiss.checkWith_eq hbefore

/-! ## All entries -/

/-- Operators are well-formed with one more that fits. -/
theorem wellFormed_concat_iff :
    WellFormed hasNative (before ++ [spec]) ↔
      WellFormed hasNative before ∧ Fits hasNative before spec := by
  have hnodup : ∀ f : Spec → String,
      ((before ++ [spec]).map f).Nodup ↔ f spec ∉ before.map f ∧ (before.map f).Nodup := by
    intro f
    rw [List.map_append, List.map_singleton, ← List.concat_eq_append, List.nodup_concat]
  constructor
  · rintro ⟨hsymbols, hreplacements, hidentifiers, hnatives⟩
    rw [hnodup] at hsymbols hreplacements
    rw [List.forall_mem_append, List.forall_mem_singleton] at hidentifiers hnatives
    exact ⟨⟨hsymbols.2, hreplacements.2, hidentifiers.1, hnatives.1⟩,
      hsymbols.1, hreplacements.1, hidentifiers.2, hnatives.2⟩
  · rintro ⟨hbefore, hfits⟩
    refine ⟨(hnodup _).2 ⟨hfits.symbol, hbefore.symbols⟩,
      (hnodup _).2 ⟨hfits.replacement, hbefore.replacements⟩, ?_, ?_⟩
    · rw [List.forall_mem_append, List.forall_mem_singleton]
      exact ⟨hbefore.identifiers, hfits.identifier⟩
    · rw [List.forall_mem_append, List.forall_mem_singleton]
      exact ⟨hbefore.natives, hfits.native⟩

/-- Part of the operators that are well-formed. -/
theorem WellFormed.of_append {more : List Spec} (h : WellFormed hasNative (before ++ more)) :
    WellFormed hasNative before := by
  obtain ⟨hsymbols, hreplacements, hidentifiers, hnatives⟩ := h
  rw [List.map_append] at hsymbols hreplacements
  exact ⟨hsymbols.of_append_left, hreplacements.of_append_left,
    fun s hs => hidentifiers s (List.mem_append_left _ hs),
    fun s hs => hnatives s (List.mem_append_left _ hs)⟩

/-- Entries are added if all operators together are well-formed then. -/
theorem foldlM_addEntry_eq_ok_iff (hbefore : WellFormed hasNative before) :
    entries.foldlM (addEntry hasNative) before = .ok specs ↔
      ∃ more, entries = more.map Spec.toEntry ∧ specs = before ++ more ∧
        WellFormed hasNative specs := by
  induction entries generalizing before with
  | nil =>
    constructor
    · rintro ⟨⟩
      exact ⟨[], rfl, (List.append_nil _).symm, hbefore⟩
    · rintro ⟨more, hmore, rfl, -⟩
      rw [List.map_eq_nil_iff.1 hmore.symm, List.append_nil]
      rfl
  | cons entry rest ih =>
    rw [List.foldlM_cons, bind_eq_ok]
    constructor
    · rintro ⟨next, hstep, hrest⟩
      obtain ⟨spec, hspec, rfl⟩ := map_eq_ok.1 hstep
      obtain ⟨rfl, hfits⟩ := (checkWith_eq_ok_iff hbefore).1 hspec
      obtain ⟨more, rfl, rfl, hall⟩ := (ih (wellFormed_concat_iff.2 ⟨hbefore, hfits⟩)).1 hrest
      exact ⟨spec :: more, rfl, List.append_assoc .., hall⟩
    · rintro ⟨_ | ⟨spec, more⟩, hentries, rfl, hall⟩
      · cases hentries
      · cases hentries
        have hconcat := List.append_cons before spec more
        rw [hconcat] at hall
        obtain ⟨-, hfits⟩ := wellFormed_concat_iff.1 hall.of_append
        exact ⟨_, map_eq_ok.2 ⟨spec, checkWith_of_fits hfits, rfl⟩,
          (ih hall.of_append).2 ⟨more, rfl, hconcat, hconcat ▸ hall⟩⟩

/-- Entries are not added for the first with which something is amiss. -/
theorem foldlM_addEntry_eq_error_iff (hbefore : WellFormed hasNative before) :
    entries.foldlM (addEntry hasNative) before = .error d ↔
      ∃ more entry rest, entries = more.map Spec.toEntry ++ entry :: rest ∧
        WellFormed hasNative (before ++ more) ∧ Amiss hasNative (before ++ more) entry d := by
  induction entries generalizing before with
  | nil =>
    refine iff_of_false ok_ne_error ?_
    rintro ⟨more, entry, rest, hentries, -⟩
    exact absurd hentries (by simp)
  | cons entry rest ih =>
    rw [List.foldlM_cons, bind_eq_error]
    constructor
    · rintro (hstep | ⟨next, hstep, hrest⟩)
      · have hamiss := (checkWith_eq_error_iff hbefore).1 (map_eq_error.1 hstep)
        refine ⟨[], entry, rest, rfl, ?_, ?_⟩
        · rwa [List.append_nil]
        · rwa [List.append_nil]
      · obtain ⟨spec, hspec, rfl⟩ := map_eq_ok.1 hstep
        obtain ⟨rfl, hfits⟩ := (checkWith_eq_ok_iff hbefore).1 hspec
        obtain ⟨more, entry, rest, rfl, hall, hamiss⟩ :=
          (ih (wellFormed_concat_iff.2 ⟨hbefore, hfits⟩)).1 hrest
        rw [← List.append_cons] at hall hamiss
        exact ⟨spec :: more, entry, rest, rfl, hall, hamiss⟩
    · rintro ⟨_ | ⟨spec, more⟩, entry', rest', hentries, hall, hamiss⟩
      · cases hentries
        rw [List.append_nil] at hamiss
        exact .inl (map_eq_error.2 ((checkWith_eq_error_iff hbefore).2 hamiss))
      · cases hentries
        rw [List.append_cons] at hall hamiss
        obtain ⟨-, hfits⟩ := wellFormed_concat_iff.1 hall.of_append
        exact .inr ⟨_, map_eq_ok.2 ⟨spec, checkWith_of_fits hfits, rfl⟩,
          (ih hall.of_append).2 ⟨more, entry', rest', rfl, hall, hamiss⟩⟩

theorem wellFormed_nil : WellFormed hasNative [] := ⟨List.nodup_nil, List.nodup_nil, nofun, nofun⟩

/-- A table is built of the entries of operators that are well-formed, and holds these. -/
theorem construct_eq_ok_iff {table : Table} :
    construct hasNative entries = .ok table ↔
      entries = table.specs.map Spec.toEntry ∧ WellFormed hasNative table.specs := by
  rw [construct, map_eq_ok]
  constructor
  · rintro ⟨specs, hspecs, rfl⟩
    obtain ⟨more, rfl, rfl, hall⟩ := (foldlM_addEntry_eq_ok_iff wellFormed_nil).1 hspecs
    exact ⟨rfl, hall⟩
  · rintro ⟨rfl, hall⟩
    exact ⟨_, (foldlM_addEntry_eq_ok_iff wellFormed_nil).2 ⟨_, rfl, rfl, hall⟩, rfl⟩

/-- A table is not built for the first entry with which something is amiss. -/
theorem construct_eq_error_iff :
    construct hasNative entries = .error d ↔
      ∃ before entry rest, entries = before.map Spec.toEntry ++ entry :: rest ∧
        WellFormed hasNative before ∧ Amiss hasNative before entry d :=
  map_eq_error.trans (foldlM_addEntry_eq_error_iff wellFormed_nil)

/-- What entries are a table of: each has a category, a replacement name that is an identifier and a
    native, and no two have the same symbol or replacement name. -/
structure Acceptable (hasNative : String → Bool) (entries : List (Entry Value)) : Prop where
  categories : ∀ entry ∈ entries, ∃ c, entry.category = .category c
  symbols : (entries.map Entry.symbol).Nodup
  replacements : (entries.map Entry.replacement).Nodup
  identifiers : ∀ entry ∈ entries, Text.isIdentifier entry.replacement.toList = true
  natives : ∀ entry ∈ entries, hasNative entry.native = true

/-- There is a table of entries if they are acceptable. -/
theorem exists_construct_iff :
    (∃ table, construct hasNative entries = .ok table) ↔ Acceptable hasNative entries := by
  have hsymbols : ∀ specs : List Spec,
      (specs.map Spec.toEntry).map Entry.symbol = specs.map Entry.symbol := fun _ => List.map_map
  have hreplacements : ∀ specs : List Spec,
      (specs.map Spec.toEntry).map Entry.replacement = specs.map Entry.replacement :=
    fun _ => List.map_map
  constructor
  · rintro ⟨table, h⟩
    obtain ⟨rfl, hall⟩ := construct_eq_ok_iff.1 h
    refine ⟨?_, hsymbols _ ▸ hall.symbols, hreplacements _ ▸ hall.replacements,
      List.forall_mem_map.2 hall.identifiers, List.forall_mem_map.2 hall.natives⟩
    exact List.forall_mem_map.2 fun spec _ => ⟨spec.category, rfl⟩
  · rintro ⟨hcategories, hsymbol, hreplacement, hidentifiers, hnatives⟩
    have hrange : entries ∈ Set.range (List.map Spec.toEntry) := by
      rw [Set.range_list_map]
      intro entry hentry
      obtain ⟨spec, rfl⟩ := exists_toEntry_iff.2 (hcategories entry hentry)
      exact ⟨spec, rfl⟩
    obtain ⟨specs, rfl⟩ := hrange
    have hall : WellFormed hasNative specs :=
      ⟨hsymbols _ ▸ hsymbol, hreplacements _ ▸ hreplacement, List.forall_mem_map.1 hidentifiers,
        List.forall_mem_map.1 hnatives⟩
    exact ⟨⟨specs⟩, construct_eq_ok_iff.2 ⟨rfl, hall⟩⟩

/-! ## Queries -/

/-- What the queries of a table answer: an operator is found by its symbol, and by its replacement
    name, one way and the other; what is not there has an error of its code; and the categories
    divide the operators, each in their order. -/
structure Answers (table : Table) : Prop where
  get_iff : ∀ symbol spec,
    table.get symbol = .ok spec ↔ spec ∈ table.specs ∧ spec.symbol = symbol
  byReplacement_iff : ∀ name spec,
    table.byReplacement name = .ok spec ↔ spec ∈ table.specs ∧ spec.replacement = name
  byReplacement_get : ∀ symbol spec,
    table.get symbol = .ok spec → table.byReplacement spec.replacement = .ok spec
  get_byReplacement : ∀ name spec,
    table.byReplacement name = .ok spec → table.get spec.symbol = .ok spec
  get_fails : ∀ symbol, (∃ d, table.get symbol = .error d ∧ d.code = .unknownSymbol) ↔
    symbol ∉ table.specs.map Entry.symbol
  byReplacement_fails : ∀ name,
    (∃ d, table.byReplacement name = .error d ∧ d.code = .unknownSymbol) ↔
      name ∉ table.specs.map Entry.replacement
  sublist : ∀ category, (table.inCategory category).Sublist table.specs
  disjoint : ∀ category other, category ≠ other →
    (table.inCategory category).Disjoint (table.inCategory other)
  perm : (Category.all.flatMap table.inCategory).Perm table.specs

/-- The answer to a search for a key: what has it, or an error. -/
def answer (specs : List Spec) (f : Spec → String) (key : String) (d : Diagnostic) :
    Except Diagnostic Spec :=
  (specs.find? fun s => f s == key).elim (.error d) .ok

theorem get_eq_answer (table : Table) (symbol : String) :
    table.get symbol = answer table.specs Entry.symbol symbol (.unknownSymbol symbol) := by
  rw [get, answer]
  cases table.specs.find? fun s => s.symbol == symbol <;> rfl

theorem byReplacement_eq_answer (table : Table) (name : String) :
    table.byReplacement name =
      answer table.specs Entry.replacement name (.unknownReplacement name) := by
  rw [byReplacement, answer]
  cases table.specs.find? fun s => s.replacement == name <;> rfl

/-- A search for a key finds the one that has it. -/
theorem answer_eq_ok_iff {f : Spec → String} {key : String} (h : (specs.map f).Nodup) :
    answer specs f key d = .ok spec ↔ spec ∈ specs ∧ f spec = key := by
  rw [answer]
  constructor
  · intro hanswer
    cases hfind : specs.find? fun s => f s == key with
    | none =>
      rw [hfind] at hanswer
      cases hanswer
    | some found =>
      rw [hfind] at hanswer
      cases hanswer
      have hkey := List.find?_some hfind
      exact ⟨List.mem_of_find?_eq_some hfind, beq_iff_eq.1 hkey⟩
  · rintro ⟨hspec, rfl⟩
    rw [find?_eq_some_of_nodup h hspec]
    rfl

/-- A search for a key fails if none has it, and with no other error than the one for this. -/
theorem exists_answer_eq_error_iff {f : Spec → String} {key : String} {code : ErrorCode}
    (hcode : d.code = code) :
    (∃ d', answer specs f key d = .error d' ∧ d'.code = code) ↔ key ∉ specs.map f := by
  constructor
  · rintro ⟨d', hanswer, -⟩ hkey
    obtain ⟨spec, hspec, hf⟩ := List.mem_map.1 hkey
    cases hfind : specs.find? fun s => f s == key with
    | none => exact List.find?_eq_none.1 hfind spec hspec (beq_iff_eq.2 hf)
    | some found =>
      rw [answer, hfind] at hanswer
      cases hanswer
  · intro hkey
    rw [answer, find?_eq_none_of_notMem hkey]
    exact ⟨d, rfl, hcode⟩

theorem mem_inCategory {table : Table} {category : Category} :
    spec ∈ table.inCategory category ↔ spec ∈ table.specs ∧ spec.category = category := by
  rw [inCategory, List.mem_filter, beq_iff_eq]

/-- A table of well-formed operators answers as it should. -/
theorem WellFormed.answers {table : Table} (h : WellFormed hasNative table.specs) :
    table.Answers := by
  have hget : ∀ symbol spec,
      table.get symbol = .ok spec ↔ spec ∈ table.specs ∧ spec.symbol = symbol := by
    intro symbol spec
    rw [get_eq_answer, answer_eq_ok_iff h.symbols]
  have hbyReplacement : ∀ name spec,
      table.byReplacement name = .ok spec ↔ spec ∈ table.specs ∧ spec.replacement = name := by
    intro name spec
    rw [byReplacement_eq_answer, answer_eq_ok_iff h.replacements]
  have hdisjoint : ∀ category other, category ≠ other →
      (table.inCategory category).Disjoint (table.inCategory other) := by
    intro category other hne spec hspec hspec'
    exact hne ((mem_inCategory.1 hspec).2.symm.trans (mem_inCategory.1 hspec').2)
  have hspecs : table.specs.Nodup := h.symbols.of_map
  refine ⟨hget, hbyReplacement, ?_, ?_, ?_, ?_, fun _ => List.filter_sublist, hdisjoint, ?_⟩
  · intro symbol spec hspec
    exact (hbyReplacement _ _).2 ⟨((hget _ _).1 hspec).1, rfl⟩
  · intro name spec hspec
    exact (hget _ _).2 ⟨((hbyReplacement _ _).1 hspec).1, rfl⟩
  · intro symbol
    rw [get_eq_answer]
    exact exists_answer_eq_error_iff rfl
  · intro name
    rw [byReplacement_eq_answer]
    exact exists_answer_eq_error_iff rfl
  · -- No operator is twice in the table, and every one is in its category.
    refine (List.perm_ext_iff_of_nodup (List.nodup_flatMap.2 ⟨?_, ?_⟩) hspecs).2 fun spec => ?_
    · exact fun category _ => hspecs.filter _
    · have hall : Category.all.Nodup := by decide
      exact hall.imp fun hne => hdisjoint _ _ hne
    · have hall : spec.category ∈ Category.all := by cases spec.category <;> decide
      rw [List.mem_flatMap]
      constructor
      · rintro ⟨category, -, hspec⟩
        exact (mem_inCategory.1 hspec).1
      · exact fun hspec => ⟨_, hall, mem_inCategory.2 ⟨hspec, rfl⟩⟩

/-! ## The construction -/

/-- Of which entries a table is built, whatever natives there are: of acceptable ones, and else the
    error is what is amiss with the first entry that does not fit to the operators before it. The
    table holds the entries in order and answers as it should. The natives of the language are a
    case. -/
theorem construct_exact (hasNative : String → Bool) (entries : List (Entry Value)) :
    ((∃ table, construct hasNative entries = .ok table) ↔ Acceptable hasNative entries) ∧
    (∀ d, construct hasNative entries = .error d ↔
      ∃ before entry rest, entries = before.map Spec.toEntry ++ entry :: rest ∧
        WellFormed hasNative before ∧ Amiss hasNative before entry d) ∧
    (∀ table, construct hasNative entries = .ok table →
      table.specs.map Spec.toEntry = entries ∧ table.Answers) ∧
    ofEntries entries = construct (fun s => (Native.ofName? s).isSome) entries := by
  refine ⟨exists_construct_iff, fun d => construct_eq_error_iff, fun table h => ?_,
    ofEntries_eq_construct entries⟩
  obtain ⟨rfl, hall⟩ := construct_eq_ok_iff.1 h
  exact ⟨rfl, hall.answers⟩

/-- The second of three entries is refused for its replacement name, though there is no native
    behind it, and the third has no category. Without these two there is a table. -/
theorem construct_exact_reused :
    let plus : Spec := ⟨"+", .binary, "__plus__", "js_add"⟩
    let minus : Spec := ⟨"-", .binary, "__plus__", "js_minus"⟩
    ofEntries [plus.toEntry, minus.toEntry, ⟨"*", .null, "times", "js_multiply"⟩] =
      .error (.duplicateReplacement "__plus__" "+" "-") ∧
    ∃ table, ofEntries [plus.toEntry] = .ok table ∧ table.byReplacement "__plus__" = .ok plus := by
  intro plus minus
  let hasNative : String → Bool := fun s => (Native.ofName? s).isSome
  have hplus : WellFormed hasNative [plus] := by
    refine ⟨List.nodup_singleton _, List.nodup_singleton _, ?_, ?_⟩
    · exact List.forall_mem_singleton.2 (by decide +kernel)
    · exact List.forall_mem_singleton.2 (by decide)
  have hsymbol : minus.symbol ∉ [plus].map Entry.symbol := by decide
  have hfirst := List.mem_singleton_self plus
  have hamiss := @Amiss.replacement hasNative _ minus plus hsymbol hfirst rfl
  obtain ⟨-, herror, -, hthree⟩ := construct_exact hasNative
    [plus.toEntry, minus.toEntry, ⟨"*", .null, "times", "js_multiply"⟩]
  obtain ⟨-, -, hanswers, hone⟩ := construct_exact hasNative [plus.toEntry]
  have hbuilt : construct hasNative [plus.toEntry] = .ok ⟨[plus]⟩ :=
    construct_eq_ok_iff.2 ⟨rfl, hplus⟩
  refine ⟨hthree.trans ((herror _).2 ⟨[plus], minus.toEntry, _, rfl, hplus, hamiss⟩), _,
    hone.trans hbuilt, ?_⟩
  exact ((hanswers _ hbuilt).2.byReplacement_iff _ _).2 ⟨List.mem_singleton_self _, rfl⟩

end TaintWeave.Table
