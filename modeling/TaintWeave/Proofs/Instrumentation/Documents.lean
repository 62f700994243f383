import TaintWeave.Proofs.Instrumentation.Stability
import TaintWeave.Proofs.Node.Regular

/-!
# Instrumented documents

The call of a replacement has the extra members of an operator. What is extra for an operator is
extra for a call as well, unless it is under the key of the callee or of the arguments. So, apart
from this, the pass keeps trees regular, and an instrumented tree is read back as it was written.

* `Catalog.regular_image`: instrumentation keeps trees regular.
* `Catalog.isPlain_image_iff`: when an instrumented tree has no nodes where they cannot be written.
* `Catalog.ofJson_of_instrument`: an instrumented tree is read back as it was written, and
  instrumenting an instrumented document changes nothing.
-/

namespace TaintWeave

/-! ## Nodes with other children -/

/-- A slot stays regular if its nodes are replaced. -/
theorem Slot.Regular.map {s : Slot} (h : s.Regular) (f : Node → Node) : (s.map f).Regular := by
  induction h with
  | node n =>
    rw [Slot.map]
    exact .node (f n)
  | list _ ih =>
    rw [Slot.map, mapList_eq]
    exact .list (List.forall_mem_map.2 ih)
  | data h =>
    rw [Slot.map]
    exact .data h

/-- A node stays regular if its children are replaced. -/
theorem Node.Regular.mapChildren {n : Node} (h : n.Regular) (f : Node → Node) :
    (n.mapChildren f).Regular := by
  rcases h with ⟨hname, hextra⟩ | ⟨hextra⟩ | ⟨hoperator, hleading, hextra⟩ |
    ⟨hoperator, hextra⟩ | ⟨harguments, hextra⟩ | ⟨htype, hkeys, hfieldKeys, hfields, hextra⟩
  case identifier => exact .identifier hname hextra
  case literal => exact .literal hextra
  case unary => exact .unary hoperator hleading hextra
  case binary => exact .binary hoperator hextra
  case call => exact .call (harguments.map f) hextra
  case other type fields extra =>
    have hsame : Members.keys (fields.map fun m => (m.1, m.2.map f)) = fields.keys :=
      Members.keys_map fun _ => Slot.map f
    refine .other htype (hsame ▸ hkeys) (hsame ▸ hfieldKeys) ?_ hextra
    exact List.forall_mem_map.2 fun field hfield => (hfields field hfield).map f

/-- The slots of a node that are not for nodes stay if its children are replaced. -/
theorem Node.plainSlots_mapChildren (f : Node → Node) (n : Node) :
    (n.mapChildren f).plainSlots = n.plainSlots := by
  cases n <;> rfl

/-! ## Replaced nodes -/

/-- The extra members of an operator are extra for a call as well. If they are not, they are written
    in the place of the callee or the arguments. -/
def Node.FitsCall (n : Node) : Prop :=
  n.operator?.isSome → ∀ key ∈ n.extra.keys, key ∉ NodeType.call.keys

instance (n : Node) : Decidable n.FitsCall :=
  inferInstanceAs (Decidable (n.operator?.isSome → ∀ key ∈ n.extra.keys, key ∉ NodeType.call.keys))

/-- A node fits a call whatever its children are. -/
theorem Node.FitsCall.mapChildren {n : Node} (h : n.FitsCall) (f : Node → Node) :
    (n.mapChildren f).FitsCall := by
  cases n <;> exact h

/-- What is extra for a node is extra for the call of a replacement, if it fits there. -/
theorem Node.regular_replacement {t : NodeType} {extra : Members Json} (hextra : IsExtra t extra)
    (hfits : ∀ key ∈ extra.keys, key ∉ NodeType.call.keys) (name : String)
    (operands : List Node) : (replacement name operands extra).Regular := by
  refine .call (.list (List.forall_mem_map.2 fun n _ => .node n)) ⟨hextra.nodup, fun key hkey => ?_⟩
  exact ⟨(hextra.notMem key hkey).1, hfits key hkey⟩

/-- What a rule makes of a regular node is regular, if the node fits a call. -/
theorem Rule.regular_transform {rule : Rule} {n : Node} (haccepts : rule.accepts n = true)
    (hfits : n.FitsCall) (hregular : n.Regular) : (rule.transform n).Regular := by
  rcases Accepts.of_accepts haccepts
  case unary =>
    rcases hregular with _ | _ | ⟨_, _, hextra⟩
    exact Node.regular_replacement hextra (hfits rfl) _ _
  case binary =>
    rcases hregular with _ | _ | _ | ⟨_, hextra⟩
    exact Node.regular_replacement hextra (hfits rfl) _ _
  case call =>
    rcases hregular with _ | _ | _ | _ | ⟨harguments, hextra⟩
    exact .call harguments hextra

/-- What a rule makes holds no nodes where they cannot be written. -/
theorem Rule.isPlain_transform {rule : Rule} {n : Node} (haccepts : rule.accepts n = true) :
    (rule.transform n).IsPlain := by
  rcases Accepts.of_accepts haccepts <;> exact fun _ hs => absurd hs List.not_mem_nil

namespace Catalog

variable {catalog : Catalog} {n : Node}

/-- Instrumentation keeps trees regular, if the operators that are replaced fit calls. -/
theorem regular_image (hc : catalog.Coherent) (hregular : ∀ m ∈ n.preorder, m.Regular)
    (hfits : ∀ m ∈ n.preorder, catalog.matching m ≠ [] → m.FitsCall) :
    ∀ m ∈ (n.image catalog.replace).preorder, m.Regular := by
  refine forall_mem_preorder_image hc (fun m hm => (hregular m hm).mapChildren _)
    (fun m hm rule hrule haccepts => ?_) (fun rule _ => ?_) fun rule _ extra h => ?_
  · have hmatching := matching_ne_nil_iff.2 ⟨rule, hrule, haccepts⟩
    have haccepts' := accepts_mapChildren_image catalog rule m ▸ haccepts
    exact Rule.regular_transform haccepts' ((hfits m hm hmatching).mapChildren _)
      ((hregular m hm).mapChildren _)
  · exact .identifier (.data rfl) ⟨List.nodup_nil, fun _ hkey => absurd hkey List.not_mem_nil⟩
  · rcases h with ⟨_, hextra⟩
    exact .identifier (.data rfl) hextra

/-- No node stands in an instrumented tree where it cannot be written if and only if this holds of
    the tree, but for what the nodes that are replaced leave behind. -/
theorem isPlain_image_iff (hc : catalog.Coherent) :
    (∀ m ∈ (n.image catalog.replace).preorder, m.IsPlain) ↔
      ∀ m ∈ n.preorder, catalog.matching m = [] → m.IsPlain := by
  rw [forall_mem_preorder_image_iff hc fun name extra s hs => by rw [List.mem_singleton.1 hs]; rfl]
  refine forall₂_congr fun m _ => ?_
  by_cases h : ∃ rule ∈ catalog.rules, rule.accepts m = true
  · have hmatching := matching_ne_nil_iff.2 h
    obtain ⟨rule, hrule, haccepts⟩ := h
    have haccepts' := accepts_mapChildren_image catalog rule m ▸ haccepts
    rw [image_of_accepts hc hrule haccepts]
    exact iff_of_true (Rule.isPlain_transform haccepts') fun hnone => absurd hnone hmatching
  · have hmatching : catalog.matching m = [] := not_not.1 (mt matching_ne_nil_iff.1 h)
    rw [image_of_not_accepts hc h, Node.IsPlain, Node.plainSlots_mapChildren, hmatching]
    exact ⟨fun hplain _ => hplain, fun hplain => hplain rfl⟩

/-- Instrumentation puts no nodes where they cannot be written. -/
theorem isPlain_image (hc : catalog.Coherent) (hplain : ∀ m ∈ n.preorder, m.IsPlain) :
    ∀ m ∈ (n.image catalog.replace).preorder, m.IsPlain :=
  (isPlain_image_iff hc).2 fun m hm _ => hplain m hm

/-! ## Documents -/

/-- A document is instrumented if it can be read, its tree can be instrumented, and what comes out
    can be written. -/
theorem instrumentJson_eq_ok_iff {document written : Json} :
    catalog.instrumentJson document = .ok written ↔
      ∃ n r stats, Node.ofJson document = .ok n ∧ catalog.instrument n = .ok (r, stats) ∧
        r.toJson = .ok written := by
  have hdiagnostic : ∀ {α : Type} {x : Except Diagnostic α} {a : α},
      (liftM x : Except Failure α) = .ok a ↔ x = .ok a := mapError_eq_ok
  have hfault : ∀ {α : Type} {x : Except Fault α} {a : α},
      (liftM x : Except Failure α) = .ok a ↔ x = .ok a := mapError_eq_ok
  simp only [instrumentJson, bind_eq_ok, hdiagnostic, hfault, Prod.exists]
  constructor
  · rintro ⟨n, hn, r, stats, hr, hwritten⟩
    exact ⟨n, r, stats, hn, hr, hwritten⟩
  · rintro ⟨n, r, stats, hn, hr, hwritten⟩
    exact ⟨n, hn, r, stats, hr, hwritten⟩

/-- A tree that is read from a document is read back as it was written, and so is the tree that
    instrumentation makes of it, if the operators that are replaced fit calls. If the first can be
    written, so can the second. So an instrumented document that is instrumented again stays as it
    is, with its keys in order. The documents that are read from text have different keys
    (`Json.distinct_of_read`). -/
theorem ofJson_of_instrument {specs : List Spec} {document : Json} {n r : Node} {stats : Stats}
    (hcatalog : ofSpecs specs = .ok catalog) (hdistinct : document.Distinct)
    (hread : Node.ofJson document = .ok n) (hpass : catalog.instrument n = .ok (r, stats))
    (hfits : ∀ m ∈ n.preorder, catalog.matching m ≠ [] → m.FitsCall) :
    (∀ j, n.toJson = .ok j → Node.ofJson j = .ok n ∧ ∃ written, r.toJson = .ok written) ∧
      ∀ written, r.toJson = .ok written → Node.ofJson written = .ok r ∧
        catalog.instrumentJson document = .ok written ∧
        catalog.instrumentJson written = .ok written := by
  have hc := valid_of_ofSpecs hcatalog
  have hregular := Node.regular_of_ofJson hdistinct hread
  obtain ⟨hfind, himage, _⟩ := instrument_eq_ok_iff.1 hpass
  constructor
  · intro j hj
    have hplain := isPlain_image hc.coherent ((Node.exists_toJson_iff n).1 ⟨j, hj⟩)
    rw [← himage] at hplain
    exact ⟨Node.ofJson_of_toJson hregular hj, (Node.exists_toJson_iff r).2 hplain⟩
  · intro written hwritten
    have hsettled := settled_image hc n hfind
    have hregular' := regular_image hc.coherent hregular hfits
    rw [← himage] at hsettled hregular'
    have hread' := Node.ofJson_of_toJson hregular' hwritten
    have hpass' : catalog.instrument r = .ok (r, _) :=
      instrument_eq_ok_iff.2 ⟨fun m hm => ⟨none, hsettled m hm⟩, hsettled.image_eq.symm, rfl⟩
    exact ⟨hread', instrumentJson_eq_ok_iff.2 ⟨n, r, stats, hread, hpass, hwritten⟩,
      instrumentJson_eq_ok_iff.2 ⟨r, r, _, hread', hpass', hwritten⟩⟩

/-- The expression `!eval(x)` with positions, which the calls of the replacements take over. -/
theorem ofJson_of_instrument_not_eval :
    ∃ catalog n r stats written,
      ofSpecs [⟨"!", .unary, "not", "js_logical_not"⟩, ⟨"eval", .function, "run", "js_eval"⟩] =
        .ok catalog ∧
      Node.ofJson (.object [("type", .text "UnaryExpression"), ("operator", .text "!"),
        ("argument", .object [("type", .text "CallExpression"), ("callee", .object
          [("type", .text "Identifier"), ("name", .text "eval"), ("start", .number (.int 1))]),
          ("arguments", .array [.object [("type", .text "Identifier"), ("name", .text "x")]])]),
        ("end", .number (.int 8))]) = .ok n ∧
      (∀ m ∈ n.preorder, catalog.matching m ≠ [] → m.FitsCall) ∧
      catalog.instrument n = .ok (r, stats) ∧
      written = .object [("type", .text "CallExpression"),
        ("callee", .object [("type", .text "Identifier"), ("name", .text "not")]),
        ("arguments", .array [.object [("type", .text "CallExpression"), ("callee", .object
          [("type", .text "Identifier"), ("name", .text "run"), ("start", .number (.int 1))]),
          ("arguments", .array [.object [("type", .text "Identifier"), ("name", .text "x")]])]]),
        ("end", .number (.int 8))] ∧
      (∀ j, n.toJson = .ok j → Node.ofJson j = .ok n) ∧
      r.toJson = .ok written ∧ Node.ofJson written = .ok r ∧
      catalog.instrumentJson written = .ok written := by
  let not : Spec := ⟨"!", .unary, "not", "js_logical_not"⟩
  let eval : Spec := ⟨"eval", .function, "run", "js_eval"⟩
  let catalog : Catalog := ⟨[⟨not⟩, ⟨eval⟩],
    [((.unary, "!"), ⟨not⟩), ((.update, "!"), ⟨not⟩), ((.call, "eval"), ⟨eval⟩)]⟩
  let document := Json.object [("type", .text "UnaryExpression"), ("operator", .text "!"),
    ("argument", .object [("type", .text "CallExpression"), ("callee", .object
      [("type", .text "Identifier"), ("name", .text "eval"), ("start", .number (.int 1))]),
      ("arguments", .array [.object [("type", .text "Identifier"), ("name", .text "x")]])]),
    ("end", .number (.int 8))]
  let n : Node := .unary .unary (.text "!") (.call
    (.identifier (.text "eval") [("start", .number (.int 1))]) (.list [.node (.named "x")]) [])
    (.data (.boolean true)) [("end", .number (.int 8))]
  let r : Node := .call (.named "not") (.list [.node (.call
    (.identifier (.text "run") [("start", .number (.int 1))]) (.list [.node (.named "x")]) [])])
    [("end", .number (.int 8))]
  have hcatalog : ofSpecs [not, eval] = .ok catalog := rfl
  have hdistinct : document.Distinct := by decide
  have hread : Node.ofJson document = .ok n := rfl
  have hpass : catalog.instrument n = .ok (r, ⟨4, ["run", "not"]⟩) := rfl
  have hfits : ∀ m ∈ n.preorder, catalog.matching m ≠ [] → m.FitsCall := by decide
  obtain ⟨written, hwritten⟩ : ∃ written, r.toJson = .ok written := ⟨_, rfl⟩
  obtain ⟨hread', hdocument⟩ := ofJson_of_instrument hcatalog hdistinct hread hpass hfits
  obtain ⟨hagain, _, hidempotent⟩ := hdocument written hwritten
  refine ⟨catalog, n, r, _, written, hcatalog, hread, hfits, hpass, ?_, fun j hj => (hread' j hj).1,
    hwritten, hagain, hidempotent⟩
  exact (Except.ok.inj hwritten).symm

end Catalog

end TaintWeave
