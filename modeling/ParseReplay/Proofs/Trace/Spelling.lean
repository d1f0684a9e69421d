import ParseReplay.Trace.Decode
import ParseReplay.Proofs.Json.Values

/-!
# The format of traces

How a text spells a trace. A record of two fields is an object in which each key stands once,
whatever else stands there, or an array of the two. An action is an object with its kind under
`type` or an array with its kind in front. The members of an object stand in any order, and members
that nobody asks for say nothing; inside an action they still have to be documents that can be kept.

## Main definitions

* `Doc.Says`, `Doc.IsInteger`, `Doc.IsResult`: single values
* `Doc.Fields`: records of two fields
* `Reduction.SpelledBy`, `Action.SpelledBy`, `Trace.SpelledBy`: what a document spells
* `Trace.Spelled`: what a text spells
* `Trace.InRange`: the traces whose integers 64 bits hold
-/

namespace ParseReplay

open Json

namespace Json

/-! ## Values -/

/-- What a document says, if it is a text. -/
inductive Doc.Says : Doc → String → Prop
  | string {q : Quote} {s : String} (h : q.Says s) : Says (.string q) s

/-- The integer that a document is, if it is one. -/
inductive Doc.IsInteger : Doc → ℤ → Prop
  | number {n : Numeral} {i : ℤ} (h : n.IsInteger i) : IsInteger (.number n) i

/-- The result that a document is: an integer, or null for none. -/
inductive Doc.IsResult : Doc → Option ℤ → Prop
  | null : IsResult .null none
  | integer {d : Doc} {i : ℤ} (h : d.IsInteger i) : IsResult d (some i)

/-- The two fields of a record: by keys that stand once, whatever else there is, or by place. -/
inductive Doc.Fields (k k' : String) : Doc → Doc → Doc → Prop
  | object {members : Members} {es : List (String × Doc)} {d d' : Doc} (hm : members.Lists es)
      (h : under k es = [d]) (h' : under k' es = [d']) : Fields k k' (.object members) d d'
  | array {items : Items} {d d' : Doc} (hi : items.Lists [d, d']) :
      Fields k k' (.array items) d d'

end Json

/-! ## Reductions -/

/-- The document spells the reduction. -/
inductive Reduction.SpelledBy : Reduction → Doc → Prop
  | fields {r : Reduction} {d symbol size : Doc} (h : d.Fields "symbol" "size" symbol size)
      (hsymbol : symbol.Says r.symbol) (hsize : size.IsInteger r.size) : SpelledBy r d

/-! ## Actions -/

/-- The name of a kind. -/
def Action.Tag.name : Action.Tag → String
  | .shift => "shift"
  | .reduce => "reduce"
  | .finish => "finish"

/-- What belongs to a kind of action among the members of its object. -/
def Action.Tag.content {β : Type} (es : List (String × β)) : Action.Tag → List β
  | .shift => []
  | .reduce => under "to" es
  | .finish => under "result" es

/-- The kind of an action. -/
def Action.tag : Action → Action.Tag
  | .shift => .shift
  | .reduce _ => .reduce
  | .finish _ => .finish

/-- What an action consists of besides its kind. A result may be left out. -/
inductive Action.Content : Action → List Doc → Prop
  | shift : Content .shift []
  | reduce {r : Reduction} {d : Doc} (h : r.SpelledBy d) : Content (.reduce r) [d]
  | omitted : Content (.finish none) []
  | result {d : Doc} {result : Option ℤ} (h : d.IsResult result) : Content (.finish result) [d]

/-- **The document spells the action.** -/
inductive Action.SpelledBy : Action → Doc → Prop
  | object {a : Action} {members : Members} {es : List (String × Doc)} {kind : Doc}
      (hm : members.Lists es) (hkind : under "type" es = [kind]) (hname : kind.Says a.tag.name)
      (hstrict : ∀ e ∈ es, e.1 ≠ "type" → e.2.Strict Action.room)
      (hcontent : a.Content (a.tag.content es)) : SpelledBy a (.object members)
  | array {a : Action} {items : Items} {kind : Doc} {ds : List Doc}
      (hi : items.Lists (kind :: ds)) (hname : kind.Says a.tag.name)
      (hstrict : ∀ d ∈ ds, d.Strict Action.room) (hcontent : a.Content ds) :
      SpelledBy a (.array items)

/-! ## Traces -/

/-- The actions that the items of an array spell, in order. -/
inductive Json.Doc.ListsActions : Doc → List Action → Prop
  | array {items : Items} {ds : List Doc} {as : List Action} (hi : items.Lists ds)
      (h : List.Forall₂ Action.SpelledBy as ds) : ListsActions (.array items) as

/-- **The document spells the trace.** -/
inductive Trace.SpelledBy : Trace → Doc → Prop
  | fields {t : Trace} {d input actions : Doc} (h : d.Fields "string" "actions" input actions)
      (hinput : input.Says t.input) (hactions : actions.ListsActions t.actions) : SpelledBy t d

/-- **The text spells the trace**: it spells a document that does, and holds nothing else. -/
def Trace.Spelled (t : Trace) (s : String) : Prop :=
  ∃ d : Doc, d.SpelledAlone s.toList ∧ t.SpelledBy d

/-- 64 bits hold the size or the result of the action. -/
def Action.InRange : Action → Prop
  | .shift => True
  | .reduce r => r.size < 0x10000000000000000
  | .finish none => True
  | .finish (some i) => -0x8000000000000000 ≤ i ∧ i < 0x8000000000000000

/-- 64 bits hold all sizes and results of the trace. -/
def Trace.InRange (t : Trace) : Prop := ∀ a ∈ t.actions, a.InRange

/-! ## Every trace has a spelling -/

namespace Json

/-- Documents make up an array. -/
theorem exists_items {ds : List Doc} (h : ∀ d ∈ ds, d.Written) :
    ∃ items : Items, items.Lists ds ∧ items.Written := by
  induction ds with
  | nil => exact ⟨.closed, .closed, trivial⟩
  | cons d ds ih =>
    rw [List.forall_mem_cons] at h
    obtain ⟨items, hlists, hwritten⟩ := ih h.2
    exact ⟨.item d items, .item hlists, h.1, hwritten⟩

/-- A text makes up a document. -/
theorem exists_doc_says (s : String) :
    ∃ d : Doc, d.Written ∧ d.Says s ∧ ∀ room, d.Strict room := by
  obtain ⟨q, hwritten, hsays⟩ := Quote.exists_written_says s
  exact ⟨.string q, hwritten, .string hsays, fun _ => .string hsays⟩

/-- An integer of 64 bits makes up a document. -/
theorem exists_doc_isInteger {i : ℤ} (hlo : -0x8000000000000000 ≤ i)
    (hhi : i < 0x10000000000000000) :
    ∃ d : Doc, d.Written ∧ d.IsInteger i ∧ ∀ room, d.Strict room := by
  obtain ⟨n, hwritten, hinteger⟩ := Numeral.exists_written_isInteger i
  have hvalue := (Numeral.value_eq_integer_iff hwritten).mpr ⟨hinteger, hlo, hhi⟩
  exact ⟨.number n, hwritten, .number hinteger, fun _ => .number hvalue⟩

end Json

theorem Reduction.exists_spelledBy {r : Reduction} (hr : r.size < 0x10000000000000000) :
    ∃ d : Doc, d.Written ∧ r.SpelledBy d ∧ d.Strict Action.room := by
  obtain ⟨symbol, hwsymbol, hsymbol, hssymbol⟩ := exists_doc_says r.symbol
  obtain ⟨size, hwsize, hsize, hssize⟩ := exists_doc_isInteger (i := r.size) (by omega) (by omega)
  exact ⟨.array (.item symbol (.item size .closed)), ⟨hwsymbol, hwsize, trivial⟩,
    .fields (.array (.item (.item .closed))) hsymbol hsize,
    .array (.item (hssymbol _) (.item (hssize _) .closed))⟩

theorem Action.exists_content {a : Action} (ha : a.InRange) :
    ∃ ds : List Doc, (∀ d ∈ ds, d.Written ∧ d.Strict Action.room) ∧ a.Content ds := by
  cases a with
  | shift => exact ⟨[], by simp, .shift⟩
  | reduce r =>
    obtain ⟨d, hwritten, hspelled, hstrict⟩ := Reduction.exists_spelledBy ha
    exact ⟨[d], by simp [hwritten, hstrict], .reduce hspelled⟩
  | finish result =>
    cases result with
    | none => exact ⟨[], by simp, .omitted⟩
    | some i =>
      -- A result has a smaller range than the integers that can be kept.
      have hlt : i < 0x10000000000000000 := ha.2.trans (by omega)
      obtain ⟨d, hwritten, hinteger, hstrict⟩ := exists_doc_isInteger ha.1 hlt
      exact ⟨[d], by simp [hwritten, hstrict], .result (.integer hinteger)⟩

theorem Action.exists_spelledBy {a : Action} (ha : a.InRange) :
    ∃ d : Doc, d.Written ∧ a.SpelledBy d := by
  obtain ⟨kind, hwkind, hname, -⟩ := exists_doc_says a.tag.name
  obtain ⟨ds, hds, hcontent⟩ := Action.exists_content ha
  obtain ⟨items, hlists, hwritten⟩ := exists_items fun d hd => (hds d hd).1
  exact ⟨.array (.item kind items), ⟨hwkind, hwritten⟩,
    .array (.item hlists) hname (fun d hd => (hds d hd).2) hcontent⟩

/-- **Every trace in range has a spelling.** -/
theorem Trace.exists_spelled {t : Trace} (ht : t.InRange) : ∃ s, t.Spelled s := by
  obtain ⟨ds, hds⟩ := exists_forall₂_iff.mpr fun a ha => Action.exists_spelledBy (ht a ha)
  obtain ⟨hwritten, hspelled⟩ :=
    (List.forall₂_and_left (p := Doc.Written) (R := fun d a => a.SpelledBy d) ds t.actions).mp
      hds.flip
  obtain ⟨items, hlists, hwritten⟩ := exists_items hwritten
  obtain ⟨input, hwinput, hinput, -⟩ := exists_doc_says t.input
  have hdoc : (Doc.array (.item input (.item (.array items) .closed))).Written :=
    ⟨hwinput, hwritten, trivial⟩
  obtain ⟨w, hw⟩ := hdoc.exists_spelled
  have hblank : Blank [] := by simp [Blank]
  -- The document alone is a text that spells it.
  refine ⟨String.ofList ([] ++ (w ++ [])), _, ?_,
    .fields (.array (.item (.item .closed))) hinput (.array hlists hspelled.flip)⟩
  rw [String.toList_ofList]
  exact .text hblank hw hblank

end ParseReplay
