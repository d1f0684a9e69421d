import Mathlib
import ParseReplay.Proofs.Json.Reading
import ParseReplay.Proofs.Trace.Actions

/-!
# Reading traces

A text is read as a trace exactly if it spells the trace and 64 bits hold the integers of the trace.
The document of the text is gone through once: the trace asks for its fields as they come, and
passes over what nobody asks for. A document that is read to its end without a refusal has no
defect, so it is the document that the text spells.

## Main results

* `Trace.ofDoc_eq_ok_iff`: the traces of documents
* `Trace.skip_of_ofDoc`: a document that is read as a trace has no defect
* `Trace.ofJson_eq_ok_iff`: the traces of texts
* `Trace.ofJson_of_spelled`: every spelling of a trace is read
* `Trace.spelled_of_ofJson`: nothing else is read
-/

namespace ParseReplay

open Json

/-! ## Traces -/

/-- The elements of a list are read one by one. -/
theorem listOfItems_eq_ok_iff {β : Type} {element : Doc → Except Refusal β} {items : Items}
    {bs : List β} :
    listOfItems element items = .ok bs ↔
      ∃ ds, items.Lists ds ∧ List.Forall₂ (fun b d => element d = .ok b) bs ds := by
  cases items with
  | closed =>
    rw [Items.exists_lists_closed_iff, List.forall₂_nil_right_iff, listOfItems]
    simp [eq_comm]
  | item head tail =>
    rw [Items.exists_lists_item_iff, listOfItems, bind_eq_ok_iff]
    simp only [bind_eq_ok_iff, List.forall₂_cons_right_iff]
    constructor
    · rintro ⟨b, hb, bs, hbs, h⟩
      cases h
      obtain ⟨ds, hds, hall⟩ := listOfItems_eq_ok_iff.mp hbs
      exact ⟨ds, hds, b, bs, hb, hall, rfl⟩
    · rintro ⟨ds, hds, b, bs, hb, hall, rfl⟩
      exact ⟨b, hb, bs, listOfItems_eq_ok_iff.mpr ⟨ds, hds, hall⟩, rfl⟩
  | broken =>
    constructor
    · intro h
      cases h
    · rintro ⟨ds, hds, -⟩
      cases hds

/-- Each action is spelled by a document of its own, and all of them are in range. -/
theorem forall₂_ofDoc_iff {as : List Action} {ds : List Doc} (hds : ∀ d ∈ ds, d.Written) :
    List.Forall₂ (fun a d => Action.ofDoc d = .ok a) as ds ↔
      List.Forall₂ Action.SpelledBy as ds ∧ ∀ a ∈ as, a.InRange := by
  induction as generalizing ds with
  | nil => simp
  | cons a as ih =>
    cases ds with
    | nil => simp
    | cons d ds =>
      rw [List.forall_mem_cons] at hds
      rw [List.forall₂_cons, List.forall₂_cons, List.forall_mem_cons, ih hds.2,
        Action.ofDoc_eq_ok_iff hds.1]
      tauto

theorem listOfDoc_eq_ok_iff {d : Doc} (hd : d.Written) {as : List Action} :
    listOfDoc Action.ofDoc d = .ok as ↔ d.ListsActions as ∧ ∀ a ∈ as, a.InRange := by
  match d with
  | .array items =>
    rw [listOfDoc, listOfItems_eq_ok_iff]
    constructor
    · rintro ⟨ds, hds, hall⟩
      obtain ⟨hspelled, hrange⟩ := (forall₂_ofDoc_iff (hds.written hd)).mp hall
      exact ⟨.array hds hspelled, hrange⟩
    · rintro ⟨⟨hds, hspelled⟩, hrange⟩
      exact ⟨_, hds, (forall₂_ofDoc_iff (hds.written hd)).mpr ⟨hspelled, hrange⟩⟩
  | .null | .bool _ | .number _ | .string _ | .object _ =>
    exact iff_of_false (fun h => by cases h) fun ⟨h, _⟩ => by cases h
  | .brokenNumber _ | .absent _ => cases hd

/-- **The fields of a trace** stand once each, and what nobody asks for is passed over. -/
theorem Trace.ofMembers_eq_ok_iff {members : Members} (hm : members.Written)
    {input : Option String} {actions : Option (List Action)} {t : Trace} :
    Trace.ofMembers input actions members = .ok t ↔
      ∃ es, members.Lists es ∧
        Filled (fun d s => textOfDoc d = .ok s) input (under "string" es) t.input ∧
          Filled (fun d as => listOfDoc Action.ofDoc d = .ok as) actions (under "actions" es)
            t.actions := by
  cases members with
  | closed =>
    obtain ⟨s, as⟩ := t
    rw [Members.exists_lists_closed_iff]
    cases input <;> cases actions <;> simp [Trace.ofMembers, Filled]
  | member key value tail =>
    obtain ⟨hkey, hvalue, htail⟩ := hm
    rw [Trace.ofMembers, bind_eq_ok_iff, Members.exists_lists_member_iff]
    simp only [Refusal.orDefect_eq_ok_iff, Quote.text_eq_ok_iff hkey]
    refine exists_congr fun k => and_congr_right fun _ => ?_
    by_cases hstring : k = "string"
    · subst hstring
      rw [if_pos rfl, place_eq_ok_iff]
      simp only [ofMembers_eq_ok_iff htail, under_cons_self, filled_cons_iff,
        under_cons_of_ne (show "string" ≠ "actions" by decide)]
      constructor
      · rintro ⟨rfl, s, hs, es, hes, hinput, hactions⟩
        exact ⟨es, hes, ⟨rfl, s, hs, hinput⟩, hactions⟩
      · rintro ⟨es, hes, ⟨rfl, s, hs, hinput⟩, hactions⟩
        exact ⟨rfl, s, hs, es, hes, hinput, hactions⟩
    rw [if_neg hstring]
    by_cases hkind : k = "actions"
    · subst hkind
      rw [if_pos rfl, place_eq_ok_iff]
      simp only [ofMembers_eq_ok_iff htail, under_cons_self, filled_cons_iff,
        under_cons_of_ne hstring]
      constructor
      · rintro ⟨rfl, as, has, es, hes, hinput, hactions⟩
        exact ⟨es, hes, hinput, rfl, as, has, hactions⟩
      · rintro ⟨es, hes, hinput, rfl, as, has, hactions⟩
        exact ⟨rfl, as, has, es, hes, hinput, hactions⟩
    · -- Nobody asks for what stands under any other key.
      rw [if_neg hkind, hvalue.skip]
      simp only [under_cons_of_ne hstring, under_cons_of_ne hkind]
      exact ofMembers_eq_ok_iff htail
  | broken => cases hm

theorem Trace.ofItems_eq_ok_iff {items : Items} (hi : items.Written) {t : Trace} :
    Trace.ofItems items = .ok t ↔
      ∃ d d', items.Lists [d, d'] ∧ textOfDoc d = .ok t.input ∧
        listOfDoc Action.ofDoc d' = .ok t.actions := by
  obtain ⟨s, as⟩ := t
  constructor
  · intro h
    match items with
    | .closed | .broken _ => cases h
    | .item first rest =>
      obtain ⟨s, hs, h⟩ := bind_eq_ok_iff.mp h
      match rest with
      | .closed | .broken _ => cases h
      | .item second rest =>
        obtain ⟨as, has, h⟩ := bind_eq_ok_iff.mp h
        match rest with
        | .closed =>
          cases h
          exact ⟨first, second, .item (.item .closed), hs, has⟩
        | .broken _ | .item _ _ => cases h
  · rintro ⟨d, d', hitems, hs, has⟩
    rcases hitems with - | ⟨- | ⟨⟨⟩⟩⟩
    exact bind_eq_ok_iff.mpr ⟨s, hs, bind_eq_ok_iff.mpr ⟨as, has, rfl⟩⟩

/-- **The traces of documents.** -/
theorem Trace.ofDoc_eq_ok_iff {d : Doc} (hd : d.Written) {t : Trace} :
    Trace.ofDoc d = .ok t ↔ t.SpelledBy d ∧ t.InRange := by
  constructor
  · intro h
    -- Both forms of a record lead to two documents, which are then read alike.
    have hfields : ∃ d₁ d₂, d.Fields "string" "actions" d₁ d₂ ∧ (d₁.Written ∧ d₂.Written) ∧
        textOfDoc d₁ = .ok t.input ∧ listOfDoc Action.ofDoc d₂ = .ok t.actions := by
      cases d with
      | object members =>
        obtain ⟨es, hes, ⟨d₁, hstring, hinput⟩, d₂, hkey, hactions⟩ :=
          (ofMembers_eq_ok_iff hd).mp h
        exact ⟨d₁, d₂, .object hes hstring hkey,
          ⟨hes.written_under hd hstring, hes.written_under hd hkey⟩, hinput, hactions⟩
      | array items =>
        obtain ⟨d₁, d₂, hitems, hinput, hactions⟩ := (ofItems_eq_ok_iff hd).mp h
        have hwritten := hitems.written hd
        exact ⟨d₁, d₂, .array hitems, ⟨hwritten d₁ (by simp), hwritten d₂ (by simp)⟩, hinput,
          hactions⟩
      | _ => cases h
    obtain ⟨d₁, d₂, hfields, ⟨hd₁, hd₂⟩, hinput, hactions⟩ := hfields
    obtain ⟨hactions, hrange⟩ := (listOfDoc_eq_ok_iff hd₂).mp hactions
    exact ⟨.fields hfields ((textOfDoc_eq_ok_iff hd₁).mp hinput) hactions, hrange⟩
  · rintro ⟨⟨hfields, hinput, hactions⟩, hrange⟩
    cases hfields with
    | object hes hstring hkey =>
      refine (ofMembers_eq_ok_iff hd).mpr ⟨_, hes, ⟨_, hstring, ?_⟩, _, hkey, ?_⟩
      · exact (textOfDoc_eq_ok_iff (hes.written_under hd hstring)).mpr hinput
      · exact (listOfDoc_eq_ok_iff (hes.written_under hd hkey)).mpr ⟨hactions, hrange⟩
    | array hitems =>
      have hwritten := hitems.written hd
      refine (ofItems_eq_ok_iff hd).mpr ⟨_, _, hitems, ?_, ?_⟩
      · exact (textOfDoc_eq_ok_iff (hwritten _ (by simp))).mpr hinput
      · exact (listOfDoc_eq_ok_iff (hwritten _ (by simp))).mpr ⟨hactions, hrange⟩

/-! ## Documents without defects -/

theorem skip_of_textOfDoc {d : Doc} {s : String} (h : textOfDoc d = .ok s) :
    d.skip = .ok () := by
  cases d with
  | string q => exact Quote.skip_of_text (Refusal.orDefect_eq_ok_iff.mp h)
  | _ => cases h

theorem skip_of_listOfItems {items : Items} {as : List Action}
    (h : listOfItems Action.ofDoc items = .ok as) : items.skip = .ok () := by
  match items with
  | .closed => rfl
  | .item head tail =>
    rw [listOfItems] at h
    obtain ⟨a, ha, h⟩ := bind_eq_ok_iff.mp h
    obtain ⟨as, has, -⟩ := bind_eq_ok_iff.mp h
    exact Items.skip_item_iff.mpr ⟨Action.skip_of_ofDoc ha, skip_of_listOfItems has⟩
  | .broken _ => cases h

theorem skip_of_listOfDoc {d : Doc} {as : List Action}
    (h : listOfDoc Action.ofDoc d = .ok as) : d.skip = .ok () := by
  cases d with
  | array items => exact skip_of_listOfItems h
  | _ => cases h

theorem Trace.skip_of_ofMembers {members : Members} {input : Option String}
    {actions : Option (List Action)} {t : Trace}
    (h : Trace.ofMembers input actions members = .ok t) : members.skip = .ok () := by
  match members with
  | .closed => rfl
  | .member key value tail =>
    rw [Trace.ofMembers] at h
    obtain ⟨k, hk, h⟩ := bind_eq_ok_iff.mp h
    have hkey := Quote.skip_of_text (Refusal.orDefect_eq_ok_iff.mp hk)
    rw [Members.skip_member_iff]
    split at h
    next =>
      obtain ⟨-, s, hs, h⟩ := place_eq_ok_iff.mp h
      exact ⟨hkey, skip_of_textOfDoc hs, Trace.skip_of_ofMembers h⟩
    next =>
    split at h
    next =>
      obtain ⟨-, as, has, h⟩ := place_eq_ok_iff.mp h
      exact ⟨hkey, skip_of_listOfDoc has, Trace.skip_of_ofMembers h⟩
    next =>
      obtain ⟨⟨⟩, hvalue, h⟩ := bind_eq_ok_iff.mp h
      exact ⟨hkey, Refusal.orDefect_eq_ok_iff.mp hvalue, Trace.skip_of_ofMembers h⟩
  | .broken _ => cases h

theorem Trace.skip_of_ofItems {items : Items} {t : Trace} (h : Trace.ofItems items = .ok t) :
    items.skip = .ok () := by
  match items with
  | .closed | .broken _ => cases h
  | .item first rest =>
    obtain ⟨s, hs, h⟩ := bind_eq_ok_iff.mp h
    match rest with
    | .closed | .broken _ => cases h
    | .item second rest =>
      obtain ⟨as, has, h⟩ := bind_eq_ok_iff.mp h
      match rest with
      | .closed =>
        exact Items.skip_item_iff.mpr ⟨skip_of_textOfDoc hs,
          Items.skip_item_iff.mpr ⟨skip_of_listOfDoc has, rfl⟩⟩
      | .broken _ | .item _ _ => cases h

/-- A document that is read as a trace has no defect. -/
theorem Trace.skip_of_ofDoc {d : Doc} {t : Trace} (h : Trace.ofDoc d = .ok t) :
    d.skip = .ok () := by
  cases d with
  | object members => exact Trace.skip_of_ofMembers h
  | array items => exact Trace.skip_of_ofItems h
  | _ => cases h

/-! ## Texts -/

theorem decodeText_eq_ok_iff {β : Type} {decode : Doc → Except Refusal β} {s : String} {b : β} :
    decodeText decode s = .ok b ↔ ∃ d, read s = ⟨d, false⟩ ∧ decode d = .ok b := by
  rw [decodeText, bind_eq_ok_iff]
  rcases read s with ⟨root, - | -⟩ <;> simp

/-- **The traces of texts**: a text is read as a trace exactly if it spells the trace and 64 bits
hold the integers. -/
theorem Trace.ofJson_eq_ok_iff {s : String} {t : Trace} :
    Trace.ofJson s = .ok t ↔ t.Spelled s ∧ t.InRange := by
  rw [Trace.ofJson, decodeText_eq_ok_iff]
  constructor
  · rintro ⟨d, hread, h⟩
    have hspelled := read_eq_iff.mp ⟨hread, Trace.skip_of_ofDoc h⟩
    obtain ⟨ht, hrange⟩ := (Trace.ofDoc_eq_ok_iff hspelled.written).mp h
    exact ⟨⟨d, hspelled, ht⟩, hrange⟩
  · rintro ⟨⟨d, hspelled, ht⟩, hrange⟩
    exact ⟨d, (read_eq_iff.mpr hspelled).1,
      (Trace.ofDoc_eq_ok_iff hspelled.written).mpr ⟨ht, hrange⟩⟩

/-- Behind a trace every text that is not blank is refused, whatever it is. -/
theorem Trace.ofJson_append {s rest : String} {t : Trace} (h : Trace.ofJson s = .ok t)
    (hrest : ¬Blank rest.toList) : Trace.ofJson (s ++ rest) = .error (.defect .malformed) := by
  obtain ⟨d, hread, hd⟩ := decodeText_eq_ok_iff.mp h
  have hspelled := read_eq_iff.mp ⟨hread, Trace.skip_of_ofDoc hd⟩
  have hbracket : (∃ items, d = .array items) ∨ ∃ members, d = .object members := by
    cases d with
    | array items => exact Or.inl ⟨items, rfl⟩
    | object members => exact Or.inr ⟨members, rfl⟩
    | _ => cases hd
  rw [Trace.ofJson, decodeText, read_append hspelled hbracket hrest]
  simp only [hd]
  rfl

/-- **Every spelling of every trace is read.** A trace whose integers 64 bits hold has spellings,
and whichever of them a text is, the trace is read from it. -/
theorem Trace.ofJson_of_spelled {t : Trace} (ht : t.InRange) :
    (∃ s, t.Spelled s) ∧ ∀ s, t.Spelled s → Trace.ofJson s = .ok t :=
  ⟨Trace.exists_spelled ht, fun _ hs => Trace.ofJson_eq_ok_iff.mpr ⟨hs, ht⟩⟩

set_option maxRecDepth 4000 in
/-- A kind behind its reduction, a size in front of its symbol, a pair of halves, and a member that
nobody asks for. -/
theorem Trace.ofJson_of_spelled_escaped :
    let text := "\x7b\"actions\":[\x7b\"to\":\x7b\"size\":3,\"symbol\":\"\\ud83d\\uDE00\"\x7d," ++
      "\"type\":\"reduce\"\x7d],\"\":1e9, \"string\":\"\"\x7d"
    let t : Trace := ⟨"", [.reduce ⟨"😀", 3⟩]⟩
    t.InRange ∧ t.Spelled text ∧ Trace.ofJson text = .ok t := by
  intro text t
  let plain (s : String) : Quote := ⟨s.toList.map .char, none⟩
  let reduction : Members :=
    .member (plain "size") (.number ⟨false, ['3'], [], none⟩)
      (.member (plain "symbol") (.string ⟨[.unit 0xd83d, .unit 0xde00], none⟩) .closed)
  let action : Members :=
    .member (plain "to") (.object reduction)
      (.member (plain "type") (.string (plain "reduce")) .closed)
  let members : Members :=
    .member (plain "actions") (.array (.item (.object action) .closed))
      (.member (plain "") (.number ⟨false, ['1'], [], some (false, ['9'])⟩)
        (.member (plain "string") (.string (plain "")) .closed))
  have hread : read text = ⟨.object members, false⟩ := by cbv
  have hrange : t.InRange := by simp [t, Trace.InRange, Action.InRange]
  have hplain : ∀ s, (plain s).Says s := Quote.says_map_char
  have hsymbol : Quote.Says ⟨[.unit 0xd83d, .unit 0xde00], none⟩ "😀" :=
    .closed (.pair (c := '😀') (by decide) .nil)
  have hreduction : Reduction.SpelledBy ⟨"😀", 3⟩ (.object reduction) :=
    .fields (.object (.member (hplain _) (.member (hplain _) .closed)) rfl rfl) (.string hsymbol)
      (.number (.natural 3))
  have hstrict : (Doc.object reduction).Strict Action.room :=
    .object (.member (hplain _) (.number rfl) (.member (hplain _) (.string hsymbol) .closed))
  have haction : (Action.reduce ⟨"😀", 3⟩).SpelledBy (.object action) := by
    refine .object (.member (hplain "to") (.member (hplain "type") .closed)) rfl
      (.string (hplain _)) ?_ (.reduce hreduction)
    intro e he htype
    rcases List.mem_pair.mp he with rfl | rfl
    · exact hstrict
    · exact absurd rfl htype
  have hspelled : t.Spelled text := by
    refine ⟨_, read_eq_iff.mp ⟨hread, rfl⟩, .fields (.object (.member (hplain _)
      (.member (hplain _) (.member (hplain _) .closed))) rfl rfl) (.string (hplain _)) ?_⟩
    exact .array (.item .closed) (.cons haction .nil)
  exact ⟨hrange, hspelled, (Trace.ofJson_of_spelled hrange).2 text hspelled⟩

/-- **Nothing but spellings of traces is read.** A text that is read as a trace spells it: it is one
document and no other, with white space around it, the document spells the trace, and 64 bits hold
the integers. No text is read that goes on behind a text that is read, and none that a part is
missing from. -/
theorem Trace.spelled_of_ofJson {s : String} {t : Trace} (h : Trace.ofJson s = .ok t) :
    (∃ d : Doc, d.SpelledAlone s.toList ∧ t.SpelledBy d ∧
        ∀ d' : Doc, d'.SpelledAlone s.toList → d' = d) ∧
      t.InRange ∧
      ∀ rest : String, ¬Blank rest.toList →
        (∀ t', Trace.ofJson (s ++ rest) ≠ .ok t') ∧
          ∀ front t', s = front ++ rest → Trace.ofJson front ≠ .ok t' := by
  obtain ⟨⟨d, hspelled, ht⟩, hrange⟩ := Trace.ofJson_eq_ok_iff.mp h
  refine ⟨⟨d, hspelled, ht, fun d' hd' => ?_⟩, hrange, fun rest hrest => ⟨?_, ?_⟩⟩
  -- A text is read as one document only.
  · have hread := (read_eq_iff.mpr hd').1.symm.trans (read_eq_iff.mpr hspelled).1
    exact congrArg Text.root hread
  · intro t' h'
    rw [Trace.ofJson_append h hrest] at h'
    cases h'
  -- A text that lacks its end is one that the whole text goes on behind.
  · rintro front t' rfl h'
    rw [Trace.ofJson_append h' hrest] at h
    cases h

/-- Blanks, an array for a trace and for an action, and a comma behind it all. -/
theorem Trace.spelled_of_ofJson_comma :
    let text := " [\"a\",[[\"finish\", -9223372036854775808]]]\n"
    let t : Trace := ⟨"a", [.finish (some (-9223372036854775808))]⟩
    Trace.ofJson text = .ok t ∧ t.Spelled text ∧ t.InRange ∧
      ∀ t', Trace.ofJson (text ++ ",") ≠ .ok t' := by
  intro text t
  have h : Trace.ofJson text = .ok t := by cbv
  obtain ⟨⟨d, hd, ht, -⟩, hrange, hrest⟩ := Trace.spelled_of_ofJson h
  have hcomma : ¬Blank ",".toList := by simp [Blank]
  exact ⟨h, ⟨d, hd, ht⟩, hrange, (hrest "," hcomma).1⟩

end ParseReplay
