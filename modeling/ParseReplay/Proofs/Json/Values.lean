import Mathlib.Data.List.Forall2
import ParseReplay.Proofs.Json.Meaning

/-!
# What documents hold

A document that is written out can be taken apart: an array into its items, an object into its
members by what their keys say. A key may stand several times; what stands under it is a list. The
strict reading goes through, and keeps the items and members in their order, exactly if every quoted
text says something, every number is in range and nothing nests too deep.

## Main definitions

* `Doc.Written`: the document has a spelling
* `Items.Lists`, `Members.Lists`, `under`: items, members, and what stands under a key
* `Doc.Strict`: the document can be kept
* `Doc.KeptAs`: what the strict reading keeps of a document

## Main results

* `Doc.Written.exists_spelled`, `Doc.Spelled.written`: the written documents have spellings
* `Doc.exists_value_iff`: the strict reading goes through on a strict document
* `Doc.value_eq_ok_iff`, `Members.values_eq_ok_iff`: what the strict reading keeps
-/

namespace ParseReplay.Json

/-! ## Written documents -/

mutual

/-- The document has a spelling. -/
def Doc.Written : Doc → Prop
  | .null | .bool _ => True
  | .number n => n.Written
  | .string q => q.Written
  | .array items => items.Written
  | .object members => members.Written
  | .brokenNumber _ | .absent _ => False

/-- The items have a spelling. -/
def Items.Written : Items → Prop
  | .closed => True
  | .broken _ => False
  | .item head tail => head.Written ∧ tail.Written

/-- The members have a spelling. -/
def Members.Written : Members → Prop
  | .closed => True
  | .broken _ => False
  | .member key value tail => key.Written ∧ value.Written ∧ tail.Written

end

mutual

theorem Doc.Spelled.written {d : Doc} {w : List Char} (h : d.Spelled w) : d.Written := by
  match d with
  | .null | .bool _ => exact trivial
  | .number _ =>
    cases h with
    | number h => exact ⟨w, h⟩
  | .string _ =>
    cases h with
    | string h => exact ⟨_, h⟩
  | .array items =>
    cases h with
    | array h => exact h.written
  | .object members =>
    cases h with
    | object h => exact h.written
  | .brokenNumber _ | .absent _ => cases h

theorem Items.Spelled.written {items : Items} {first : Bool} {w : List Char}
    (h : items.Spelled first w) : items.Written := by
  match items with
  | .closed => exact trivial
  | .item head tail =>
    cases h with
    | item _ hhead htail => exact ⟨hhead.written, htail.written⟩
  | .broken _ => cases h

theorem Members.Spelled.written {members : Members} {first : Bool} {w : List Char}
    (h : members.Spelled first w) : members.Written := by
  match members with
  | .closed => exact trivial
  | .member key value tail =>
    cases h with
    | member _ hkey _ _ hvalue htail => exact ⟨⟨_, hkey⟩, hvalue.written, htail.written⟩
  | .broken _ => cases h

end

theorem exists_lead_spelled (first : Bool) : ∃ l, Lead first l := by
  cases first with
  | true => exact ⟨[], .first (by simp [Blank])⟩
  | false => exact ⟨_, .next (by simp [Blank] : Blank []) (by simp [Blank] : Blank [])⟩

mutual

theorem Doc.Written.exists_spelled {d : Doc} (h : d.Written) : ∃ w, d.Spelled w := by
  match d with
  | .null => exact ⟨_, .null⟩
  | .bool true => exact ⟨_, .yes⟩
  | .bool false => exact ⟨_, .no⟩
  | .number _ =>
    obtain ⟨w, hw⟩ := h
    exact ⟨w, .number hw⟩
  | .string _ =>
    obtain ⟨w, hw⟩ := h
    exact ⟨_, .string hw⟩
  | .array items =>
    have hitems : items.Written := h
    obtain ⟨w, hw⟩ := hitems.exists_spelled true
    exact ⟨_, .array hw⟩
  | .object members =>
    have hmembers : members.Written := h
    obtain ⟨w, hw⟩ := hmembers.exists_spelled true
    exact ⟨_, .object hw⟩
  | .brokenNumber _ | .absent _ => cases h

theorem Items.Written.exists_spelled {items : Items} (h : items.Written) (first : Bool) :
    ∃ w, items.Spelled first w := by
  match items with
  -- The shortest spelling has no white space.
  | .closed => exact ⟨[] ++ [']'], .closed (by simp [Blank])⟩
  | .item head tail =>
    obtain ⟨l, hl⟩ := exists_lead_spelled first
    obtain ⟨w, hw⟩ := Doc.Written.exists_spelled h.1
    obtain ⟨cs, hcs⟩ := Items.Written.exists_spelled h.2 false
    exact ⟨_, .item hl hw hcs⟩
  | .broken _ => cases h

theorem Members.Written.exists_spelled {members : Members} (h : members.Written) (first : Bool) :
    ∃ w, members.Spelled first w := by
  match members with
  | .closed => exact ⟨[] ++ ['}'], .closed (by simp [Blank])⟩
  | .member key value tail =>
    obtain ⟨⟨k, hk⟩, hvalue, htail⟩ := h
    obtain ⟨l, hl⟩ := exists_lead_spelled first
    obtain ⟨w, hw⟩ := Doc.Written.exists_spelled hvalue
    obtain ⟨cs, hcs⟩ := Members.Written.exists_spelled htail false
    have hblank : Blank [] := by simp [Blank]
    exact ⟨_, .member hl hk hblank hblank hw hcs⟩
  | .broken _ => cases h

end

theorem Doc.SpelledAlone.written {d : Doc} {cs : List Char} (h : d.SpelledAlone cs) :
    d.Written := by
  cases h with
  | text _ h => exact h.written

/-! ## Items and members -/

/-- The items of an array that closes. -/
inductive Items.Lists : Items → List Doc → Prop
  | closed : Lists .closed []
  | item {head : Doc} {tail : Items} {ds : List Doc} (h : tail.Lists ds) :
      Lists (.item head tail) (head :: ds)

/-- The members of an object that closes, by what their keys say. -/
inductive Members.Lists : Members → List (String × Doc) → Prop
  | closed : Lists .closed []
  | member {key : Quote} {value : Doc} {tail : Members} {k : String} {es : List (String × Doc)}
      (hkey : key.Says k) (h : tail.Lists es) : Lists (.member key value tail) ((k, value) :: es)

/-- What stands under a key. -/
def under {β : Type} (key : String) (es : List (String × β)) : List β :=
  es.filterMap fun e => if e.1 = key then some e.2 else none

section Under

variable {β γ : Type} {key k : String} {es : List (String × β)}

@[simp] theorem under_nil : under key ([] : List (String × β)) = [] := rfl

@[simp] theorem under_cons_self (b : β) : under key ((key, b) :: es) = b :: under key es := by
  simp [under]

theorem under_cons_of_ne (h : k ≠ key) (b : β) : under key ((k, b) :: es) = under key es := by
  simp [under, h]

theorem mem_of_under {b : β} (h : b ∈ under key es) : (key, b) ∈ es := by
  obtain ⟨e, he, hsome⟩ := List.mem_filterMap.mp h
  split at hsome
  next hkey =>
    cases hsome
    rwa [← hkey]
  next => cases hsome

/-- Members that agree in their keys, and in what stands there, agree key by key. -/
theorem forall₂_under {R : β → γ → Prop} {vs : List (String × γ)}
    (h : List.Forall₂ (fun e v => e.1 = v.1 ∧ R e.2 v.2) es vs) (key : String) :
    List.Forall₂ R (under key es) (under key vs) := by
  induction h with
  | nil => exact .nil
  | @cons e v es vs head tail ih =>
    obtain ⟨k, b⟩ := e
    obtain ⟨k', c⟩ := v
    obtain ⟨rfl, hbc⟩ : k = k' ∧ R b c := head
    -- As the keys agree, both or neither of the members stand under the key.
    by_cases hkey : k = key
    · subst hkey
      rw [under_cons_self, under_cons_self]
      exact .cons hbc ih
    · rw [under_cons_of_ne hkey, under_cons_of_ne hkey]
      exact ih

/-- Each element has a partner if and only if the list has a list of partners. -/
theorem exists_forall₂_iff {R : β → γ → Prop} {bs : List β} :
    (∃ cs, List.Forall₂ R bs cs) ↔ ∀ b ∈ bs, ∃ c, R b c := by
  induction bs with
  | nil => exact ⟨fun _ => by simp, fun _ => ⟨[], .nil⟩⟩
  | cons b bs ih =>
    rw [List.forall_mem_cons, ← ih]
    constructor
    · rintro ⟨cs, h⟩
      cases h with
      | cons hbc h => exact ⟨⟨_, hbc⟩, _, h⟩
    · rintro ⟨⟨c, hbc⟩, cs, h⟩
      exact ⟨c :: cs, .cons hbc h⟩

end Under

theorem Items.Lists.written {items : Items} {ds : List Doc} (h : items.Lists ds)
    (hitems : items.Written) : ∀ d ∈ ds, d.Written := by
  induction h with
  | closed => simp
  | item h ih =>
    rw [List.forall_mem_cons]
    exact ⟨hitems.1, ih hitems.2⟩

theorem Members.Lists.written {members : Members} {es : List (String × Doc)}
    (h : members.Lists es) (hmembers : members.Written) : ∀ e ∈ es, e.2.Written := by
  induction h with
  | closed => simp
  | member hkey h ih =>
    rw [List.forall_mem_cons]
    exact ⟨hmembers.2.1, ih hmembers.2.2⟩

/-- What stands once under a key can be spelled. -/
theorem Members.Lists.written_under {members : Members} {es : List (String × Doc)}
    (h : members.Lists es) (hmembers : members.Written) {key : String} {d : Doc}
    (hd : under key es = [d]) : d.Written :=
  h.written hmembers (key, d) (mem_of_under (hd ▸ List.mem_singleton_self d))

theorem Items.Lists.unique {items : Items} {ds ds' : List Doc} (h : items.Lists ds)
    (h' : items.Lists ds') : ds = ds' := by
  induction h generalizing ds' with
  | closed =>
    cases h'
    rfl
  | item h ih =>
    cases h' with
    | item h' => rw [ih h']

theorem Members.Lists.unique {members : Members} {es es' : List (String × Doc)}
    (hmembers : members.Written) (h : members.Lists es) (h' : members.Lists es') : es = es' := by
  induction h generalizing es' with
  | closed =>
    cases h'
    rfl
  | member hkey h ih =>
    cases h' with
    | member hkey' h' =>
      -- The strict reading returns what a key says, so a key says one thing.
      have hsame := (Quote.text_eq_ok_iff hmembers.1).mpr hkey
      rw [(Quote.text_eq_ok_iff hmembers.1).mpr hkey'] at hsame
      cases hsame
      rw [ih hmembers.2.2 h']

theorem Items.exists_lists_closed_iff {P : List Doc → Prop} :
    (∃ ds, Items.closed.Lists ds ∧ P ds) ↔ P [] := by
  constructor
  · rintro ⟨ds, hds, h⟩
    cases hds
    exact h
  · exact fun h => ⟨[], .closed, h⟩

theorem Items.exists_lists_item_iff {head : Doc} {tail : Items} {P : List Doc → Prop} :
    (∃ ds, (Items.item head tail).Lists ds ∧ P ds) ↔ ∃ ds, tail.Lists ds ∧ P (head :: ds) := by
  constructor
  · rintro ⟨ds, hds, h⟩
    cases hds with
    | item hds => exact ⟨_, hds, h⟩
  · rintro ⟨ds, hds, h⟩
    exact ⟨_, .item hds, h⟩

theorem Members.exists_lists_closed_iff {P : List (String × Doc) → Prop} :
    (∃ es, Members.closed.Lists es ∧ P es) ↔ P [] := by
  constructor
  · rintro ⟨es, hes, h⟩
    cases hes
    exact h
  · exact fun h => ⟨[], .closed, h⟩

theorem Members.exists_lists_member_iff {key : Quote} {value : Doc} {tail : Members}
    {P : List (String × Doc) → Prop} :
    (∃ es, (Members.member key value tail).Lists es ∧ P es) ↔
      ∃ k, key.Says k ∧ ∃ es, tail.Lists es ∧ P ((k, value) :: es) := by
  constructor
  · rintro ⟨es, hes, h⟩
    cases hes with
    | member hkey hes => exact ⟨_, hkey, _, hes, h⟩
  · rintro ⟨k, hkey, es, hes, h⟩
    exact ⟨_, .member hkey hes, h⟩

/-! ## Strict documents -/

mutual

/-- The document can be kept: its texts are texts, its numbers are in range, and arrays and objects
nest at most `room` deep. -/
inductive Doc.Strict : ℕ → Doc → Prop
  | null {room : ℕ} : Doc.Strict room .null
  | bool {room : ℕ} (b : Bool) : Doc.Strict room (.bool b)
  | number {room : ℕ} {n : Numeral} {v : Number} (h : n.value = .ok v) : Doc.Strict room (.number n)
  | string {room : ℕ} {q : Quote} {s : String} (h : q.Says s) : Doc.Strict room (.string q)
  | array {room : ℕ} {items : Items} (h : Items.Strict room items) :
      Doc.Strict (room + 1) (.array items)
  | object {room : ℕ} {members : Members} (h : Members.Strict room members) :
      Doc.Strict (room + 1) (.object members)

/-- The items can be kept. -/
inductive Items.Strict : ℕ → Items → Prop
  | closed {room : ℕ} : Items.Strict room .closed
  | item {room : ℕ} {head : Doc} {tail : Items} (hhead : Doc.Strict room head)
      (htail : Items.Strict room tail) : Items.Strict room (.item head tail)

/-- The members can be kept. -/
inductive Members.Strict : ℕ → Members → Prop
  | closed {room : ℕ} : Members.Strict room .closed
  | member {room : ℕ} {key : Quote} {value : Doc} {tail : Members} {k : String} (hkey : key.Says k)
      (hvalue : Doc.Strict room value) (htail : Members.Strict room tail) :
      Members.Strict room (.member key value tail)

end

mutual

/-- **The strict reading** goes through on the strict documents. -/
theorem Doc.exists_value_iff {d : Doc} (hd : d.Written) {room : ℕ} :
    (∃ v, d.value room = .ok v) ↔ d.Strict room := by
  match d with
  | .null => exact ⟨fun _ => .null, fun _ => ⟨_, rfl⟩⟩
  | .bool b => exact ⟨fun _ => .bool b, fun _ => ⟨_, rfl⟩⟩
  | .number n =>
    rw [Doc.value, exists_map_eq_ok_iff]
    exact ⟨fun ⟨_, hv⟩ => .number hv, fun | .number hv => ⟨_, hv⟩⟩
  | .string q =>
    rw [Doc.value, exists_map_eq_ok_iff]
    simp only [Quote.text_eq_ok_iff hd]
    exact ⟨fun ⟨_, hs⟩ => .string hs, fun | .string hs => ⟨_, hs⟩⟩
  -- Without room nothing may open.
  | .array items =>
    cases room with
    | zero => exact iff_of_false (fun ⟨_, hv⟩ => by cases hv) fun h => by cases h
    | succ room =>
      rw [Doc.value, exists_map_eq_ok_iff, Items.exists_values_iff hd]
      exact ⟨.array, fun | .array h => h⟩
  | .object members =>
    cases room with
    | zero => exact iff_of_false (fun ⟨_, hv⟩ => by cases hv) fun h => by cases h
    | succ room =>
      rw [Doc.value, exists_map_eq_ok_iff, Members.exists_values_iff hd]
      exact ⟨.object, fun | .object h => h⟩
  | .brokenNumber _ | .absent _ => cases hd

theorem Items.exists_values_iff {items : Items} (h : items.Written) {room : ℕ} :
    (∃ vs, items.values room = .ok vs) ↔ items.Strict room := by
  match items with
  | .closed => exact ⟨fun _ => .closed, fun _ => ⟨_, rfl⟩⟩
  | .item head tail =>
    have hhead : (∃ v, head.value room = .ok v) ↔ head.Strict room := Doc.exists_value_iff h.1
    have htail : (∃ vs, tail.values room = .ok vs) ↔ tail.Strict room :=
      Items.exists_values_iff h.2
    simp only [Items.values, bind_eq_ok_iff]
    constructor
    · rintro ⟨-, v, hv, vs, hvs, -⟩
      exact .item (hhead.mp ⟨v, hv⟩) (htail.mp ⟨vs, hvs⟩)
    · intro hstrict
      cases hstrict with
      | item hstrict hstrict' =>
        obtain ⟨v, hv⟩ := hhead.mpr hstrict
        obtain ⟨vs, hvs⟩ := htail.mpr hstrict'
        exact ⟨_, v, hv, vs, hvs, rfl⟩
  | .broken _ => cases h

theorem Members.exists_values_iff {members : Members} (h : members.Written) {room : ℕ} :
    (∃ vs, members.values room = .ok vs) ↔ members.Strict room := by
  match members with
  | .closed => exact ⟨fun _ => .closed, fun _ => ⟨_, rfl⟩⟩
  | .member key value tail =>
    obtain ⟨hkey, hvalue, htail⟩ := h
    have hvalue' : (∃ v, value.value room = .ok v) ↔ value.Strict room :=
      Doc.exists_value_iff hvalue
    have htail' : (∃ vs, tail.values room = .ok vs) ↔ tail.Strict room :=
      Members.exists_values_iff htail
    simp only [Members.values, bind_eq_ok_iff]
    constructor
    · rintro ⟨-, k, hk, v, hv, vs, hvs, -⟩
      exact .member ((Quote.text_eq_ok_iff hkey).mp hk) (hvalue'.mp ⟨v, hv⟩) (htail'.mp ⟨vs, hvs⟩)
    · intro hstrict
      cases hstrict with
      | member hk hstrict hstrict' =>
        obtain ⟨v, hv⟩ := hvalue'.mpr hstrict
        obtain ⟨vs, hvs⟩ := htail'.mpr hstrict'
        exact ⟨_, _, (Quote.text_eq_ok_iff hkey).mpr hk, v, hv, vs, hvs, rfl⟩
  | .broken _ => cases h

end

/-! ## What is kept -/

/-- What the strict reading keeps of a document, kind by kind. -/
inductive Doc.KeptAs : Doc → ℕ → Value → Prop
  | null {room : ℕ} : KeptAs .null room .null
  | bool {room : ℕ} (b : Bool) : KeptAs (.bool b) room (.bool b)
  | number {room : ℕ} {n : Numeral} {x : Number} (h : n.value = .ok x) :
      KeptAs (.number n) room (.number x)
  | string {room : ℕ} {q : Quote} {s : String} (h : q.text = .ok s) :
      KeptAs (.string q) room (.string s)
  | array {room : ℕ} {items : Items} {vs : List Value} (h : items.values room = .ok vs) :
      KeptAs (.array items) (room + 1) (.array vs)
  | object {room : ℕ} {members : Members} {vs : List (String × Value)}
      (h : members.values room = .ok vs) : KeptAs (.object members) (room + 1) (.object vs)

theorem Doc.value_eq_ok_iff {d : Doc} {room : ℕ} {v : Value} :
    d.value room = .ok v ↔ d.KeptAs room v := by
  constructor
  · intro h
    cases d with
    | null =>
      cases h
      exact .null
    | bool b =>
      cases h
      exact .bool b
    | number n =>
      obtain ⟨x, hx, rfl⟩ := map_eq_ok_iff.mp h
      exact .number hx
    | string q =>
      obtain ⟨s, hs, rfl⟩ := map_eq_ok_iff.mp h
      exact .string hs
    | array items =>
      cases room with
      | zero => cases h
      | succ room =>
        obtain ⟨vs, hvs, rfl⟩ := map_eq_ok_iff.mp h
        exact .array hvs
    | object members =>
      cases room with
      | zero => cases h
      | succ room =>
        obtain ⟨vs, hvs, rfl⟩ := map_eq_ok_iff.mp h
        exact .object hvs
    | brokenNumber _ | absent _ => cases h
  · intro h
    cases h with
    | null | bool _ => rfl
    | number h | string h | array h | object h => exact map_eq_ok_iff.mpr ⟨_, h, rfl⟩

/-- The strict reading keeps the items one by one. -/
theorem Items.values_eq_ok_iff {items : Items} {room : ℕ} {vs : List Value} :
    items.values room = .ok vs ↔
      ∃ ds, items.Lists ds ∧ List.Forall₂ (fun d v => d.value room = .ok v) ds vs := by
  match items with
  | .closed =>
    rw [Items.exists_lists_closed_iff, List.forall₂_nil_left_iff, Items.values]
    simp [eq_comm]
  | .item head tail =>
    rw [Items.exists_lists_item_iff, Items.values, bind_eq_ok_iff]
    simp only [bind_eq_ok_iff, List.forall₂_cons_left_iff]
    constructor
    · rintro ⟨v, hv, vs, hvs, h⟩
      cases h
      obtain ⟨ds, hds, hall⟩ := Items.values_eq_ok_iff.mp hvs
      exact ⟨ds, hds, v, vs, hv, hall, rfl⟩
    · rintro ⟨ds, hds, v, vs, hv, hall, rfl⟩
      exact ⟨v, hv, vs, Items.values_eq_ok_iff.mpr ⟨ds, hds, hall⟩, rfl⟩
  | .broken _ => exact iff_of_false (fun h => by cases h) fun ⟨_, h, _⟩ => by cases h

/-- The member is kept under what its key says. -/
def Kept (room : ℕ) (e : String × Doc) (v : String × Value) : Prop :=
  e.1 = v.1 ∧ e.2.value room = .ok v.2

/-- The strict reading keeps the members one by one. -/
theorem Members.values_eq_ok_iff {members : Members} (h : members.Written) {room : ℕ}
    {vs : List (String × Value)} :
    members.values room = .ok vs ↔ ∃ es, members.Lists es ∧ List.Forall₂ (Kept room) es vs := by
  match members with
  | .closed =>
    rw [Members.exists_lists_closed_iff, List.forall₂_nil_left_iff, Members.values]
    simp [eq_comm]
  | .member key value tail =>
    obtain ⟨hkey, -, htail⟩ := h
    rw [Members.exists_lists_member_iff, Members.values, bind_eq_ok_iff]
    simp only [Quote.text_eq_ok_iff hkey, bind_eq_ok_iff, List.forall₂_cons_left_iff]
    refine exists_congr fun k => and_congr_right fun _ => ?_
    constructor
    · rintro ⟨v, hv, vs, hvs, h⟩
      cases h
      obtain ⟨es, hes, hall⟩ := (Members.values_eq_ok_iff htail).mp hvs
      exact ⟨es, hes, (k, v), vs, ⟨rfl, hv⟩, hall, rfl⟩
    · rintro ⟨es, hes, ⟨k', v⟩, vs, ⟨rfl, hv⟩, hall, rfl⟩
      exact ⟨v, hv, vs, (Members.values_eq_ok_iff htail).mpr ⟨es, hes, hall⟩, rfl⟩
  | .broken _ => cases h

/-! ## Passing over -/

theorem Doc.Written.skip {d : Doc} (h : d.Written) : d.skip = .ok () := by
  obtain ⟨w, hw⟩ := h.exists_spelled
  exact hw.skip

mutual

/-- A document that is kept could have been passed over. -/
theorem Doc.skip_of_value {d : Doc} {room : ℕ} {v : Value} (h : d.value room = .ok v) :
    d.skip = .ok () := by
  match d with
  | .null | .bool _ | .number _ => rfl
  | .string q =>
    obtain ⟨s, hs, -⟩ := map_eq_ok_iff.mp h
    exact Quote.skip_of_text hs
  | .array items =>
    cases room with
    | zero => cases h
    | succ room =>
      obtain ⟨vs, hvs, -⟩ := map_eq_ok_iff.mp h
      exact Items.skip_of_values hvs
  | .object members =>
    cases room with
    | zero => cases h
    | succ room =>
      obtain ⟨vs, hvs, -⟩ := map_eq_ok_iff.mp h
      exact Members.skip_of_values hvs
  | .brokenNumber _ | .absent _ => cases h

theorem Items.skip_of_values {items : Items} {room : ℕ} {vs : List Value}
    (h : items.values room = .ok vs) : items.skip = .ok () := by
  match items with
  | .closed => rfl
  | .item head tail =>
    obtain ⟨v, hv, h⟩ := bind_eq_ok_iff.mp h
    obtain ⟨vs, hvs, -⟩ := bind_eq_ok_iff.mp h
    exact Items.skip_item_iff.mpr ⟨Doc.skip_of_value hv, Items.skip_of_values hvs⟩
  | .broken _ => cases h

theorem Members.skip_of_values {members : Members} {room : ℕ} {vs : List (String × Value)}
    (h : members.values room = .ok vs) : members.skip = .ok () := by
  match members with
  | .closed => rfl
  | .member key value tail =>
    obtain ⟨k, hk, h⟩ := bind_eq_ok_iff.mp h
    obtain ⟨v, hv, h⟩ := bind_eq_ok_iff.mp h
    obtain ⟨vs, hvs, -⟩ := bind_eq_ok_iff.mp h
    exact Members.skip_member_iff.mpr
      ⟨Quote.skip_of_text hk, Doc.skip_of_value hv, Members.skip_of_values hvs⟩
  | .broken _ => cases h

end

end ParseReplay.Json
