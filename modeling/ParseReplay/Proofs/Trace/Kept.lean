import ParseReplay.Proofs.Trace.Spelling

/-!
# Reading kept values

An action is kept as values before it is understood. Its members are gone through once, with a place
for each field that is asked for; a field fills its place, and finds it empty or is refused. So at
the end each place is filled by the one member that stands under the key. What a kept value is read
as is then what the document spells that it is kept from.

## Main definitions

* `Filled`: a place that is filled once by the members still to come

## Main results

* `Reduction.ofValue_eq_ok_iff`: a kept reduction
* `Action.ofItems_eq_ok_iff`, `Action.ofMembers_eq_ok_iff`: the content of a kept action
-/

namespace ParseReplay

open Json

/-! ## Places for fields -/

section Places

variable {β γ δ : Type}

/-- What stands under a key fills the place for it, once in all. -/
def Filled (Read : β → γ → Prop) (found : Option γ) (bs : List β) (c : γ) : Prop :=
  match found with
  | none => ∃ b, bs = [b] ∧ Read b c
  | some c' => bs = [] ∧ c' = c

theorem filled_cons_iff {Read : β → γ → Prop} {found : Option γ} {b : β} {bs : List β} {c : γ} :
    Filled Read found (b :: bs) c ↔
      found = none ∧ ∃ c', Read b c' ∧ Filled Read (some c') bs c := by
  cases found with
  | none =>
    constructor
    · rintro ⟨b', hb, hread⟩
      cases hb
      exact ⟨rfl, c, hread, rfl, rfl⟩
    · rintro ⟨-, c', hread, rfl, rfl⟩
      exact ⟨b, rfl, hread⟩
  | some c' =>
    constructor
    · rintro ⟨hb, -⟩
      cases hb
    · rintro ⟨hnone, -⟩
      cases hnone

/-- A field fills its place, or it is refused as the second one. -/
theorem place_eq_ok_iff {name : String} {found : Option γ} {x : Except Refusal γ}
    {next : γ → Except Refusal δ} {r : δ} :
    (if found.isSome then .error (.duplicateField name) else x >>= next) = .ok r ↔
      found = none ∧ ∃ c, x = .ok c ∧ next c = .ok r := by
  cases found with
  | none => simp [bind_eq_ok_iff]
  | some c => simp

/-- Of two lists that agree place by place, both have a single element or neither. -/
theorem single_iff {R : β → γ → Prop} {P : β → Prop} {Q : γ → Prop} {bs : List β} {cs : List γ}
    (h : List.Forall₂ R bs cs) (hPQ : ∀ b ∈ bs, ∀ c, R b c → (Q c ↔ P b)) :
    (∃ c, cs = [c] ∧ Q c) ↔ ∃ b, bs = [b] ∧ P b := by
  constructor
  · rintro ⟨c, rfl, hc⟩
    obtain ⟨b, hb⟩ : ∃ b, bs = [b] := List.length_eq_one_iff.mp h.length_eq
    subst hb
    have hbc : R b c := (List.forall₂_cons.mp h).1
    exact ⟨b, rfl, (hPQ b (by simp) c hbc).mp hc⟩
  · rintro ⟨b, rfl, hb⟩
    obtain ⟨c, hc⟩ : ∃ c, cs = [c] := List.length_eq_one_iff.mp h.length_eq.symm
    subst hc
    have hbc : R b c := (List.forall₂_cons.mp h).1
    exact ⟨c, rfl, (hPQ b (by simp) c hbc).mpr hb⟩

end Places

/-! ## Single values -/

theorem textOfValue_eq_ok_iff {v : Value} {s : String} :
    textOfValue v = .ok s ↔ v = .string s := by
  cases v <;> simp [textOfValue]

theorem sizeOfValue_eq_ok_iff {v : Value} {k : ℕ} :
    sizeOfValue v = .ok k ↔ v = .number (.integer k) := by
  cases v with
  | number n =>
    cases n with
    | integer i =>
      simp only [sizeOfValue, sizeOfNumber, Value.number.injEq, Number.integer.injEq]
      split
      · simp
        omega
      · simp
        omega
    | float x => simp [sizeOfValue, sizeOfNumber]
  | _ => simp [sizeOfValue]

theorem resultOfValue_eq_ok_iff {v : Value} {result : Option ℤ} :
    resultOfValue v = .ok result ↔ (v = .null ∧ result = none) ∨
      ∃ i, v = .number (.integer i) ∧ i < 0x8000000000000000 ∧ result = some i := by
  cases v with
  | null => simp [resultOfValue, eq_comm]
  | number n =>
    cases n with
    | integer i =>
      simp only [resultOfValue]
      split
      next hlt => simp [hlt, eq_comm]
      next hle => simp [hle]
    | float x => simp [resultOfValue]
  | _ => simp [resultOfValue]

namespace Json

/-- The strict reading of a text. -/
theorem Doc.says_iff {d : Doc} (hd : d.Written) {room : ℕ} {s : String} :
    d.value room = .ok (.string s) ↔ d.Says s := by
  rw [Doc.value_eq_ok_iff]
  constructor
  · intro h
    cases h with
    | string hq => exact .string ((Quote.text_eq_ok_iff hd).mp hq)
  · rintro ⟨hq⟩
    exact .string ((Quote.text_eq_ok_iff hd).mpr hq)

/-- The strict reading of an integer. -/
theorem Doc.isInteger_iff {d : Doc} (hd : d.Written) {room : ℕ} {i : ℤ} :
    d.value room = .ok (.number (.integer i)) ↔
      d.IsInteger i ∧ -0x8000000000000000 ≤ i ∧ i < 0x10000000000000000 := by
  rw [Doc.value_eq_ok_iff]
  constructor
  · intro h
    cases h with
    | number hn =>
      obtain ⟨hinteger, hrange⟩ := (Numeral.value_eq_integer_iff hd).mp hn
      exact ⟨.number hinteger, hrange⟩
  · rintro ⟨⟨hn⟩, hrange⟩
    exact .number ((Numeral.value_eq_integer_iff hd).mpr ⟨hn, hrange⟩)

end Json

section Kept

variable {d : Doc} {room : ℕ} {v : Value}

/-- A kept text. -/
theorem textOfValue_kept (s : String) (hd : d.Written) (hv : d.value room = .ok v) :
    textOfValue v = .ok s ↔ d.Says s := by
  rw [textOfValue_eq_ok_iff, ← Except.ok.injEq, ← hv]
  exact Doc.says_iff hd

/-- A kept size. -/
theorem sizeOfValue_kept (k : ℕ) (hd : d.Written) (hv : d.value room = .ok v) :
    sizeOfValue v = .ok k ↔ d.IsInteger k ∧ k < 0x10000000000000000 := by
  rw [sizeOfValue_eq_ok_iff, ← Except.ok.injEq, ← hv, Doc.isInteger_iff hd]
  exact and_congr_right fun _ => by omega

/-- A kept result. -/
theorem resultOfValue_kept (result : Option ℤ) (hd : d.Written) (hv : d.value room = .ok v) :
    resultOfValue v = .ok result ↔ d.IsResult result ∧ (Action.finish result).InRange := by
  rw [resultOfValue_eq_ok_iff]
  constructor
  · rintro (⟨rfl, rfl⟩ | ⟨i, rfl, hlt, rfl⟩)
    · cases Doc.value_eq_ok_iff.mp hv
      exact ⟨.null, trivial⟩
    · obtain ⟨hinteger, hle, -⟩ := (Doc.isInteger_iff hd).mp hv
      exact ⟨.integer hinteger, hle, hlt⟩
  · rintro ⟨hresult, hrange⟩
    cases hresult with
    | null =>
      cases hv
      exact Or.inl ⟨rfl, rfl⟩
    | integer hinteger =>
      obtain ⟨hle, hlt⟩ := hrange
      rw [(Doc.isInteger_iff hd).mpr ⟨hinteger, hle, by omega⟩] at hv
      cases hv
      exact Or.inr ⟨_, rfl, hlt, rfl⟩

end Kept

/-! ## Members -/

section Members

variable {room : ℕ} {es : List (String × Doc)} {vs : List (String × Value)}

/-- What is kept under a key comes from what stands there. -/
theorem kept_under (h : List.Forall₂ (Kept room) es vs) (key : String) :
    List.Forall₂ (fun d v => d.value room = .ok v) (under key es) (under key vs) :=
  forall₂_under h key

/-- A field that is kept once stands there once. -/
theorem field_kept {P : Doc → Prop} {Q : Value → Prop} (h : List.Forall₂ (Kept room) es vs)
    (hwritten : ∀ e ∈ es, e.2.Written)
    (hPQ : ∀ {d v}, d.Written → d.value room = .ok v → (Q v ↔ P d)) (key : String) :
    (∃ v, under key vs = [v] ∧ Q v) ↔ ∃ d, under key es = [d] ∧ P d :=
  single_iff (kept_under h key) fun _ hd _ hv => hPQ (hwritten _ (mem_of_under hd)) hv

end Members

/-! ## Reductions -/

theorem Reduction.ofMembers_eq_ok_iff {symbol : Option String} {size : Option ℕ}
    {vs : List (String × Value)} {r : Reduction} :
    Reduction.ofMembers symbol size vs = .ok r ↔
      Filled (fun v s => textOfValue v = .ok s) symbol (under "symbol" vs) r.symbol ∧
        Filled (fun v k => sizeOfValue v = .ok k) size (under "size" vs) r.size := by
  induction vs generalizing symbol size with
  | nil =>
    obtain ⟨s, k⟩ := r
    cases symbol <;> cases size <;> simp [Reduction.ofMembers, Filled]
  | cons e vs ih =>
    obtain ⟨key, v⟩ := e
    rw [Reduction.ofMembers]
    -- A field is asked for its own place only; the other place waits for its key.
    by_cases hsymbol : key = "symbol"
    · subst hsymbol
      rw [if_pos rfl, place_eq_ok_iff, under_cons_self, filled_cons_iff,
        under_cons_of_ne (by decide)]
      simp only [ih, exists_and_right, ← and_assoc]
    rw [if_neg hsymbol, under_cons_of_ne hsymbol]
    by_cases hsize : key = "size"
    · subst hsize
      rw [if_pos rfl, place_eq_ok_iff, under_cons_self, filled_cons_iff]
      simp only [ih]
      tauto
    · rw [if_neg hsize, under_cons_of_ne hsize]
      exact ih

/-- What is read as a reduction. -/
theorem Reduction.ofValue_eq_ok_iff {v : Value} {r : Reduction} :
    Reduction.ofValue v = .ok r ↔
      (∃ vs, v = .object vs ∧ (∃ w, under "symbol" vs = [w] ∧ textOfValue w = .ok r.symbol) ∧
        ∃ w, under "size" vs = [w] ∧ sizeOfValue w = .ok r.size) ∨
      ∃ w w', v = .array [w, w'] ∧ textOfValue w = .ok r.symbol ∧ sizeOfValue w' = .ok r.size := by
  cases v with
  | object vs => simp [Reduction.ofValue, Reduction.ofMembers_eq_ok_iff, Filled]
  | array ws =>
    obtain ⟨symbol, size⟩ := r
    rcases ws with - | ⟨w, - | ⟨w', - | ⟨w'', ws⟩⟩⟩ <;>
      simp [Reduction.ofValue, bind_eq_ok_iff]
  | _ => simp [Reduction.ofValue]

/-- **A kept reduction.** -/
theorem Reduction.ofValue_kept {d : Doc} {room : ℕ} {v : Value} (r : Reduction) (hd : d.Written)
    (hv : d.value room = .ok v) :
    Reduction.ofValue v = .ok r ↔ r.SpelledBy d ∧ r.size < 0x10000000000000000 := by
  rw [Reduction.ofValue_eq_ok_iff]
  have hkeptAs := Doc.value_eq_ok_iff.mp hv
  -- Either way by key first, then by place.
  constructor
  · rintro (⟨vs, rfl, hsymbol, hsize⟩ | ⟨w, w', rfl, hsymbol, hsize⟩)
    · cases hkeptAs with
      | object hvs =>
        obtain ⟨es, hes, hkept⟩ := (Members.values_eq_ok_iff hd).mp hvs
        have hwritten := hes.written hd
        obtain ⟨symbol, hs, hsymbol⟩ :=
          (field_kept hkept hwritten (textOfValue_kept _) _).mp hsymbol
        obtain ⟨size, hz, hsize, hrange⟩ :=
          (field_kept hkept hwritten (sizeOfValue_kept _) _).mp hsize
        exact ⟨.fields (.object hes hs hz) hsymbol hsize, hrange⟩
    · cases hkeptAs with
      | array hvs =>
        obtain ⟨ds, hds, hkept⟩ := Items.values_eq_ok_iff.mp hvs
        have hwritten := hds.written hd
        rcases hkept with - | ⟨hw, - | ⟨hw', ⟨⟩⟩⟩
        obtain ⟨hsize, hrange⟩ := (sizeOfValue_kept _ (hwritten _ (by simp)) hw').mp hsize
        exact ⟨.fields (.array hds) ((textOfValue_kept _ (hwritten _ (by simp)) hw).mp hsymbol)
          hsize, hrange⟩
  · rintro ⟨⟨h, hsymbol, hsize⟩, hrange⟩
    cases h with
    | object hes hs hz =>
      cases hkeptAs with
      | object hvs =>
        obtain ⟨es', hes', hkept⟩ := (Members.values_eq_ok_iff hd).mp hvs
        -- The members that were kept are those that spell the reduction.
        obtain rfl := hes.unique hd hes'
        have hwritten := hes.written hd
        exact Or.inl ⟨_, rfl,
          (field_kept hkept hwritten (textOfValue_kept _) _).mpr ⟨_, hs, hsymbol⟩,
          (field_kept hkept hwritten (sizeOfValue_kept _) _).mpr ⟨_, hz, hsize, hrange⟩⟩
    | array hi =>
      cases hkeptAs with
      | array hvs =>
        obtain ⟨ds, hds, hkept⟩ := Items.values_eq_ok_iff.mp hvs
        obtain rfl := hi.unique hds
        have hwritten := hi.written hd
        rcases hkept with - | ⟨hw, - | ⟨hw', ⟨⟩⟩⟩
        exact Or.inr ⟨_, _, rfl, (textOfValue_kept _ (hwritten _ (by simp)) hw).mpr hsymbol,
          (sizeOfValue_kept _ (hwritten _ (by simp)) hw').mpr ⟨hsize, hrange⟩⟩

/-! ## Actions -/

theorem Reduction.ofReduce_eq_ok_iff {found : Option Reduction} {vs : List (String × Value)}
    {r : Reduction} :
    Reduction.ofReduce found vs = .ok r ↔
      Filled (fun v r => Reduction.ofValue v = .ok r) found (under "to" vs) r := by
  induction vs generalizing found with
  | nil => cases found <;> simp [Reduction.ofReduce, Filled]
  | cons e vs ih =>
    obtain ⟨key, v⟩ := e
    rw [Reduction.ofReduce]
    by_cases hto : key = "to"
    · subst hto
      rw [if_pos rfl, place_eq_ok_iff, under_cons_self, filled_cons_iff]
      simp only [ih]
    · rw [if_neg hto, under_cons_of_ne hto]
      exact ih

theorem Action.resultOfFinish_eq_ok_iff {found : Option (Option ℤ)} {vs : List (String × Value)}
    {result : Option ℤ} :
    Action.resultOfFinish found vs = .ok result ↔
      (found = none ∧ under "result" vs = [] ∧ result = none) ∨
        Filled (fun v i => resultOfValue v = .ok i) found (under "result" vs) result := by
  induction vs generalizing found with
  | nil => cases found <;> simp [Action.resultOfFinish, Filled, eq_comm]
  | cons e vs ih =>
    obtain ⟨key, v⟩ := e
    rw [Action.resultOfFinish]
    by_cases hresult : key = "result"
    · subst hresult
      rw [if_pos rfl, place_eq_ok_iff, under_cons_self, filled_cons_iff]
      simp [ih]
    · rw [if_neg hresult, under_cons_of_ne hresult]
      exact ih

/-- The content of an action is read alike by key and by place. -/
theorem Action.ofMembers_eq_ok_iff {vs : List (String × Value)} {kind : Action.Tag} {a : Action} :
    Action.ofMembers vs kind = .ok a ↔ Action.ofItems (kind.content vs) kind = .ok a := by
  cases kind with
  | shift => simp [Action.ofMembers, Action.ofItems, Action.Tag.content]
  | reduce =>
    rw [Action.ofMembers, map_eq_ok_iff, Action.Tag.content]
    simp only [Reduction.ofReduce_eq_ok_iff, Filled]
    rcases under "to" vs with - | ⟨w, - | ⟨w', ws⟩⟩ <;> simp [Action.ofItems, bind_eq_ok_iff]
  | finish =>
    rw [Action.ofMembers, map_eq_ok_iff, Action.Tag.content]
    simp only [Action.resultOfFinish_eq_ok_iff, Filled]
    rcases under "result" vs with - | ⟨w, - | ⟨w', ws⟩⟩ <;> simp [Action.ofItems, bind_eq_ok_iff]

/-- **The content of a kept action.** -/
theorem Action.ofItems_kept {room : ℕ} {ds : List Doc} {vs : List Value}
    (hkept : List.Forall₂ (fun d v => d.value room = .ok v) ds vs) (hds : ∀ d ∈ ds, d.Written)
    {kind : Action.Tag} {a : Action} :
    Action.ofItems vs kind = .ok a ↔ a.tag = kind ∧ a.Content ds ∧ a.InRange := by
  constructor
  · intro h
    -- A kind takes as much content as it asks for, and nothing behind that.
    cases kind with
    | shift =>
      cases hkept with
      | nil =>
        cases h
        exact ⟨rfl, .shift, trivial⟩
      | cons hv hrest => cases h
    | reduce =>
      cases hkept with
      | nil => cases h
      | cons hv hrest =>
        obtain ⟨r, hr, h⟩ := bind_eq_ok_iff.mp h
        obtain ⟨hspelled, hrange⟩ := (Reduction.ofValue_kept r (hds _ (by simp)) hv).mp hr
        cases hrest with
        | nil =>
          cases h
          exact ⟨rfl, .reduce hspelled, hrange⟩
        | cons _ _ => cases h
    | finish =>
      cases hkept with
      | nil =>
        cases h
        exact ⟨rfl, .omitted, trivial⟩
      | cons hv hrest =>
        obtain ⟨result, hresult, h⟩ := bind_eq_ok_iff.mp h
        obtain ⟨hspelled, hrange⟩ := (resultOfValue_kept result (hds _ (by simp)) hv).mp hresult
        cases hrest with
        | nil =>
          cases h
          exact ⟨rfl, .result hspelled, hrange⟩
        | cons _ _ => cases h
  · rintro ⟨rfl, hcontent, hrange⟩
    cases hcontent with
    | shift | omitted =>
      cases hkept
      rfl
    | @reduce r d hspelled =>
      rcases hkept with - | ⟨hv, ⟨⟩⟩
      have hr := (Reduction.ofValue_kept r (hds _ (by simp)) hv).mpr ⟨hspelled, hrange⟩
      exact bind_eq_ok_iff.mpr ⟨r, hr, rfl⟩
    | @result d result hspelled =>
      rcases hkept with - | ⟨hv, ⟨⟩⟩
      have hresult := (resultOfValue_kept result (hds _ (by simp)) hv).mpr ⟨hspelled, hrange⟩
      exact bind_eq_ok_iff.mpr ⟨result, hresult, rfl⟩

end ParseReplay
