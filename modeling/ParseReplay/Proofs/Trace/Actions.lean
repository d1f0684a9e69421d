import ParseReplay.Proofs.Trace.Kept

/-!
# Reading actions

An action notes its kind where it comes, and keeps the rest as values until the action is complete.
What the document of an action is read as is what it spells, wherever the kind stands, as far as 64
bits hold the integers.

## Main definitions

* `others`: the members of an action besides its kind

## Main results

* `Action.gather_eq_ok_iff`: the kind of an action and its other members
* `Action.ofDoc_eq_ok_iff`: the actions of documents
* `Action.skip_of_ofDoc`: a document that is read as an action has no defect
-/

namespace ParseReplay

open Json

/-! ## Texts and kinds -/

theorem Refusal.orDefect_eq_ok_iff {β : Type} {x : Except Defect β} {b : β} :
    Refusal.orDefect x = .ok b ↔ x = .ok b := by
  cases x <;> simp [Refusal.orDefect]

theorem textOfDoc_eq_ok_iff {d : Doc} (hd : d.Written) {s : String} :
    textOfDoc d = .ok s ↔ d.Says s := by
  constructor
  · intro h
    cases d with
    | string q => exact .string ((Quote.text_eq_ok_iff hd).mp (Refusal.orDefect_eq_ok_iff.mp h))
    | _ => cases h
  · rintro ⟨h⟩
    exact Refusal.orDefect_eq_ok_iff.mpr ((Quote.text_eq_ok_iff hd).mpr h)

theorem Action.Tag.ofName_eq_ok_iff {name : String} {kind : Action.Tag} :
    Action.Tag.ofName name = .ok kind ↔ name = kind.name := by
  constructor
  · intro h
    unfold Action.Tag.ofName at h
    split_ifs at h with hshift hreduce hfinish
    all_goals cases h; assumption
  · rintro rfl
    cases kind <;> rfl

theorem Action.Tag.ofDoc_eq_ok_iff {d : Doc} (hd : d.Written) {kind : Action.Tag} :
    Action.Tag.ofDoc d = .ok kind ↔ d.Says kind.name := by
  constructor
  · intro h
    cases d with
    | string q =>
      obtain ⟨s, hs, h⟩ := bind_eq_ok_iff.mp h
      obtain rfl := Action.Tag.ofName_eq_ok_iff.mp h
      exact .string ((Quote.text_eq_ok_iff hd).mp (Refusal.orDefect_eq_ok_iff.mp hs))
    | _ => cases h
  · rintro ⟨h⟩
    exact bind_eq_ok_iff.mpr
      ⟨_, Refusal.orDefect_eq_ok_iff.mpr ((Quote.text_eq_ok_iff hd).mpr h),
        Action.Tag.ofName_eq_ok_iff.mpr rfl⟩

/-! ## Actions -/

/-- The members of an action besides its kind. -/
def others (es : List (String × Doc)) : List (String × Doc) := es.filter (·.1 ≠ "type")

theorem others_cons_self (d : Doc) (es : List (String × Doc)) :
    others (("type", d) :: es) = others es := by
  simp [others]

theorem others_cons_of_ne {key : String} (h : key ≠ "type") (d : Doc)
    (es : List (String × Doc)) : others ((key, d) :: es) = (key, d) :: others es := by
  simp [others, h]

theorem under_others {key : String} (h : key ≠ "type") (es : List (String × Doc)) :
    under key (others es) = under key es := by
  induction es with
  | nil => rfl
  | cons e es ih =>
    obtain ⟨key', d⟩ := e
    by_cases htype : key' = "type"
    · subst htype
      rw [others_cons_self, under_cons_of_ne h.symm, ih]
    rw [others_cons_of_ne htype]
    by_cases hkey : key' = key
    · subst hkey
      rw [under_cons_self, under_cons_self, ih]
    · rw [under_cons_of_ne hkey, under_cons_of_ne hkey, ih]

/-- The content of an action does not stand with its kind. -/
theorem Action.Tag.content_others (kind : Action.Tag) (es : List (String × Doc)) :
    kind.content (others es) = kind.content es := by
  cases kind with
  | shift => rfl
  | reduce => exact under_others (by decide) es
  | finish => exact under_others (by decide) es

/-- **The members of an action are gathered**: the kind, which stands there once, and the others. -/
theorem Action.gather_eq_ok_iff {members : Members} (hm : members.Written)
    {tag : Option Action.Tag} {before : List (String × Value)} {kind : Action.Tag}
    {vs : List (String × Value)} :
    Action.gather tag before members = .ok (kind, vs) ↔
      ∃ es, members.Lists es ∧
        Filled (fun d k => Action.Tag.ofDoc d = .ok k) tag (under "type" es) kind ∧
          ∃ ws, List.Forall₂ (Kept Action.room) (others es) ws ∧ vs = before.reverse ++ ws := by
  cases members with
  | closed =>
    rw [Members.exists_lists_closed_iff]
    cases tag with
    | none => simp [Action.gather, Filled]
    | some k => simp [Action.gather, Filled, others, eq_comm]
  | member key value tail =>
    obtain ⟨hkey, -, htail⟩ := hm
    rw [Action.gather, bind_eq_ok_iff, Members.exists_lists_member_iff]
    simp only [Refusal.orDefect_eq_ok_iff, Quote.text_eq_ok_iff hkey]
    refine exists_congr fun k => and_congr_right fun _ => ?_
    by_cases htype : k = "type"
    · -- The kind is understood at once and is none of the others.
      subst htype
      rw [if_pos rfl, place_eq_ok_iff]
      simp only [gather_eq_ok_iff htail, under_cons_self, filled_cons_iff, others_cons_self]
      constructor
      · rintro ⟨rfl, c, hc, es, hes, hfilled, hws⟩
        exact ⟨es, hes, ⟨rfl, c, hc, hfilled⟩, hws⟩
      · rintro ⟨es, hes, ⟨rfl, c, hc, hfilled⟩, hws⟩
        exact ⟨rfl, c, hc, es, hes, hfilled, hws⟩
    · rw [if_neg htype, bind_eq_ok_iff]
      simp only [Refusal.orDefect_eq_ok_iff, gather_eq_ok_iff htail, under_cons_of_ne htype,
        others_cons_of_ne htype, List.forall₂_cons_left_iff, List.reverse_cons, List.append_assoc]
      -- The member has been put in front of those before it, so it comes behind them in the end.
      constructor
      · rintro ⟨v, hv, es, hes, hfilled, ws, hws, rfl⟩
        exact ⟨es, hes, hfilled, (k, v) :: ws, ⟨(k, v), ws, ⟨rfl, hv⟩, hws, rfl⟩, rfl⟩
      · rintro ⟨es, hes, hfilled, -, ⟨⟨k', v⟩, ws, ⟨rfl, hv⟩, hws, rfl⟩, rfl⟩
        exact ⟨v, hv, es, hes, hfilled, ws, hws, rfl⟩
  | broken => cases hm

/-- The other members can be kept exactly if each of them is strict. -/
theorem exists_kept_others_iff {es : List (String × Doc)} (hwritten : ∀ e ∈ es, e.2.Written) :
    (∃ vs, List.Forall₂ (Kept Action.room) (others es) vs) ↔
      ∀ e ∈ es, e.1 ≠ "type" → e.2.Strict Action.room := by
  rw [exists_forall₂_iff]
  simp only [others, List.mem_filter, decide_eq_true_eq, and_imp]
  refine forall₃_congr fun e he htype => ?_
  rw [← Doc.exists_value_iff (hwritten e he)]
  constructor
  · rintro ⟨v, -, hv⟩
    exact ⟨v.2, hv⟩
  · rintro ⟨v, hv⟩
    exact ⟨(e.1, v), rfl, hv⟩

theorem content_kept {es : List (String × Doc)} {vs : List (String × Value)} {room : ℕ}
    (h : List.Forall₂ (Kept room) es vs) (kind : Action.Tag) :
    List.Forall₂ (fun d v => d.value room = .ok v) (kind.content es) (kind.content vs) := by
  cases kind with
  | shift => exact .nil
  | reduce => exact kept_under h "to"
  | finish => exact kept_under h "result"

theorem mem_of_content {es : List (String × Doc)} {kind : Action.Tag} {d : Doc}
    (h : d ∈ kind.content es) : ∃ key, (key, d) ∈ es := by
  cases kind with
  | shift => cases h
  | reduce => exact ⟨"to", mem_of_under h⟩
  | finish => exact ⟨"result", mem_of_under h⟩

/-- An action by the members of its object. -/
theorem Action.ofDoc_object_iff {members : Members} (hm : members.Written) {a : Action} :
    Action.ofDoc (.object members) = .ok a ↔ a.SpelledBy (.object members) ∧ a.InRange := by
  rw [Action.ofDoc, bind_eq_ok_iff]
  -- The content is looked for among the others; it stands there as it stands among all members.
  have hcontent : ∀ {es vs} (kind : Action.Tag), members.Lists es →
      List.Forall₂ (Kept Action.room) (others es) vs →
        (Action.ofMembers vs kind = .ok a ↔
          a.tag = kind ∧ a.Content (kind.content es) ∧ a.InRange) := by
    intro es vs kind hes hvs
    rw [Action.ofMembers_eq_ok_iff, ← kind.content_others es]
    refine Action.ofItems_kept (content_kept hvs kind) fun d hd => ?_
    rw [kind.content_others] at hd
    obtain ⟨key, hmem⟩ := mem_of_content hd
    exact hes.written hm _ hmem
  constructor
  · rintro ⟨⟨kind, vs⟩, hgather, h⟩
    obtain ⟨es, hes, ⟨d, hkind, hname⟩, ws, hws, rfl⟩ := (gather_eq_ok_iff hm).mp hgather
    obtain ⟨rfl, hspelled, hrange⟩ := (hcontent kind hes hws).mp h
    exact ⟨.object hes hkind
      ((Action.Tag.ofDoc_eq_ok_iff (hes.written_under hm hkind)).mp hname)
      ((exists_kept_others_iff (hes.written hm)).mp ⟨_, hws⟩) hspelled, hrange⟩
  · rintro ⟨h, hrange⟩
    cases h with
    | @object _ es d hes hkind hname hstrict hspelled =>
      obtain ⟨ws, hws⟩ := (exists_kept_others_iff (hes.written hm)).mpr hstrict
      have hname' := (Action.Tag.ofDoc_eq_ok_iff (hes.written_under hm hkind)).mpr hname
      exact ⟨(a.tag, ws), (gather_eq_ok_iff hm).mpr ⟨es, hes, ⟨d, hkind, hname'⟩, ws, hws, rfl⟩,
        (hcontent a.tag hes hws).mpr ⟨rfl, hspelled, hrange⟩⟩

/-- An action by the items of its array. -/
theorem Action.ofDoc_array_iff {head : Doc} {tail : Items} (hhead : head.Written)
    (htail : tail.Written) {a : Action} :
    Action.ofDoc (.array (.item head tail)) = .ok a ↔
      a.SpelledBy (.array (.item head tail)) ∧ a.InRange := by
  simp only [Action.ofDoc, bind_eq_ok_iff, Refusal.orDefect_eq_ok_iff]
  constructor
  · rintro ⟨kind, hkind, vs, hvs, h⟩
    obtain ⟨ds, hds, hkept⟩ := Items.values_eq_ok_iff.mp hvs
    have hwritten := hds.written htail
    obtain ⟨rfl, hspelled, hrange⟩ := (Action.ofItems_kept hkept hwritten).mp h
    refine ⟨.array (.item hds) ((Action.Tag.ofDoc_eq_ok_iff hhead).mp hkind) ?_ hspelled, hrange⟩
    intro d hd
    exact (Doc.exists_value_iff (hwritten d hd)).mp (exists_forall₂_iff.mp ⟨vs, hkept⟩ d hd)
  · rintro ⟨h, hrange⟩
    cases h with
    | @array _ _ ds hi hname hstrict hspelled =>
      cases hi with
      | item hds =>
        have hwritten := hds.written htail
        obtain ⟨vs, hkept⟩ := exists_forall₂_iff.mpr fun d hd =>
          (Doc.exists_value_iff (hwritten d hd)).mpr (hstrict d hd)
        exact ⟨a.tag, (Action.Tag.ofDoc_eq_ok_iff hhead).mpr hname, vs,
          Items.values_eq_ok_iff.mpr ⟨ds, hds, hkept⟩,
          (Action.ofItems_kept hkept hwritten).mpr ⟨rfl, hspelled, hrange⟩⟩

/-- **The actions of documents.** -/
theorem Action.ofDoc_eq_ok_iff {d : Doc} (hd : d.Written) {a : Action} :
    Action.ofDoc d = .ok a ↔ a.SpelledBy d ∧ a.InRange := by
  match d with
  | .object _ => exact Action.ofDoc_object_iff hd
  | .array (.item _ _) => exact Action.ofDoc_array_iff hd.1 hd.2
  | .array .closed =>
    constructor
    · intro h
      cases h
    · rintro ⟨h, -⟩
      cases h with
      | array hi => cases hi
  | .null | .bool _ | .number _ | .string _ =>
    exact iff_of_false (fun h => by cases h) fun ⟨h, _⟩ => by cases h
  | .array (.broken _) | .brokenNumber _ | .absent _ => cases hd

/-! ## Actions without defects -/

theorem Action.Tag.skip_of_ofDoc {d : Doc} {kind : Action.Tag} (h : Action.Tag.ofDoc d = .ok kind) :
    d.skip = .ok () := by
  cases d with
  | string q =>
    obtain ⟨s, hs, -⟩ := bind_eq_ok_iff.mp h
    exact Quote.skip_of_text (Refusal.orDefect_eq_ok_iff.mp hs)
  | _ => cases h

theorem Action.skip_of_gather {members : Members} {tag : Option Action.Tag}
    {before : List (String × Value)} {r : Action.Tag × List (String × Value)}
    (h : Action.gather tag before members = .ok r) : members.skip = .ok () := by
  match members with
  | .closed => rfl
  | .member key value tail =>
    rw [Action.gather] at h
    obtain ⟨k, hk, h⟩ := bind_eq_ok_iff.mp h
    have hkey := Quote.skip_of_text (Refusal.orDefect_eq_ok_iff.mp hk)
    split at h
    next =>
      obtain ⟨-, kind, hkind, h⟩ := place_eq_ok_iff.mp h
      exact Members.skip_member_iff.mpr
        ⟨hkey, Action.Tag.skip_of_ofDoc hkind, Action.skip_of_gather h⟩
    next =>
      obtain ⟨v, hv, h⟩ := bind_eq_ok_iff.mp h
      exact Members.skip_member_iff.mpr
        ⟨hkey, Doc.skip_of_value (Refusal.orDefect_eq_ok_iff.mp hv), Action.skip_of_gather h⟩
  | .broken _ => cases h

theorem Action.skip_of_ofDoc {d : Doc} {a : Action} (h : Action.ofDoc d = .ok a) :
    d.skip = .ok () := by
  match d with
  | .object members =>
    obtain ⟨r, hr, -⟩ := bind_eq_ok_iff.mp h
    exact Action.skip_of_gather hr
  | .array (.item head tail) =>
    obtain ⟨kind, hkind, h⟩ := bind_eq_ok_iff.mp h
    obtain ⟨vs, hvs, -⟩ := bind_eq_ok_iff.mp h
    exact Items.skip_item_iff.mpr ⟨Action.Tag.skip_of_ofDoc hkind,
      Items.skip_of_values (Refusal.orDefect_eq_ok_iff.mp hvs)⟩
  | .array .closed | .array (.broken _) | .null | .bool _ | .number _ | .brokenNumber _
  | .string _ | .absent _ => cases h

end ParseReplay
