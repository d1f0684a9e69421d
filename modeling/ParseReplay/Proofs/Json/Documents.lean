import ParseReplay.Json.Value
import ParseReplay.Proofs.Json.Tokens

/-!
# Documents as sequences of tokens

A document without defects is a sequence of tokens, with white space between them. So its spellings
are read as its tokens; and where its tokens are read, a spelling of it stood. Both go through the
document and its text side by side, from left to right.

A document is without defects where it can be passed over, and then its spellings are no longer in
doubt.

## Main definitions

* `Doc.tokens`, `Items.tokens`, `Members.tokens`: the tokens of a document

## Main results

* `Doc.tokenize_append`: a spelling of a document is read as its tokens
* `Doc.exists_spelled`: where the tokens of a document are read, a spelling of it stood
* `Doc.Spelled.skip`: a document that is spelled can be passed over
-/

namespace ParseReplay.Json

/-! ## The tokens of a document -/

/-- The token that leads to an item: a comma unless the item is the first. -/
def Token.lead (first : Bool) : List Token := if first then [] else [.comma]

mutual

/-- The tokens of a document, as far as it goes. -/
def Doc.tokens : Doc → List Token
  | .null => [.null]
  | .bool b => [.bool b]
  | .number n => [.number n]
  | .brokenNumber d => [.brokenNumber d]
  | .string q => [.string q]
  | .array items => .openArray :: items.tokens true
  | .object members => .openObject :: members.tokens true
  | .absent _ => []

/-- The tokens of items with the closing bracket, from the first item on or from a later one. -/
def Items.tokens (first : Bool) : Items → List Token
  | .closed => [.closeArray]
  | .broken _ => []
  | .item head tail => Token.lead first ++ (head.tokens ++ tail.tokens false)

/-- The tokens of members with the closing brace, from the first member on or from a later one. -/
def Members.tokens (first : Bool) : Members → List Token
  | .closed => [.closeObject]
  | .broken _ => []
  | .member key value tail =>
    Token.lead first ++ (.string key :: .colon :: (value.tokens ++ tail.tokens false))

end

/-! ## Spellings -/

theorem stops_nil : Stops [] := by simp [Stops]

theorem stops_blank_append {b rest : List Char} (hb : Blank b) (hrest : Stops rest) :
    Stops (b ++ rest) := by
  cases b with
  | nil => exact hrest
  | cons c b =>
    intro c' hc'
    obtain rfl : c = c' := by simpa using hc'
    rcases hb c List.mem_cons_self with rfl | rfl | rfl | rfl <;> decide

theorem stops_mark {c : Char} (hc : c = ',' ∨ c = ']' ∨ c = '}') (rest : List Char) :
    Stops (c :: rest) := by
  intro c' hc'
  obtain rfl : c = c' := by simpa using hc'
  rcases hc with rfl | rfl | rfl <;> decide

theorem stops_lead {l : List Char} (h : Lead false l) (rest : List Char) : Stops (l ++ rest) := by
  cases h with
  | next before =>
    rw [List.append_assoc]
    exact stops_blank_append before (stops_mark (Or.inl rfl) _)

/-- What follows an item cannot continue a number. -/
theorem Items.Spelled.stops {items : Items} {cs : List Char} (h : items.Spelled false cs)
    (rest : List Char) : Stops (cs ++ rest) := by
  cases h with
  | closed blank =>
    rw [List.append_assoc]
    exact stops_blank_append blank (stops_mark (by simp) _)
  | item lead =>
    rw [List.append_assoc]
    exact stops_lead lead _

/-- What follows a member cannot continue a number. -/
theorem Members.Spelled.stops {members : Members} {cs : List Char} (h : members.Spelled false cs)
    (rest : List Char) : Stops (cs ++ rest) := by
  cases h with
  | closed blank =>
    rw [List.append_assoc]
    exact stops_blank_append blank (stops_mark (by simp) _)
  | member lead =>
    rw [List.append_assoc]
    exact stops_lead lead _

theorem tokenize_mark {t : Token} {c : Char} (h : t.Spelled [c]) (hn : ∀ n, t ≠ .number n)
    (rest : List Char) : tokenize (c :: rest) = t :: tokenize rest :=
  tokenize_append h fun ⟨n, ht⟩ => absurd ht (hn n)

theorem tokenize_lead {first : Bool} {l : List Char} (h : Lead first l) (rest : List Char) :
    tokenize (l ++ rest) = Token.lead first ++ tokenize rest := by
  cases h with
  | first blank => exact tokenize_blank_append blank rest
  | next before behind =>
    rw [List.append_assoc, List.cons_append, tokenize_blank_append before,
      tokenize_mark .comma (by simp), tokenize_blank_append behind]
    rfl

theorem tokenize_quote {q : Quote} {k : List Char} (h : q.Spelled k) (rest : List Char) :
    tokenize ('"' :: (k ++ rest)) = .string q :: tokenize rest :=
  Json.tokenize_append (.string h) fun ⟨_, ht⟩ => by cases ht

mutual

/-- A spelling of a document is read as its tokens. -/
theorem Doc.tokenize_append (d : Doc) {w rest : List Char} (h : d.Spelled w)
    (hrest : Stops rest) : tokenize (w ++ rest) = d.tokens ++ tokenize rest := by
  match d with
  | .null =>
    cases h
    exact Json.tokenize_append .null fun _ => hrest
  | .bool b =>
    cases h with
    | yes => exact Json.tokenize_append .yes fun _ => hrest
    | no => exact Json.tokenize_append .no fun _ => hrest
  | .number n =>
    cases h with
    | number h => exact Json.tokenize_append (.number h) fun _ => hrest
  | .string q =>
    cases h with
    | string h => exact Json.tokenize_append (.string h) fun _ => hrest
  | .array items =>
    cases h with
    -- A bracket ends where it closes, so it does not matter here what follows.
    | array h =>
      rw [List.cons_append, tokenize_mark .openArray (by simp), items.tokenize_append h]
      rfl
  | .object members =>
    cases h with
    | object h =>
      rw [List.cons_append, tokenize_mark .openObject (by simp), members.tokenize_append h]
      rfl
  | .brokenNumber _ | .absent _ => cases h

theorem Items.tokenize_append (items : Items) {first : Bool} {w : List Char}
    (h : items.Spelled first w) (rest : List Char) :
    tokenize (w ++ rest) = items.tokens first ++ tokenize rest := by
  match items with
  | .closed =>
    cases h with
    | closed blank =>
      rw [List.append_assoc, tokenize_blank_append blank]
      exact tokenize_mark .closeArray (by simp) rest
  | .item head tail =>
    cases h with
    -- Behind an item stands white space, a comma or the bracket; none of them continues a number.
    | item lead hhead htail =>
      rw [List.append_assoc, List.append_assoc, tokenize_lead lead,
        head.tokenize_append hhead (htail.stops rest), tail.tokenize_append htail]
      simp [Items.tokens]
  | .broken _ => cases h

theorem Members.tokenize_append (members : Members) {first : Bool} {w : List Char}
    (h : members.Spelled first w) (rest : List Char) :
    tokenize (w ++ rest) = members.tokens first ++ tokenize rest := by
  match members with
  | .closed =>
    cases h with
    | closed blank =>
      rw [List.append_assoc, tokenize_blank_append blank]
      exact tokenize_mark .closeObject (by simp) rest
  | .member key value tail =>
    cases h with
    | member lead hkey before behind hvalue htail =>
      simp only [List.append_assoc, List.cons_append]
      rw [tokenize_lead lead, tokenize_quote hkey, tokenize_blank_append before,
        tokenize_mark .colon (by simp), tokenize_blank_append behind,
        value.tokenize_append hvalue (htail.stops rest), tail.tokenize_append htail]
      simp [Members.tokens]
  | .broken _ => cases h

end

/-! ## What stood -/

theorem Quote.skip_eq_ok_iff {q : Quote} : q.skip = .ok () ↔ q.defect = none := by
  unfold Quote.skip
  cases q.defect <;> simp

theorem Items.skip_item_iff {head : Doc} {tail : Items} :
    (Items.item head tail).skip = .ok () ↔ head.skip = .ok () ∧ tail.skip = .ok () := by
  rw [Items.skip]
  cases head.skip <;> simp

theorem Members.skip_member_iff {key : Quote} {value : Doc} {tail : Members} :
    (Members.member key value tail).skip = .ok () ↔
      key.skip = .ok () ∧ value.skip = .ok () ∧ tail.skip = .ok () := by
  rw [Members.skip]
  cases key.skip <;> cases value.skip <;> simp

theorem Lead.append_blank {first : Bool} {l b : List Char} (h : Lead first l) (hb : Blank b) :
    Lead first (l ++ b) := by
  have happend : ∀ {b' : List Char}, Blank b' → Blank (b' ++ b) := fun hb' c hc =>
    (List.mem_append.mp hc).elim (hb' c) (hb c)
  cases h with
  | first blank => exact .first (happend blank)
  | next before behind =>
    rw [List.append_assoc, List.cons_append]
    exact .next before (happend behind)

/-- Where a comma was read, or nothing for a first item, that led to an item. -/
theorem exists_lead {first : Bool} {cs : List Char} {ts : List Token}
    (h : tokenize cs = Token.lead first ++ ts) :
    ∃ l rest, cs = l ++ rest ∧ Lead first l ∧ tokenize rest = ts := by
  cases first with
  | true => exact ⟨[], cs, rfl, .first (by simp [Blank]), h⟩
  | false =>
    obtain ⟨b, w, rest, rfl, hb, hw, hrest⟩ := exists_spelled_of_tokenize h trivial
    cases hw
    exact ⟨_, rest, by simp, .next hb (by simp [Blank] : Blank []), hrest⟩

mutual

theorem Doc.exists_spelled (d : Doc) {cs : List Char} {ts : List Token} (hd : d.skip = .ok ())
    (h : tokenize cs = d.tokens ++ ts) :
    ∃ b w rest, cs = b ++ (w ++ rest) ∧ Blank b ∧ d.Spelled w ∧ tokenize rest = ts := by
  match d with
  | .null =>
    obtain ⟨b, w, rest, hcs, hb, hw, hrest⟩ := exists_spelled_of_tokenize h trivial
    cases hw
    exact ⟨b, _, rest, hcs, hb, .null, hrest⟩
  | .bool x =>
    obtain ⟨b, w, rest, hcs, hb, hw, hrest⟩ := exists_spelled_of_tokenize h trivial
    cases hw with
    | yes => exact ⟨b, _, rest, hcs, hb, .yes, hrest⟩
    | no => exact ⟨b, _, rest, hcs, hb, .no, hrest⟩
  | .number n =>
    obtain ⟨b, w, rest, hcs, hb, hw, hrest⟩ := exists_spelled_of_tokenize h trivial
    cases hw with
    | number hw => exact ⟨b, _, rest, hcs, hb, .number hw, hrest⟩
  | .string q =>
    obtain ⟨b, w, rest, hcs, hb, hw, hrest⟩ :=
      exists_spelled_of_tokenize h (Quote.skip_eq_ok_iff.mp hd)
    cases hw with
    | string hw => exact ⟨b, _, rest, hcs, hb, .string hw, hrest⟩
  | .array items =>
    obtain ⟨b, w, rest, rfl, hb, hw, hrest⟩ := exists_spelled_of_tokenize h trivial
    cases hw
    obtain ⟨w, rest, rfl, hitems, hrest⟩ := items.exists_spelled hd hrest
    exact ⟨b, _, rest, rfl, hb, .array hitems, hrest⟩
  | .object members =>
    obtain ⟨b, w, rest, rfl, hb, hw, hrest⟩ := exists_spelled_of_tokenize h trivial
    cases hw
    obtain ⟨w, rest, rfl, hmembers, hrest⟩ := members.exists_spelled hd hrest
    exact ⟨b, _, rest, rfl, hb, .object hmembers, hrest⟩
  | .brokenNumber _ | .absent _ => cases hd

theorem Items.exists_spelled (items : Items) {first : Bool} {cs : List Char} {ts : List Token}
    (hitems : items.skip = .ok ()) (h : tokenize cs = items.tokens first ++ ts) :
    ∃ w rest, cs = w ++ rest ∧ items.Spelled first w ∧ tokenize rest = ts := by
  match items with
  | .closed =>
    obtain ⟨b, w, rest, rfl, hb, hw, hrest⟩ := exists_spelled_of_tokenize h trivial
    cases hw
    exact ⟨_, rest, (List.append_assoc _ _ _).symm, .closed hb, hrest⟩
  | .item head tail =>
    obtain ⟨hhead, htail⟩ := Items.skip_item_iff.mp hitems
    rw [Items.tokens, List.append_assoc, List.append_assoc] at h
    obtain ⟨l, rest, rfl, hl, h₁⟩ := exists_lead h
    obtain ⟨b, w, rest, rfl, hb, hw, h₂⟩ := head.exists_spelled hhead h₁
    obtain ⟨cs, rest, rfl, hcs, h₃⟩ := tail.exists_spelled htail h₂
    -- The white space in front of the item is part of what leads to it.
    exact ⟨l ++ b ++ (w ++ cs), rest, by simp, .item (hl.append_blank hb) hw hcs, h₃⟩
  | .broken _ => cases hitems

theorem Members.exists_spelled (members : Members) {first : Bool} {cs : List Char}
    {ts : List Token} (hmembers : members.skip = .ok ())
    (h : tokenize cs = members.tokens first ++ ts) :
    ∃ w rest, cs = w ++ rest ∧ members.Spelled first w ∧ tokenize rest = ts := by
  match members with
  | .closed =>
    obtain ⟨b, w, rest, rfl, hb, hw, hrest⟩ := exists_spelled_of_tokenize h trivial
    cases hw
    exact ⟨_, rest, (List.append_assoc _ _ _).symm, .closed hb, hrest⟩
  | .member key value tail =>
    obtain ⟨hkey, hvalue, htail⟩ := Members.skip_member_iff.mp hmembers
    simp only [Members.tokens, List.append_assoc, List.cons_append] at h
    obtain ⟨l, rest, rfl, hl, h₁⟩ := exists_lead h
    obtain ⟨b, k, rest, rfl, hb, hk, h₂⟩ :=
      exists_spelled_of_tokenize h₁ (Quote.skip_eq_ok_iff.mp hkey)
    obtain ⟨b', k', rest, rfl, hb', hk', h₃⟩ := exists_spelled_of_tokenize h₂ trivial
    obtain ⟨b'', w, rest, rfl, hb'', hw, h₄⟩ := value.exists_spelled hvalue h₃
    obtain ⟨cs, rest, rfl, hcs, h₅⟩ := tail.exists_spelled htail h₄
    cases hk with
    | string hk =>
      cases hk'
      exact ⟨_, rest, by simp, .member (hl.append_blank hb) hk hb' hb'' hw hcs, h₅⟩
  | .broken _ => cases hmembers

end

/-! ## Passing over -/

theorem Quote.Spelled.skip {q : Quote} {w : List Char} (h : q.Spelled w) : q.skip = .ok () := by
  cases h
  rfl

mutual

/-- A document that is spelled can be passed over. -/
theorem Doc.Spelled.skip {d : Doc} {w : List Char} (h : d.Spelled w) : d.skip = .ok () := by
  match d with
  | .null | .bool _ | .number _ => rfl
  | .string q =>
    cases h with
    | string h => exact h.skip
  | .array items =>
    cases h with
    | array h => exact h.skip
  | .object members =>
    cases h with
    | object h => exact h.skip
  | .brokenNumber _ | .absent _ => cases h

theorem Items.Spelled.skip {items : Items} {first : Bool} {w : List Char}
    (h : items.Spelled first w) : items.skip = .ok () := by
  match items with
  | .closed => rfl
  | .item head tail =>
    cases h with
    | item _ hhead htail => exact Items.skip_item_iff.mpr ⟨hhead.skip, htail.skip⟩
  | .broken _ => cases h

theorem Members.Spelled.skip {members : Members} {first : Bool} {w : List Char}
    (h : members.Spelled first w) : members.skip = .ok () := by
  match members with
  | .closed => rfl
  | .member key value tail =>
    cases h with
    | member _ hkey _ _ hvalue htail =>
      exact Members.skip_member_iff.mpr ⟨hkey.skip, hvalue.skip, htail.skip⟩
  | .broken _ => cases h

end

end ParseReplay.Json
