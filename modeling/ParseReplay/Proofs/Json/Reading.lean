import ParseReplay.Proofs.Json.Documents

/-!
# Texts and their documents

The reader builds a document from the tokens of a text. The tokens of a whole document lead it to
that document, wherever a value is due. In the other direction the reader carries an invariant
through the text: the tokens read so far are those of the brackets that are open and of the place
where it stands. So the document it ends with has the tokens of the text, unless the document has a
defect or something follows it.

With the spellings of tokens this gives the grammar: a text is read as a whole document if and only
if it spells the document.

## Main definitions

* `Bracket.tokens`, `Place.tokens`, `Reading.Follows`: what the reader knows of the tokens read

## Main results

* `Reading.Follows.step`: one token
* `read_eq_iff`: a text is read as the document that it spells
* `read_append`: what stands behind an array or object is noticed
-/

namespace ParseReplay.Json

/-! ## Whole documents -/

theorem Items.skip_prepend_iff {ds : List Doc} {tail : Items} :
    (tail.prepend ds).skip = .ok () ↔ tail.skip = .ok () ∧ ∀ d ∈ ds, d.skip = .ok () := by
  induction ds generalizing tail with
  | nil => simp [Items.prepend]
  | cons d ds ih =>
    have hcons : tail.prepend (d :: ds) = (Items.item d tail).prepend ds := rfl
    rw [hcons, ih, Items.skip_item_iff]
    simp only [List.forall_mem_cons]
    tauto

theorem Members.skip_prepend_iff {ms : List (Quote × Doc)} {tail : Members} :
    (tail.prepend ms).skip = .ok () ↔
      tail.skip = .ok () ∧ ∀ m ∈ ms, m.1.skip = .ok () ∧ m.2.skip = .ok () := by
  induction ms generalizing tail with
  | nil => simp [Members.prepend]
  | cons m ms ih =>
    have hcons : tail.prepend (m :: ms) = (Members.member m.1 m.2 tail).prepend ms := rfl
    rw [hcons, ih, Members.skip_member_iff]
    simp only [List.forall_mem_cons]
    tauto

/-! ## From tokens to the document -/

mutual

/-- The reader takes the tokens of a whole document where a value is due. -/
theorem Doc.foldl_tokens (d : Doc) (hd : d.skip = .ok ()) (stack : List Bracket) :
    d.tokens.foldl Reading.step (.within stack .value) = .within stack (.after d) := by
  match d with
  | .null | .bool _ | .number _ | .string _ => rfl
  | .array .closed => rfl
  | .array (.item head tail) =>
    obtain ⟨hhead, htail⟩ := Items.skip_item_iff.mp hd
    -- The first token of an item does what it does where a value is due.
    have hopened : head.tokens.foldl Reading.step (.within stack .opened) =
        head.tokens.foldl Reading.step (.within (.array [] :: stack) .value) := by
      cases head with
      | brokenNumber _ | absent _ => cases hhead
      | _ => rfl
    show (head.tokens ++ tail.tokens false).foldl Reading.step (.within stack .opened) = _
    rw [List.foldl_append, hopened, head.foldl_tokens hhead, tail.foldl_tokens htail]
    rfl
  | .object .closed => rfl
  | .object (.member key value tail) =>
    obtain ⟨-, hvalue, htail⟩ := Members.skip_member_iff.mp hd
    show (value.tokens ++ tail.tokens false).foldl Reading.step
      (.within (.object [] key :: stack) .value) = _
    rw [List.foldl_append, value.foldl_tokens hvalue, tail.foldl_tokens htail]
    rfl
  | .array (.broken _) | .object (.broken _) | .brokenNumber _ | .absent _ => cases hd

theorem Items.foldl_tokens (items : Items) (h : items.skip = .ok ()) (stack : List Bracket)
    (before : List Doc) (d : Doc) :
    (items.tokens false).foldl Reading.step (.within (.array before :: stack) (.after d)) =
      .within stack (.after (.array (items.prepend (d :: before)))) := by
  match items with
  | .closed => rfl
  | .item head tail =>
    obtain ⟨hhead, htail⟩ := Items.skip_item_iff.mp h
    -- The comma has made an item of the value that was complete.
    show (head.tokens ++ tail.tokens false).foldl Reading.step
      (.within (.array (d :: before) :: stack) .value) = _
    rw [List.foldl_append, head.foldl_tokens hhead, tail.foldl_tokens htail]
    rfl
  | .broken _ => cases h

theorem Members.foldl_tokens (members : Members) (h : members.skip = .ok ())
    (stack : List Bracket) (before : List (Quote × Doc)) (key : Quote) (d : Doc) :
    (members.tokens false).foldl Reading.step (.within (.object before key :: stack) (.after d)) =
      .within stack (.after (.object (members.prepend ((key, d) :: before)))) := by
  match members with
  | .closed => rfl
  | .member key' value tail =>
    obtain ⟨-, hvalue, htail⟩ := Members.skip_member_iff.mp h
    show (value.tokens ++ tail.tokens false).foldl Reading.step
      (.within (.object ((key, d) :: before) key' :: stack) .value) = _
    rw [List.foldl_append, value.foldl_tokens hvalue, tail.foldl_tokens htail]
    rfl
  | .broken _ => cases h

end

/-- The tokens of a whole document are read as the document. -/
theorem parse_tokens {d : Doc} (hd : d.skip = .ok ()) : parse d.tokens = ⟨d, false⟩ := by
  rw [parse, d.foldl_tokens hd]
  rfl

theorem foldl_step_done (root : Doc) (surplus : Bool) (ts : List Token) :
    ts.foldl Reading.step (.done root surplus) = .done root surplus := by
  induction ts with
  | nil => rfl
  | cons t ts ih => exact ih

/-- What follows a whole document is noticed. -/
theorem parse_tokens_append {d : Doc} (hd : d.skip = .ok ()) {ts : List Token} (hts : ts ≠ []) :
    parse (d.tokens ++ ts) = ⟨d, true⟩ := by
  cases ts with
  | nil => exact absurd rfl hts
  | cons t ts =>
    have hsteps : (d.tokens ++ t :: ts).foldl Reading.step (.within [] .value) = .done d true := by
      rw [List.foldl_append, d.foldl_tokens hd, List.foldl_cons]
      -- One more token ends the reading, and none behind it changes that.
      exact foldl_step_done d true ts
    rw [parse, hsteps]
    rfl

/-! ## From the document to the tokens -/

/-- The tokens of items that are complete, each with the comma behind it; the last item is the first
one of the list. -/
def itemsBefore (before : List Doc) : List Token :=
  before.reverse.flatMap fun d => d.tokens ++ [.comma]

/-- The tokens of members that are complete, each with the comma behind it; the last member is the
first one of the list. -/
def membersBefore (before : List (Quote × Doc)) : List Token :=
  before.reverse.flatMap fun m => .string m.1 :: .colon :: (m.2.tokens ++ [.comma])

/-- The tokens of an open bracket up to the place where its next value is due. -/
def Bracket.tokens : Bracket → List Token
  | .array before => .openArray :: itemsBefore before
  | .object before q => .openObject :: (membersBefore before ++ [.string q, .colon])

/-- The tokens at the place of reading. -/
def Place.tokens : Place → List Token
  | .value => []
  | .opened => [.openArray]
  | .key before => .openObject :: membersBefore before
  | .colon before q => .openObject :: (membersBefore before ++ [.string q])
  | .after d => d.tokens

/-- The tokens of the open brackets, the innermost of which is the first of the stack. -/
def stackTokens (stack : List Bracket) : List Token := stack.reverse.flatMap Bracket.tokens

@[simp] theorem stackTokens_cons (f : Bracket) (stack : List Bracket) :
    stackTokens (f :: stack) = stackTokens stack ++ f.tokens := by
  simp [stackTokens]

@[simp] theorem itemsBefore_cons (d : Doc) (before : List Doc) :
    itemsBefore (d :: before) = itemsBefore before ++ (d.tokens ++ [.comma]) := by
  simp [itemsBefore]

@[simp] theorem membersBefore_cons (m : Quote × Doc) (before : List (Quote × Doc)) :
    membersBefore (m :: before) =
      membersBefore before ++ (.string m.1 :: .colon :: (m.2.tokens ++ [.comma])) := by
  simp [membersBefore]

/-- The tokens of items that are put in front of others. -/
theorem Items.tokens_prepend (before : List Doc) (d : Doc) (tail : Items) :
    (tail.prepend (d :: before)).tokens true =
      itemsBefore before ++ (d.tokens ++ tail.tokens false) := by
  induction before generalizing d tail with
  | nil => rfl
  | cons d' before ih =>
    have hcons : tail.prepend (d :: d' :: before) = (Items.item d tail).prepend (d' :: before) :=
      rfl
    rw [hcons, ih]
    simp [Items.tokens, Token.lead]

/-- The tokens of members that are put in front of others. -/
theorem Members.tokens_prepend (before : List (Quote × Doc)) (m : Quote × Doc) (tail : Members) :
    (tail.prepend (m :: before)).tokens true =
      membersBefore before ++ (.string m.1 :: .colon :: (m.2.tokens ++ tail.tokens false)) := by
  induction before generalizing m tail with
  | nil => rfl
  | cons m' before ih =>
    have hcons : tail.prepend (m :: m' :: before) =
        (Members.member m.1 m.2 tail).prepend (m' :: before) := rfl
    rw [hcons, ih]
    simp [Members.tokens, Token.lead]

namespace Reading

/-- **What the reader knows of the tokens read**: they are those of the open brackets and of the
place, or else no whole document has been found. -/
def Follows (ts : List Token) : Reading → Prop
  | .within stack place => ts = stackTokens stack ++ place.tokens
  | .done root surplus => surplus = true ∨ root.skip ≠ .ok ()

/-- A bracket that does not close is no whole document. -/
theorem skip_abandon_ne (f : Bracket) (defect : Defect) (d : Doc) :
    (f.abandon defect d).skip ≠ .ok () := by
  cases f with
  | array before =>
    intro h
    cases (Items.skip_prepend_iff.mp h).1
  | object before q =>
    intro h
    cases (Members.skip_prepend_iff.mp h).1

theorem follows_abandon {stack : List Bracket} {defect : Defect} {d : Doc} (h : d.skip ≠ .ok ())
    (ts : List Token) : (abandon stack defect d).Follows ts := by
  right
  induction stack generalizing d with
  | nil => exact h
  | cons f stack ih => exact ih (skip_abandon_ne f defect d)

/-- Where the reader ends for a defect, it has found no whole document, unless a value is complete
outside of all brackets. -/
theorem follows_stop {stack : List Bracket} {defect : Defect} (place : Place)
    (h : stack ≠ [] ∨ ∀ d, place ≠ .after d) (ts : List Token) :
    (stop stack defect place).Follows ts := by
  cases place with
  | value => exact follows_abandon (by simp [Doc.skip]) ts
  | opened => exact follows_abandon (by simp [Doc.skip, Items.skip]) ts
  | key before =>
    refine follows_abandon (fun hskip => ?_) ts
    cases (Members.skip_prepend_iff.mp hskip).1
  | colon before q =>
    refine follows_abandon (fun hskip => ?_) ts
    cases (Members.skip_prepend_iff.mp hskip).1
  | after d =>
    cases stack with
    | nil => exact absurd rfl ((h.resolve_left (absurd rfl)) d)
    | cons f stack => exact follows_abandon (skip_abandon_ne f defect d) ts

theorem follows_stepValue (stack : List Bracket) (t : Token) :
    (stepValue stack t).Follows (stackTokens stack ++ [t]) := by
  cases t with
  | bad d => exact follows_abandon (by simp [Doc.skip]) _
  | comma | colon | closeArray | closeObject =>
    exact follows_stop .value (Or.inr fun d h => by cases h) _
  | _ => simp [stepValue, Follows, Place.tokens, Doc.tokens, membersBefore]

theorem follows_stepAfter (d : Doc) (stack : List Bracket) (t : Token) :
    (stepAfter d stack t).Follows (stackTokens stack ++ (d.tokens ++ [t])) := by
  unfold stepAfter
  -- Outside of all brackets any token is one too many; inside, a comma goes on and the bracket
  -- closes.
  split
  · exact Or.inl rfl
  · simp [Follows, Bracket.tokens, Place.tokens]
  · simp [Follows, Bracket.tokens, Place.tokens, Doc.tokens, Items.tokens_prepend, Items.tokens]
  · simp [Follows, Bracket.tokens, Place.tokens]
  · simp [Follows, Bracket.tokens, Place.tokens, Doc.tokens, Members.tokens_prepend,
      Members.tokens]
  next hstack _ _ _ _ =>
    exact follows_stop (.after d) (Or.inl hstack) _

/-- **One token.** -/
theorem Follows.step {ts : List Token} {r : Reading} (h : r.Follows ts) (t : Token) :
    (r.step t).Follows (ts ++ [t]) := by
  cases r with
  | done root surplus => exact h
  | within stack place =>
    obtain rfl : ts = stackTokens stack ++ place.tokens := h
    rw [List.append_assoc]
    cases place with
    | value => exact follows_stepValue stack t
    | opened =>
      -- A token that does not close the array starts its first item.
      have hvalue := follows_stepValue (.array [] :: stack) t
      rw [stackTokens_cons, List.append_assoc] at hvalue
      cases t with
      | closeArray => simp [Reading.step, Follows, Place.tokens, Doc.tokens, Items.tokens]
      | _ => exact hvalue
    | key before =>
      -- The object may close where a key is due only if it has no member yet.
      cases before with
      | nil =>
        cases t with
        | closeObject =>
          simp [Reading.step, Follows, Place.tokens, Doc.tokens, Members.tokens, membersBefore]
        | string q => simp [Reading.step, Follows, Place.tokens]
        | _ => exact follows_stop (.key []) (Or.inr fun d h => by cases h) _
      | cons m before =>
        cases t with
        | string q => simp [Reading.step, Follows, Place.tokens]
        | _ => exact follows_stop (.key (m :: before)) (Or.inr fun d h => by cases h) _
    | colon before q =>
      cases t with
      | colon => simp [Reading.step, Follows, Place.tokens, Bracket.tokens]
      | _ => exact follows_stop (.colon before q) (Or.inr fun d h => by cases h) _
    | after d => exact follows_stepAfter d stack t

/-- **All tokens.** -/
theorem Follows.foldl {ts : List Token} {r : Reading} (h : r.Follows ts) (us : List Token) :
    (us.foldl Reading.step r).Follows (ts ++ us) := by
  induction us generalizing ts r with
  | nil => rwa [List.append_nil]
  | cons u us ih =>
    rw [List.foldl_cons, List.append_cons]
    exact ih (h.step u)

/-- **The end.** A whole document has the tokens read. -/
theorem Follows.finish {ts : List Token} {r : Reading} {root : Doc} (h : r.Follows ts)
    (hend : r.finish = .done root false) (hroot : root.skip = .ok ()) : ts = root.tokens := by
  cases r with
  | done d surplus =>
    cases hend
    exact absurd hroot (h.resolve_left Bool.false_ne_true)
  | within stack place =>
    -- The text may end only where a value is complete outside of all brackets.
    by_cases hplace : stack ≠ [] ∨ ∀ d, place ≠ .after d
    · have hstop : (stop stack .truncated place).Follows ts := follows_stop place hplace ts
      rw [show stop stack .truncated place = .done root false from hend] at hstop
      exact absurd hroot (hstop.resolve_left Bool.false_ne_true)
    · obtain ⟨rfl, d, rfl⟩ : stack = [] ∧ ∃ d, place = .after d := by
        simpa [not_or] using hplace
      cases hend
      exact h

end Reading

/-- Where a whole document is read and nothing behind it, the tokens are its tokens. -/
theorem tokens_of_parse {ts : List Token} {d : Doc} (h : parse ts = ⟨d, false⟩)
    (hd : d.skip = .ok ()) : ts = d.tokens := by
  have hstart : (Reading.within [] .value).Follows [] := rfl
  refine (hstart.foldl ts).finish ?_ hd
  unfold parse at h
  cases hr : (ts.foldl Reading.step (.within [] .value)).finish with
  | done root surplus =>
    rw [hr] at h
    cases h
    rfl
  | within stack place =>
    rw [hr] at h
    cases h
    cases hd

/-! ## Texts -/

/-- A document that a text spells can be passed over. -/
theorem Doc.SpelledAlone.skip {d : Doc} {cs : List Char} (h : d.SpelledAlone cs) :
    d.skip = .ok () := by
  cases h with
  | text _ h => exact h.skip

/-- **A text is read as a whole document with nothing behind it exactly if it spells the
document.** -/
theorem read_eq_iff {s : String} {d : Doc} :
    read s = ⟨d, false⟩ ∧ d.skip = .ok () ↔ d.SpelledAlone s.toList := by
  constructor
  · rintro ⟨h, hd⟩
    have htokens : tokenize s.toList = d.tokens ++ [] := by
      rw [List.append_nil]
      exact tokens_of_parse h hd
    obtain ⟨b, w, rest, hs, hb, hw, hrest⟩ := d.exists_spelled hd htokens
    rw [hs]
    exact .text hb hw (blank_of_tokenize hrest)
  · intro h
    have hskip := h.skip
    refine ⟨?_, hskip⟩
    unfold read
    generalize s.toList = cs at h
    cases h with
    | @text b w b' before h behind =>
      have hend : tokenize b' = [] := by
        simpa [tokenize] using tokenize_blank_append behind []
      have hstops : Stops b' := by
        simpa using stops_blank_append behind stops_nil
      -- A number that is the whole text stops in front of the white space or at the end.
      rw [tokenize_blank_append before, d.tokenize_append h hstops, hend, List.append_nil]
      exact parse_tokens hskip

/-- Behind an array or object every text that is not blank is noticed, whatever it is. -/
theorem read_append {s rest : String} {d : Doc} (h : d.SpelledAlone s.toList)
    (hd : (∃ items, d = .array items) ∨ ∃ members, d = .object members)
    (hrest : ¬Blank rest.toList) : read (s ++ rest) = ⟨d, true⟩ := by
  have hskip := h.skip
  unfold read
  rw [String.toList_append]
  generalize s.toList = cs at h
  cases h with
  | @text b w b' before h behind =>
    -- A bracket is read whole in front of any text, unlike a number, which the text might continue.
    have hw : tokenize (w ++ (b' ++ rest.toList)) = d.tokens ++ tokenize (b' ++ rest.toList) := by
      rcases hd with ⟨items, rfl⟩ | ⟨members, rfl⟩
      · cases h with
        | array h =>
          rw [List.cons_append, tokenize_mark .openArray (by simp), items.tokenize_append h]
          rfl
      · cases h with
        | object h =>
          rw [List.cons_append, tokenize_mark .openObject (by simp), members.tokenize_append h]
          rfl
    rw [List.append_assoc, List.append_assoc, tokenize_blank_append before, hw,
      tokenize_blank_append behind]
    exact parse_tokens_append hskip fun hnone => hrest (blank_of_tokenize hnone)

end ParseReplay.Json
