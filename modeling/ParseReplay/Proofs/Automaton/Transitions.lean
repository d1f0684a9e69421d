import Mathlib.Data.List.Basic
import Mathlib.Data.Nat.ModEq
import Std.Data.TreeSet.Lemmas
import ParseReplay.Automaton.Graph
import ParseReplay.Scalar.Binary64

/-!
# The transitions of a graph

Among `n` states the transition from `s` to `d` is stored under the key `s * n + d`. Where both are
states, the key is below `n * n` and determines them, so that the stored keys are the listed
transitions, each once, and their order is the order of pairs. A pair that is out of range could
share its key with a transition; it is never looked up.

## Main definitions

* `Adjacency.Lists`, `Adjacency.FirstInvalid`: what an adjacency list says
* `wordKey w n`: the key of a pair in arithmetic on `w` bits
* `Graph.Faithful`: the graph has the listed transitions

## Main results

* `Adjacency.find?_transitions`: the first invalid target in reading order
* `Graph.mem_keys_iff`: the stored keys are those of the listed transitions
* `wordKey_injOn`: keys on `w` bits stay apart if `n * n` is at most `2 ^ w`
* `Graph.ofAdjacency_faithful`: an adjacency list is refused for its first invalid target, and has a
  faithful graph if there is none
-/

namespace ParseReplay

/-! ## Adjacency lists -/

namespace Adjacency

/-- The row of the state `s` lists the state `d`. -/
def Lists (rows : Adjacency) (s d : ℕ) : Prop := ∃ row, rows[s]? = some row ∧ d ∈ row

/-- The first target in reading order that is no state is `dst`, in the row of `src`: it is behind
valid targets `xs` in its row, and behind rows of valid targets. -/
def FirstInvalid (rows : Adjacency) (src dst : ℕ) : Prop :=
  ∃ before row after xs ys, rows = before ++ row :: after ∧ row = xs ++ dst :: ys ∧
    before.length = src ∧ rows.length ≤ dst ∧
    (∀ r ∈ before, ∀ d ∈ r, d < rows.length) ∧ ∀ d ∈ xs, d < rows.length

variable {rows : Adjacency} {s d : ℕ}

theorem mem_transitions_iff : (s, d) ∈ rows.transitions ↔ rows.Lists s d := by
  simp only [transitions, List.mem_flatMap, List.mem_map, Prod.exists, Lists]
  constructor
  · rintro ⟨row, src, hrow, dst, hdst, h⟩
    obtain ⟨rfl, rfl⟩ := Prod.mk.inj h
    exact ⟨row, List.mem_zipIdx_iff_getElem?.mp hrow, hdst⟩
  · rintro ⟨row, hrow, hd⟩
    exact ⟨row, s, List.mem_zipIdx_iff_getElem?.mpr hrow, d, hd, rfl⟩

theorem Lists.lt_length (h : rows.Lists s d) : s < rows.length := by
  obtain ⟨row, hrow, -⟩ := h
  exact (List.getElem?_eq_some_iff.mp hrow).1

theorem find?_row_eq_some_iff {n src : ℕ} {row : List ℕ} {e : ℕ × ℕ} :
    (row.map fun dst => (src, dst)).find? (fun e => n ≤ e.2) = some e ↔
      e.1 = src ∧ ∃ xs ys, row = xs ++ e.2 :: ys ∧ n ≤ e.2 ∧ ∀ d ∈ xs, d < n := by
  obtain ⟨s, d⟩ := e
  rw [List.find?_map, Option.map_eq_some_iff]
  constructor
  · rintro ⟨dst, hfind, h⟩
    obtain ⟨rfl, rfl⟩ := Prod.mk.inj h
    obtain ⟨hn, xs, ys, rfl, hxs⟩ := List.find?_eq_some_iff_append.mp hfind
    exact ⟨rfl, xs, ys, rfl, by simpa using hn, fun d hd => by simpa using hxs d hd⟩
  · rintro ⟨rfl, xs, ys, rfl, hn, hxs⟩
    refine ⟨d, List.find?_eq_some_iff_append.mpr ⟨?_, xs, ys, rfl, fun x hx => ?_⟩, rfl⟩
    · simpa using hn
    · simpa using hxs x hx

theorem find?_row_eq_none_iff {n src : ℕ} {row : List ℕ} :
    (row.map fun dst => (src, dst)).find? (fun e => n ≤ e.2) = none ↔ ∀ d ∈ row, d < n := by
  simp [List.find?_eq_none]

/-- **The first invalid target** is the one that is found among the transitions. -/
theorem find?_transitions {src dst : ℕ} :
    (rows.transitions.find? fun e => rows.length ≤ e.2) = some (src, dst) ↔
      rows.FirstInvalid src dst := by
  rw [transitions, List.find?_flatMap, List.findSome?_eq_some_iff]
  constructor
  · rintro ⟨l, ⟨row, i⟩, l', hsplit, hrow, hbefore⟩
    obtain ⟨rfl, xs, ys, rfl, hdst, hxs⟩ := find?_row_eq_some_iff.mp hrow
    obtain ⟨before, rest, rfl, rfl, hrest⟩ := List.zipIdx_eq_append_iff.mp hsplit
    obtain ⟨row, after, rfl, hi, -⟩ := List.zipIdx_eq_cons_iff.mp hrest.symm
    obtain ⟨rfl, rfl⟩ := Prod.mk.inj hi
    refine ⟨before, _, after, xs, ys, rfl, rfl, (Nat.zero_add _).symm, hdst, ?_, hxs⟩
    intro r hr
    obtain ⟨j, hj⟩ := List.mem_iff_getElem?.mp hr
    exact find?_row_eq_none_iff.mp (hbefore (r, j) (List.mem_zipIdx_iff_getElem?.mpr hj))
  · rintro ⟨before, row, after, xs, ys, hrows, rfl, rfl, hdst, hbefore, hxs⟩
    refine ⟨before.zipIdx, (_, before.length), after.zipIdx (before.length + 1), ?_,
      find?_row_eq_some_iff.mpr ⟨rfl, xs, ys, rfl, hdst, hxs⟩, ?_⟩
    · rw [hrows, List.zipIdx_append, List.zipIdx_cons, Nat.zero_add]
    · rintro ⟨r, j⟩ hr
      exact find?_row_eq_none_iff.mpr (hbefore r (List.fst_mem_of_mem_zipIdx hr))

theorem FirstInvalid.unique {src dst src' dst' : ℕ} (h : rows.FirstInvalid src dst)
    (h' : rows.FirstInvalid src' dst') : (src, dst) = (src', dst') :=
  Option.some.inj ((find?_transitions.mpr h).symm.trans (find?_transitions.mpr h'))

/-- There is an invalid target if and only if there is a first one. -/
theorem exists_firstInvalid_iff (rows : Adjacency) :
    (∃ src dst, rows.FirstInvalid src dst) ↔ ∃ row ∈ rows, ∃ d ∈ row, rows.length ≤ d := by
  constructor
  · rintro ⟨src, dst, before, row, after, xs, ys, hrows, hrow, -, hdst, -, -⟩
    exact ⟨row, by simp [hrows], dst, by simp [hrow], hdst⟩
  · rintro ⟨row, hrow, d, hd, hlen⟩
    obtain ⟨s, hs⟩ := List.mem_iff_getElem?.mp hrow
    have hmem : (s, d) ∈ rows.transitions := mem_transitions_iff.mpr ⟨row, hs, hd⟩
    cases hfind : rows.transitions.find? fun e => rows.length ≤ e.2 with
    | some e => exact ⟨e.1, e.2, find?_transitions.mp hfind⟩
    | none =>
      have hvalid := List.find?_eq_none.mp hfind (s, d) hmem
      simp [hlen] at hvalid

end Adjacency

/-! ## Keys -/

/-- A key below `n * n`. -/
theorem key_lt {n s d : ℕ} (hs : s < n) (hd : d < n) : s * n + d < n * n :=
  calc s * n + d < s * n + n := Nat.add_lt_add_left hd _
    _ = (s + 1) * n := (Nat.succ_mul s n).symm
    _ ≤ n * n := Nat.mul_le_mul_right n hs

/-- A key gives its pair back. -/
theorem key_div_mod {n s d : ℕ} (hd : d < n) : (s * n + d) / n = s ∧ (s * n + d) % n = d := by
  have hn : 0 < n := Nat.zero_lt_of_lt hd
  constructor
  · rw [Nat.mul_comm, Nat.mul_add_div hn, Nat.div_eq_of_lt hd, Nat.add_zero]
  · rw [Nat.mul_comm, Nat.mul_add_mod, Nat.mod_eq_of_lt hd]

theorem key_inj {n s d s' d' : ℕ} (hd : d < n) (hd' : d' < n) (h : s * n + d = s' * n + d') :
    (s, d) = (s', d') := by
  obtain ⟨hdiv, hmod⟩ := key_div_mod (s := s) hd
  obtain ⟨hdiv', hmod'⟩ := key_div_mod (s := s') hd'
  refine Prod.ext ?_ ?_
  · show s = s'
    rw [← hdiv, h, hdiv']
  · show d = d'
    rw [← hmod, h, hmod']

/-- Greater keys stand for greater pairs. -/
theorem div_mod_lt_of_lt {n k k' : ℕ} (h : k < k') :
    k / n < k' / n ∨ k / n = k' / n ∧ k % n < k' % n := by
  rcases (Nat.div_le_div_right (c := n) h.le).lt_or_eq with hlt | heq
  · exact Or.inl hlt
  · refine Or.inr ⟨heq, ?_⟩
    have hk := Nat.div_add_mod k n
    have hk' := Nat.div_add_mod k' n
    rw [← heq] at hk'
    omega

/-- The key of a pair among `n` states, in arithmetic on `w` bits. -/
def wordKey (w n : ℕ) (e : ℕ × ℕ) : BitVec w :=
  BitVec.ofNat w e.1 * BitVec.ofNat w n + BitVec.ofNat w e.2

/-- **A key on `w` bits does not wrap**, as long as there is room for all keys. -/
theorem toNat_wordKey {w n s d : ℕ} (hw : n * n ≤ 2 ^ w) (hs : s < n) (hd : d < n) :
    (wordKey w n (s, d)).toNat = s * n + d := by
  have hkey : s * n + d < 2 ^ w := (key_lt hs hd).trans_le hw
  rw [wordKey, BitVec.toNat_add, BitVec.toNat_mul, BitVec.toNat_ofNat, BitVec.toNat_ofNat,
    BitVec.toNat_ofNat, ← Nat.mul_mod, ← Nat.add_mod, Nat.mod_eq_of_lt hkey]

/-- **Two keys on `w` bits stay apart.** -/
theorem wordKey_inj {w n s d s' d' : ℕ} (hw : n * n ≤ 2 ^ w) (hs : s < n) (hd : d < n)
    (hs' : s' < n) (hd' : d' < n) (h : wordKey w n (s, d) = wordKey w n (s', d')) :
    (s, d) = (s', d') := by
  refine key_inj hd hd' ?_
  rw [← toNat_wordKey hw hs hd, ← toNat_wordKey hw hs' hd', h]

/-! ## Graphs -/

namespace Graph

section Stored

variable {α : Type} {rows : Adjacency} {g : Graph α}

/-- The graph stores the keys of the listed transitions, all of which are valid. -/
structure Stored (rows : Adjacency) (g : Graph α) : Prop where
  stateCount_eq : g.stateCount = rows.length
  mem_keys : ∀ k, k ∈ g.keys ↔ ∃ e ∈ rows.transitions, e.1 * rows.length + e.2 = k
  valid : ∀ e ∈ rows.transitions, e.2 < rows.length

theorem Stored.lt (h : g.Stored rows) {s d : ℕ} (hlists : rows.Lists s d) :
    s < rows.length ∧ d < rows.length :=
  ⟨hlists.lt_length, h.valid (s, d) (Adjacency.mem_transitions_iff.mpr hlists)⟩

theorem Stored.not_firstInvalid (h : g.Stored rows) (src dst : ℕ) :
    ¬ rows.FirstInvalid src dst := by
  intro hfirst
  have hfind := Adjacency.find?_transitions.mpr hfirst
  have hlen : rows.length ≤ dst := by simpa using List.find?_some hfind
  exact absurd hlen (not_le.mpr (h.valid _ (List.mem_of_find?_eq_some hfind)))

/-- The key of two states is stored if they are listed. -/
theorem Stored.mem_keys_iff (h : g.Stored rows) {s d : ℕ} (hd : d < rows.length) :
    s * rows.length + d ∈ g.keys ↔ rows.Lists s d := by
  rw [h.mem_keys, ← Adjacency.mem_transitions_iff]
  constructor
  · rintro ⟨e, he, hkey⟩
    rwa [← key_inj (h.valid e he) hd hkey]
  · intro hmem
    exact ⟨(s, d), hmem, rfl⟩

theorem Stored.connected_iff (h : g.Stored rows) (s d : ℕ) :
    g.connected s d = true ↔ rows.Lists s d := by
  simp only [connected, h.stateCount_eq, Bool.and_eq_true, decide_eq_true_eq,
    Std.TreeSet.contains_iff_mem]
  constructor
  · -- Only here is the range needed: a target out of range could have the key of another pair.
    rintro ⟨⟨-, hd⟩, hkey⟩
    exact (h.mem_keys_iff hd).mp hkey
  · intro hlists
    obtain ⟨hs, hd⟩ := h.lt hlists
    exact ⟨⟨hs, hd⟩, (h.mem_keys_iff hd).mpr hlists⟩

theorem Stored.mem_edges_iff (h : g.Stored rows) (s d : ℕ) :
    (s, d) ∈ g.edges ↔ rows.Lists s d := by
  simp only [edges, h.stateCount_eq, List.mem_map, Std.TreeSet.mem_toList]
  constructor
  · rintro ⟨k, hk, hpair⟩
    obtain ⟨e, he, rfl⟩ := (h.mem_keys k).mp hk
    obtain ⟨hdiv, hmod⟩ := key_div_mod (s := e.1) (h.valid e he)
    rw [hdiv, hmod] at hpair
    rw [← Adjacency.mem_transitions_iff, ← hpair]
    exact he
  · intro hlists
    have hd := (h.lt hlists).2
    obtain ⟨hdiv, hmod⟩ := key_div_mod (s := s) hd
    exact ⟨s * rows.length + d, (h.mem_keys_iff hd).mpr hlists, by rw [hdiv, hmod]⟩

/-- The transitions of any graph stand in increasing order. -/
theorem edges_pairwise (g : Graph α) :
    g.edges.Pairwise fun e f => e.1 < f.1 ∨ e.1 = f.1 ∧ e.2 < f.2 := by
  rw [edges, List.pairwise_map]
  refine Std.TreeSet.ordered_toList.imp fun hlt => ?_
  exact div_mod_lt_of_lt (compare_lt_iff_lt.mp hlt)

/-- **The graph has the listed transitions** and no others, under keys that stay in range and apart
from each other. -/
structure Faithful (rows : Adjacency) (g : Graph α) : Prop where
  /-- A transition leads from `s` to `d` if row `s` lists `d`, in range or not. -/
  connected_iff : ∀ s d, g.connected s d = true ↔ rows.Lists s d
  mem_edges_iff : ∀ s d, (s, d) ∈ g.edges ↔ rows.Lists s d
  /-- The transitions stand in increasing order, each once. -/
  edges_increasing : g.edges.Pairwise fun e f => e.1 < f.1 ∨ e.1 = f.1 ∧ e.2 < f.2
  edgeCount_eq : g.edgeCount = g.edges.length
  isMutual_comm : ∀ s d, g.isMutual s d = g.isMutual d s
  isMutual_iff : ∀ s d, g.isMutual s d = true ↔ rows.Lists s d ∧ rows.Lists d s
  /-- Every stored key is in range. -/
  stored_lt : ∀ k ∈ g.keys, k < rows.length * rows.length
  /-- A key is looked up for two states only, and is in range. -/
  lookup_lt : ∀ s d, s < g.stateCount → d < g.stateCount →
    s * g.stateCount + d < rows.length * rows.length
  /-- Keys on `w` bits are the same numbers, if there is room for all of them, -/
  toNat_wordKey : ∀ w, rows.length * rows.length ≤ 2 ^ w → ∀ s d, s < g.stateCount →
    d < g.stateCount → (wordKey w g.stateCount (s, d)).toNat = s * g.stateCount + d
  /-- and to look them up gives the same answers. -/
  lookup_wordKey : ∀ w, rows.length * rows.length ≤ 2 ^ w → ∀ s d, s < g.stateCount →
    d < g.stateCount → (g.connected s d = true ↔
      wordKey w g.stateCount (s, d) ∈ rows.transitions.map (wordKey w g.stateCount))

theorem Stored.faithful (h : g.Stored rows) : g.Faithful rows := by
  refine ⟨h.connected_iff, h.mem_edges_iff, edges_pairwise g, ?_, ?_, ?_, ?_, ?_, ?_, ?_⟩
  · rw [edgeCount, edges, List.length_map, Std.TreeSet.length_toList]
  · intro s d
    rw [isMutual, isMutual, Bool.and_comm]
  · intro s d
    rw [isMutual, Bool.and_eq_true, h.connected_iff, h.connected_iff]
  · intro k hk
    obtain ⟨e, he, rfl⟩ := (h.mem_keys k).mp hk
    have hlists : rows.Lists e.1 e.2 := Adjacency.mem_transitions_iff.mp he
    exact key_lt hlists.lt_length (h.valid e he)
  · intro s d hs hd
    rw [h.stateCount_eq] at hs hd ⊢
    exact key_lt hs hd
  · intro w hw s d hs hd
    rw [← h.stateCount_eq] at hw
    exact ParseReplay.toNat_wordKey hw hs hd
  · intro w hw s d hs hd
    rw [h.stateCount_eq] at hs hd ⊢
    rw [h.connected_iff, ← Adjacency.mem_transitions_iff, List.mem_map]
    constructor
    · intro hmem
      exact ⟨(s, d), hmem, rfl⟩
    · rintro ⟨e, he, hkey⟩
      have hlists : rows.Lists e.1 e.2 := Adjacency.mem_transitions_iff.mp he
      rwa [← wordKey_inj hw hlists.lt_length (h.valid e he) hs hd hkey]

end Stored

section Build

variable {α : Type} [Scalar α]

theorem mem_foldl_insert (f : ℕ × ℕ → ℕ) (es : List (ℕ × ℕ)) (keys : Std.TreeSet ℕ) (k : ℕ) :
    k ∈ es.foldl (fun keys e => keys.insert (f e)) keys ↔ k ∈ keys ∨ ∃ e ∈ es, f e = k := by
  induction es generalizing keys with
  | nil => simp
  | cons e es ih =>
    rw [List.foldl_cons, ih, Std.TreeSet.mem_insert, compare_eq_iff_eq]
    simp only [List.exists_mem_cons_iff]
    tauto

theorem ofAdjacency_cases (rows : Adjacency) :
    (∃ src dst, rows.FirstInvalid src dst ∧
        (ofAdjacency rows : Except (Fault α) (Graph α)) =
          .error (.invalidIndex src dst rows.length)) ∨
      ∃ g : Graph α, ofAdjacency rows = .ok g ∧ g.Stored rows := by
  cases hfind : rows.transitions.find? fun e => rows.length ≤ e.2 with
  | some e =>
    refine Or.inl ⟨e.1, e.2, Adjacency.find?_transitions.mp hfind, ?_⟩
    simp only [ofAdjacency, hfind]
  | none =>
    have hvalid : ∀ e ∈ rows.transitions, e.2 < rows.length := fun e he => by
      simpa using List.find?_eq_none.mp hfind e he
    have hok : (ofAdjacency rows : Except (Fault α) (Graph α)) =
        .ok ⟨Array.replicate rows.length ⟨Vec.zero, Vec.zero⟩,
          rows.transitions.foldl (fun keys e => keys.insert (e.1 * rows.length + e.2)) ∅⟩ := by
      simp only [ofAdjacency, hfind]
    refine Or.inr ⟨_, hok, Array.size_replicate, fun k => ?_, hvalid⟩
    rw [mem_foldl_insert fun e => e.1 * rows.length + e.2]
    simp

/-- An adjacency list that is accepted is stored. -/
theorem stored_of_ofAdjacency {rows : Adjacency} {g : Graph α} (h : ofAdjacency rows = .ok g) :
    g.Stored rows := by
  rcases ofAdjacency_cases (α := α) rows with ⟨src, dst, -, herror⟩ | ⟨g', hok, hstored⟩
  · cases herror.symm.trans h
  · cases hok.symm.trans h
    exact hstored

/-- **Fidelity to the adjacency list.** The list is refused if a target is no state, for the first
such target in reading order; otherwise its graph has the listed transitions. -/
theorem ofAdjacency_faithful (α : Type) [Scalar α] (rows : Adjacency) :
    (∀ fault : Fault α, ofAdjacency rows = .error fault ↔
        ∃ src dst, fault = .invalidIndex src dst rows.length ∧ rows.FirstInvalid src dst) ∧
      ((∃ fault : Fault α, ofAdjacency rows = .error fault) ↔
        ∃ row ∈ rows, ∃ d ∈ row, rows.length ≤ d) ∧
      ((∀ row ∈ rows, ∀ d ∈ row, d < rows.length) →
        ∃ g : Graph α, ofAdjacency rows = .ok g ∧ g.Faithful rows) := by
  have hinvalid := Adjacency.exists_firstInvalid_iff rows
  rcases ofAdjacency_cases (α := α) rows with ⟨src, dst, hfirst, herror⟩ | ⟨g, hok, hstored⟩
  · obtain ⟨row, hrow, d, hd, hlen⟩ := hinvalid.mp ⟨src, dst, hfirst⟩
    refine ⟨fun fault => ?_, ?_, fun hvalid => ?_⟩
    · rw [herror]
      constructor
      · intro h
        cases h
        exact ⟨src, dst, rfl, hfirst⟩
      · rintro ⟨src', dst', rfl, hfirst'⟩
        obtain ⟨rfl, rfl⟩ := Prod.mk.inj (hfirst.unique hfirst')
        rfl
    · exact iff_of_true ⟨_, herror⟩ ⟨row, hrow, d, hd, hlen⟩
    · exact absurd hlen (not_le.mpr (hvalid row hrow d hd))
  · have hnone : ¬ ∃ src dst, rows.FirstInvalid src dst := by
      rintro ⟨src, dst, hfirst⟩
      exact hstored.not_firstInvalid src dst hfirst
    refine ⟨fun fault => ?_, ?_, fun _ => ⟨g, hok, hstored.faithful⟩⟩
    · rw [hok]
      exact iff_of_false (by simp) fun ⟨src, dst, _, hfirst⟩ => hnone ⟨src, dst, hfirst⟩
    · rw [← hinvalid, hok]
      exact iff_of_false (by simp) hnone

/-- A repeated transition, a loop and two transitions back and forth. -/
theorem ofAdjacency_faithful_loops :
    let rows : Adjacency := [[1, 1], [0, 1, 2], []]
    (∀ row ∈ rows, ∀ d ∈ row, d < rows.length) ∧
      ∃ g : Graph Float, ofAdjacency rows = .ok g ∧ g.Faithful rows :=
  ⟨by decide, (ofAdjacency_faithful Float _).2.2 (by decide)⟩

/-- The row of state 1 has two invalid targets; the one of state 2 is never read. -/
example : (ofAdjacency [[1], [0, 5, 4], [3]] : Except (Fault α) (Graph α)) =
    .error (.invalidIndex 1 5 3) := rfl

end Build

end Graph

end ParseReplay
