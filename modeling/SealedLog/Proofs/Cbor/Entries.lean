import Mathlib.Data.List.Forall2
import Mathlib.Data.List.Nodup
import Mathlib.Data.List.Perm.Basic
import SealedLog.Cbor.Value
import SealedLog.Proofs.Cbor.Shortest

/-!
# Maps are written entry by entry, in the order of their keys

A map whose keys are written differently has one canonical form, whatever the order of its entries.
It is refused exactly when a key or value is of a kind that has no canonical form, at any depth.

* `EncodedPair`, `sortPairs`: keys and values that are written, and their order;
* `sortPairs_congr`, `sortPairs_ascending`: sorting by different keys forgets the order before;
* `assemble_perm`, `refused_of_assemble`, `assemble_of_refused`: what becomes of entries that are
  written or refused;
* `Value.refusal?`, `Value.Part`: the kinds that are refused, and what a value is made of;
* `Value.encode_of_ascending`: entries in the order of their keys are written as they stand;
* `Value.refusal_of_encode`, `Value.encode_of_part`: a value is refused for one of its parts;
* `Value.encode_map`: the canonical form of a map.
-/

namespace SealedLog.Cbor

/-! ### The order of keys -/

/-- The octets of a key and those of its value. -/
abbrev EncodedPair := Bytes × Bytes

/-- The octets of a key, and behind them those of its value. -/
def EncodedPair.octets (p : EncodedPair) : Bytes := p.1 ++ p.2

/-- Keys with their values, in ascending order of the keys. -/
def sortPairs (pairs : List EncodedPair) : List EncodedPair :=
  pairs.mergeSort fun a b => decide (a.1 ≤ b.1)

theorem sortPairs_perm (pairs : List EncodedPair) : (sortPairs pairs).Perm pairs :=
  List.mergeSort_perm _ _

theorem sortPairs_sorted (pairs : List EncodedPair) :
    (sortPairs pairs).Pairwise fun a b => a.1 ≤ b.1 := by
  have sorted : (sortPairs pairs).Pairwise fun a b => decide (a.1 ≤ b.1) = true := by
    refine List.pairwise_mergeSort (fun a b c ab bc => ?_) (fun a b => ?_) pairs
    · exact decide_eq_true (List.le_trans (of_decide_eq_true ab) (of_decide_eq_true bc))
    · rw [Bool.or_eq_true, decide_eq_true_iff, decide_eq_true_iff]
      exact List.le_total a.1 b.1
  exact sorted.imp of_decide_eq_true

/-- Different keys stand in strictly ascending order. -/
theorem sortPairs_ascending {pairs : List EncodedPair} (distinct : (pairs.map Prod.fst).Nodup) :
    (sortPairs pairs).Pairwise fun a b => a.1 < b.1 := by
  have different := List.pairwise_map.1 (((sortPairs_perm pairs).map Prod.fst).nodup_iff.2 distinct)
  exact ((sortPairs_sorted pairs).and different).imp fun h => Std.lt_of_le_of_ne h.1 h.2

/-- The order before sorting is forgotten when keys are different. -/
theorem sortPairs_congr {pairs pairs' : List EncodedPair} (distinct : (pairs.map Prod.fst).Nodup)
    (perm : pairs.Perm pairs') : sortPairs pairs = sortPairs pairs' := by
  have perm' := (sortPairs_perm pairs).trans (perm.trans (sortPairs_perm pairs').symm)
  refine List.Perm.eq_of_pairwise (fun a b ha hb ab ba => ?_) (sortPairs_sorted pairs)
    (sortPairs_sorted pairs') perm'
  have inA := (sortPairs_perm pairs).subset ha
  have inB := perm.symm.subset ((sortPairs_perm pairs').subset hb)
  exact List.inj_on_of_nodup_map distinct inA inB (List.le_antisymm ab ba)

/-! ### Entries that are written or refused -/

/-- What comes of writing an entry: the octets of its key and of its value, unless refused. -/
abbrev Outcome := Except EncodeError Bytes × Except EncodeError Bytes

namespace EncodedPair

/-- The pair as an entry with its value. -/
def entry (p : EncodedPair) : EncodedEntry := (p.1, .ok p.2)

/-- The pair as what came of writing. -/
def outcome (p : EncodedPair) : Outcome := (.ok p.1, .ok p.2)

end EncodedPair

theorem keysOf_outcome (pairs : List EncodedPair) :
    keysOf (pairs.map EncodedPair.outcome) = .ok (pairs.map EncodedPair.entry) := by
  induction pairs with
  | nil => rfl
  | cons p rest ih => rw [List.map_cons, EncodedPair.outcome, keysOf, ih, List.map_cons]; rfl

theorem joinEntries_entry (pairs : List EncodedPair) :
    joinEntries (pairs.map EncodedPair.entry) = .ok (pairs.flatMap EncodedPair.octets) := by
  induction pairs with
  | nil => rfl
  | cons p rest ih => rw [List.map_cons, EncodedPair.entry, joinEntries, ih, List.flatMap_cons]; rfl

theorem sortEntries_entry (pairs : List EncodedPair) :
    sortEntries (pairs.map EncodedPair.entry) = (sortPairs pairs).map EncodedPair.entry :=
  (List.map_mergeSort (l := pairs) (f := EncodedPair.entry)
    (r := fun a b : EncodedPair => decide (a.1 ≤ b.1))
    (s := fun a b : EncodedEntry => decide (a.1 ≤ b.1))
    fun _ _ _ _ => rfl).symm

/-- Entries that are all written make a map. -/
theorem assemble_pairs (pairs : List EncodedPair) :
    assemble (pairs.map EncodedPair.outcome) =
      .ok (Head.encode 5 (UInt64.ofNat pairs.length) ++
        (sortPairs pairs).flatMap EncodedPair.octets) := by
  unfold assemble
  rw [keysOf_outcome]
  dsimp only
  rw [sortEntries_entry, joinEntries_entry, List.length_map]

/-- A list in the order of images is a list of images. -/
theorem exists_map_of_perm {α β : Type} {f : α → β} {xs : List α} {ys : List β}
    (perm : ys.Perm (xs.map f)) : ∃ xs' : List α, xs'.Perm xs ∧ ys = xs'.map f := by
  obtain ⟨xs', same, perm'⟩ := (congrFun (congrFun (List.eq_map_comp_perm f) ys) xs).mpr perm
  exact ⟨xs', perm', same⟩

/-- The same pairs make the same map in any order, if their keys are different. -/
theorem assemble_perm {outcomes : List Outcome} {pairs : List EncodedPair}
    (distinct : (pairs.map Prod.fst).Nodup)
    (perm : outcomes.Perm (pairs.map EncodedPair.outcome)) :
    assemble outcomes = .ok (Head.encode 5 (UInt64.ofNat pairs.length) ++
      (sortPairs pairs).flatMap EncodedPair.octets) := by
  obtain ⟨pairs', same, rfl⟩ := exists_map_of_perm perm
  rw [assemble_pairs, sortPairs_congr distinct same.symm, same.length_eq]

/-- The outcome of an entry of which the key or the value is refused. -/
def Outcome.Refused (o : Outcome) (e : EncodeError) : Prop := o.1 = .error e ∨ o.2 = .error e

/-- Entries of which none is refused are pairs. -/
theorem exists_pairs {outcomes : List Outcome} (written : ∀ o ∈ outcomes, ∀ e, ¬o.Refused e) :
    ∃ pairs : List EncodedPair, outcomes = pairs.map EncodedPair.outcome := by
  induction outcomes with
  | nil => exact ⟨[], rfl⟩
  | cons o rest ih =>
    rw [List.forall_mem_cons] at written
    obtain ⟨pairs, rfl⟩ := ih written.2
    rcases o with ⟨e | key, e' | value⟩
    · exact absurd (.inl rfl) (written.1 e)
    · exact absurd (.inl rfl) (written.1 e)
    · exact absurd (.inr rfl) (written.1 e')
    · exact ⟨(key, value) :: pairs, rfl⟩

theorem keysOf_eq_error {outcomes : List Outcome} {e : EncodeError}
    (h : keysOf outcomes = .error e) : ∃ o ∈ outcomes, o.1 = .error e := by
  induction outcomes with
  | nil => cases h
  | cons o rest ih =>
    rcases o with ⟨e' | key, value⟩
    · cases h
      exact ⟨_, List.mem_cons_self, rfl⟩
    · rw [keysOf] at h
      split at h
      · next refused =>
        cases h
        obtain ⟨o, mem, refusal⟩ := ih refused
        exact ⟨o, List.mem_cons_of_mem _ mem, refusal⟩
      · cases h

theorem keysOf_eq_ok {outcomes : List Outcome} {entries : List EncodedEntry}
    (h : keysOf outcomes = .ok entries) : outcomes = entries.map fun e => (.ok e.1, e.2) := by
  induction outcomes generalizing entries with
  | nil =>
    cases h
    rfl
  | cons o rest ih =>
    rcases o with ⟨e' | key, value⟩
    · cases h
    · rw [keysOf] at h
      split at h
      · cases h
      · next entries' written =>
        cases h
        rw [List.map_cons, ← ih written]

theorem joinEntries_eq_error {entries : List EncodedEntry} {e : EncodeError}
    (h : joinEntries entries = .error e) : ∃ entry ∈ entries, entry.2 = .error e := by
  induction entries with
  | nil => cases h
  | cons entry rest ih =>
    rcases entry with ⟨key, e' | value⟩
    · cases h
      exact ⟨_, List.mem_cons_self, rfl⟩
    · rw [joinEntries] at h
      split at h
      · next refused =>
        cases h
        obtain ⟨entry, mem, refusal⟩ := ih refused
        exact ⟨entry, List.mem_cons_of_mem _ mem, refusal⟩
      · cases h

theorem joinEntries_eq_ok {entries : List EncodedEntry} {octets : Bytes}
    (h : joinEntries entries = .ok octets) : ∀ entry ∈ entries, ∀ e, entry.2 ≠ .error e := by
  induction entries generalizing octets with
  | nil => exact fun _ mem => nomatch mem
  | cons entry rest ih =>
    rcases entry with ⟨key, e' | value⟩
    · cases h
    · rw [joinEntries] at h
      split at h
      · cases h
      · next octets' written =>
        rw [List.forall_mem_cons]
        exact ⟨fun e refused => (nomatch refused), ih written⟩

/-- Entries are refused for one of them. -/
theorem refused_of_assemble {outcomes : List Outcome} {e : EncodeError}
    (h : assemble outcomes = .error e) : ∃ o ∈ outcomes, o.Refused e := by
  unfold assemble at h
  split at h
  · next refused =>
    cases h
    obtain ⟨o, mem, refusal⟩ := keysOf_eq_error refused
    exact ⟨o, mem, .inl refusal⟩
  · next entries keys =>
    split at h
    · next refused =>
      cases h
      obtain ⟨entry, mem, refusal⟩ := joinEntries_eq_error refused
      have listed : entry ∈ entries := (List.mergeSort_perm _ _).subset mem
      rw [keysOf_eq_ok keys]
      exact ⟨_, List.mem_map_of_mem listed, .inr refusal⟩
    · cases h

/-- One refused entry is enough. -/
theorem assemble_of_refused {outcomes : List Outcome} {o : Outcome} {e : EncodeError}
    (mem : o ∈ outcomes) (refused : o.Refused e) : ∃ e', assemble outcomes = .error e' := by
  unfold assemble
  split
  · exact ⟨_, rfl⟩
  · next entries keys =>
    split
    · exact ⟨_, rfl⟩
    · next octets joined =>
      rw [keysOf_eq_ok keys] at mem
      obtain ⟨entry, listed, rfl⟩ := List.mem_map.1 mem
      rcases refused with key | value
      · cases key
      · have sorted : entry ∈ sortEntries entries := (List.mergeSort_perm _ _).symm.subset listed
        exact absurd value (joinEntries_eq_ok joined entry sorted e)

/-! ### Values and their parts -/

namespace Value

/-- Why values of a kind are refused. -/
def refusal? : Value → Option EncodeError
  | .integer _ | .bytes _ | .text _ | .map _ => none
  | .float _ => some .float
  | .bool _ | .null | .tag _ _ | .array _ => some .unsupported

/-- What a value is made of: itself, and for a map what its keys and its values are made of. -/
inductive Part (part : Value) : Value → Prop
  | self : Part part part
  | key {key value : Value} {entries : List (Value × Value)} (mem : (key, value) ∈ entries)
      (inside : Part part key) : Part part (.map entries)
  | value {key value : Value} {entries : List (Value × Value)} (mem : (key, value) ∈ entries)
      (inside : Part part value) : Part part (.map entries)

/-- What comes of writing an entry. -/
def outcome (entry : Value × Value) : Outcome := (entry.1.encode, entry.2.encode)

theorem encodeEach_eq (entries : List (Value × Value)) :
    encodeEach entries = entries.map outcome := by
  induction entries with
  | nil => rfl
  | cons entry rest ih => rw [encodeEach, ih, List.map_cons]; rfl

/-- Entries that stand in the order of their keys are written in that order. -/
theorem encode_of_ascending {entries : List (Value × Value)} {pairs : List EncodedPair}
    (written : entries.map outcome = pairs.map EncodedPair.outcome)
    (ascending : pairs.Pairwise fun a b => a.1 ≤ b.1) :
    (map entries).encode = .ok (Head.encode 5 (UInt64.ofNat pairs.length) ++
      pairs.flatMap EncodedPair.octets) := by
  rw [encode, encodeEach_eq, written, assemble_pairs, sortPairs,
    List.mergeSort_of_pairwise (ascending.imp decide_eq_true)]

mutual

/-- A value is refused for the kind of one of its parts. -/
theorem refusal_of_encode {e : EncodeError} : ∀ v : Value, v.encode = .error e →
    ∃ part : Value, part.Part v ∧ part.refusal? = some e
  | .integer _, h => nomatch h
  | .bytes _, h => nomatch h
  | .text _, h => nomatch h
  | .map entries, h => by
    obtain ⟨o, mem, refused⟩ := refused_of_assemble h
    obtain ⟨part, ⟨entry, listed, inside⟩, kind⟩ := refusal_of_encodeEach entries mem refused
    rcases inside with inside | inside
    · exact ⟨part, .key listed inside, kind⟩
    · exact ⟨part, .value listed inside, kind⟩
  | .float _, h => ⟨_, .self, congrArg some (Except.error.inj h)⟩
  | .bool _, h => ⟨_, .self, congrArg some (Except.error.inj h)⟩
  | .null, h => ⟨_, .self, congrArg some (Except.error.inj h)⟩
  | .tag _ _, h => ⟨_, .self, congrArg some (Except.error.inj h)⟩
  | .array _, h => ⟨_, .self, congrArg some (Except.error.inj h)⟩

/-- An entry is refused for the kind of a part of its key or of its value. -/
theorem refusal_of_encodeEach {e : EncodeError} {o : Outcome} :
    ∀ entries : List (Value × Value), o ∈ encodeEach entries → o.Refused e →
    ∃ part : Value, (∃ entry ∈ entries, part.Part entry.1 ∨ part.Part entry.2) ∧
      part.refusal? = some e
  | [], mem, _ => nomatch mem
  | (key, value) :: rest, mem, refused => by
    rcases List.mem_cons.1 mem with rfl | later
    · rcases refused with refused | refused
      · obtain ⟨part, inside, kind⟩ := refusal_of_encode key refused
        exact ⟨part, ⟨_, List.mem_cons_self, .inl inside⟩, kind⟩
      · obtain ⟨part, inside, kind⟩ := refusal_of_encode value refused
        exact ⟨part, ⟨_, List.mem_cons_self, .inr inside⟩, kind⟩
    · obtain ⟨part, ⟨entry, listed, inside⟩, kind⟩ := refusal_of_encodeEach rest later refused
      exact ⟨part, ⟨entry, List.mem_cons_of_mem _ listed, inside⟩, kind⟩

end

/-- One part of a refused kind is enough. -/
theorem encode_of_part {part v : Value} {e : EncodeError} (inside : part.Part v)
    (kind : part.refusal? = some e) : ∃ e', v.encode = .error e' := by
  induction inside with
  | self =>
    cases part with
    | integer | bytes | text | map => cases kind
    | float | bool | null | tag | array => exact ⟨_, rfl⟩
  | @key key value entries mem inside ih =>
    obtain ⟨e', refused⟩ := ih
    rw [encode, encodeEach_eq]
    exact assemble_of_refused (List.mem_map_of_mem mem) (.inl refused)
  | @value key value entries mem inside ih =>
    obtain ⟨e', refused⟩ := ih
    rw [encode, encodeEach_eq]
    exact assemble_of_refused (List.mem_map_of_mem mem) (.inr refused)

/-- The octets of a map of these entries: its head, and the octets of every key once, in strictly
ascending order, each followed by the octets of its own value. -/
inductive MapForm (entries : List (Value × Value)) : Bytes → Prop
  | intro {listed : List (Value × Value)} {sorted : List EncodedPair}
      (head : entries.length < 2 ^ 64 →
        Head.Form 5 entries.length (Head.encode 5 (UInt64.ofNat entries.length)))
      (all : listed.Perm entries)
      (written : List.Forall₂ (fun e p => e.1.encode = .ok p.1 ∧ e.2.encode = .ok p.2)
        listed sorted)
      (ascending : sorted.Pairwise fun p q => p.1 < q.1) :
    MapForm entries
      (Head.encode 5 (UInt64.ofNat entries.length) ++ sorted.flatMap fun p => p.1 ++ p.2)

/-- Entries of supported kinds are written. -/
theorem exists_pairs_of_supported {entries : List (Value × Value)}
    (supported : ∀ part : Value, part.Part (map entries) → part.refusal? = none) :
    ∃ pairs : List EncodedPair, entries.map outcome = pairs.map EncodedPair.outcome := by
  rw [← encodeEach_eq]
  refine exists_pairs fun o mem e refused => ?_
  obtain ⟨part, ⟨⟨key, value⟩, listed, inside⟩, kind⟩ := refusal_of_encodeEach entries mem refused
  have none : part.refusal? = none := by
    rcases inside with inside | inside
    · exact supported part (.key listed inside)
    · exact supported part (.value listed inside)
  rw [none] at kind
  cases kind

/-- Keys that are written differently are different keys of the pairs. -/
theorem nodup_of_different {entries : List (Value × Value)} {pairs : List EncodedPair}
    (written : entries.map outcome = pairs.map EncodedPair.outcome)
    (different : entries.Pairwise fun a b => a.1.encode ≠ b.1.encode) :
    (pairs.map Prod.fst).Nodup := by
  have keys : (entries.map fun e => e.1.encode) = pairs.map fun p => .ok p.1 := by
    have fronts := congrArg (List.map Prod.fst) written
    rwa [List.map_map, List.map_map] at fronts
  have nodup : (entries.map fun e => e.1.encode).Nodup := List.pairwise_map.2 different
  rw [keys, ← Function.comp_def Except.ok, ← List.map_map] at nodup
  exact nodup.of_map

/-- The sorted pairs are those of the entries in some order. -/
theorem exists_listed {entries : List (Value × Value)} {pairs : List EncodedPair}
    (written : entries.map outcome = pairs.map EncodedPair.outcome) :
    ∃ listed : List (Value × Value), listed.Perm entries ∧
      List.Forall₂ (fun e p => e.1.encode = .ok p.1 ∧ e.2.encode = .ok p.2) listed
        (sortPairs pairs) := by
  obtain ⟨listed, all, same⟩ :=
    exists_map_of_perm (written ▸ (sortPairs_perm pairs).map EncodedPair.outcome)
  have each := List.forall₂_map_left_iff.1 (List.forall₂_map_right_iff.1
    (List.forall₂_eq_eq_eq ▸ same.symm))
  exact ⟨listed, all, each.imp fun e p h => Prod.mk.inj h⟩

/-- **The canonical form of a map.** A map is refused exactly when it has a part of a refused kind,
at any depth. The entries of any other map with keys that are written differently are written in
one form, whatever their order. -/
theorem encode_map (entries : List (Value × Value)) :
    ((∃ e, (map entries).encode = .error e) ↔
      ∃ part : Value, part.Part (map entries) ∧ part.refusal? ≠ none) ∧
    ((∀ part : Value, part.Part (map entries) → part.refusal? = none) →
      (entries.Pairwise fun a b => a.1.encode ≠ b.1.encode) →
      ∃ octets, MapForm entries octets ∧
        ∀ entries', entries'.Perm entries → (map entries').encode = .ok octets) := by
  refine ⟨⟨?_, ?_⟩, fun supported different => ?_⟩
  · rintro ⟨e, refused⟩
    obtain ⟨part, inside, kind⟩ := refusal_of_encode _ refused
    exact ⟨part, inside, by rw [kind]; exact Option.some_ne_none e⟩
  · rintro ⟨part, inside, kind⟩
    obtain ⟨e, kind⟩ := Option.ne_none_iff_exists'.1 kind
    exact encode_of_part inside kind
  · obtain ⟨pairs, written⟩ := exists_pairs_of_supported supported
    have distinct := nodup_of_different written different
    obtain ⟨listed, all, each⟩ := exists_listed written
    have length : pairs.length = entries.length := by
      have lengths := congrArg List.length written
      rw [List.length_map, List.length_map] at lengths
      exact lengths.symm
    refine ⟨_, .intro (fun few => ?_) all each (sortPairs_ascending distinct),
      fun entries' perm => ?_⟩
    · have form := Head.form_encode (by decide : 5 < 8) (UInt64.ofNat entries.length)
      rwa [UInt64.toNat_ofNat_of_lt' few] at form
    · rw [encode, encodeEach_eq]
      exact length ▸ assemble_perm distinct (written ▸ perm.map outcome)

/-- A map with keys of all kinds and lengths and a map inside, written forwards and backwards; and a
map that is refused for a key inside. -/
theorem encode_map_of_mixed_keys :
    let number (n : UInt64) : Value := .integer (.ofUInt64 n)
    let inner := [(number 0, number 0), (number 5, number 50), (number 8, number 80)]
    let entries := [(number 10, number 0), (number 24, .text ""),
      (.integer (.ofInt64 (-1)), .bytes [1, 2]), (.bytes [0], .integer (.ofInt64 (-1))),
      (.text "a", map inner)]
    let octets := [0xa5, 0x0a, 0, 0x18, 24, 0x60, 0x20, 0x42, 1, 2, 0x41, 0, 0x20,
      0x61, 97, 0xa3, 0, 0, 5, 0x18, 50, 8, 0x18, 80]
    (∀ part : Value, part.Part (map entries) → part.refusal? = none) ∧
    (entries.Pairwise fun a b => a.1.encode ≠ b.1.encode) ∧ MapForm entries octets ∧
    (map entries).encode = .ok octets ∧ (map entries.reverse).encode = .ok octets ∧
    ∃ e, (map ((number 1, map [(null, number 0)]) :: entries)).encode = .error e := by
  intro number inner entries octets
  let innerPairs : List EncodedPair := [([0], [0]), ([5], [0x18, 50]), ([8], [0x18, 80])]
  let pairs : List EncodedPair := [([0x0a], [0]), ([0x18, 24], [0x60]), ([0x20], [0x42, 1, 2]),
    ([0x41, 0], [0x20]), ([0x61, 97], 0xa3 :: innerPairs.flatMap EncodedPair.octets)]
  have inside : inner.map outcome = innerPairs.map EncodedPair.outcome := rfl
  have written : entries.map outcome = pairs.map EncodedPair.outcome := by
    simp only [entries, List.map_cons, List.map_nil, outcome,
      encode_of_ascending inside (by decide)]
    rfl
  have said : (map entries).encode = .ok octets := encode_of_ascending written (by decide)
  have different : entries.Pairwise fun a b => a.1.encode ≠ b.1.encode := by decide +kernel
  have supported : ∀ part : Value, part.Part (map entries) → part.refusal? = none := by
    intro part inside
    by_contra kind
    obtain ⟨e, refused⟩ := (encode_map entries).1.2 ⟨part, inside, kind⟩
    rw [said] at refused
    cases refused
  obtain ⟨octets', form, all⟩ := (encode_map entries).2 supported different
  obtain rfl := Except.ok.inj (said.symm.trans (all entries (.refl _)))
  exact ⟨supported, different, form, said, all entries.reverse entries.reverse_perm,
    (encode_map _).1.2 ⟨null, .value List.mem_cons_self (.key List.mem_cons_self .self), by decide⟩⟩

end Value

end SealedLog.Cbor
