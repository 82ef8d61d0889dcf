import Mathlib.Data.List.Nodup
import SealedLog.Proofs.Chain.Replay
import SealedLog.Proofs.Store.Changes

/-!
# Sound rows

Rows are sound when every stored digest is the one computed from the stored values before it, and
streams have distinct names and count from one. Sound rows stay sound when a stream is created under
a new name, and when a record is put behind the last one of its stream.

* `Rows.Sound`, `Rows.Sound.withAnchor`, `Rows.Sound.withRecord`;
* `Threads`: each stream is anchored to the one before it, the first to a root.
-/

namespace SealedLog

variable {H : HashFunction}

namespace Rows

variable {rows : Rows} {a b : StreamAnchor} {r : Record} {n : Int64} {id : StreamId}

/-- Every digest is the one of the values before it. -/
structure Sound (H : HashFunction) (rows : Rows) : Prop where
  numbered : rows.tables.Numbered
  distinct : (rows.anchors.map fun a => a.descriptor.name).Nodup
  digests : ∀ a ∈ rows.anchors, streamDigest H a.nonce a.descriptor = .ok a.digest
  /-- A nonce can be taken behind every stream. -/
  continued : ∀ a ∈ rows.anchors, ∃ next, nextNonce H a.digest a.descriptor = .ok next
  owned : ∀ r ∈ rows.records, ∃ a ∈ rows.anchors, a.id = r.2.stream
  chains : ∀ a ∈ rows.anchors, Replays H a.digest (rows.chain a.id)

/-! ### Chains of changed rows -/

@[simp] theorem chain_withAnchor (rows : Rows) (a : StreamAnchor) (id : StreamId) :
    (rows.withAnchor a).chain id = rows.chain id := rfl

theorem chain_withRecord_of_eq (h : r.stream = id) :
    (rows.withRecord n r).chain id = rows.chain id ++ [r] := by
  simp [chain, withRecord, h]

theorem chain_withRecord_of_ne (h : r.stream ≠ id) :
    (rows.withRecord n r).chain id = rows.chain id := by
  simp [chain, withRecord, h]

namespace Sound

/-! ### Streams have their numbers and names for themselves -/

theorem number_eq (sound : rows.Sound H) {k : Nat} (h : rows.anchors[k]? = some a) :
    a.id.number.toInt = k + 1 :=
  sound.numbered k a.row (by rw [tables_streams, List.getElem?_map, h]; rfl)

theorem number_pos (sound : rows.Sound H) (ha : a ∈ rows.anchors) : 1 ≤ a.id.number := by
  obtain ⟨k, hk⟩ := List.getElem?_of_mem ha
  have number := sound.number_eq hk
  rw [Int64.le_iff_toInt_le]
  show 1 ≤ a.id.number.toInt
  omega

theorem eq_of_id (sound : rows.Sound H) (ha : a ∈ rows.anchors) (hb : b ∈ rows.anchors)
    (same : a.id = b.id) : a = b := by
  obtain ⟨k, hk⟩ := List.getElem?_of_mem ha
  obtain ⟨l, hl⟩ := List.getElem?_of_mem hb
  have atK := sound.number_eq hk
  have atL := sound.number_eq hl
  rw [same] at atK
  have : k = l := by omega
  subst this
  exact Option.some.inj (hk.symm.trans hl)

theorem eq_of_name (sound : rows.Sound H) (ha : a ∈ rows.anchors) (hb : b ∈ rows.anchors)
    (same : a.descriptor.name = b.descriptor.name) : a = b :=
  List.inj_on_of_nodup_map sound.distinct ha hb same

theorem nodup_ids (sound : rows.Sound H) : (rows.anchors.map StreamAnchor.id).Nodup :=
  (List.Nodup.of_map _ sound.distinct).map_on fun _ ha _ hb same => sound.eq_of_id ha hb same

theorem id_ne_of_isNext (sound : rows.Sound H) (isNext : rows.tables.IsNext id)
    (ha : a ∈ rows.anchors) : a.id ≠ id := by
  rintro rfl
  obtain ⟨k, hk⟩ := List.getElem?_of_mem ha
  have below := (List.getElem?_eq_some_iff.1 hk).1
  have atK := sound.number_eq hk
  have next := isNext sound.numbered
  rw [tables_streams, List.length_map] at next
  omega

theorem chain_eq_nil (sound : rows.Sound H) (unused : ∀ a ∈ rows.anchors, a.id ≠ id) :
    rows.chain id = [] := by
  refine List.filter_eq_nil_iff.2 fun r hr same => ?_
  obtain ⟨entry, mem, rfl⟩ := List.mem_map.1 hr
  obtain ⟨a, ha, owner⟩ := sound.owned entry mem
  exact unused a ha (owner.trans (by simpa using same))

/-! ### Sound rows grow -/

theorem empty (H : HashFunction) : Sound H {} where
  numbered _ _ h := nomatch h
  distinct := List.nodup_nil
  digests _ h := nomatch h
  continued _ h := nomatch h
  owned _ h := nomatch h
  chains _ h := nomatch h

/-- A stream may be created behind the others under a new name. -/
theorem withAnchor (sound : rows.Sound H) (fresh : ∀ b ∈ rows.anchors,
      b.descriptor.name ≠ a.descriptor.name) (isNext : rows.tables.IsNext a.id)
    (digest : streamDigest H a.nonce a.descriptor = .ok a.digest)
    (continued : ∃ next, nextNonce H a.digest a.descriptor = .ok next) :
    (rows.withAnchor a).Sound H where
  numbered k row h := by
    rw [tables_withAnchor, Tables.withStream, List.getElem?_append] at h
    split_ifs at h with old
    · exact sound.numbered k row h
    · rw [List.getElem?_singleton] at h
      split_ifs at h with first
      cases h
      have next : a.id.number.toInt = rows.tables.streams.length + 1 := isNext sound.numbered
      show a.id.number.toInt = k + 1
      omega
  distinct := by
    rw [Rows.withAnchor, List.map_append, List.map_singleton, ← List.concat_eq_append,
      List.nodup_concat]
    refine ⟨fun taken => ?_, sound.distinct⟩
    obtain ⟨b, hb, same⟩ := List.mem_map.1 taken
    exact fresh b hb same
  digests b hb := by
    rcases List.mem_append.1 hb with old | new
    · exact sound.digests b old
    · rw [List.mem_singleton.1 new]
      exact digest
  continued b hb := by
    rcases List.mem_append.1 hb with old | new
    · exact sound.continued b old
    · rw [List.mem_singleton.1 new]
      exact continued
  owned r hr := by
    obtain ⟨b, hb, owner⟩ := sound.owned r hr
    exact ⟨b, List.mem_append_left _ hb, owner⟩
  chains b hb := by
    rcases List.mem_append.1 hb with old | new
    · exact sound.chains b old
    · have none : rows.chain a.id = [] :=
        sound.chain_eq_nil fun b hb => sound.id_ne_of_isNext isNext hb
      rw [List.mem_singleton.1 new, chain_withAnchor, none]
      exact replays_nil H a.digest

/-- A record may be put behind the last one of its stream. -/
theorem withRecord (sound : rows.Sound H) (ha : a ∈ rows.anchors) (owner : r.stream = a.id)
    (linked : recordDigest H (endDigest a.digest (rows.chain a.id)) r.link = .ok r.digest) :
    (rows.withRecord n r).Sound H where
  numbered := sound.numbered
  distinct := sound.distinct
  digests := sound.digests
  continued := sound.continued
  owned s hs := by
    rcases List.mem_append.1 hs with old | new
    · exact sound.owned s old
    · rw [List.mem_singleton.1 new]
      exact ⟨a, ha, owner.symm⟩
  chains b hb := by
    by_cases same : b.id = a.id
    · obtain rfl := sound.eq_of_id hb ha same
      rw [chain_withRecord_of_eq owner, replays_concat_iff]
      exact ⟨sound.chains b hb, linked⟩
    · rw [chain_withRecord_of_ne fun h => same (h.symm.trans owner)]
      exact sound.chains b hb

end Sound

end Rows

/-- Streams anchored one after another, the first to `root`; the next one is anchored to the
nonce. -/
inductive Threads (H : HashFunction) (root : Nonce) : List StreamAnchor → Nonce → Prop
  | none : Threads H root [] root
  | more {before : List StreamAnchor} {a : StreamAnchor} {next : Nonce}
      (anchored : Threads H root before a.nonce)
      (follows : nextNonce H a.digest a.descriptor = .ok next) : Threads H root (before ++ [a]) next

namespace Threads

variable {root nonce : Nonce} {as : List StreamAnchor} {a : StreamAnchor}

theorem root_of_nil (h : Threads H root [] nonce) : nonce = root := by
  generalize none : ([] : List StreamAnchor) = as at h
  cases h with
  | none => rfl
  | more => exact absurd none.symm (by simp)

/-- Behind a last stream stands the nonce that follows it. -/
theorem next_of_getLast? (h : Threads H root as nonce) (last : as.getLast? = some a) :
    nextNonce H a.digest a.descriptor = .ok nonce := by
  cases h with
  | none => cases last
  | more _ follows =>
    rw [List.getLast?_concat] at last
    rw [← Option.some.inj last]
    exact follows

end Threads

end SealedLog
