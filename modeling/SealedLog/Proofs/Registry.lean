import SealedLog.Proofs.Audit.Evidence
import SealedLog.Proofs.Chain.Lineage
import SealedLog.Proofs.Session.Call

/-!
# The nonce is evidence of what was created

Registries that have created as many streams and have one nonce started with one root nonce and
created the same descriptors in the same order, whatever else they were asked and in whatever stores
the streams are. Else two different byte strings that were hashed on the way have one hash.

* `StreamRegistry.Wish`: a call to create a stream; what came of it, and what was hashed for it;
* `StreamRegistry.History`: what was asked on the way from one registry to another;
* `StreamRegistry.create_cases`, `History.lineage`: what a call creates, and what a history does;
* `StreamRegistry.nonce_evident`: the same streams, or a collision.
-/

namespace SealedLog.StreamRegistry

variable {H H' : HashFunction} {r r' r₀ r₀' : StreamRegistry}

/-- A call to create a stream: the registry and the store that were asked, and for what. -/
structure Wish where
  registry : StreamRegistry
  store : Store
  descriptor : StreamDescriptor

namespace Wish

/-- What a call leaves and answers. -/
def outcome (H : HashFunction) (w : Wish) :
    StreamRegistry × Store × Except SessionError Registration :=
  w.registry.create H w.store w.descriptor

/-- The descriptor, if a stream was created for it. -/
def created? (H : HashFunction) (w : Wish) : Option StreamDescriptor :=
  match (w.outcome H).2.2 with
  | .ok (.created _ _) => some w.descriptor
  | _ => none

/-- What is hashed during a call: nothing for a registered name, else what the digest of the stream
is taken over, and what the nonce behind it is. -/
def hashed (H : HashFunction) (w : Wish) : List Bytes :=
  match w.registry.lookup w.descriptor.name with
  | some _ => []
  | none =>
    hashedBy (streamPreimage w.registry.nonce w.descriptor) ++
      match streamDigest H w.registry.nonce w.descriptor with
      | .error _ => []
      | .ok digest => hashedBy (anchorPreimage digest w.descriptor)

end Wish

/-- What is asked of a registry, one thing after another: to create streams, each in some store, to
follow the records of its streams, and to forget the streams. -/
inductive History (H : HashFunction) (r₀ : StreamRegistry) : List Wish → StreamRegistry → Prop
  | start : History H r₀ [] r₀
  | create {wishes : List Wish} {r : StreamRegistry} (history : History H r₀ wishes r)
      (store : Store) (d : StreamDescriptor) :
      History H r₀ (wishes ++ [⟨r, store, d⟩]) (r.create H store d).1
  | advance {wishes : List Wish} {r : StreamRegistry} (history : History H r₀ wishes r)
      (name : String) (digest : Digest) : History H r₀ wishes (r.advance name digest)
  | clear {wishes : List Wish} {r : StreamRegistry} (history : History H r₀ wishes r) :
      History H r₀ wishes r.clear

/-- The descriptors that streams were created for, in that order. -/
def made (H : HashFunction) (wishes : List Wish) : List StreamDescriptor :=
  wishes.filterMap (Wish.created? H)

/-- What was hashed during some calls. -/
def hashed (H : HashFunction) (wishes : List Wish) : List Bytes := wishes.flatMap (Wish.hashed H)

/-! ### Calls one by one -/

/-- A call leaves the registry as it is, or it registers a stream that is anchored to the nonce and
moves the nonce on. -/
theorem create_cases (H : HashFunction) (r : StreamRegistry) (store : Store)
    (d : StreamDescriptor) :
    ((r.create H store d).1 = r ∧
        ∀ id digest, (r.create H store d).2.2 ≠ .ok (.created id digest)) ∨
      ∃ id digest next, r.lookup d.name = none ∧ streamDigest H r.nonce d = .ok digest ∧
        nextNonce H digest d = .ok next ∧
        (r.create H store d).1 = r.register d.name id digest next ∧
        (r.create H store d).2.2 = .ok (.created id digest) := by
  unfold create
  cases registered : r.lookup d.name with
  | some state => exact .inl ⟨rfl, fun _ _ h => nomatch h⟩
  | none =>
    dsimp only
    cases anchored : r.anchor H d with
    | error e => exact .inl ⟨rfl, fun _ _ h => nomatch h⟩
    | ok link =>
      obtain ⟨digest, next⟩ := link
      obtain ⟨ofStream, follows⟩ := anchor_eq_ok_iff.1 anchored
      dsimp only
      -- the nonce moves on only once the store has taken the row
      rcases store.insertStream d r.nonce digest with ⟨store', e | id⟩
      · exact .inl ⟨rfl, fun _ _ h => nomatch h⟩
      · exact .inr ⟨id, digest, next, rfl, ofStream, follows, rfl, rfl⟩

theorem anchor_congr {d : StreamDescriptor}
    (ofStream : ∀ octets ∈ hashedBy (streamPreimage r.nonce d), H octets = H' octets)
    (ofAnchor : ∀ digest, streamDigest H r.nonce d = .ok digest →
      ∀ octets ∈ hashedBy (anchorPreimage digest d), H octets = H' octets) :
    r.anchor H d = r.anchor H' d := by
  have digests : streamDigest H r.nonce d = streamDigest H' r.nonce d :=
    Audit.map_hash_congr id ofStream
  unfold anchor
  rw [← digests]
  cases made : streamDigest H r.nonce d with
  | error e => rfl
  | ok digest =>
    have nonces : nextNonce H digest d = nextNonce H' digest d :=
      Audit.map_hash_congr Digest.toNonce (ofAnchor digest made)
    show InputError.lift (nextNonce H digest d >>= fun next => pure (digest, next)) = _
    rw [nonces]
    rfl

/-- What a call does depends on the hashes of these byte strings alone. -/
theorem Wish.outcome_congr {w : Wish} (same : ∀ octets ∈ w.hashed H, H octets = H' octets) :
    w.outcome H = w.outcome H' := by
  unfold hashed at same
  unfold outcome create
  cases registered : w.registry.lookup w.descriptor.name with
  | some state => rfl
  | none =>
    rw [registered] at same
    have anchored : w.registry.anchor H w.descriptor = w.registry.anchor H' w.descriptor := by
      refine anchor_congr (fun octets h => same octets (List.mem_append_left _ h)) ?_
      intro digest ofStream octets h
      refine same octets (List.mem_append_right _ ?_)
      rw [ofStream]
      exact h
    dsimp only
    rw [anchored]

theorem anchor_const (g : Digest) {d : StreamDescriptor} (valid : d.validate = .ok ()) :
    r.anchor (fun _ => g) d = .ok (g, g.toNonce) :=
  anchor_eq_ok_iff.2 ⟨streamDigest_const g valid, nextNonce_const g valid⟩

theorem made_concat (wishes : List Wish) (w : Wish) :
    made H (wishes ++ [w]) = made H wishes ++ (w.created? H).toList := by
  cases h : w.created? H <;> simp [made, h]

theorem hashed_concat (wishes : List Wish) (w : Wish) :
    hashed H (wishes ++ [w]) = hashed H wishes ++ w.hashed H := by
  simp [hashed]

/-! ### Histories -/

/-- The streams that a history created, one behind the other from its root nonce to its last one;
all that was hashed along them was hashed in the history. -/
theorem History.lineage {wishes : List Wish} (history : History H r₀ wishes r) :
    ∃ as, Lineage H r₀.nonce as r.nonce ∧ as.map StreamAnchor.descriptor = made H wishes ∧
      ∀ octets ∈ hashedLine as, octets ∈ hashed H wishes := by
  induction history with
  | start => exact ⟨[], .nil H r₀.nonce, rfl, fun _ h => h⟩
  | @create wishes r _ store d ih =>
    obtain ⟨as, line, descriptors, sub⟩ := ih
    rw [made_concat, hashed_concat]
    obtain ⟨kept, uncreated⟩ |
        ⟨id, digest, next, unregistered, ofStream, follows, registry, answer⟩ :=
      r.create_cases H store d
    · have none : Wish.created? H ⟨r, store, d⟩ = none := by
        unfold Wish.created?
        split
        · rename_i answered
          exact absurd answered (uncreated _ _)
        · rfl
      rw [kept, none]
      exact ⟨as, line, descriptors.trans (List.append_nil _).symm,
        fun octets h => List.mem_append_left _ (sub octets h)⟩
    · have some : Wish.created? H ⟨r, store, d⟩ = some d := by
        unfold Wish.created?
        rw [show (Wish.outcome H ⟨r, store, d⟩).2.2 = .ok (.created id digest) from answer]
      have new : Wish.hashed H ⟨r, store, d⟩ = hashedAnchor ⟨id, d, r.nonce, digest⟩ := by
        unfold Wish.hashed
        rw [unregistered, ofStream]
        rfl
      have longer : Lineage H r₀.nonce (as ++ [⟨id, d, r.nonce, digest⟩]) next :=
        Lineage.concat_iff.2 ⟨line, ofStream, follows⟩
      rw [registry, some, new]
      refine ⟨_, longer, ?_, ?_⟩
      · rw [List.map_append, descriptors]
        rfl
      · intro octets h
        rw [hashedLine, List.flatMap_append, List.flatMap_singleton] at h
        exact (List.mem_append.1 h).elim (fun h => List.mem_append_left _ (sub octets h))
          fun h => List.mem_append_right _ h
  | advance _ _ _ ih => exact ih
  | clear _ ih => exact ih

/-- **The nonce is evidence of the root nonce and of the streams that were created**, in their
order: registries that have created as many streams and have one nonce have these in common, or
there is a collision among what was hashed in their histories. -/
theorem nonce_evident {wishes wishes' : List Wish} (history : History H r₀ wishes r)
    (history' : History H r₀' wishes' r') (sized : ∀ d ∈ made H wishes, d.IsSized)
    (sized' : ∀ d ∈ made H wishes', d.IsSized)
    (count : (made H wishes).length = (made H wishes').length) (same : r.nonce = r'.nonce) :
    (r₀.nonce = r₀'.nonce ∧ made H wishes = made H wishes') ∨
      Collides H (hashed H wishes ++ hashed H wishes') := by
  obtain ⟨as, line, descriptors, sub⟩ := history.lineage
  obtain ⟨bs, line', descriptors', sub'⟩ := history'.lineage
  rw [← descriptors] at sized count ⊢
  rw [← descriptors'] at sized' count ⊢
  rw [same] at line
  rw [List.length_map, List.length_map] at count
  exact (line.same_or_collides line' (fun a ha => sized _ (List.mem_map_of_mem ha))
    (fun b hb => sized' _ (List.mem_map_of_mem hb)) count).imp_right fun collides =>
      collides.mono_append sub sub'

/-- Two registries with different root nonces, one of which was asked for one name twice and the
other for a stream without a name. Where everything has one hash, their nonces are the same. -/
theorem nonce_evident_of_roots :
    let H : HashFunction := fun _ => default
    let r₀ : StreamRegistry := { nonce := Nonce.fill 1 }
    let r₀' : StreamRegistry := { nonce := Nonce.fill 2 }
    let store := Store.inMemory.createSchema.1
    let trades : StreamDescriptor := ⟨"trades", "Trade", "json"⟩
    let nameless : StreamDescriptor := ⟨"", "Trade", "json"⟩
    let r := (r₀.create H store trades).1
    let r' := (r₀'.create H store nameless).1
    let wishes : List Wish := [⟨r₀, store, trades⟩, ⟨r, store, trades⟩]
    let wishes' : List Wish := [⟨r₀', store, nameless⟩, ⟨r', store, trades⟩]
    made H wishes = [trades] ∧ made H wishes' = [trades] ∧ trades.IsSized ∧
      (r.create H store trades).1.nonce = (r'.create H store trades).1.nonce ∧
      Collides H (hashed H wishes ++ hashed H wishes') := by
  intro H r₀ r₀' store trades nameless r r' wishes wishes'
  have valid : trades.validate = .ok () := by decide
  have new : ∀ s : StreamRegistry, s.streams = [] → s.create H store trades =
      (s.register "trades" ⟨1⟩ default (Nonce.fill 0),
        (store.insertStream trades s.nonce default).1, .ok (.created ⟨1⟩ default)) := by
    intro s empty
    unfold create lookup
    rw [empty, anchor_const default valid]
    rfl
  have again : r.create H store trades = (r, store, .ok (.existing ⟨1⟩)) := by
    unfold r
    rw [new r₀ rfl]
    rfl
  have refused : r₀'.create H store nameless =
      (r₀', store, .error (.invalidInput (.emptyField .name))) := rfl
  have one : made H wishes = [trades] := by
    simp [made, wishes, Wish.created?, Wish.outcome, again, new r₀ rfl]
  have one' : made H wishes' = [trades] := by
    simp [made, wishes', r', Wish.created?, Wish.outcome, refused, new r₀' rfl]
  have same : (r.create H store trades).1.nonce = (r'.create H store trades).1.nonce := by
    rw [again]
    unfold r r'
    rw [refused, new r₀ rfl, new r₀' rfl]
    rfl
  have history : History H r₀ wishes (r.create H store trades).1 :=
    (History.start.create store trades).create store trades
  have history' : History H r₀' wishes' (r'.create H store trades).1 :=
    (History.start.create store nameless).create store trades
  have sized : trades.IsSized := ⟨by decide, by decide, by decide⟩
  refine ⟨one, one', sized, same, (nonce_evident history history' ?_ ?_ ?_ same).resolve_left ?_⟩
  · simpa [one] using sized
  · simpa [one'] using sized
  · rw [one, one']
  · rintro ⟨roots, -⟩
    exact absurd roots (by decide)

end SealedLog.StreamRegistry
