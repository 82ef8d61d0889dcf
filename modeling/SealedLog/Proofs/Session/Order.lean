import SealedLog.Proofs.Files.Order
import SealedLog.Proofs.Session.Directory

/-!
# Desks in order

Whatever a session does, and whether or not it succeeds, the tree stays sound and the store that it
has open stays in order.

* `Session.refreshManifest_inOrder`, `Session.openAt_inOrder`: keeping a manifest, and opening;
* `Desk.Step`: what a session may do with its store and its tree;
* `Desk.InOrder`, `Desk.InOrder.step`: everything stays in order.
-/

namespace SealedLog

variable {H : HashFunction} {s : Session} {fs fs' : FileSystem} {a : Attached}

namespace Session

/-- A manifest that is written is put into the tree. -/
theorem saveManifest_eq_ok {uri : Path} {m : StorageMetadata}
    (h : s.saveManifest fs uri m = .ok fs') :
    fs.write (s.manifestPath uri) (Manifest.ofMetadata m).document = .ok fs' := by
  unfold saveManifest Manifest.save at h
  cases written : fs.write (s.manifestPath uri) (Manifest.ofMetadata m).document with
  | error e =>
    rw [written] at h
    cases h
  | ok fs'' =>
    rw [written] at h
    cases h
    rfl

theorem refreshManifest_inOrder (s : Session) (sound : fs.Sound) (inOrder : a.InOrder)
    (o : OpenState) :
    (s.refreshManifest fs o a).2.1.Sound ∧ (s.refreshManifest fs o a).1.InOrder := by
  unfold refreshManifest
  cases o.uri with
  | none => exact ⟨sound, inOrder⟩
  | some uri =>
    dsimp only
    split_ifs
    · have sound' := sound.save a (a.load fs).visitMetadata
      have inOrder' := inOrder.save (visitMetadata_lasting
        (Store.joins_lasting (a.load fs)).toViewed (Store.Joins.refl (a.load fs)))
      cases saved : (o.metadata (a.load fs)).bind
          (s.saveManifest (a.save fs (a.load fs).visitMetadata).2 uri) with
      | error e => exact ⟨sound', inOrder'⟩
      | ok fs' =>
        obtain ⟨m, -, saved⟩ := Except.bind_eq_ok_iff.1 saved
        exact ⟨sound'.write (saveManifest_eq_ok saved), inOrder'⟩
    · exact ⟨sound, inOrder⟩

/-- Opening the backing file, however that ends. -/
theorem openBacking_inOrder (sound : fs.Sound) (o : Opening) (p : Path) :
    (o.openBacking fs p).1.Sound ∧ ∀ a, (o.openBacking fs p).2 = .ok a → a.InOrder := by
  obtain ⟨sound', inOrder⟩ := FileSystem.openStore_inOrder sound p o.mode
  unfold Opening.openBacking
  rcases opened : fs.openStore p o.mode with ⟨fs', e | a⟩ <;> rw [opened] at sound' inOrder
  · exact ⟨sound', fun a answer => nomatch answer⟩
  · cases o.refusal with
    | some e => exact ⟨sound', fun a answer => nomatch answer⟩
    | none =>
      refine ⟨sound', fun a' answer => ?_⟩
      cases answer
      exact (inOrder a rfl).failing o.faults

theorem furnish_inOrder (s : Session) (sound : fs.Sound) (inOrder : a.InOrder) (o : Opening)
    (opened : OpenState) :
    (s.furnish fs o opened a).2.1.Sound ∧ (s.furnish fs o opened a).1.InOrder := by
  have joins := (Store.Joins.refl (a.load fs)).createSchema
  unfold furnish
  rcases made : (a.load fs).createSchema with ⟨store, e | _⟩ <;> rw [made] at joins
  · exact ⟨sound.save a store, inOrder.save joins⟩
  · exact s.refreshManifest_inOrder (sound.save a store) (inOrder.save joins) opened

/-- **Opening a directory leaves the tree sound**, and the store that is opened is in order. -/
theorem openAt_inOrder (s : Session) (sound : fs.Sound) (key : StoreKey) (o : Opening) :
    (s.openAt fs key o).files.Sound ∧ ∀ a, (s.openAt fs key o).answer = .ok a → a.InOrder := by
  unfold openAt
  split_ifs
  · exact ⟨sound, fun a answer => nomatch answer⟩
  · unfold openReading
    cases s.findBacking fs o.uri with
    | error e => exact ⟨sound, fun a answer => nomatch answer⟩
    | ok found =>
      obtain ⟨backing, files⟩ := found
      obtain ⟨sound', inOrder⟩ := openBacking_inOrder sound o backing
      dsimp only
      rcases opened : o.openBacking fs backing with ⟨fs', e | a⟩ <;> rw [opened] at sound' inOrder
      · exact ⟨sound', fun a answer => nomatch answer⟩
      · refine ⟨sound', fun a' answer => ?_⟩
        cases answer
        exact inOrder a rfl
  · unfold openWriting
    cases o.backingName? with
    | none => exact ⟨sound, fun a answer => nomatch answer⟩
    | some name =>
      have made := sound.makeDirectories o.uri
      dsimp only
      rcases directories : fs.makeDirectories o.uri with ⟨fs₁, e | _⟩ <;> rw [directories] at made
      · exact ⟨made, fun a answer => nomatch answer⟩
      · dsimp only
        split_ifs
        · exact ⟨made, fun a answer => nomatch answer⟩
        · obtain ⟨sound', inOrder⟩ := openBacking_inOrder made o (o.uri.join name)
          rcases opened : o.openBacking fs₁ (o.uri.join name) with ⟨fs₂, e | a⟩ <;>
            rw [opened] at sound' inOrder
          · exact ⟨sound'.removeFile _, fun a answer => nomatch answer⟩
          · obtain ⟨sound'', inOrder'⟩ := s.furnish_inOrder sound' (inOrder a rfl) o
              { store := key, mode := o.mode, uri := some o.uri, files := [name] }
            dsimp only
            rcases furnished : s.furnish fs₂ o
                { store := key, mode := o.mode, uri := some o.uri, files := [name] } a
              with ⟨a', fs₃, e | _⟩ <;> rw [furnished] at sound'' inOrder'
            · exact ⟨sound''.removeFile _, fun a answer => nomatch answer⟩
            · refine ⟨sound'', fun a answer => ?_⟩
              cases answer
              exact inOrder'

theorem close_inOrder (s : Session) (sound : fs.Sound) (inOrder : a.InOrder) :
    (s.close fs a).files.Sound ∧ (s.close fs a).attached.InOrder := by
  cases there : s.opened with
  | none =>
    unfold close
    rw [there]
    exact ⟨sound, inOrder⟩
  | some o =>
    rw [close_of_opened there]
    exact s.refreshManifest_inOrder sound inOrder o

end Session

namespace Desk

variable {d d' : Desk}

/-- What a session does with the store and the tree that it has: it attaches the store, or opens a
directory, whether that succeeds or not; it is asked something; it closes; the store is closed, or
others of its operations fail. -/
inductive Step (H : HashFunction) (d : Desk) : Desk → Prop
  | attach (key : StoreKey) (mode : AccessMode) :
      Step H d (d.put (d.session.attach d.store key mode).session
        (d.session.attach d.store key mode).store)
  | openAt (key : StoreKey) (o : Opening) :
      Step H d ⟨(d.session.openAt d.files key o).session, (d.session.openAt d.files key o).files,
        match (d.session.openAt d.files key o).answer with
        | .error _ => d.attached
        | .ok attached => attached⟩
  | call (c : SessionCall) : Step H d (d.call H c)
  | close : Step H d ⟨d.close.session, d.close.files, d.close.attached⟩
  | release (isShared : Bool) : Step H d { d with files := d.attached.close d.files isShared }
  | fail (faults : FaultPlan) : Step H d (d.failing faults)

/-- The tree is sound and the store in order. -/
structure InOrder (d : Desk) : Prop where
  files : d.files.Sound
  attached : d.attached.InOrder

theorem InOrder.put (inOrder : d.InOrder) (session : Session) {store : Store}
    (joins : d.store.Joins store) : (d.put session store).InOrder :=
  ⟨inOrder.files.save _ _, inOrder.attached.save joins⟩

/-- **Whatever a session does, everything stays in order.** -/
theorem InOrder.step (inOrder : d.InOrder) (step : Step H d d') : d'.InOrder := by
  cases step with
  | attach key mode =>
    refine inOrder.put _ ?_
    have created := (Store.Joins.refl d.store).createSchema
    unfold Session.attach
    split_ifs
    · exact .refl d.store
    · exact .refl d.store
    · rcases made : d.store.createSchema with ⟨store, e | _⟩ <;> rw [made] at created <;>
        exact created
  | openAt key o =>
    obtain ⟨sound, opened⟩ := d.session.openAt_inOrder inOrder.files key o
    refine ⟨sound, ?_⟩
    dsimp only
    cases answer : (d.session.openAt d.files key o).answer with
    | error e => exact inOrder.attached
    | ok a => exact opened a answer
  | call c =>
    exact inOrder.put _
      (Session.call_lasts (Store.joins_lasting d.store) c (Store.Joins.refl d.store)).store
  | close =>
    obtain ⟨sound, attached⟩ := d.session.close_inOrder inOrder.files inOrder.attached
    exact ⟨sound, attached⟩
  | release isShared => exact ⟨inOrder.files.close _ _, inOrder.attached⟩
  | fail faults => exact ⟨inOrder.files, inOrder.attached.failing faults⟩

end Desk

end SealedLog
