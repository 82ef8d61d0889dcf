import SealedLog.Proofs.Files.Shape
import SealedLog.Proofs.Json.Form

/-!
# Saved manifests

What was written to a path is read from it, whether a file was there before or not. So a manifest
is loaded as it was saved, as long as its version can be read.

* `FileSystem.IsBacked`, `FileSystem.IsWritable`: where anything can be written and kept;
* `FileSystem.read_of_write`: what is read from where something was written;
* `Manifest.load_save`, `Manifest.load_saveAll`: what is loaded from where manifests were saved.
-/

namespace SealedLog

namespace FileSystem

variable {fs fs' : FileSystem} {p : Path} {octets : Bytes}

/-- Every file of the tree has something that it holds. There may be links. -/
def IsBacked (fs : FileSystem) : Prop :=
  ∀ {loc : Location} {id : FileId}, fs.node? loc = some (.file id) → id < fs.contents.length

theorem IsTree.isBacked (tree : fs.IsTree) : fs.IsBacked := tree.backed

/-- Something can be written to the path. -/
def IsWritable (fs : FileSystem) (p : Path) : Prop := ∃ octets fs', fs.write p octets = .ok fs'

/-- If anything can be written to a path then everything can. -/
theorem IsWritable.write (writable : fs.IsWritable p) (octets : Bytes) :
    ∃ fs', fs.write p octets = .ok fs' := by
  obtain ⟨_, fs', written⟩ := writable
  exact write_isOk_iff.2 (write_isOk_iff.1 ⟨fs', written⟩)

/-- Once something was written to a path, the path still leads there, and the file holds it. -/
theorem names_of_write (backed : fs.IsBacked) (h : fs.write p octets = .ok fs') :
    ∃ loc, fs'.Names p loc ∧ fs'.Holds loc (.plain octets) := by
  obtain ⟨loc, names, ⟨id, there, rfl⟩ | ⟨vacant, rfl⟩⟩ := write_cases h
  · exact ⟨loc, names.mono fun _ reaches => reaches.mono fun _ reaches => reaches.there, id, there,
      content_setContent (backed there) _⟩
  · exact ⟨loc, names.mono fun _ reaches => reaches.of_append rfl, _, node?_addFile vacant _,
      content_addFile fs loc _⟩

/-- **What was written to a path is read from it.** -/
theorem read_of_write (backed : fs.IsBacked) (h : fs.write p octets = .ok fs') :
    fs'.read p = .ok (.plain octets) := by
  obtain ⟨loc, names, holds⟩ := names_of_write backed h
  exact names.read holds

theorem IsBacked.write (backed : fs.IsBacked) (h : fs.write p octets = .ok fs') :
    fs'.IsBacked := by
  obtain ⟨loc, -, ⟨id, -, rfl⟩ | ⟨vacant, rfl⟩⟩ := write_cases h
  · intro other id' there
    rw [setContent, List.length_set]
    exact backed there
  · intro other id' there
    rw [addFile, List.length_append]
    by_cases same : other = loc
    · rw [same, node?_addFile vacant] at there
      cases there
      exact Nat.lt_succ_self _
    · rw [node?_addFile_of_ne same] at there
      exact Nat.lt_succ_of_lt (backed there)

/-- What could be written to can be written to again. -/
theorem IsWritable.again (backed : fs.IsBacked) (h : fs.write p octets = .ok fs') :
    fs'.IsWritable p := by
  obtain ⟨loc, names, id, there, -⟩ := names_of_write backed h
  refine ⟨octets, write_isOk_iff.2 ⟨names.fine, names.noSlash, .inl ⟨loc, ?_⟩⟩⟩
  rw [names.walk, found, there]
  rfl

end FileSystem

namespace Manifest

variable {fs fs' : FileSystem} {p : Path}

theorem save_eq_ok_iff (m : Manifest) :
    m.save fs p = .ok fs' ↔ fs.write p m.document = .ok fs' := by
  unfold save
  cases fs.write p m.document <;> simp

theorem load_of_read {octets : Bytes} (reads : fs.read p = .ok (.plain octets)) :
    load fs p = parse octets := by
  rw [load, reads]

/-- What is loaded from where a manifest was saved. -/
theorem load_of_save (m : Manifest) (backed : fs.IsBacked) (saved : m.save fs p = .ok fs') :
    load fs' p = if m.version ≤ 1 then .ok m else .error (.unsupportedVersion m.version) := by
  show load fs' p = if m.version ≤ supportedVersion then _ else _
  rw [load_of_read (FileSystem.read_of_write backed (m.save_eq_ok_iff.1 saved)), parse_document]
  simp only [← UInt32.not_lt, ite_not]

theorem exists_save (m : Manifest) (writable : fs.IsWritable p) : ∃ fs', m.save fs p = .ok fs' := by
  obtain ⟨fs', written⟩ := writable.write m.document
  exact ⟨fs', m.save_eq_ok_iff.2 written⟩

/-- **A manifest is saved wherever anything can be written, and loaded as it was saved**, as long
as its version can be read. -/
theorem load_save (m : Manifest) (backed : fs.IsBacked) (writable : fs.IsWritable p) :
    ∃ fs', m.save fs p = .ok fs' ∧
      load fs' p = if m.version ≤ 1 then .ok m else .error (.unsupportedVersion m.version) := by
  obtain ⟨fs', saved⟩ := m.exists_save writable
  exact ⟨fs', saved, m.load_of_save backed saved⟩

/-- Texts that need escapes and numbers at the ends of their ranges are loaded as they were saved,
and a newer version is refused. -/
theorem load_save_of_escapes :
    let fs := (FileSystem.makeDirectories {} ⟨"run"⟩).1
    let p : Path := ⟨"run/metadata.json"⟩
    let m : Manifest := {
      version := 1
      identifier := "\x00\"\\/\n\x1f\x7f é𝄞"
      files := ["run.db3", "", "\"\""]
      recordCount := 18446744073709551615
      startingTime := Int64.minValue
      duration := Int64.maxValue
      streams := [⟨⟨"\\u0000", "Float32", "raw"⟩, 1, Int64.minValue, Int64.maxValue⟩] }
    let newer : Manifest := { m with version := 4294967295 }
    fs.IsBacked ∧ fs.IsWritable p ∧
      (∃ fs', m.save fs p = .ok fs' ∧ load fs' p = .ok m) ∧
      ∃ fs', newer.save fs p = .ok fs' ∧
        load fs' p = .error (.unsupportedVersion 4294967295) := by
  intro fs p m newer
  have backed : fs.IsBacked := (FileSystem.Sound.empty.makeDirectories _).tree.isBacked
  have writable : fs.IsWritable p := ⟨[], FileSystem.write_isOk_iff.2
    ⟨by decide +kernel, by decide +kernel, .inr ⟨["run", "metadata.json"], by decide +kernel⟩⟩⟩
  exact ⟨backed, writable, m.load_save backed writable, newer.load_save backed writable⟩

/-- Save manifests to the same path, one after the other. -/
def saveAll (fs : FileSystem) (p : Path) (ms : List Manifest) :
    Except ManifestError FileSystem :=
  ms.foldlM (fun fs m => m.save fs p) fs

/-- **The manifest that was saved last is loaded**, whatever was saved to the path before. -/
theorem load_saveAll (ms : List Manifest) (m : Manifest) (backed : fs.IsBacked)
    (writable : fs.IsWritable p) : ∃ fs', saveAll fs p (ms ++ [m]) = .ok fs' ∧
      load fs' p = if m.version ≤ 1 then .ok m else .error (.unsupportedVersion m.version) := by
  induction ms generalizing fs with
  | nil =>
    obtain ⟨fs', saved⟩ := m.exists_save writable
    exact ⟨fs', Except.bind_eq_ok_iff.2 ⟨fs', saved, rfl⟩, m.load_of_save backed saved⟩
  | cons first ms ih =>
    obtain ⟨fs₁, saved⟩ := first.exists_save writable
    have written := first.save_eq_ok_iff.1 saved
    obtain ⟨fs', savedAll, loaded⟩ := ih (backed.write written) (.again backed written)
    exact ⟨fs', Except.bind_eq_ok_iff.2 ⟨fs₁, saved, savedAll⟩, loaded⟩

end Manifest

end SealedLog
