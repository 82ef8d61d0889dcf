import SealedLog.Proofs.Files.Tree

/-!
# The way of a path

The directories of a path are made one below the other, on its way and nowhere else. Whether they
can be made is a matter of the files in the tree: none may stand on the way. So what can be made in
one tree can be made in another one that has no other files and no fewer directories.

* `Location.follow`, `Path.OnWay`: the places that a path leads through;
* `makeDirectories_onWay`: directories come to stand there only;
* `FileSystem.Passable`: no file stands on the way;
* `makeDirectories_again`: in a tree with no more files the directories can be made as well.
-/

namespace SealedLog

/-- Where segments lead from a place, whatever stands there. -/
def Location.follow (l : Location) : List String → Location
  | [] => l
  | name :: rest =>
    if name = "." then follow l rest
    else if name = ".." then follow l.dropLast rest
    else follow (l ++ [name]) rest

namespace Path

/-- Where a path leads, whatever stands there. -/
def location (p : Path) : Location := Location.follow [] p.names

/-- The path leads through this place. -/
def OnWay (p : Path) (loc : Location) : Prop :=
  ∃ front, front <+: p.names ∧ Location.follow [] front = loc

end Path

namespace Location

theorem follow_cons (l : Location) (name : String) (rest : List String) :
    follow l (name :: rest) =
      if name = "." then follow l rest
      else if name = ".." then follow l.dropLast rest
      else follow (l ++ [name]) rest := rfl

theorem follow_append (l : Location) (front rest : List String) :
    follow l (front ++ rest) = follow (follow l front) rest := by
  induction front generalizing l with
  | nil => rfl
  | cons name front ih =>
    rw [List.cons_append, follow_cons, follow_cons]
    split_ifs <;> exact ih _

/-- The single dots on a way lead nowhere. -/
theorem follow_filter (l : Location) (segments : List String) :
    follow l (segments.filter (· != ".")) = follow l segments := by
  induction segments generalizing l with
  | nil => rfl
  | cons name rest ih =>
    rw [List.filter_cons]
    by_cases here : name = "."
    · subst here
      exact ih l
    · rw [if_pos (bne_iff_ne.2 here), follow_cons, follow_cons, ih, ih, ih]

end Location

theorem IsEntry.follow {name : String} (entry : IsEntry name) (l : Location) (rest : List String) :
    Location.follow l (name :: rest) = Location.follow (l ++ [name]) rest := by
  rw [Location.follow_cons, if_neg entry.notHere, if_neg entry.notUp]

namespace FileSystem

variable {fs fs' : FileSystem} {l l' loc : Location} {name : String}
  {segments front rest : List String} {p : Path}

/-! ### Where directories come to stand -/

/-- Segments that lead somewhere lead where they say. -/
theorem Leads.follow (leads : fs.Leads l segments l') : Location.follow l segments = l' := by
  induction leads with
  | done => rfl
  | here _ ih => exact ih
  | up _ ih => exact ih
  | enter entry _ _ ih => exact (entry.follow _ _).trans ih

theorem Leads.names (leads : fs.Leads l segments l') :
    fs.Leads l (segments.filter (· != ".")) l' := by
  induction leads with
  | done => exact .done
  | here _ ih => exact ih
  | up _ ih => exact .up ih
  | enter entry there _ ih =>
    rw [List.filter_cons, if_pos (bne_iff_ne.2 entry.notHere)]
    exact .enter entry there ih

theorem Leads.of_append (leads : fs.Leads l (front ++ rest) l') :
    fs.Leads l front (Location.follow l front) := by
  induction front generalizing l with
  | nil => exact .done
  | cons name front ih =>
    cases leads with
    | here leads => exact .here (ih leads)
    | up leads => exact .up (ih leads)
    | enter entry there leads =>
      rw [entry.follow]
      exact .enter entry there (ih leads)

theorem Leads.location (leads : fs.Leads [] p.segments l) : p.location = l :=
  leads.names.follow

/-- All places on the way to a directory are directories. -/
theorem Leads.reaches_onWay (leads : fs.Leads [] p.segments l) (onWay : p.OnWay loc) :
    fs.Reaches loc := by
  obtain ⟨front, ⟨rest, split⟩, rfl⟩ := onWay
  have named : fs.Leads [] p.names l := leads.names
  rw [← split] at named
  exact named.of_append.reaches .root

/-- A directory that is made stands where the segments lead. -/
theorem ensureDirectory_onWay (h : fs.ensureDirectory segments = .ok fs')
    (there : fs'.node? loc = some .directory) :
    fs.node? loc = some .directory ∨ loc = Location.follow [] segments := by
  obtain ⟨-, rfl⟩ | ⟨new, vacant, rfl⟩ := ensureDirectory_cases h
  · exact .inl there
  · by_cases same : loc = new
    · obtain ⟨front, name, l, rfl, leads, entry, rfl, -⟩ := leads_of_walk_vacant vacant
      refine .inr (same.trans ?_)
      rw [Location.follow_append, leads.follow, entry.follow]
      rfl
    · rw [node?_of_concat_of_ne rfl same] at there
      exact .inl there

/-- The directories that are made for names stand on the way of the names. -/
theorem ensureNames_onWay {names : List String} {answer : Except FileError Unit}
    (made : fs.ensureNames names = (fs', answer)) (there : fs'.node? loc = some .directory) :
    fs.node? loc = some .directory ∨
      ∃ front, front <+: names.reverse ∧ Location.follow [] front = loc := by
  induction names generalizing fs' answer with
  | nil =>
    cases made
    exact .inl there
  | cons name outer ih =>
    have whole : ∀ {fs₁ fs₂ : FileSystem}, fs₁.ensureDirectory (name :: outer).reverse = .ok fs₂ →
        fs₂.node? loc = some .directory → fs₁.node? loc = some .directory ∨
          ∃ front, front <+: (name :: outer).reverse ∧ Location.follow [] front = loc :=
      fun made there => (ensureDirectory_onWay made there).imp_right fun same =>
        ⟨_, List.prefix_rfl, same.symm⟩
    have above : ∀ {fs₁ answer}, fs.ensureNames outer = (fs₁, answer) →
        fs₁.node? loc = some .directory → fs.node? loc = some .directory ∨
          ∃ front, front <+: (name :: outer).reverse ∧ Location.follow [] front = loc :=
      fun made there => (ih made there).imp_right fun ⟨front, before, same⟩ =>
        ⟨front, before.trans (by simp), same⟩
    unfold ensureNames at made
    dsimp only at made
    split at made
    · rename_i atOnce
      cases made
      exact whole atOnce there
    · split at made
      · rename_i failed
        cases made
        exact above failed there
      · rename_i outside
        split at made
        · rename_i last
          cases made
          exact (whole last there).elim (above outside) .inr
        · cases made
          exact above outside there
    · cases made
      exact .inl there

/-- **Directories are made on the way of the path**, and nowhere else. -/
theorem makeDirectories_onWay {answer : Except FileError Unit}
    (made : fs.makeDirectories p = (fs', answer)) (there : fs'.node? loc = some .directory) :
    fs.node? loc = some .directory ∨ p.OnWay loc := by
  have whole : ∀ {fs₁ fs₂ : FileSystem}, fs₁.ensureDirectory p.segments = .ok fs₂ →
      fs₂.node? loc = some .directory → fs₁.node? loc = some .directory ∨ p.OnWay loc :=
    fun made there => (ensureDirectory_onWay made there).imp_right fun same =>
      ⟨_, List.prefix_rfl, (Location.follow_filter [] _).trans same.symm⟩
  have above : ∀ {fs₁ answer}, fs.ensureNames (p.names.reverse.drop 1) = (fs₁, answer) →
      fs₁.node? loc = some .directory → fs.node? loc = some .directory ∨ p.OnWay loc :=
    fun made there => (ensureNames_onWay made there).imp_right fun ⟨front, before, same⟩ =>
      ⟨front, before.trans (by simpa using List.dropLast_prefix p.names), same⟩
  unfold makeDirectories at made
  split at made
  · cases made
    exact .inl there
  · split at made
    · rename_i atOnce
      cases made
      exact whole atOnce there
    · split at made
      · rename_i failed
        cases made
        exact above failed there
      · rename_i outside
        split at made
        · rename_i last
          cases made
          exact (whole last there).elim (above outside) .inr
        · cases made
          exact above outside there
    · cases made
      exact .inl there

/-! ### Whether directories can be made -/

/-- Files stand in a tree where they stand in another one, or fewer of them. -/
def FilesWithin (fs fs' : FileSystem) : Prop :=
  ∀ loc id', fs'.node? loc = some (.file id') → ∃ id, fs.node? loc = some (.file id)

/-- No file stands on the way, and the names on it fit. -/
inductive Passable (fs : FileSystem) : Location → List String → Prop
  | done {l : Location} : fs.Passable l []
  | here {l : Location} {segments : List String} (rest : fs.Passable l segments) :
      fs.Passable l ("." :: segments)
  | up {l : Location} {segments : List String} (rest : fs.Passable l.dropLast segments) :
      fs.Passable l (".." :: segments)
  | enter {l : Location} {name : String} {segments : List String} (entry : IsEntry name)
      (noFile : ∀ id, fs.node? (l ++ [name]) ≠ some (.file id))
      (rest : fs.Passable (l ++ [name]) segments) : fs.Passable l (name :: segments)

theorem Leads.passable (leads : fs.Leads l segments l') : fs.Passable l segments := by
  induction leads with
  | done => exact .done
  | here _ ih => exact .here ih
  | up _ ih => exact .up ih
  | enter entry there _ ih =>
    refine .enter entry (fun id file => ?_) ih
    rw [there] at file
    cases file

namespace Passable

theorem mono (passable : fs.Passable l segments) (files : fs.FilesWithin fs') :
    fs'.Passable l segments := by
  induction passable with
  | done => exact .done
  | here _ ih => exact .here ih
  | up _ ih => exact .up ih
  | enter entry noFile _ ih =>
    refine .enter entry (fun id' there => ?_) ih
    obtain ⟨id, old⟩ := files _ id' there
    exact noFile id old

theorem names (passable : fs.Passable l segments) :
    fs.Passable l (segments.filter (· != ".")) := by
  induction passable with
  | done => exact .done
  | here _ ih => exact ih
  | up _ ih => exact .up ih
  | enter entry noFile _ ih =>
    rw [List.filter_cons, if_pos (bne_iff_ne.2 entry.notHere)]
    exact .enter entry noFile ih

theorem of_append (passable : fs.Passable l (front ++ rest)) : fs.Passable l front := by
  induction front generalizing l with
  | nil => exact .done
  | cons name front ih =>
    cases passable with
    | here passable => exact .here (ih passable)
    | up passable => exact .up (ih passable)
    | enter entry noFile passable => exact .enter entry noFile (ih passable)

/-- **Where no file is in the way**, one finds a directory, a place for one, or that a directory is
missing before it. -/
theorem walk (passable : fs.Passable l segments) :
    (∃ l', fs.walk l segments = .ok (.directory l')) ∨
      (∃ loc, fs.walk l segments = .ok (.vacant loc)) ∨ fs.walk l segments = .error .notFound := by
  induction passable with
  | done => exact .inl ⟨_, rfl⟩
  | here _ ih => exact ih
  | up _ ih => exact ih
  | @enter l name segments entry noFile _ ih =>
    rw [walk_cons, if_neg entry.notHere, if_neg entry.notUp, if_neg (Nat.not_lt.2 entry.fits)]
    cases there : fs.node? (l ++ [name]) with
    | none =>
      cases segments with
      | nil => exact .inr (.inl ⟨_, rfl⟩)
      | cons next rest => exact .inr (.inr rfl)
    | some node =>
      cases node with
      | directory => exact ih
      | file id => exact absurd there (noFile id)

end Passable

theorem ensureDirectory_of_directory (there : fs.walk [] segments = .ok (.directory l)) :
    fs.ensureDirectory segments = .ok fs := by
  rw [ensureDirectory, makeDirectory, there]

theorem ensureDirectory_of_vacant (vacant : fs.walk [] segments = .ok (.vacant loc)) :
    fs.ensureDirectory segments = .ok { fs with nodes := fs.nodes ++ [(loc, .directory)] } := by
  rw [ensureDirectory, makeDirectory, vacant]

theorem ensureDirectory_of_notFound (missing : fs.walk [] segments = .error .notFound) :
    fs.ensureDirectory segments = .error .notFound := by
  rw [ensureDirectory, makeDirectory, missing]

/-- Directories stand in a tree where they stand in another one, and maybe more of them. -/
def DirectoriesWithin (fs fs' : FileSystem) : Prop :=
  ∀ loc, fs.node? loc = some .directory → fs'.node? loc = some .directory

theorem DirectoriesWithin.reaches (directories : fs.DirectoriesWithin fs') (l : Location)
    (reaches : fs.Reaches l) : fs'.Reaches l :=
  reaches.mono fun loc reaches => directories loc reaches.there

/-- A directory that can be made can be made in a tree with no more files and no fewer
directories. -/
theorem ensureDirectory_again {fs₁ : FileSystem} (h : fs.ensureDirectory segments = .ok fs₁)
    (directories : fs.DirectoriesWithin fs') (files : fs.FilesWithin fs') :
    ∃ fs₁', fs'.ensureDirectory segments = .ok fs₁' := by
  obtain ⟨⟨l, there⟩, -⟩ | ⟨new, vacant, -⟩ := ensureDirectory_cases h
  · have leads := (leads_of_walk there).mono .root directories.reaches
    have there' := leads.walk_append []
    rw [List.append_nil] at there'
    exact ⟨fs', ensureDirectory_of_directory there'⟩
  · obtain ⟨front, name, l, rfl, leads, entry, rfl, none⟩ := leads_of_walk_vacant vacant
    have leads' := leads.mono .root directories.reaches
    have walks : fs'.walk [] (front ++ [name]) = .ok (fs'.found (l ++ [name])) := by
      rw [leads'.walk_append, walk_name entry]
    unfold found at walks
    cases there : fs'.node? (l ++ [name]) with
    | none =>
      rw [there] at walks
      exact ⟨_, ensureDirectory_of_vacant walks⟩
    | some node =>
      rw [there] at walks
      cases node with
      | directory => exact ⟨_, ensureDirectory_of_directory walks⟩
      | file id =>
        obtain ⟨id, old⟩ := files _ id there
        rw [none] at old
        cases old

theorem ensureNames_eq_ok {names : List String} (h : fs.ensureNames names = (fs', .ok ())) :
    fs.AddsDirectories fs' ∧ ∃ l, fs'.Leads [] names.reverse l := by
  have adds : fs.AddsDirectories (fs.ensureNames names).1 :=
    ensureNames_induction (fun _ _ _ adds made => adds.trans (ensureDirectory_eq_ok made).1)
      (.refl fs) _
  rw [h] at adds
  refine ⟨adds, ?_⟩
  cases names with
  | nil => exact ⟨[], .done⟩
  | cons name outer =>
    unfold ensureNames at h
    dsimp only at h
    split at h
    · rename_i made
      cases h
      exact (ensureDirectory_eq_ok made).2
    · split at h
      · cases h
      · split at h
        · rename_i made
          cases h
          exact (ensureDirectory_eq_ok made).2
        · cases h
    · cases h

theorem walk_single_ne_notFound (fs : FileSystem) (l : Location) (name : String) :
    fs.walk l [name] ≠ .error .notFound := by
  rw [walk_cons]
  split_ifs
  · exact nofun
  · exact nofun
  · exact nofun
  · cases fs.node? (l ++ [name]) with
    | none => exact nofun
    | some node => cases node <;> exact nofun

/-- Where no file is in the way the directories for names can be made. -/
theorem Passable.ensureNames {names : List String} (passable : fs.Passable [] names.reverse) :
    ∃ fs', fs.ensureNames names = (fs', .ok ()) := by
  induction names with
  | nil => exact ⟨fs, rfl⟩
  | cons name outer ih =>
    unfold FileSystem.ensureNames
    dsimp only
    obtain ⟨l, there⟩ | ⟨loc, vacant⟩ | missing := passable.walk
    · rw [ensureDirectory_of_directory there]
      exact ⟨_, rfl⟩
    · rw [ensureDirectory_of_vacant vacant]
      exact ⟨_, rfl⟩
    · rw [ensureDirectory_of_notFound missing]
      rw [List.reverse_cons] at passable ⊢
      obtain ⟨fs₁, made⟩ := ih passable.of_append
      rw [made]
      dsimp only
      -- the directory is made once those above it are there
      obtain ⟨adds, l, leads⟩ := ensureNames_eq_ok made
      have passable₁ : fs₁.Passable [] (outer.reverse ++ [name]) :=
        passable.mono fun loc id there => ⟨id, adds.file there⟩
      obtain ⟨l', there⟩ | ⟨loc, vacant⟩ | missing := passable₁.walk
      · rw [ensureDirectory_of_directory there]
        exact ⟨_, rfl⟩
      · rw [ensureDirectory_of_vacant vacant]
        exact ⟨_, rfl⟩
      · rw [leads.walk_append] at missing
        exact absurd missing (walk_single_ne_notFound fs₁ l name)

/-- What making directories has gone through once it succeeds: the last one could be made at once,
or after those above it. -/
theorem makeDirectories_steps {fs₁ : FileSystem} (h : fs.makeDirectories p = (fs₁, .ok ())) :
    checkPath p = .ok () ∧ (fs.ensureDirectory p.segments = .ok fs₁ ∨
      ∃ above, fs.ensureNames (p.names.reverse.drop 1) = (above, .ok ()) ∧
        above.ensureDirectory p.segments = .ok fs₁) := by
  unfold makeDirectories at h
  split at h
  · cases h
  · rename_i fine
    refine ⟨fine, ?_⟩
    split at h
    · rename_i made
      cases h
      exact .inl made
    · split at h
      · cases h
      · rename_i above outside
        split at h
        · rename_i made
          cases h
          exact .inr ⟨above, outside, made⟩
        · cases h
    · cases h

/-- Once directories were made for names, those of another tree stand in it that were made so. -/
theorem directoriesWithin_of_ensureNames {names : List String} {above above' : FileSystem}
    (directories : fs.DirectoriesWithin fs') (made : fs.ensureNames names = (above, .ok ()))
    (made' : fs'.ensureNames names = (above', .ok ())) : above.DirectoriesWithin above' := by
  intro loc there
  obtain ⟨adds, l, leads⟩ := ensureNames_eq_ok made'
  rcases ensureNames_onWay made there with old | ⟨front, ⟨rest, split⟩, rfl⟩
  · obtain ⟨more, nodes, -⟩ := adds
    exact node?_of_append nodes (directories loc old)
  · rw [← split] at leads
    exact (leads.of_append.reaches .root).there

/-- **Directories that can be made can be made in a tree with no more files**, as long as it has no
fewer directories. -/
theorem makeDirectories_again {fs₁ : FileSystem} (h : fs.makeDirectories p = (fs₁, .ok ()))
    (directories : fs.DirectoriesWithin fs') (files : fs.FilesWithin fs') :
    ∃ fs₁', fs'.makeDirectories p = (fs₁', .ok ()) := by
  obtain ⟨-, ⟨more, nodes, -⟩, l, leads⟩ := makeDirectories_eq_ok h
  obtain ⟨fine, steps⟩ := makeDirectories_steps h
  -- no file is in the way, since none was in the way of the directories that were made
  have passable : fs'.Passable [] p.segments := leads.passable.mono fun loc id there => by
    obtain ⟨id', old⟩ := files loc id there
    exact ⟨id', node?_of_append nodes old⟩
  unfold makeDirectories
  rw [fine]
  dsimp only
  obtain made | ⟨above, outside, made⟩ := steps
  · obtain ⟨fs₁', made'⟩ := ensureDirectory_again made directories files
    rw [made']
    exact ⟨_, rfl⟩
  · obtain ⟨l, there⟩ | ⟨loc, vacant⟩ | missing := passable.walk
    · rw [ensureDirectory_of_directory there]
      exact ⟨_, rfl⟩
    · rw [ensureDirectory_of_vacant vacant]
      exact ⟨_, rfl⟩
    · rw [ensureDirectory_of_notFound missing]
      dsimp only
      have outer : fs'.Passable [] (p.names.reverse.drop 1).reverse := by
        obtain ⟨rest, split⟩ : (p.names.reverse.drop 1).reverse <+: p.names := by
          simpa using List.dropLast_prefix p.names
        have named : fs'.Passable [] p.names := passable.names
        rw [← split] at named
        exact named.of_append
      obtain ⟨above', outside'⟩ := outer.ensureNames
      rw [outside']
      dsimp only
      obtain ⟨⟨more', nodes', -⟩, -⟩ := ensureNames_eq_ok outside
      obtain ⟨adds', -⟩ := ensureNames_eq_ok outside'
      obtain ⟨fs₁', made'⟩ := ensureDirectory_again made
        (directoriesWithin_of_ensureNames directories outside outside') fun loc id there => by
          obtain ⟨id', old⟩ := files loc id (adds'.file there)
          exact ⟨id', node?_of_append nodes' old⟩
      rw [made']
      exact ⟨_, rfl⟩

end FileSystem

end SealedLog
