import Mathlib.Tactic.SplitIfs
import SealedLog.Files.Database
import SealedLog.Proofs.Except

/-!
# Following paths

* `Path.segments_join`: the segments of a path below another;
* `FileSystem.Leads`: segments lead from one directory to another;
* `FileSystem.Reaches`: a location is a directory, and so are all above it;
* `FileSystem.found`, `Reaches.walk_concat`: what stands under a name in a directory;
* `makeDirectories_eq_ok`: what is there once directories were made;
* `Holds`, `Puts`: a file holds this, and was put there;
* `read_join`, `write_join`, `resolve_join`, `findDatabase_eq`: what paths in a directory come to.
-/

namespace SealedLog

namespace Path

variable {p : Path} {name : String}

theorem split_ne_nil (cs : List Char) : split cs ≠ [] := by
  cases cs with
  | nil => simp [split]
  | cons c cs =>
    unfold split
    split <;> simp

theorem split_slash (cs : List Char) : split ('/' :: cs) = [] :: split cs := by
  rw [split]

theorem split_cons {c : Char} (other : c ≠ '/') (cs : List Char) :
    ∃ part parts, split cs = part :: parts ∧ split (c :: cs) = (c :: part) :: parts := by
  obtain ⟨part, parts, h⟩ := List.exists_cons_of_ne_nil (split_ne_nil cs)
  refine ⟨part, parts, h, ?_⟩
  unfold split
  rw [h]
  split
  · contradiction
  · rename_i none
    cases none
  · rename_i same
    rw [List.cons.injEq] at same
    rw [same.1, same.2]

/-- A slash separates what is before it from what is behind it. -/
theorem split_append (before after : List Char) :
    split (before ++ '/' :: after) = split before ++ split after := by
  induction before with
  | nil => exact split_slash after
  | cons c before ih =>
    by_cases slash : c = '/'
    · rw [slash, List.cons_append, split_slash, split_slash, ih]
      rfl
    · obtain ⟨part, parts, h, whole⟩ := split_cons slash before
      obtain ⟨part', parts', h', whole'⟩ := split_cons slash (before ++ '/' :: after)
      rw [ih, h, List.cons_append, List.cons.injEq] at h'
      rw [List.cons_append, whole, whole', ← h'.1, ← h'.2]
      rfl

theorem split_of_not_mem {cs : List Char} (single : '/' ∉ cs) : split cs = [cs] := by
  induction cs with
  | nil => rfl
  | cons c cs ih =>
    rw [List.mem_cons, not_or] at single
    obtain ⟨part, parts, h, whole⟩ := split_cons (Ne.symm single.1) cs
    rw [ih single.2, List.cons.injEq] at h
    rw [whole, ← h.1, ← h.2]

theorem not_mem_of_mem_split {cs part : List Char} (h : part ∈ split cs) : '/' ∉ part := by
  induction cs generalizing part with
  | nil =>
    rw [List.mem_singleton.1 h]
    exact List.not_mem_nil
  | cons c cs ih =>
    by_cases slash : c = '/'
    · rw [slash, split_slash] at h
      rcases List.mem_cons.1 h with rfl | later
      · exact List.not_mem_nil
      · exact ih later
    · obtain ⟨first, rest, h', whole⟩ := split_cons slash cs
      rw [whole] at h
      rcases List.mem_cons.1 h with rfl | later
      · rw [List.mem_cons, not_or]
        exact ⟨Ne.symm slash, ih (h' ▸ List.mem_cons_self)⟩
      · exact ih (h' ▸ List.mem_cons_of_mem _ later)

/-- A text that can stand between slashes. -/
structure IsSegment (name : String) : Prop where
  some : name.toList ≠ []
  single : '/' ∉ name.toList

theorem isSegment_of_mem {segment : String} (h : segment ∈ p.segments) : IsSegment segment := by
  obtain ⟨part, mem, rfl⟩ := List.mem_map.1 h
  obtain ⟨mem, some⟩ := List.mem_filter.1 mem
  constructor
  · rw [String.toList_ofList]
    simpa using some
  · rw [String.toList_ofList]
    exact not_mem_of_mem_split mem

theorem segments_mk (text : String) : (⟨text⟩ : Path).segments =
    ((split text.toList).filter fun part => !part.isEmpty).map String.ofList := rfl

/-- The segments of a path below a directory. -/
theorem segments_join (p : Path) (segment : IsSegment name) :
    (p.join name).segments = p.segments ++ [name] := by
  rcases p with ⟨text⟩
  have relative : ¬ (name.toList.head? == some '/') = true := by
    intro slash
    exact segment.single (List.mem_of_head? (by simpa using slash))
  have some : name.toList.isEmpty = false := by simpa using segment.some
  -- behind a slash the name is the last part
  have last : ∀ front : List Char,
      ((split (front ++ '/' :: name.toList)).filter fun part => !part.isEmpty).map String.ofList =
        ((split front).filter fun part => !part.isEmpty).map String.ofList ++ [name] := by
    intro front
    rw [split_append, split_of_not_mem segment.single, List.filter_append, List.map_append]
    simp [some]
  rw [join]
  dsimp only
  split_ifs with alone slash
  · have none : text.toList = [] := by simpa [relative] using alone
    rw [segments_mk, segments_mk, none, split_of_not_mem segment.single]
    simp [some, split]
  · obtain ⟨front, ends⟩ : ∃ front, text.toList = front ++ ['/'] :=
      List.getLast?_eq_some_iff.1 (by simpa [endsInSlash] using slash)
    rw [segments_mk, segments_mk, String.toList_append, ends, List.append_assoc,
      List.singleton_append, last, split_append]
    simp [split]
  · rw [segments_mk, segments_mk, String.toList_append, String.toList_append, List.append_assoc]
    exact last text.toList

/-- A path below a directory names no directory by a slash at its end. -/
theorem endsInSlash_join (p : Path) (segment : IsSegment name) :
    (p.join name).endsInSlash = false := by
  have ends : ∀ front : String, (⟨front ++ name⟩ : Path).endsInSlash = false := by
    intro front
    obtain ⟨last, ends⟩ := Option.isSome_iff_exists.1 (List.getLast?_isSome.2 segment.some)
    rw [endsInSlash, String.toList_append, List.getLast?_append, ends, Option.some_or,
      beq_eq_false_iff_ne]
    rintro ⟨⟩
    exact segment.single (List.mem_of_getLast? ends)
  rw [join]
  split_ifs
  · simpa using ends ""
  · exact ends p.text
  · exact ends (p.text ++ "/")

/-- Unless a path ends in a slash, its text ends in the last segment. -/
theorem suffix_of_segments {front : List String} (segments : p.segments = front ++ [name])
    (noSlash : p.endsInSlash = false) : name.toList <:+ p.text.toList := by
  rcases p with ⟨text⟩
  rw [segments_mk] at segments
  dsimp only
  by_cases slash : '/' ∈ text.toList
  · -- behind the last slash of the text is the last segment
    obtain ⟨last, before, split, single⟩ :=
      List.eq_append_cons_of_mem (List.mem_reverse.2 slash)
    have text' : text.toList = before.reverse ++ '/' :: last.reverse := by
      simpa using congrArg List.reverse split
    have single' : '/' ∉ last.reverse := by simpa using single
    have some : last.reverse ≠ [] := by
      intro none
      rw [endsInSlash, text', none, List.getLast?_concat, beq_self_eq_true] at noSlash
      cases noSlash
    have kept : [last.reverse].filter (fun part => !part.isEmpty) = [last.reverse] := by
      simpa using some
    rw [text', split_append, split_of_not_mem single', List.filter_append, kept, List.map_append]
      at segments
    have same : String.ofList last.reverse = name :=
      List.singleton_inj.1 (List.append_inj_right' segments rfl)
    rw [text', ← same, String.toList_ofList]
    exact (List.suffix_cons _ _).trans (List.suffix_append _ _)
  · have mem : name ∈ ([text.toList].filter fun part => !part.isEmpty).map String.ofList := by
      rw [← split_of_not_mem slash, segments]
      exact List.mem_concat_self
    obtain ⟨part, only, rfl⟩ := List.mem_map.1 mem
    have same : part = text.toList := List.mem_singleton.1 (List.mem_filter.1 only).1
    exact (String.toList_ofList.trans same).symm ▸ List.suffix_refl _

/-- The text of a path below another ends in what was put there, behind a slash or nothing. -/
theorem exists_text_join (p : Path) (relative : String) : ∃ front : String,
    (p.join relative).text = front ++ relative ∧
      (front = "" ∨ front.toList.getLast? = some '/') := by
  rw [join]
  split_ifs with alone slash
  · exact ⟨"", rfl, .inl rfl⟩
  · exact ⟨p.text, rfl, .inr (beq_iff_eq.1 slash)⟩
  · refine ⟨p.text ++ "/", rfl, .inr ?_⟩
    rw [String.toList_append]
    exact List.getLast?_concat

/-- The names of a path below a directory. -/
theorem names_join (p : Path) (segment : IsSegment name) (plain : name ≠ ".") :
    (p.join name).names = p.names ++ [name] := by
  rw [names, segments_join p segment, List.filter_append, names]
  simp [plain]

end Path

/-- A name of its own, not too long to stand in a directory. -/
structure IsEntry (name : String) : Prop where
  notHere : name ≠ "."
  notUp : name ≠ ".."
  fits : (Bytes.ofText name).length ≤ FileSystem.maxName

namespace FileSystem

variable {fs fs' : FileSystem} {l l' loc : Location} {name : String} {segments more : List String}

/-! ### Directories -/

/-- Segments lead from a directory to another one. -/
inductive Leads (fs : FileSystem) : Location → List String → Location → Prop
  | done {l : Location} : fs.Leads l [] l
  | here {l l' : Location} {segments : List String} (rest : fs.Leads l segments l') :
      fs.Leads l ("." :: segments) l'
  | up {l l' : Location} {segments : List String} (rest : fs.Leads l.dropLast segments l') :
      fs.Leads l (".." :: segments) l'
  | enter {l l' : Location} {name : String} {segments : List String} (entry : IsEntry name)
      (there : fs.node? (l ++ [name]) = some .directory)
      (rest : fs.Leads (l ++ [name]) segments l') : fs.Leads l (name :: segments) l'

/-- The location is a directory, and so are all above it. -/
inductive Reaches (fs : FileSystem) : Location → Prop
  | root : fs.Reaches []
  | enter {l : Location} {name : String} (outer : fs.Reaches l) (entry : IsEntry name)
      (there : fs.node? (l ++ [name]) = some .directory) : fs.Reaches (l ++ [name])

/-- What stands at a location in a directory. -/
def found (fs : FileSystem) (location : Location) : Found :=
  match fs.node? location with
  | some .directory => .directory location
  | some (.file id) => .file location id
  | none => .vacant location

theorem walk_cons (fs : FileSystem) (l : Location) (name : String) (rest : List String) :
    fs.walk l (name :: rest) =
      if name = "." then fs.walk l rest
      else if name = ".." then fs.walk l.dropLast rest
      else if maxName < (Bytes.ofText name).length then .error .nameTooLong
      else
        match fs.node? (l ++ [name]), rest with
        | some .directory, _ => fs.walk (l ++ [name]) rest
        | some (.file id), [] => .ok (.file (l ++ [name]) id)
        | some (.file _), _ :: _ => .error .notDirectory
        | none, [] => .ok (.vacant (l ++ [name]))
        | none, _ :: _ => .error .notFound := rfl

theorem walk_enter (entry : IsEntry name) (there : fs.node? (l ++ [name]) = some .directory) :
    fs.walk l (name :: segments) = fs.walk (l ++ [name]) segments := by
  rw [walk_cons, if_neg entry.notHere, if_neg entry.notUp, if_neg (Nat.not_lt.2 entry.fits), there]

theorem walk_name (entry : IsEntry name) : fs.walk l [name] = .ok (fs.found (l ++ [name])) := by
  rw [walk_cons, if_neg entry.notHere, if_neg entry.notUp, if_neg (Nat.not_lt.2 entry.fits), found]
  cases fs.node? (l ++ [name]) with
  | none => rfl
  | some node => cases node <;> rfl

theorem Leads.walk_append (leads : fs.Leads l segments l') (more : List String) :
    fs.walk l (segments ++ more) = fs.walk l' more := by
  induction leads with
  | done => rfl
  | here _ ih =>
    rw [List.cons_append, walk_cons, if_pos rfl]
    exact ih
  | up _ ih =>
    rw [List.cons_append, walk_cons, if_neg (by decide), if_pos rfl]
    exact ih
  | enter entry there _ ih =>
    rw [List.cons_append, walk_enter entry there]
    exact ih

/-- Segments that lead to a directory. -/
theorem leads_of_walk (h : fs.walk l segments = .ok (.directory l')) :
    fs.Leads l segments l' := by
  induction segments generalizing l with
  | nil =>
    cases h
    exact .done
  | cons name segments ih =>
    rw [walk_cons] at h
    split_ifs at h with here up long
    · rw [here]
      exact .here (ih h)
    · rw [up]
      exact .up (ih h)
    · split at h
      · rename_i there
        exact .enter ⟨here, up, Nat.not_lt.1 long⟩ there (ih h)
      all_goals cases h

theorem Reaches.there (reaches : fs.Reaches l) : fs.node? l = some .directory := by
  cases reaches with
  | root => rfl
  | enter _ _ there => exact there

theorem Leads.reaches (leads : fs.Leads l segments l') (reaches : fs.Reaches l) :
    fs.Reaches l' := by
  induction leads with
  | done => exact reaches
  | here _ ih => exact ih reaches
  | up _ ih =>
    refine ih ?_
    cases reaches with
    | root => exact .root
    | enter outer _ _ => rwa [List.dropLast_concat]
  | enter entry there _ ih => exact ih (.enter reaches entry there)

theorem Leads.concat (leads : fs.Leads l segments l') (entry : IsEntry name)
    (there : fs.node? (l' ++ [name]) = some .directory) :
    fs.Leads l (segments ++ [name]) (l' ++ [name]) := by
  induction leads with
  | done => exact .enter entry there .done
  | here _ ih => exact .here (ih there)
  | up _ ih => exact .up (ih there)
  | enter entry' there' _ ih => exact .enter entry' there' (ih there)

/-- The names of a location lead to it. -/
theorem Reaches.leads (reaches : fs.Reaches l) : fs.Leads [] l l := by
  induction reaches with
  | root => exact .done
  | enter _ entry there ih => exact ih.concat entry there

/-- **What stands under a name in a directory.** -/
theorem Reaches.walk_concat (reaches : fs.Reaches l) (entry : IsEntry name) :
    fs.walk [] (l ++ [name]) = .ok (fs.found (l ++ [name])) := by
  rw [reaches.leads.walk_append, walk_name entry]

/-- Segments lead to the same directory as long as directories stay. -/
theorem Leads.mono (leads : fs.Leads l segments l') (reaches : fs.Reaches l)
    (stay : ∀ l, fs.Reaches l → fs'.Reaches l) : fs'.Leads l segments l' := by
  induction leads with
  | done => exact .done
  | here _ ih => exact .here (ih reaches)
  | up rest ih =>
    refine .up (ih ?_)
    exact Leads.reaches (.up .done) reaches
  | enter entry there _ ih =>
    have entered := Reaches.enter reaches entry there
    exact .enter entry (stay _ entered).there (ih entered)

/-- A path that leads nowhere leads to a vacant place in a directory. -/
theorem leads_of_walk_vacant (h : fs.walk l segments = .ok (.vacant loc)) :
    ∃ front name l', segments = front ++ [name] ∧ fs.Leads l front l' ∧ IsEntry name ∧
      loc = l' ++ [name] ∧ fs.node? loc = none := by
  induction segments generalizing l with
  | nil => cases h
  | cons name segments ih =>
    rw [walk_cons] at h
    split_ifs at h with here up long
    · obtain ⟨front, last, l', rfl, leads, entry⟩ := ih h
      exact ⟨name :: front, last, l', rfl, here ▸ .here leads, entry⟩
    · obtain ⟨front, last, l', rfl, leads, entry⟩ := ih h
      exact ⟨name :: front, last, l', rfl, up ▸ .up leads, entry⟩
    · have entry : IsEntry name := ⟨here, up, Nat.not_lt.1 long⟩
      split at h
      · rename_i there
        obtain ⟨front, last, l', rfl, leads, entry'⟩ := ih h
        exact ⟨name :: front, last, l', rfl, .enter entry there leads, entry'⟩
      · cases h
      · cases h
      · rename_i none
        cases h
        exact ⟨[], name, l, rfl, .done, entry, rfl, none⟩
      · cases h

/-! ### Changes of the tree -/

theorem node?_of_ne_nil (some : loc ≠ []) : fs.node? loc = fs.nodes.lookup loc := by
  rw [node?, if_neg some]

/-- What stood in the tree stays when more comes in. -/
theorem node?_of_append {more : List (Location × Node)} (grown : fs'.nodes = fs.nodes ++ more)
    {node : Node} (there : fs.node? loc = some node) : fs'.node? loc = some node := by
  unfold node? at there ⊢
  split_ifs at there ⊢
  · exact there
  · rw [grown, List.lookup_append, there]
    rfl

theorem node?_of_concat {node : Node} (grown : fs'.nodes = fs.nodes ++ [(loc, node)])
    (vacant : fs.node? loc = none) : fs'.node? loc = some node := by
  unfold node? at vacant ⊢
  split_ifs at vacant ⊢
  rw [grown, List.lookup_append, vacant]
  simp

theorem node?_of_concat_of_ne {node : Node} (grown : fs'.nodes = fs.nodes ++ [(loc, node)])
    (ne : l ≠ loc) : fs'.node? l = fs.node? l := by
  unfold node?
  rw [grown, List.lookup_append, List.lookup_cons, beq_false_of_ne ne, List.lookup_nil,
    Option.or_none]

/-- Directories stay where they are as long as no directory is taken out of the tree. -/
theorem Reaches.mono (reaches : fs.Reaches l)
    (stay : ∀ loc, fs.Reaches loc → fs'.node? loc = some .directory) : fs'.Reaches l := by
  induction reaches with
  | root => exact .root
  | enter outer entry there ih => exact .enter ih entry (stay _ (.enter outer entry there))

theorem Reaches.of_append {more : List (Location × Node)} (reaches : fs.Reaches l)
    (grown : fs'.nodes = fs.nodes ++ more) : fs'.Reaches l :=
  reaches.mono fun _ there => node?_of_append grown there.there

/-- All above a directory are directories. -/
theorem Reaches.of_prefix (reaches : fs.Reaches l) (above : loc <+: l) : fs.Reaches loc := by
  induction reaches with
  | root =>
    rw [List.prefix_nil.1 above]
    exact .root
  | enter outer entry there ih =>
    rcases List.prefix_concat_iff.1 above with rfl | above
    · exact .enter outer entry there
    · exact ih above

theorem lookup_filter {β : Type} {p : Location × β → Bool} (kept : ∀ b, p (loc, b) = true)
    (xs : List (Location × β)) : (xs.filter p).lookup loc = xs.lookup loc := by
  induction xs with
  | nil => rfl
  | cons x xs ih =>
    rcases x with ⟨l, b⟩
    by_cases same : loc = l
    · subst same
      rw [List.filter_cons_of_pos (kept b)]
      simp
    · have other : (loc == l) = false := by simpa using same
      by_cases keep : p (l, b) = true
      · rw [List.filter_cons_of_pos keep, List.lookup_cons, List.lookup_cons, other, ih]
      · rw [List.filter_cons_of_neg keep, List.lookup_cons, other, ih]

theorem node?_removeAt (fs : FileSystem) {loc : Location} (below : ¬ l <+: loc) :
    (fs.removeAt l).node? loc = fs.node? loc := by
  have kept : ∀ node : Node, (!l.isPrefixOf (loc, node).1) = true := fun _ => by
    rw [Bool.not_eq_true', ← Bool.not_eq_true, List.isPrefixOf_iff_prefix]
    exact below
  unfold node? removeAt
  rw [lookup_filter kept]

/-- Nothing stands where something was taken out, nor below it. -/
theorem node?_removeAt_of_prefix (fs : FileSystem) (below : l <+: loc) (some : loc ≠ []) :
    (fs.removeAt l).node? loc = none := by
  rw [node?_of_ne_nil some, removeAt, List.lookup_eq_none_iff]
  intro n mem
  have kept := (List.mem_filter.1 mem).2
  rw [bne_iff_ne]
  rintro rfl
  rw [List.isPrefixOf_iff_prefix.2 below] at kept
  cases kept

theorem node?_removeAt_self (fs : FileSystem) (some : l ≠ []) : (fs.removeAt l).node? l = none :=
  fs.node?_removeAt_of_prefix List.prefix_rfl some

/-- Taking out what is no directory keeps the directories. -/
theorem Reaches.removeAt (reaches : fs.Reaches l) (loc : Location)
    (other : fs.node? loc ≠ some .directory) : (fs.removeAt loc).Reaches l := by
  refine reaches.mono fun l' reaches' => ?_
  rw [node?_removeAt, reaches'.there]
  exact fun below => other (reaches'.of_prefix below).there

/-- What stands in the tree stood there before something was taken out. -/
theorem node?_of_removeAt {node : Node} (there : (fs.removeAt l).node? loc = some node) :
    fs.node? loc = some node := by
  by_cases below : l <+: loc
  · unfold node? at there ⊢
    split_ifs at there ⊢
    · exact there
    · obtain ⟨before, after, split, -⟩ := List.lookup_eq_some_iff.1 there
      have kept : (loc, node) ∈ (fs.removeAt l).nodes := by
        rw [split]
        exact List.mem_append_right _ List.mem_cons_self
      have outside := (List.mem_filter.1 kept).2
      rw [List.isPrefixOf_iff_prefix.2 below] at outside
      cases outside
  · rwa [node?_removeAt fs below] at there

/-- Every file of the tree has something that it holds, and stands at one location: there are no
links. -/
structure IsTree (fs : FileSystem) : Prop where
  backed : ∀ {l : Location} {id : FileId}, fs.node? l = some (.file id) → id < fs.contents.length
  single : ∀ {l l' : Location} {id : FileId}, fs.node? l = some (.file id) →
    fs.node? l' = some (.file id) → l = l'

/-- A root alone is a tree. -/
theorem IsTree.empty : IsTree {} := by
  have none : ∀ {l : Location} {id : FileId}, ({} : FileSystem).node? l ≠ some (.file id) := by
    intro l id there
    unfold node? at there
    split_ifs at there <;> cases there
  exact ⟨fun there => absurd there none, fun there => absurd there none⟩

/-- A tree stays one when no file comes in and no file loses what it holds. -/
theorem IsTree.of_files (tree : fs.IsTree)
    (files : ∀ {l id}, fs'.node? l = some (.file id) → fs.node? l = some (.file id))
    (contents : fs.contents.length ≤ fs'.contents.length) : fs'.IsTree where
  backed h := Nat.lt_of_lt_of_le (tree.backed (files h)) contents
  single h h' := tree.single (files h) (files h')

theorem IsTree.removeAt (tree : fs.IsTree) (loc : Location) : (fs.removeAt loc).IsTree :=
  tree.of_files node?_of_removeAt (Nat.le_refl _)

theorem IsTree.setContent (tree : fs.IsTree) (id : FileId) (content : Content) :
    (fs.setContent id content).IsTree :=
  tree.of_files (fun h => h) (by simp [FileSystem.setContent])

/-- A new file stands where nothing stood, and is like no other. -/
theorem IsTree.addFile (tree : fs.IsTree) (vacant : fs.node? loc = none) (content : Content) :
    (fs.addFile loc content).1.IsTree := by
  have old : ∀ {l : Location} {id : FileId},
      (fs.addFile loc content).1.node? l = some (.file id) →
      fs.node? l = some (.file id) ∨ l = loc ∧ id = fs.contents.length := by
    intro l id there
    unfold node? at there ⊢
    split_ifs at there ⊢
    · cases there
    · rw [FileSystem.addFile, List.lookup_append] at there
      cases before : fs.nodes.lookup l with
      | some node =>
        rw [before] at there
        exact .inl there
      | none =>
        rw [before, Option.none_or] at there
        obtain ⟨_, _, split, -⟩ := List.lookup_eq_some_iff.1 there
        have mem : (l, Node.file id) ∈ [(loc, Node.file fs.contents.length)] := by
          rw [split]
          simp
        cases List.mem_singleton.1 mem
        exact .inr ⟨rfl, rfl⟩
  constructor
  · intro l id there
    rw [FileSystem.addFile, List.length_append]
    rcases old there with before | ⟨-, rfl⟩
    · exact Nat.lt_succ_of_lt (tree.backed before)
    · exact Nat.lt_succ_self _
  · intro l l' id there there'
    rcases old there with before | ⟨rfl, rfl⟩ <;> rcases old there' with before' | ⟨rfl, new⟩
    · exact tree.single before before'
    · exact absurd (new ▸ tree.backed before) (Nat.lt_irrefl _)
    · exact absurd (tree.backed before') (Nat.lt_irrefl _)
    · rfl

theorem node?_addFile (vacant : fs.node? loc = none) (content : Content) :
    (fs.addFile loc content).1.node? loc = some (.file fs.contents.length) :=
  node?_of_concat rfl vacant

/-! ### What files hold -/

theorem content_addFile (fs : FileSystem) (loc : Location) (content : Content) :
    (fs.addFile loc content).1.content fs.contents.length = content := by
  simp [FileSystem.content, addFile]

theorem content_addFile_of_lt {id : FileId} (there : id < fs.contents.length) (loc : Location)
    (content : Content) : (fs.addFile loc content).1.content id = fs.content id := by
  simp [FileSystem.content, addFile, List.getD, List.getElem?_append_left there]

theorem content_setContent {id : FileId} (there : id < fs.contents.length) (content : Content) :
    (fs.setContent id content).content id = content := by
  simp [FileSystem.content, setContent, there]

theorem content_setContent_of_ne {id other : FileId} (ne : other ≠ id) (content : Content) :
    (fs.setContent id content).content other = fs.content other := by
  simp [FileSystem.content, setContent, List.getD, List.getElem?_set_ne (Ne.symm ne)]

/-! ### Putting files -/

/-- A file stands at a location and holds this. -/
def Holds (fs : FileSystem) (loc : Location) (content : Content) : Prop :=
  ∃ id, fs.node? loc = some (.file id) ∧ fs.content id = content

/-- A file was put at a location, and all else in the tree is as it was. -/
structure Puts (fs : FileSystem) (loc : Location) (content : Content) (fs' : FileSystem) :
    Prop where
  tree : fs'.IsTree
  holds : fs'.Holds loc content
  directories : ∀ l, fs.Reaches l → fs'.Reaches l
  nodes : ∀ loc', loc' ≠ loc → fs'.node? loc' = fs.node? loc'
  contents : ∀ {loc' id}, loc' ≠ loc → fs.node? loc' = some (.file id) →
    fs'.content id = fs.content id

theorem node?_addFile_of_ne (ne : l ≠ loc) (content : Content) :
    (fs.addFile loc content).1.node? l = fs.node? l :=
  node?_of_concat_of_ne rfl ne

theorem IsTree.puts_addFile (tree : fs.IsTree) (vacant : fs.node? loc = none) (content : Content) :
    fs.Puts loc content (fs.addFile loc content).1 where
  tree := tree.addFile vacant content
  holds := ⟨_, node?_addFile vacant content, content_addFile fs loc content⟩
  directories _ reaches := reaches.of_append rfl
  nodes _ ne := node?_addFile_of_ne ne content
  contents _ there := content_addFile_of_lt (tree.backed there) loc content

theorem IsTree.puts_setContent (tree : fs.IsTree) {id : FileId}
    (there : fs.node? loc = some (.file id)) (content : Content) :
    fs.Puts loc content (fs.setContent id content) where
  tree := tree.setContent id content
  holds := ⟨id, there, content_setContent (tree.backed there) content⟩
  directories _ reaches := reaches.mono fun _ reaches => reaches.there
  nodes _ _ := rfl
  contents ne other := content_setContent_of_ne
    (by rintro rfl; exact ne (tree.single other there)) content

/-! ### Making directories -/

/-- Nothing but directories came into the tree. -/
def AddsDirectories (fs fs' : FileSystem) : Prop :=
  ∃ more : List (Location × Node), fs'.nodes = fs.nodes ++ more ∧
    (∀ n ∈ more, n.2 = .directory) ∧ fs'.contents = fs.contents

namespace AddsDirectories

theorem refl (fs : FileSystem) : fs.AddsDirectories fs := ⟨[], by simp⟩

theorem trans {fs'' : FileSystem} (first : fs.AddsDirectories fs')
    (second : fs'.AddsDirectories fs'') : fs.AddsDirectories fs'' := by
  obtain ⟨more, nodes, directories, contents⟩ := first
  obtain ⟨more', nodes', directories', contents'⟩ := second
  refine ⟨more ++ more', ?_, ?_, contents'.trans contents⟩
  · rw [nodes', nodes, List.append_assoc]
  · intro n hn
    rcases List.mem_append.1 hn with h | h
    · exact directories n h
    · exact directories' n h

/-- Files stood there before. -/
theorem file (adds : fs.AddsDirectories fs') {id : FileId}
    (there : fs'.node? loc = some (.file id)) : fs.node? loc = some (.file id) := by
  obtain ⟨more, nodes, directories, -⟩ := adds
  unfold node? at there ⊢
  split_ifs at there ⊢
  · cases there
  · rw [nodes, List.lookup_append] at there
    cases old : fs.nodes.lookup loc with
    | some node => rwa [old] at there
    | none =>
      rw [old, Option.none_or] at there
      obtain ⟨before, after, split, -⟩ := List.lookup_eq_some_iff.1 there
      cases directories (loc, .file id) (by rw [split]; simp)

theorem isTree (adds : fs.AddsDirectories fs') (tree : fs.IsTree) : fs'.IsTree := by
  refine tree.of_files adds.file ?_
  obtain ⟨-, -, -, contents⟩ := adds
  exact Nat.le_of_eq (congrArg _ contents.symm)

theorem reaches (adds : fs.AddsDirectories fs') (reaches : fs.Reaches l) : fs'.Reaches l := by
  obtain ⟨more, nodes, -⟩ := adds
  exact reaches.of_append nodes

end AddsDirectories

/-- A directory was there, or is made where nothing stood. -/
theorem ensureDirectory_cases (h : fs.ensureDirectory segments = .ok fs') :
    (∃ l, fs.walk [] segments = .ok (.directory l)) ∧ fs' = fs ∨
      ∃ loc, fs.walk [] segments = .ok (.vacant loc) ∧
        fs' = { fs with nodes := fs.nodes ++ [(loc, .directory)] } := by
  unfold ensureDirectory makeDirectory at h
  cases there : fs.walk [] segments with
  | error e => simp [there] at h
  | ok found =>
    cases found with
    | directory l =>
      rw [there] at h
      cases h
      exact .inl ⟨⟨l, rfl⟩, rfl⟩
    | file l id => simp [there] at h
    | vacant loc =>
      rw [there] at h
      cases h
      exact .inr ⟨loc, rfl, rfl⟩

theorem ensureDirectory_eq_ok (h : fs.ensureDirectory segments = .ok fs') :
    fs.AddsDirectories fs' ∧ ∃ l, fs'.Leads [] segments l := by
  obtain ⟨⟨l, there⟩, rfl⟩ | ⟨loc, vacant, rfl⟩ := ensureDirectory_cases h
  · exact ⟨.refl _, l, leads_of_walk there⟩
  · obtain ⟨front, name, l, rfl, leads, entry, rfl, none⟩ := leads_of_walk_vacant vacant
    refine ⟨⟨_, rfl, by simp, rfl⟩, l ++ [name], ?_⟩
    refine (leads.mono .root fun l reaches => reaches.of_append rfl).concat entry ?_
    exact node?_of_concat rfl none

/-- What making one directory keeps is kept along the way to all of them, however far it leads. -/
theorem ensureNames_induction {P : FileSystem → Prop}
    (made : ∀ (fs fs' : FileSystem) (segments : List String), P fs →
      fs.ensureDirectory segments = .ok fs' → P fs')
    (start : P fs) (names : List String) : P (fs.ensureNames names).1 := by
  induction names with
  | nil => exact start
  | cons name outer ih =>
    unfold ensureNames
    dsimp only
    split
    · rename_i here
      exact made _ _ _ start here
    · split
      · rename_i failed
        rw [failed] at ih
        exact ih
      · rename_i outside
        rw [outside] at ih
        split
        · rename_i here
          exact made _ _ _ ih here
        · exact ih
    · exact start

theorem makeDirectories_induction {P : FileSystem → Prop}
    (made : ∀ (fs fs' : FileSystem) (segments : List String), P fs →
      fs.ensureDirectory segments = .ok fs' → P fs')
    (start : P fs) (p : Path) : P (fs.makeDirectories p).1 := by
  unfold makeDirectories
  split
  · exact start
  · split
    · rename_i here
      exact made _ _ _ start here
    · have outside := ensureNames_induction made start (p.names.reverse.drop 1)
      split
      · rename_i failed
        rw [failed] at outside
        exact outside
      · rename_i ensured
        rw [ensured] at outside
        split
        · rename_i here
          exact made _ _ _ outside here
        · exact outside
    · exact start

/-- Once the directories of a path were made, its segments lead to a directory. -/
theorem makeDirectories_eq_ok {p : Path} (h : fs.makeDirectories p = (fs', .ok ())) :
    checkPath p = .ok () ∧ fs.AddsDirectories fs' ∧ ∃ l, fs'.Leads [] p.segments l := by
  unfold makeDirectories at h
  split at h
  · cases h
  · rename_i fine
    refine ⟨fine, ?_⟩
    split at h
    · rename_i made
      cases h
      exact ensureDirectory_eq_ok made
    · have outside : fs.AddsDirectories (fs.ensureNames (p.names.reverse.drop 1)).1 :=
        ensureNames_induction (fun _ _ _ adds made => adds.trans (ensureDirectory_eq_ok made).1)
          (.refl fs) _
      split at h
      · cases h
      · rename_i ensured
        rw [ensured] at outside
        split at h
        · rename_i made
          cases h
          obtain ⟨adds, leads⟩ := ensureDirectory_eq_ok made
          exact ⟨outside.trans adds, leads⟩
        · cases h
    · cases h

/-! ### Paths in a directory -/

section

variable {p : Path} {octets : Bytes}

/-- What a path in a directory leads to. -/
theorem locate_join (segment : Path.IsSegment name) (entry : IsEntry name)
    (leads : fs.Leads [] p.segments l) (fine : checkPath (p.join name) = .ok ()) :
    fs.locate (p.join name) = .ok (fs.found (l ++ [name])) := by
  have there : fs.walk [] (p.join name).segments = .ok (fs.found (l ++ [name])) := by
    rw [Path.segments_join p segment, leads.walk_append, walk_name entry]
  rw [locate, fine]
  dsimp only
  rw [there, p.endsInSlash_join segment]
  cases fs.found (l ++ [name]) <;> rfl

/-- What is in a file under a name in a directory can be read. -/
theorem read_join (segment : Path.IsSegment name) (entry : IsEntry name)
    (leads : fs.Leads [] p.segments l) (fine : checkPath (p.join name) = .ok ()) {content : Content}
    (holds : fs.Holds (l ++ [name]) content) :
    fs.isFile (p.join name) = true ∧ fs.read (p.join name) = .ok content := by
  obtain ⟨id, there, rfl⟩ := holds
  have located := locate_join segment entry leads fine
  rw [found, there] at located
  rw [isFile, read, located]
  exact ⟨rfl, rfl⟩

/-- To write under a name in a directory puts a file there. -/
theorem write_join (tree : fs.IsTree) (segment : Path.IsSegment name) (entry : IsEntry name)
    (leads : fs.Leads [] p.segments l) (h : fs.write (p.join name) octets = .ok fs') :
    checkPath (p.join name) = .ok () ∧ fs.Puts (l ++ [name]) (.plain octets) fs' := by
  unfold write at h
  obtain ⟨⟨⟩, fine, h⟩ := Except.bind_eq_ok_iff.1 h
  obtain ⟨⟨⟩, -, h⟩ := Except.bind_eq_ok_iff.1 h
  obtain ⟨found, located, h⟩ := Except.bind_eq_ok_iff.1 h
  rw [locate_join segment entry leads fine] at located
  obtain rfl := Except.ok.inj located
  refine ⟨fine, ?_⟩
  unfold FileSystem.found at h
  cases there : fs.node? (l ++ [name]) with
  | none =>
    rw [there] at h
    cases h
    exact tree.puts_addFile there _
  | some node =>
    rw [there] at h
    cases node with
    | directory => cases h
    | file id =>
      cases h
      exact tree.puts_setContent there _

theorem resolveFrom_cons (fs : FileSystem) (l : Location) (name : String) (rest : List String) :
    fs.resolveFrom l (name :: rest) =
      if name = ".." then fs.resolveFrom l.dropLast rest
      else if fs.isOpenTo (l ++ [name]) then fs.resolveFrom (l ++ [name]) rest else none := rfl

/-- Whether a directory can be looked at is a matter of the length of its path. -/
theorem Reaches.isOpenTo_eq (reaches : fs.Reaches l) :
    fs.isOpenTo l = decide ((Bytes.ofText (pathText l)).length ≤ maxStepPath) := by
  have there : fs.walk [] l = .ok (.directory l) := by
    have := reaches.leads.walk_append []
    rwa [List.append_nil] at this
  rw [isOpenTo, there, Bool.and_true]

/-- What names below a directory mean to a database is found from the directory on, and is found
again as long as directories stay. -/
theorem Leads.resolveFrom (leads : fs.Leads l segments l') (reaches : fs.Reaches l)
    {rest : List String} (h : fs.resolveFrom l (segments.filter (· != ".") ++ rest) = some loc) :
    fs.resolveFrom l' rest = some loc ∧ ∀ fs' : FileSystem,
      (∀ l, fs.Reaches l → fs'.Reaches l) → fs'.resolveFrom l' rest = some loc →
      fs'.resolveFrom l (segments.filter (· != ".") ++ rest) = some loc := by
  induction leads with
  | done => exact ⟨h, fun _ _ again => again⟩
  | here _ ih => exact ih reaches h
  | up _ ih =>
    have inside := ih (Leads.reaches (.up .done) reaches) h
    exact inside
  | @enter l l' name segments entry there _ ih =>
    have entered := Reaches.enter reaches entry there
    have kept : (name :: segments).filter (· != ".") = name :: segments.filter (· != ".") :=
      List.filter_cons_of_pos (bne_iff_ne.2 entry.notHere)
    rw [kept, List.cons_append, resolveFrom_cons, if_neg entry.notUp] at h
    split_ifs at h with fits
    obtain ⟨first, again⟩ := ih entered h
    refine ⟨first, fun fs' stay h' => ?_⟩
    rw [kept, List.cons_append, resolveFrom_cons, if_neg entry.notUp, (stay _ entered).isOpenTo_eq,
      ← entered.isOpenTo_eq, fits, if_pos rfl]
    exact again fs' stay h'

/-- A database in a directory is looked for under its name there, which must fit, and is found again
as long as directories stay. -/
theorem resolve_join (segment : Path.IsSegment name) (notHere : name ≠ ".") (notUp : name ≠ "..")
    (file : (p.join name).databaseFile? = some (p.join name))
    (leads : fs.Leads [] p.segments l) (h : fs.resolve (p.join name) = some loc) :
    IsEntry name ∧ loc = l ++ [name] ∧ ∀ fs' : FileSystem,
      (∀ l, fs.Reaches l → fs'.Reaches l) → fs'.resolve (p.join name) = some loc := by
  unfold resolve at h ⊢
  split_ifs at h ⊢
  simp only [file, Option.bind_some] at h ⊢
  obtain ⟨here, fits⟩ := Option.filter_eq_some_iff.1 h
  rw [Path.names_join p segment notHere] at here ⊢
  obtain ⟨first, again⟩ := leads.resolveFrom .root here
  rw [resolveFrom_cons, if_neg notUp] at first
  split_ifs at first with isOpen
  cases first
  have reaches := leads.reaches .root
  unfold isOpenTo at isOpen
  rw [Bool.and_eq_true, reaches.leads.walk_append] at isOpen
  -- a name that is too long bars the way
  have entry : IsEntry name := by
    refine ⟨notHere, notUp, Nat.not_lt.1 fun long => ?_⟩
    rw [walk_cons, if_neg notHere, if_neg notUp, if_pos long] at isOpen
    exact absurd isOpen.2 (by decide)
  refine ⟨entry, rfl, fun fs' stay => Option.filter_eq_some_iff.2 ⟨again fs' stay ?_, fits⟩⟩
  have isOpen' : fs'.isOpenTo (l ++ [name]) = true := by
    unfold isOpenTo
    rw [Bool.and_eq_true]
    exact ⟨isOpen.1, by rw [(stay l reaches).walk_concat entry]⟩
  rw [resolveFrom_cons, if_neg notUp, if_pos isOpen']
  rfl

/-- A path that means the location of a database is a path, unless it is too long. -/
theorem checkPath_of_resolve (resolved : fs.resolve p = some loc)
    (fits : (Bytes.ofText p.text).length ≤ maxPath) : checkPath p = .ok () := by
  unfold resolve at resolved
  split_ifs at resolved with noNul
  rw [checkPath, if_neg noNul, if_neg (Nat.not_lt.2 fits)]

/-- A path that stands for itself opens no other database. -/
theorem openPrivate_of_databaseFile? {mode : AccessMode} (file : p.databaseFile? = some p) :
    openPrivate p mode = .error (.database .statement) := by
  obtain ⟨same, inFile⟩ := Option.filter_eq_some_iff.1 file
  unfold openPrivate
  rw [same, Option.any_some, inFile, Bool.or_true]
  rfl

/-- The database file under a name in a directory. -/
theorem findDatabase_eq {mode : AccessMode} (resolved : fs.resolve p = some (l ++ [name]))
    (reaches : fs.Reaches l) (entry : IsEntry name) : fs.findDatabase p mode =
      match fs.node? (l ++ [name]) with
      | some (.file id) => some (fs, l ++ [name], id)
      | some .directory => none
      | none =>
        if mode.isReadOnly then none
        else some ((fs.addFile (l ++ [name]) (.plain [])).1, l ++ [name], fs.contents.length) := by
  rw [findDatabase, resolved, Option.bind_eq_bind, Option.bind_some, reaches.walk_concat entry,
    FileSystem.found]
  cases fs.node? (l ++ [name]) with
  | none => rfl
  | some node => cases node <;> rfl

end

end FileSystem

end SealedLog
