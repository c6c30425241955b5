import StyleLookup.Discovery.Candidates
import StyleLookup.Proofs.Discovery.CandidateList
import StyleLookup.Proofs.Discovery.Walk
import StyleLookup.Proofs.FileSystem.Lexical
import StyleLookup.Workspace

/-!
Candidates stay inside their workspace. Every search that makes them starts at the root of the
workspace or in the directory that holds the source file, and it goes down from there.
-/

set_option autoImplicit false

namespace StyleLookup.Discovery

variable {fs : Snapshot} {scoping : Scoping} {root : Path}

/-- A file at the root of a workspace or below it. -/
def Inside (fs : Snapshot) (root path : Path) : Prop := fs.isFile path = true ∧ path.Within root

/-- Settings that lead no search for a source file upwards: the common directories and the patterns
are relative, and neither the common directories nor the names that the patterns give with the
extensions have a step `..`. -/
structure Inward (scoping : Scoping) (source : Path) : Prop where
  relative_common : ∀ common ∈ scoping.commonDirectories, Path.isAbsolute ⟨common⟩ = false
  common_steps : ∀ common ∈ scoping.commonDirectories, .parent ∉ Path.components ⟨common⟩
  relative_pattern : ∀ pattern ∈ scoping.fileNamePatterns, Path.isAbsolute ⟨pattern⟩ = false
  name_steps : ∀ stem ∈ source.fileStem?, ∀ pattern ∈ scoping.fileNamePatterns,
    ∀ extension ∈ scoping.fileExtensions,
      .parent ∉ Path.components ⟨Scoping.fillPattern stem pattern ++ "." ++ extension⟩

/-! ## Listed files -/

theorem inside_of_mem_listing (lexical : fs.Lexical) {directory : Path}
    (within : directory.Within root) {entry : DirEntry} (member : entry ∈ fs.listing directory)
    (kind : entry.kind = .file) : Inside fs root entry.path := by
  refine ⟨lexical.isFile_path entry member kind, ?_⟩
  rw [lexical.path_eq entry member]
  exact within.child (lexical.spelled_name entry member)

theorem run_folderFiles (fs : Snapshot) (scoping : Scoping) (directory : Path) :
    (folderFiles fs scoping directory).run = sheetsAmong scoping (fs.listing directory) := by
  rw [← Snapshot.entries_eq_listing]
  rfl

/-- What the search of a directory finds: the files in it whose names end in one of the
extensions. -/
theorem mem_folderFiles_iff {directory path : Path} :
    path ∈ (folderFiles fs scoping directory).run ↔
      ∃ entry ∈ fs.listing directory, entry.path = path ∧ entry.kind = .file ∧
        ∃ extension ∈ scoping.fileExtensions, endsInExtension extension entry.name = true := by
  simp only [run_folderFiles, sheetsAmong, List.mem_flatMap, List.mem_map, List.mem_filter,
    Bool.and_eq_true, beq_iff_eq]
  constructor
  · intro found
    obtain ⟨extension, offered, entry, ⟨listed, kind, fits⟩, same⟩ := found
    exact ⟨entry, listed, same, kind, extension, offered, fits⟩
  · intro found
    obtain ⟨entry, listed, same, kind, extension, offered, fits⟩ := found
    exact ⟨extension, offered, entry, ⟨listed, kind, fits⟩, same⟩

theorem inside_of_mem_folderFiles (lexical : fs.Lexical) {directory : Path}
    (within : directory.Within root) {path : Path}
    (member : path ∈ (folderFiles fs scoping directory).run) : Inside fs root path := by
  obtain ⟨entry, listed, rfl, kind, -⟩ := mem_folderFiles_iff.mp member
  exact inside_of_mem_listing lexical within listed kind

theorem commonFiles_snapshot_eq_flatMap (fs : Snapshot) (scoping : Scoping) (root : Path) :
    commonFiles fs scoping root = scoping.commonDirectories.flatMap fun common =>
      if (fs.isDir (root.child common)).run then
        (folderFiles fs scoping (root.child common)).run
      else [] := by
  rw [List.flatMap_def]
  refine congrArg List.flatten (List.idRun_mapM.trans ?_)
  apply List.map_congr_left
  intro common _
  simp only [Id.run_bind]
  split <;> rfl

theorem inside_of_mem_commonFiles (lexical : fs.Lexical) {source : Path}
    (inward : Inward scoping source) {path : Path}
    (member : path ∈ (commonFiles fs scoping root).run) : Inside fs root path := by
  rw [commonFiles_snapshot_eq_flatMap] at member
  obtain ⟨common, known, found⟩ := List.mem_flatMap.mp member
  have within : (root.child common).Within root :=
    (Path.Within.refl root).join (inward.relative_common common known)
      (inward.common_steps common known)
  split at found
  · exact inside_of_mem_folderFiles lexical within found
  · cases found

/-! ## The walk -/

theorem mem_visitEntry_iff {wanted : String → Bool} {enter : Path → Id (List Path)}
    {entry : DirEntry} {path : Path} :
    path ∈ (visitEntry scoping wanted enter entry).run ↔
      scoping.isExcluded entry.name = false ∧
        ((entry.kind = .file ∧ wanted entry.name = true ∧ path = entry.path) ∨
          (entry.kind = .directory ∧ isHidden entry.name = false ∧
            path ∈ (enter entry.path).run)) := by
  unfold visitEntry
  cases scoping.isExcluded entry.name with
  | true => simp
  | false =>
      cases entry.kind with
      | file => cases wanted entry.name <;> simp
      | directory => cases isHidden entry.name <;> simp
      | other => simp

theorem mem_visitDirectory_iff {wanted : String → Bool} {enter : Path → Id (List Path)}
    {directory path : Path} :
    path ∈ (visitDirectory fs scoping wanted enter directory).run ↔
      ∃ entry ∈ fs.listing directory, path ∈ (visitEntry scoping wanted enter entry).run := by
  rw [visitDirectory_snapshot_eq_flatMap]
  exact List.mem_flatMap

/-- What a walk finds is listed as a wanted file in one of the directories that it goes to. -/
theorem exists_entry_of_mem_filesBelow {wanted : String → Bool} {visited : Path → Prop}
    (enters : ∀ directory, visited directory → ∀ entry ∈ fs.listing directory, visited entry.path)
    (levels : Nat) {directory : Path} (start : visited directory) {path : Path}
    (member : path ∈ (filesBelow fs scoping wanted levels directory).run) :
    ∃ place, visited place ∧ ∃ entry ∈ fs.listing place, entry.path = path ∧
      entry.kind = .file ∧ scoping.isExcluded entry.name = false ∧ wanted entry.name = true := by
  induction levels generalizing directory with
  | zero =>
      obtain ⟨entry, listed, found⟩ := mem_visitDirectory_iff.mp member
      obtain ⟨kept, ⟨kind, sought, same⟩ | ⟨-, -, none⟩⟩ := mem_visitEntry_iff.mp found
      · exact ⟨directory, start, entry, listed, same.symm, kind, kept, sought⟩
      · cases none
  | succ levels ih =>
      obtain ⟨entry, listed, found⟩ := mem_visitDirectory_iff.mp member
      obtain ⟨kept, ⟨kind, sought, same⟩ | ⟨-, -, below⟩⟩ := mem_visitEntry_iff.mp found
      · exact ⟨directory, start, entry, listed, same.symm, kind, kept, sought⟩
      · exact ih (enters directory start entry listed) below

/-- A walk never leaves the workspace, however far down it goes. -/
theorem inside_of_mem_filesBelow (lexical : fs.Lexical) {wanted : String → Bool} (levels : Nat)
    {directory : Path} (within : directory.Within root) {path : Path}
    (member : path ∈ (filesBelow fs scoping wanted levels directory).run) :
    Inside fs root path := by
  have enters : ∀ place : Path, place.Within root → ∀ entry ∈ fs.listing place,
      entry.path.Within root := by
    intro place within entry listed
    rw [lexical.path_eq entry listed]
    exact within.child (lexical.spelled_name entry listed)
  obtain ⟨place, within, entry, listed, rfl, kind, -⟩ :=
    exists_entry_of_mem_filesBelow enters levels within member
  exact inside_of_mem_listing lexical within listed kind

/-! ## Named files -/

theorem filesAmong_snapshot_eq_filter (fs : Snapshot) (paths : List Path) :
    fs.filesAmong paths = paths.filter fun path => (fs.isFile path).run := by
  induction paths with
  | nil => rfl
  | cons first rest ih =>
      simp only [FileSystem.filesAmong, ih, List.filter_cons]
      rfl

theorem head?_replaceFirst {needle replacement text : List Char} {first : Char}
    (nonempty : replacement ≠ [])
    (start : (Text.replaceFirst needle replacement text).head? = some first) :
    replacement.head? = some first ∨ text.head? = some first := by
  cases text with
  | nil =>
      unfold Text.replaceFirst at start
      split at start
      · exact .inl start
      · cases start
  | cons c rest =>
      unfold Text.replaceFirst at start
      split at start
      · rw [List.head?_append_of_ne_nil _ nonempty] at start
        exact .inl start
      · exact .inr start

/-- The stem of a file name is some of its first characters, and not none of them. -/
theorem fileStem?_prefix {source : Path} {stem : String} (stemmed : source.fileStem? = some stem) :
    ∃ name, source.fileName? = some name ∧ stem.toList <+: name.toList ∧ stem.toList ≠ [] := by
  obtain ⟨name, named, cut⟩ := Option.map_eq_some_iff.mp stemmed
  have spelled := Path.spelled_of_fileName? named
  have filled : name.toList ≠ [] := by
    intro blank
    have heard := spelled.isSilent_text
    simp [Path.Component.text, blank, Path.isSilent] at heard
  refine ⟨name, named, ?_⟩
  split at cut
  · rename_i before after whole
    split at cut
    · cases cut
      exact ⟨List.prefix_refl _, filled⟩
    · rename_i started
      cases cut
      rw [String.toList_ofList]
      refine ⟨⟨_, (Text.splitLast?_eq_some whole).1.symm⟩, ?_⟩
      simpa using started
  · cases cut
    exact ⟨List.prefix_refl _, filled⟩

/-- A name that a relative pattern gives for a source file is relative. -/
theorem isAbsolute_fillPattern {source : Path} {stem : String}
    (stemmed : source.fileStem? = some stem) {pattern : String}
    (relative : Path.isAbsolute ⟨pattern⟩ = false) (extension : String) :
    Path.isAbsolute ⟨Scoping.fillPattern stem pattern ++ "." ++ extension⟩ = false := by
  obtain ⟨name, named, ⟨rest, whole⟩, nonempty⟩ := fileStem?_prefix stemmed
  have slashless : '/' ∉ name.toList := (Path.spelled_of_fileName? named).2
  rw [← Bool.not_eq_true] at relative ⊢
  intro absolute
  have start : (Text.replaceFirst Scoping.placeholder.toList stem.toList pattern.toList ++
      ('.' :: extension.toList)).head? = some '/' := by
    simpa [Path.isAbsolute, Path.text, Scoping.fillPattern] using absolute
  rw [List.head?_append] at start
  cases filled : (Text.replaceFirst Scoping.placeholder.toList stem.toList pattern.toList).head? with
  | none => simp [filled] at start
  | some first =>
      rw [filled] at start
      cases start
      rcases head?_replaceFirst nonempty filled with stemFirst | patternFirst
      · have inside : '/' ∈ stem.toList := List.mem_of_head? stemFirst
        exact slashless (whole ▸ List.mem_append_left rest inside)
      · exact relative (beq_iff_eq.mpr patternFirst)

theorem within_of_mem_patternPaths {source directory : Path} (inward : Inward scoping source)
    (within : directory.Within root) {path : Path}
    (member : path ∈ patternPaths scoping directory source) : path.Within root := by
  unfold patternPaths at member
  split at member
  · cases member
  · rename_i stem stemmed
    obtain ⟨pattern, known, found⟩ := List.mem_flatMap.mp member
    obtain ⟨extension, offered, rfl⟩ := List.mem_map.mp found
    exact within.join
      (isAbsolute_fillPattern stemmed (inward.relative_pattern pattern known) extension)
      (inward.name_steps stem stemmed pattern known extension offered)

theorem inside_of_mem_filenameMatches {source directory : Path} (inward : Inward scoping source)
    (within : directory.Within root) {path : Path}
    (member : path ∈ (filenameMatches fs scoping directory source).run) :
    Inside fs root path := by
  rw [filenameMatches, filesAmong_snapshot_eq_filter] at member
  obtain ⟨named, held⟩ := List.mem_filter.mp member
  exact ⟨held, within_of_mem_patternPaths inward within named⟩

/-! ## All modes -/

theorem inside_of_mem_beside {source : Path} (within : source.Within root)
    (apart : source.reached ≠ root.reached) {search : Path → Id (List Path)}
    (searched : ∀ directory, directory.Within root →
      ∀ path ∈ (search directory).run, Inside fs root path)
    {path : Path} (member : path ∈ (beside source search).run) : Inside fs root path := by
  unfold beside at member
  split at member
  · cases member
  · rename_i directory above
    exact searched directory (within.parent apart above) path member

theorem inside_of_mem_scopedFiles (lexical : fs.Lexical) {source : Path}
    (inward : Inward scoping source) (within : source.Within root)
    (apart : source.reached ≠ root.reached) {path : Path}
    (member : path ∈ (scopedFiles fs scoping root source).run) : Inside fs root path := by
  simp only [scopedFiles, Id.run_bind, Id.run_pure, List.mem_append] at member
  rcases member with (named | adjacent) | common
  · exact inside_of_mem_beside within apart
      (fun _ held _ => inside_of_mem_filenameMatches inward held) named
  · exact inside_of_mem_beside within apart
      (fun _ held _ => inside_of_mem_folderFiles lexical held) adjacent
  · exact inside_of_mem_commonFiles lexical inward common

/-- Whatever the mode, candidates are put together from files inside the workspace, and there are
none if its root is not a directory. -/
theorem candidates_eq_ofList (lexical : fs.Lexical) {source : Path}
    (inward : Inward scoping source) (within : source.Within root)
    (apart : source.reached ≠ root.reached) :
    ∃ found, (candidates fs scoping root source).run = .ofList found ∧
      ∀ path ∈ found, Inside fs root path ∧ fs.isDir root = true := by
  have walked : ∀ path ∈ (globalFiles fs scoping root).run, Inside fs root path := fun path =>
    inside_of_mem_filesBelow lexical scoping.scanDepth (Path.Within.refl root)
  unfold candidates
  simp only [Id.run_bind]
  split
  · rename_i directory
    cases scoping.mode with
    | global => exact ⟨_, rfl, fun path member => ⟨walked path member, directory⟩⟩
    | filename =>
        exact ⟨_, rfl, fun path member => ⟨inside_of_mem_beside within apart
          (fun _ held _ => inside_of_mem_filenameMatches inward held) member, directory⟩⟩
    | folder =>
        exact ⟨_, rfl, fun path member => ⟨inside_of_mem_beside within apart
          (fun _ held _ => inside_of_mem_folderFiles lexical held) member, directory⟩⟩
    | smart =>
        dsimp only [Id.run_bind]
        split
        · exact ⟨_, rfl, fun path member => ⟨walked path member, directory⟩⟩
        · exact ⟨_, rfl, fun path member =>
            ⟨inside_of_mem_scopedFiles lexical inward within apart member, directory⟩⟩
  · exact ⟨[], rfl, nofun⟩

theorem root?_atRoot_eq_some {base source resolved : Path}
    (found : ((Workspace.atRoot base).root? fs source).run = some resolved) :
    resolved = base.normalize ∧ source.Within base := by
  have enclosed : Workspace.enclosingRoot? base.normalize source = some resolved := found
  unfold Workspace.enclosingRoot? at enclosed
  obtain ⟨started, same⟩ := Option.ite_none_right_eq_some.mp enclosed
  exact ⟨(Option.some.inj same).symm, Path.startsWith_normalize_iff.mp started⟩

/-- The candidates for a source file below the root of a fixed workspace are files strictly below
this root, in normal form and each of them once. -/
theorem candidates_contained (lexical : fs.Lexical) {base source resolved : Path}
    (found : ((Workspace.atRoot base).root? fs source).run = some resolved)
    (apart : source.normalize ≠ base.normalize) (inward : Inward scoping source) :
    (∀ path ∈ (candidates fs scoping resolved source).run.paths,
      fs.isFile path = true ∧ path.normalize = path ∧
        ∃ below ≠ [], path.components = resolved.components ++ below) ∧
    ((candidates fs scoping resolved source).run.paths.map Path.components).Nodup := by
  obtain ⟨rfl, within⟩ := root?_atRoot_eq_some found
  have rooted : source.Within base.normalize := by
    rw [Path.Within, Path.reached_normalize]
    exact within
  have separate : source.reached ≠ base.normalize.reached := by
    rw [Path.reached_normalize]
    exact mt Path.normalize_eq_iff.mpr apart
  obtain ⟨paths, made, held⟩ := candidates_eq_ofList lexical inward rooted separate
  have sound := CandidateList.sound_ofList paths
  rw [made]
  refine ⟨?_, sound.nodup_components⟩
  intro path member
  obtain ⟨given, known, rfl⟩ := CandidateList.mem_paths_ofList.mp member
  obtain ⟨⟨file, inside⟩, directory⟩ := held given known
  have normalFile : fs.isFile given.normalize = true := (lexical.isFile_normalize given).trans file
  refine ⟨normalFile, Path.normalize_normalize given, ?_⟩
  -- A file cannot be the root itself, which is a directory.
  have lower : given.normalize ≠ base.normalize := by
    intro same
    exact lexical.not_isDir normalFile (same ▸ directory)
  have below : given.Within base := by
    rwa [Path.Within, Path.reached_normalize] at inside
  exact below.components_normalize lower

def siteFiles : Snapshot :=
  (MemoryTree.ofList [(⟨"/w/src/page.css"⟩, .text "")]).snapshot fun _ found => found

theorem siteFiles_lexical : siteFiles.Lexical :=
  (MemoryTree.tidy_ofList _).lexical_snapshot fun _ _ => List.Subset.refl _

def byName : Scoping := { Scoping.standard with mode := .filename, fileExtensions := ["css"] }

def page : Path := ⟨"/w/src/../src/page.html"⟩

theorem inward_page : Inward byName page := by
  constructor <;> decide +kernel

theorem page_candidates_contained :
    siteFiles.Lexical ∧ Inward byName page ∧
    ((Workspace.atRoot ⟨"/w/."⟩).root? siteFiles page).run = some ⟨"/w"⟩ ∧
    page.normalize ≠ Path.normalize ⟨"/w/."⟩ ∧
    (candidates siteFiles byName ⟨"/w"⟩ page).run.paths = [⟨"/w/src/page.css"⟩] ∧
    (∀ path ∈ (candidates siteFiles byName ⟨"/w"⟩ page).run.paths,
      siteFiles.isFile path = true ∧ path.normalize = path ∧
        ∃ below ≠ [], path.components = Path.components ⟨"/w"⟩ ++ below) ∧
    ((candidates siteFiles byName ⟨"/w"⟩ page).run.paths.map Path.components).Nodup := by
  have found : ((Workspace.atRoot ⟨"/w/."⟩).root? siteFiles page).run = some ⟨"/w"⟩ := by
    decide +kernel
  have apart : page.normalize ≠ Path.normalize ⟨"/w/."⟩ := by decide +kernel
  have contained := candidates_contained siteFiles_lexical found apart inward_page
  exact ⟨siteFiles_lexical, inward_page, found, apart, by decide +kernel, contained⟩

end StyleLookup.Discovery
