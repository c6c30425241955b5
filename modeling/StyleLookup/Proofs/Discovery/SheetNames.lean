import StyleLookup.Proofs.Discovery.Modes
import StyleLookup.Watch

/-!
The two ways in which style sheets are told by their names. Beside a source file a name has to end
in a dot and one of the extensions; the walk and the watcher look at what follows the last dot. The
two differ only for a name that is an extension with its dot and nothing else, and for extensions
that hold dots themselves.
-/

set_option autoImplicit false

namespace StyleLookup

theorem Text.splitLast?_eq_some_iff {mark : Char} {text before after : List Char} :
    splitLast? mark text = some (before, after) ↔
      text = before ++ mark :: after ∧ mark ∉ after := by
  constructor
  · exact splitLast?_eq_some
  · intro whole
    obtain ⟨rfl, absent⟩ := whole
    induction before with
    | nil => simp [splitLast?, splitLast?_eq_none_iff.mpr absent]
    | cons c before ih => simp [splitLast?, ih]

namespace Scoping

/-- A name that consists of a dot and one of the extensions. -/
def IsBareExtension (scoping : Scoping) (name : String) : Prop :=
  ∃ extension ∈ scoping.fileExtensions, name = "." ++ extension

/-- A name that ends in a dot and one of the extensions that have a dot in them. -/
def EndsInDotted (scoping : Scoping) (name : String) : Prop :=
  ∃ extension ∈ scoping.fileExtensions, '.' ∈ extension.toList ∧
    Discovery.endsInExtension extension name = true

variable {scoping : Scoping} {name : String}

theorem hasStyleExtension_iff :
    scoping.hasStyleExtension name = true ↔
      ∃ extension ∈ scoping.fileExtensions, '.' ∉ extension.toList ∧
        ∃ stem, stem ≠ [] ∧ name.toList = stem ++ '.' :: extension.toList := by
  unfold hasStyleExtension hasExtension
  constructor
  · intro accepted
    split at accepted
    · rename_i stem ending cut
      obtain ⟨whole, dotless⟩ := Text.splitLast?_eq_some_iff.mp cut
      simp only [Bool.and_eq_true, Bool.not_eq_true', List.isEmpty_eq_false_iff,
        List.contains_iff_mem] at accepted
      exact ⟨String.ofList ending, accepted.2, by simpa using dotless, stem, accepted.1,
        by simpa using whole⟩
    · cases accepted
  · intro split
    obtain ⟨extension, known, dotless, stem, nonempty, whole⟩ := split
    rw [Text.splitLast?_eq_some_iff.mpr ⟨whole, dotless⟩]
    simp [known, nonempty]

theorem endsInExtension_iff {extension : String} :
    Discovery.endsInExtension extension name = true ↔
      ∃ stem, name.toList = stem ++ '.' :: extension.toList := by
  rw [Discovery.endsInExtension, List.isSuffixOf_iff_suffix]
  exact ⟨fun ⟨stem, whole⟩ => ⟨stem, whole.symm⟩, fun ⟨stem, whole⟩ => ⟨stem, whole.symm⟩⟩

/-- A name ends in one of the extensions exactly if it has one of them behind its last dot, or if it
is one of the two exceptions. -/
theorem exists_endsInExtension_iff :
    (∃ extension ∈ scoping.fileExtensions, Discovery.endsInExtension extension name = true) ↔
      scoping.hasStyleExtension name = true ∨ scoping.IsBareExtension name ∨
        scoping.EndsInDotted name := by
  constructor
  · intro ends
    obtain ⟨extension, known, ends⟩ := ends
    by_cases dotted : '.' ∈ extension.toList
    · exact .inr (.inr ⟨extension, known, dotted, ends⟩)
    · obtain ⟨stem, whole⟩ := endsInExtension_iff.mp ends
      cases stem with
      | nil => exact .inr (.inl ⟨extension, known, String.toList_inj.mp (by simpa using whole)⟩)
      | cons c stem =>
          exact .inl (hasStyleExtension_iff.mpr
            ⟨extension, known, dotted, c :: stem, List.cons_ne_nil c stem, whole⟩)
  · intro named
    obtain accepted | ⟨extension, known, rfl⟩ | ⟨extension, known, -, ends⟩ := named
    · obtain ⟨extension, known, -, stem, -, whole⟩ := hasStyleExtension_iff.mp accepted
      exact ⟨extension, known, endsInExtension_iff.mpr ⟨stem, whole⟩⟩
    · exact ⟨extension, known, endsInExtension_iff.mpr ⟨[], by simp⟩⟩
    · exact ⟨extension, known, ends⟩

end Scoping

namespace Discovery

variable {fs : Snapshot} {scoping : Scoping}

/-! ## The walk -/

theorem run_visitEntry_of_file {wanted : String → Bool} {enter : Path → Id (List Path)}
    {entry : DirEntry} (kind : entry.kind = .file) (kept : scoping.isExcluded entry.name = false) :
    (visitEntry scoping wanted enter entry).run =
      if wanted entry.name then [entry.path] else [] := by
  simp only [visitEntry, kept, kind]
  rfl

/-- Each sheet that the walk finds is also found by a search of the directory that it lies in. -/
theorem exists_folderFiles_of_mem_globalFiles {root path : Path}
    (member : path ∈ (globalFiles fs scoping root).run) :
    ∃ directory, path ∈ (folderFiles fs scoping directory).run := by
  have anywhere : ∀ place : Path, True → ∀ entry ∈ fs.listing place, True :=
    fun _ _ _ _ => trivial
  obtain ⟨directory, -, entry, listed, same, kind, -, accepted⟩ :=
    exists_entry_of_mem_filesBelow anywhere scoping.scanDepth trivial member
  exact ⟨directory, mem_folderFiles_iff.mpr ⟨entry, listed, same, kind,
    Scoping.exists_endsInExtension_iff.mpr (.inl accepted)⟩⟩

/-! ## The modes -/

/-- The normal forms of what searches of directories find. -/
def IsFolderFile (fs : Snapshot) (scoping : Scoping) (path : Path) : Prop :=
  ∃ directory, ∃ found ∈ (folderFiles fs scoping directory).run, path = found.normalize

variable {root source path : Path}

theorem isDir_of_mem_candidatesIn {mode : Mode}
    (member : path ∈ candidatesIn mode fs scoping root source) : (fs.isDir root).run = true := by
  cases rooted : (fs.isDir root).run with
  | false =>
      rw [candidatesIn_of_not_isDir rooted] at member
      cases member
  | true => rfl

theorem isFolderFile_of_mem_global (member : path ∈ candidatesIn .global fs scoping root source) :
    IsFolderFile fs scoping path := by
  rw [candidatesIn_of_isDir (isDir_of_mem_candidatesIn member)] at member
  obtain ⟨found, walked, same⟩ := CandidateList.mem_paths_ofList.mp member
  obtain ⟨directory, held⟩ := exists_folderFiles_of_mem_globalFiles walked
  exact ⟨directory, found, held, same⟩

theorem mem_adjacentFiles_iff :
    path ∈ adjacentFiles fs scoping source ↔
      ∃ directory, source.parent? = some directory ∧
        path ∈ (folderFiles fs scoping directory).run := by
  unfold adjacentFiles beside
  cases source.parent? with
  | none => simp
  | some directory => simp

theorem isFolderFile_of_mem_folder (member : path ∈ candidatesIn .folder fs scoping root source) :
    IsFolderFile fs scoping path := by
  rw [candidatesIn_of_isDir (isDir_of_mem_candidatesIn member)] at member
  obtain ⟨found, adjacent, same⟩ := CandidateList.mem_paths_ofList.mp member
  obtain ⟨directory, -, held⟩ := mem_adjacentFiles_iff.mp adjacent
  exact ⟨directory, found, held, same⟩

theorem endsInExtension_append (base extension : String) :
    endsInExtension extension (base ++ "." ++ extension) = true :=
  Scoping.endsInExtension_iff.mpr ⟨base.toList, by simp⟩

theorem exists_name_of_mem_patternPaths {directory : Path}
    (member : path ∈ patternPaths scoping directory source) :
    ∃ name, path = directory.child name ∧
      ∃ extension ∈ scoping.fileExtensions, endsInExtension extension name = true := by
  unfold patternPaths at member
  cases stemmed : source.fileStem? with
  | none =>
      rw [stemmed] at member
      cases member
  | some stem =>
      rw [stemmed] at member
      obtain ⟨pattern, -, filled⟩ := List.mem_flatMap.mp member
      obtain ⟨extension, known, rfl⟩ := List.mem_map.mp filled
      exact ⟨_, rfl, extension, known, endsInExtension_append _ extension⟩

/-- A file that is named after the source is asked for by a name that ends in an extension. -/
theorem exists_name_of_mem_filename
    (member : path ∈ candidatesIn .filename fs scoping root source) :
    ∃ directory name, source.parent? = some directory ∧ path = (directory.child name).normalize ∧
      ∃ extension ∈ scoping.fileExtensions, endsInExtension extension name = true := by
  rw [candidatesIn_of_isDir (isDir_of_mem_candidatesIn member)] at member
  obtain ⟨found, named, rfl⟩ := CandidateList.mem_paths_ofList.mp member
  unfold namedFiles beside at named
  cases above : source.parent? with
  | none =>
      rw [above] at named
      cases named
  | some directory =>
      simp only [above, filenameMatches, filesAmong_snapshot_eq_filter] at named
      obtain ⟨name, rfl, ending⟩ := exists_name_of_mem_patternPaths (List.mem_of_mem_filter named)
      exact ⟨directory, name, rfl, rfl, ending⟩

theorem mem_filename_or_isFolderFile_of_mem_smart
    (member : path ∈ candidatesIn .smart fs scoping root source) :
    path ∈ candidatesIn .filename fs scoping root source ∨ IsFolderFile fs scoping path := by
  rw [candidatesIn_smart] at member
  split at member
  · exact .inr (isFolderFile_of_mem_global member)
  · obtain named | adjacent | common := mem_tiered_iff.mp member
    · exact .inl named
    · exact .inr (isFolderFile_of_mem_folder adjacent)
    · obtain ⟨-, _, -, -, held⟩ := mem_commonCandidates_iff.mp common
      exact .inr ⟨_, held⟩

theorem mem_folder_of_mem_folderFiles {directory : Path} (rooted : (fs.isDir root).run = true)
    (above : source.parent? = some directory)
    (held : path ∈ (folderFiles fs scoping directory).run) :
    path.normalize ∈ candidatesIn .folder fs scoping root source := by
  rw [candidatesIn_of_isDir rooted]
  exact CandidateList.mem_paths_ofList.mpr
    ⟨path, mem_adjacentFiles_iff.mpr ⟨directory, above, held⟩, rfl⟩

theorem mem_smart_of_mem_folder (member : path ∈ candidatesIn .folder fs scoping root source) :
    path ∈ candidatesIn .smart fs scoping root source := by
  have held := (@mem_tiered_iff (candidatesIn .filename fs scoping root source) _
    (commonCandidates fs scoping root) path).mpr (.inr (.inl member))
  rw [candidatesIn_smart, if_neg fun fallback => List.ne_nil_of_mem held fallback.1]
  exact held

/-- A search of a directory takes the files that the walk and the watcher take for style sheets, and
besides them those that are named by an extension and its dot alone and those behind an extension
with dots in it. So whatever the walk finds in a directory, the folder mode and the smart mode find
there too, and apart from the two exceptions it is the same the other way round. -/
theorem folderFiles_accept_extensions (fs : Snapshot) (scoping : Scoping) :
    (∀ directory path, path ∈ (folderFiles fs scoping directory).run ↔
      ∃ entry ∈ fs.listing directory, entry.path = path ∧ entry.kind = .file ∧
        (scoping.hasStyleExtension entry.name = true ∨ scoping.IsBareExtension entry.name ∨
          scoping.EndsInDotted entry.name)) ∧
    (∀ (entry : DirEntry) (enter : Path → Id (List Path)), entry.kind = .file →
      scoping.isExcluded entry.name = false →
        (visitEntry scoping scoping.hasStyleExtension enter entry).run =
          if scoping.hasStyleExtension entry.name then [entry.path] else []) ∧
    (∀ entry : DirEntry, entry.path.fileName? = some entry.name →
      scoping.isStyleSheet entry.path = scoping.hasStyleExtension entry.name) ∧
    (∀ root, ∀ path ∈ (globalFiles fs scoping root).run,
      ∃ directory, path ∈ (folderFiles fs scoping directory).run) ∧
    (∀ root source directory, (fs.isDir root).run = true → source.parent? = some directory →
      ∀ path ∈ (folderFiles fs scoping directory).run,
        path.normalize ∈ candidatesIn .folder fs scoping root source ∧
          path.normalize ∈ candidatesIn .smart fs scoping root source) ∧
    (∀ root source, ∀ path ∈ candidatesIn .folder fs scoping root source,
      IsFolderFile fs scoping path) ∧
    (∀ root source, ∀ path ∈ candidatesIn .smart fs scoping root source,
      path ∈ candidatesIn .filename fs scoping root source ∨ IsFolderFile fs scoping path) ∧
    (∀ root source, ∀ path ∈ candidatesIn .filename fs scoping root source,
      ∃ directory name, source.parent? = some directory ∧ path = (directory.child name).normalize ∧
        (scoping.hasStyleExtension name = true ∨ scoping.IsBareExtension name ∨
          scoping.EndsInDotted name)) := by
  refine ⟨?_, fun _ _ => run_visitEntry_of_file, ?_,
    fun _ _ => exists_folderFiles_of_mem_globalFiles, ?_, fun _ _ _ => isFolderFile_of_mem_folder,
    fun _ _ _ => mem_filename_or_isFolderFile_of_mem_smart, ?_⟩
  · intro directory path
    rw [mem_folderFiles_iff]
    simp only [Scoping.exists_endsInExtension_iff]
  · intro entry named
    rw [Scoping.isStyleSheet, named, Option.any_some]
  · intro root source directory rooted above path held
    have member := mem_folder_of_mem_folderFiles rooted above held
    exact ⟨member, mem_smart_of_mem_folder member⟩
  · intro root source path member
    have named := exists_name_of_mem_filename member
    simpa only [Scoping.exists_endsInExtension_iff] using named

/-- A tree that holds one empty sheet. -/
def loneSheet (path : Path) : Snapshot :=
  (MemoryTree.ofList [(path, .text "")]).snapshot fun _ found => found

/-- A file that is named `.css` is read beside a source file, but it has no extension. Where
`module.css` is an extension, `a.module.css` is read there as well, but what it has behind its last
dot is `css`. -/
theorem oddNames_taken :
    let bare : Path := ⟨"/w/.css"⟩
    let dotted : Path := ⟨"/w/a.module.css"⟩
    let modules : Scoping := { Scoping.standard with fileExtensions := ["module.css"] }
    ((loneSheet bare).listing ⟨"/w"⟩ = [⟨bare, ".css", .file⟩] ∧
      bare ∈ (folderFiles (loneSheet bare) Scoping.standard ⟨"/w"⟩).run ∧
      Scoping.standard.hasStyleExtension ".css" = false) ∧
    ((loneSheet dotted).listing ⟨"/w"⟩ = [⟨dotted, "a.module.css", .file⟩] ∧
      dotted ∈ (folderFiles (loneSheet dotted) modules ⟨"/w"⟩).run ∧
      modules.hasStyleExtension "a.module.css" = false) := by
  decide +kernel

end Discovery

end StyleLookup
