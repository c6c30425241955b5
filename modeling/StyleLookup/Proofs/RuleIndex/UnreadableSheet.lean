import StyleLookup.Proofs.FileSystem.Replacement
import StyleLookup.Proofs.RuleIndex.FirstLookup
import StyleLookup.Proofs.Sheet.Parsed

/-!
A file that can no longer be read. It is still listed and it is still a file, so lookups find the
same candidates, and each of the others is read as before. What is missing are its own rules.
-/

set_option autoImplicit false

namespace StyleLookup

/-- A file system after one of its files has become unreadable. -/
structure Snapshot.LosesContent (place : Path) (fs other : Snapshot) : Prop where
  readDir : ∀ path : Path, other.readDir path = fs.readDir path
  isFile : ∀ path : Path, other.isFile path = fs.isFile path
  isDir : ∀ path : Path, other.isDir path = fs.isDir path
  readText : ∀ path : Path, path.normalize ≠ place → other.readText path = fs.readText path
  unread : ∀ path : Path, path.normalize = place → ∃ fault, other.readText path = .error fault

namespace RuleIndex

variable {fs other : Snapshot} {place : Path}

theorem candidates_of_losesContent (loses : fs.LosesContent place other) (index : RuleIndex)
    (source : Path) : (index.candidates other source).run = (index.candidates fs source).run := by
  have alike : Correspondence.same.OnPlaces other fs := ⟨⟨loses.isFile, loses.isDir⟩, loses.readDir⟩
  exact alike.candidates index source

theorem file_of_mem_rulesOfReading {style : Path} {reading : Except FileFault String}
    {rule : StyleRule} (member : rule ∈ rulesOfReading style reading) : rule.file = style := by
  cases reading with
  | ok content => exact (Sheet.readFrom_of_mem_rules member).file
  | error fault => cases member

/-- Sheets give rules of their own only, so what goes is what comes from the place. -/
theorem selection_of_losesContent (loses : fs.LosesContent place other)
    (placeNormal : place.normalize = place) {styles : List Path}
    (normal : ∀ style ∈ styles, style.normalize = style) (token : String) :
    selection other token styles =
      (selection fs token styles).filter (! ·.file.sameAs place) := by
  rw [selection, selection, List.filter_flatMap]
  apply List.flatMap_congr
  intro style member
  have styleNormal := normal style member
  by_cases here : style = place
  · obtain ⟨fault, failed⟩ := loses.unread style (styleNormal.trans here)
    rw [failed, eq_comm, rulesOfReading, List.filter_nil, List.filter_eq_nil_iff]
    intro rule selected
    have file := file_of_mem_rulesOfReading (List.mem_of_mem_filter selected)
    simp [file, (Path.sameAs_iff_of_normal styleNormal placeNormal).mpr here]
  · rw [loses.readText style (styleNormal.symm ▸ here), eq_comm, List.filter_eq_self]
    intro rule selected
    have file := file_of_mem_rulesOfReading (List.mem_of_mem_filter selected)
    rw [Bool.not_eq_true', ← Bool.not_eq_true, file,
      Path.sameAs_iff_of_normal styleNormal placeNormal]
    exact here

end RuleIndex

/-! ## Trees in memory -/

namespace MemoryTree

variable {tree : MemoryTree} {sheet : Path} {node : MemoryNode}

theorem FreeOfBackslash.put (free : tree.FreeOfBackslash) (sheetFree : sheet.FreeOfBackslash) :
    (tree.put sheet node).FreeOfBackslash := by
  intro place member
  obtain ⟨kept, -⟩ | rfl := mem_put_iff.mp member
  · exact free place kept
  · exact sheetFree

theorem readDir_of_file {arrange : Path → List DirEntry → List DirEntry} {path : Path}
    (found : tree.find? path = some node) (kind : node.kind = .file) :
    (tree.snapshot arrange).readDir path = .error .notDirectory := by
  simp only [snapshot, found]
  cases node with
  | text content => rfl
  | unreadable fault => rfl
  | directory => cases kind
  | unlistable => cases kind
  | other => rfl

theorem Tidy.losesContent_put (tidy : tree.Tidy) (held : (sheet, node) ∈ tree.nodes)
    (kind : node.kind = .file) (fault : FileFault)
    (arrange : Path → List DirEntry → List DirEntry) :
    (tree.snapshot arrange).LosesContent sheet
      ((tree.put sheet (.unreadable fault)).snapshot arrange) := by
  have stays : (MemoryNode.unreadable fault).kind = node.kind := kind.symm
  have same := tidy.sameBut_put held stays arrange
  have lost (path : Path) (here : path.normalize = sheet) :
      (tree.put sheet (.unreadable fault)).find? path = some (.unreadable fault) := by
    rw [tidy.find?_put (tidy.normalize_of_mem held), if_pos here]
  refine ⟨?_, same.isFile, same.isDir, same.readText, ?_⟩
  · intro path
    by_cases here : path.normalize = sheet
    · have found : tree.find? path = some node := tidy.find?_eq_some_iff.mpr (here ▸ held)
      rw [readDir_of_file (lost path here) rfl, readDir_of_file found kind]
    · exact same.readDir path here
  · intro path here
    refine ⟨fault, ?_⟩
    simp only [snapshot, lost path here]

end MemoryTree

namespace RuleIndex

/-- A file that becomes unreadable takes its own rules away from what a first lookup answers, and
nothing else. As many entries are made, and the same files are asked for. -/
theorem unreadable_sheet_costs_its_rules {tree : MemoryTree} (tidy : tree.Tidy)
    (free : tree.FreeOfBackslash) {arrange : Path → List DirEntry → List DirEntry}
    (arranged : ∀ path found, arrange path found ⊆ found) {sheet : Path} {node : MemoryNode}
    (held : (sheet, node) ∈ tree.nodes) (kind : node.kind = .file) (fault : FileFault)
    (workspace : Workspace) (scoping : Scoping) (token : String) (source : Path) :
    let before := firstLookup workspace scoping (tree.snapshot arrange) token source
    let after := firstLookup workspace scoping
      ((tree.put sheet (.unreadable fault)).snapshot arrange) token source
    after.1.1 = before.1.1.filter (! ·.file.sameAs sheet) ∧
      after.1.2.cachedEntries = before.1.2.cachedEntries ∧ after.2.reads = before.2.reads := by
  intro before after
  have sheetNormal := tidy.normalize_of_mem held
  have loses := tidy.losesContent_put held kind fault arrange
  have unchanged := candidates_of_losesContent loses (fresh workspace scoping) source
  obtain ⟨rules, entries, reads⟩ := tidy.firstLookup free arranged rfl token
  have tidyLeft := tidy.put sheetNormal (.unreadable fault)
  have freeLeft : (tree.put sheet (.unreadable fault)).FreeOfBackslash :=
    free.put (free (sheet, node) held)
  obtain ⟨rulesLeft, entriesLeft, readsLeft⟩ :=
    tidyLeft.firstLookup freeLeft arranged (congrArg CandidateList.paths unchanged) token
  refine ⟨?_, entriesLeft.trans entries.symm, readsLeft.trans reads.symm⟩
  have normal := (sound_candidates (fresh workspace scoping) (tree.snapshot arrange) source).normal
  calc after.1.1
    _ = selection _ token _ := rulesLeft
    _ = _ := selection_of_losesContent loses sheetNormal normal token
    _ = _ := by rw [← rules]

def namesakeTree : MemoryTree :=
  .ofList [(⟨"/w/i.css"⟩, .text ".x { top: 0; }"), (⟨"/w/i.scss"⟩, .text ".x, .y { left: 0; }")]

def asListed : Path → List DirEntry → List DirEntry := fun _ found => found

theorem garbled_namesake_missing :
    (⟨"/w/i.css"⟩, .text ".x { top: 0; }") ∈ namesakeTree.nodes ∧
      (firstLookup (.fixed ⟨"/w"⟩) namesakes (namesakeTree.snapshot asListed) "x"
        ⟨"/w/i.html"⟩).1.1.map StyleRule.file = [⟨"/w/i.css"⟩, ⟨"/w/i.scss"⟩] ∧
      (firstLookup (.fixed ⟨"/w"⟩) namesakes
        ((namesakeTree.put ⟨"/w/i.css"⟩ (.unreadable .notText)).snapshot asListed) "x"
          ⟨"/w/i.html"⟩).1.1.map StyleRule.file = [⟨"/w/i.scss"⟩] ∧
      (firstLookup (.fixed ⟨"/w"⟩) namesakes
        ((namesakeTree.put ⟨"/w/i.css"⟩ (.unreadable .notText)).snapshot asListed) "x"
          ⟨"/w/i.html"⟩).2.reads = [⟨"/w/i.css"⟩, ⟨"/w/i.scss"⟩] := by
  have tidy : namesakeTree.Tidy := MemoryTree.tidy_ofList _
  have free : namesakeTree.FreeOfBackslash := by decide +kernel
  have arranged (path : Path) (found : List DirEntry) : asListed path found ⊆ found :=
    List.Subset.refl found
  have held : (⟨"/w/i.css"⟩, .text ".x { top: 0; }") ∈ namesakeTree.nodes := by decide +kernel
  have files : (firstLookup (.fixed ⟨"/w"⟩) namesakes (namesakeTree.snapshot asListed) "x"
      ⟨"/w/i.html"⟩).1.1.map StyleRule.file = [⟨"/w/i.css"⟩, ⟨"/w/i.scss"⟩] := by decide +kernel
  have asked : (firstLookup (.fixed ⟨"/w"⟩) namesakes (namesakeTree.snapshot asListed) "x"
      ⟨"/w/i.html"⟩).2.reads = [⟨"/w/i.css"⟩, ⟨"/w/i.scss"⟩] := by decide +kernel
  obtain ⟨rules, -, reads⟩ := unreadable_sheet_costs_its_rules tidy free arranged held rfl .notText
    (.fixed ⟨"/w"⟩) namesakes "x" ⟨"/w/i.html"⟩
  refine ⟨held, files, ?_, reads.trans asked⟩
  have others : [(⟨"/w/i.css"⟩ : Path), ⟨"/w/i.scss"⟩].filter (! ·.sameAs ⟨"/w/i.css"⟩) =
      [⟨"/w/i.scss"⟩] := by decide +kernel
  rw [rules, ← others, ← files, List.filter_map]
  rfl

end RuleIndex

end StyleLookup
