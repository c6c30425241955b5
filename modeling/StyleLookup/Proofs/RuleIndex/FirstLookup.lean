import StyleLookup.Proofs.Discovery.SheetNames
import StyleLookup.Proofs.FileSystem.Replacement
import StyleLookup.Proofs.RuleIndex.Interleaving

/-!
The first lookup of an index. Nothing is held yet, and no candidate comes twice, so each of them is
read once and in turn. Candidates are files: in a tree that is held in memory they are places of the
tree, and as long as those have no backslash they are filed under names of their own.
-/

set_option autoImplicit false

namespace StyleLookup

/-! ## Candidates are files -/

namespace Discovery

variable {fs : Snapshot} {scoping : Scoping} {root source path : Path}

theorem sound_candidates (fs : Snapshot) (scoping : Scoping) (root source : Path)
    (encoding : Path.Encoding) : (candidates fs scoping root source encoding).run.Sound := by
  unfold candidates
  rw [Id.run_bind]
  split
  · cases scoping.mode with
    | global => exact CandidateList.sound_ofList _
    | filename => exact CandidateList.sound_ofList _
    | folder => exact CandidateList.sound_ofList _
    | smart =>
        simp only [Id.run_bind]
        split <;> exact CandidateList.sound_ofList _
  · exact CandidateList.sound_empty

theorem isFile_of_isFolderFile (lexical : fs.Lexical) (found : IsFolderFile fs scoping path) :
    fs.isFile path = true := by
  obtain ⟨directory, given, member, rfl⟩ := found
  obtain ⟨entry, listed, rfl, kind, -⟩ := mem_folderFiles_iff.mp member
  rw [lexical.isFile_normalize]
  exact lexical.isFile_path entry listed kind

theorem isFile_of_mem_filename (lexical : fs.Lexical)
    (member : path ∈ candidatesIn .filename fs scoping root source) : fs.isFile path = true := by
  rw [candidatesIn_of_isDir (isDir_of_mem_candidatesIn member)] at member
  obtain ⟨given, named, rfl⟩ := CandidateList.mem_paths_ofList.mp member
  unfold namedFiles beside at named
  cases above : source.parent? with
  | none =>
      rw [above] at named
      cases named
  | some directory =>
      simp only [above, filenameMatches, filesAmong_snapshot_eq_filter] at named
      rw [lexical.isFile_normalize]
      exact (List.mem_filter.mp named).2

theorem isFile_of_mem_candidatesIn (lexical : fs.Lexical) {mode : Mode}
    (member : path ∈ candidatesIn mode fs scoping root source) : fs.isFile path = true := by
  cases mode with
  | global => exact isFile_of_isFolderFile lexical (isFolderFile_of_mem_global member)
  | filename => exact isFile_of_mem_filename lexical member
  | folder => exact isFile_of_isFolderFile lexical (isFolderFile_of_mem_folder member)
  | smart =>
      cases mem_filename_or_isFolderFile_of_mem_smart member with
      | inl named => exact isFile_of_mem_filename lexical named
      | inr found => exact isFile_of_isFolderFile lexical found

theorem isFile_of_mem_candidates (lexical : fs.Lexical)
    (member : path ∈ (candidates fs scoping root source).run.paths) : fs.isFile path = true := by
  have inMode : path ∈ candidatesIn scoping.mode fs scoping root source := member
  exact isFile_of_mem_candidatesIn lexical inMode

end Discovery

namespace RuleIndex

theorem candidates_of_root?_eq_some {index : RuleIndex} {fs : Snapshot} {source root : Path}
    (rooted : (index.root? fs source).run = some root) :
    (index.candidates fs source).run =
      (Discovery.candidates fs index.scoping root source index.encoding).run := by
  unfold candidates
  rw [Id.run_bind, rooted]

/-- The candidates of a source without a workspace are none, and those of a source with one are
found there. -/
theorem candidates_cases (index : RuleIndex) (fs : Snapshot) (source : Path) :
    (index.candidates fs source).run = .empty ∨
      ∃ root, (index.candidates fs source).run =
        (Discovery.candidates fs index.scoping root source index.encoding).run := by
  cases rooted : (index.root? fs source).run with
  | none =>
      left
      unfold candidates
      rw [Id.run_bind, rooted]
      rfl
  | some root => exact .inr ⟨root, candidates_of_root?_eq_some rooted⟩

theorem sound_candidates (index : RuleIndex) (fs : Snapshot) (source : Path) :
    (index.candidates fs source).run.Sound := by
  obtain none | ⟨root, found⟩ := index.candidates_cases fs source
  · rw [none]
    exact CandidateList.sound_empty
  · rw [found]
    exact Discovery.sound_candidates fs index.scoping root source index.encoding

theorem isFile_of_mem_candidates {fs : Snapshot} (lexical : fs.Lexical) {workspace : Workspace}
    {scoping : Scoping} {source path : Path}
    (member : path ∈ ((fresh workspace scoping).candidates fs source).run.paths) :
    fs.isFile path = true := by
  obtain none | ⟨root, found⟩ := (fresh workspace scoping).candidates_cases fs source
  · rw [none] at member
    cases member
  · rw [found] at member
    exact Discovery.isFile_of_mem_candidates lexical member

/-! ## What is read -/

/-- What the first lookup of an index answers, what the index is afterwards, and what was asked
for. -/
def firstLookup (workspace : Workspace) (scoping : Scoping) (fs : Snapshot) (token : String)
    (source : Path) : (List StyleRule × RuleIndex) × AccessLog :=
  ((fresh workspace scoping).rulesFor fs.logged token source).run .empty

/-- A sheet that is not held is read, and its entry is the only one that is new. -/
theorem rulesIn_logged_of_unfiled (fs : Snapshot) {index : RuleIndex} {style source : Path}
    (unfiled : index.cache.contains (index.key style source) = false) (log : AccessLog) :
    ∃ after, (index.rulesIn fs.logged style source).run log =
        ((rulesOfReading style (fs.readText style), after),
          { log with reads := log.reads ++ [style] }) ∧
      after.cachedEntries = index.cachedEntries + 1 ∧
        after.setup = index.setup ∧ ∀ key : CacheKey, key ≠ index.key style source →
          after.cache.contains key = index.cache.contains key := by
  have absent : index.cache.get? (index.key style source) = none := by
    simpa [RuleCache.contains] using unfiled
  let rules := rulesOfReading style (fs.readText style)
  refine ⟨{ index with cache := index.cache.insert (index.key style source) rules },
    ?_, ?_, rfl, ?_⟩
  · rw [rulesIn_logged, rulesIn_of_unfiled fs absent, unfiled]
    rfl
  · simp only [cachedEntries, RuleCache.size, RuleCache.entries_insert_of_get?_eq_none absent,
      List.length_append, List.length_singleton]
  · intro key different
    simp only [RuleCache.contains, RuleCache.get?_insert_other _ different]

/-- Sheets that are not held, each with a key of its own, are read one after the other. -/
theorem rulesAmong_logged_of_unfiled (fs : Snapshot) (token : String) (source : Path)
    (styles : List Path) (index : RuleIndex)
    (distinct : (styles.map fun style => index.key style source).Nodup)
    (unfiled : ∀ style ∈ styles, index.cache.contains (index.key style source) = false)
    (log : AccessLog) :
    ∃ after, (rulesAmong fs.logged (Token.parse token) source index styles).run log =
        ((selection fs token styles, after), { log with reads := log.reads ++ styles }) ∧
      after.cachedEntries = index.cachedEntries + styles.length := by
  induction styles generalizing index log with
  | nil =>
      refine ⟨index, ?_, rfl⟩
      rw [List.append_nil]
      rfl
  | cons style rest ih =>
      obtain ⟨missing, restUnfiled⟩ := List.forall_mem_cons.mp unfiled
      obtain ⟨apart, restDistinct⟩ := List.nodup_cons.mp distinct
      obtain ⟨next, ranFirst, one, setup, kept⟩ := rulesIn_logged_of_unfiled fs missing log
      have sameKey (other : Path) : next.key other source = index.key other source := by
        rw [key, key, encoding_congr setup]
      have stillUnfiled : ∀ other ∈ rest, next.cache.contains (next.key other source) = false := by
        intro other member
        have different : index.key other source ≠ index.key style source := by
          intro same
          exact apart (List.mem_map.mpr ⟨other, member, same⟩)
        rw [sameKey, kept _ different, restUnfiled other member]
      simp only [← sameKey] at restDistinct
      obtain ⟨after, ran, more⟩ := ih next restDistinct stillUnfiled
        { log with reads := log.reads ++ [style] }
      refine ⟨after, ?_, ?_⟩
      · rw [rulesAmong, StateT.run_bind, ranFirst]
        have later := congrArg (fun outcome : (List StyleRule × RuleIndex) × AccessLog =>
          (((rulesOfReading style (fs.readText style)).filter (Search.selects token) ++
            outcome.1.1, outcome.1.2), outcome.2)) ran
        simp only [List.append_assoc, List.singleton_append] at later
        exact later
      · rw [more, one, List.length_cons, Nat.add_assoc, Nat.add_comm 1]

/-- A first lookup reads its candidates in turn and leaves an entry for each of them, provided that
no two of them would share one. -/
theorem firstLookup_of_distinct {workspace : Workspace} {scoping : Scoping} {fs : Snapshot}
    {source : Path} {styles : List Path}
    (found : ((fresh workspace scoping).candidates fs source).run.paths = styles)
    (distinct : (styles.map fun style => (fresh workspace scoping).key style source).Nodup)
    (token : String) :
    (firstLookup workspace scoping fs token source).1.1 = selection fs token styles ∧
      (firstLookup workspace scoping fs token source).1.2.cachedEntries = styles.length ∧
      (firstLookup workspace scoping fs token source).2.reads = styles := by
  obtain ⟨listings, asked⟩ :=
    candidates_readsNothing fs (fresh workspace scoping) source .empty
  obtain ⟨after, ran, count⟩ := rulesAmong_logged_of_unfiled fs token source styles
    (fresh workspace scoping) distinct (fun _ _ => rfl) ⟨[], listings⟩
  have outcome : firstLookup workspace scoping fs token source =
      ((selection fs token styles, after), ⟨styles, listings⟩) := by
    subst found
    rw [firstLookup, rulesFor, StateT.run_bind, asked]
    exact ran
  rw [outcome]
  refine ⟨rfl, ?_, rfl⟩
  exact count.trans (Nat.zero_add styles.length)

/-- Sheets whose paths are text without backslashes share no entry, whatever the spelling of the
source. -/
theorem nodup_key {index : RuleIndex} {styles : List Path} (distinct : styles.Nodup)
    (plain : ∀ style ∈ styles, index.encoding.Plain style) (source : Path) :
    (styles.map fun style => index.key style source).Nodup := by
  apply distinct.map_on
  intro left leftMember right rightMember same
  exact (CacheKey.unifySeparators_decode_inj (plain left leftMember) (plain right rightMember)).mp
    (congrArg CacheKey.styleFile same)

end RuleIndex

/-! ## Trees in memory -/

namespace MemoryTree

def FreeOfBackslash (tree : MemoryTree) : Prop := ∀ place ∈ tree.nodes, place.1.FreeOfBackslash

instance (tree : MemoryTree) : Decidable tree.FreeOfBackslash :=
  inferInstanceAs (Decidable (∀ place ∈ tree.nodes, place.1.FreeOfBackslash))

variable {tree : MemoryTree} {arrange : Path → List DirEntry → List DirEntry}

theorem Tidy.exists_node_of_mem_candidates (tidy : tree.Tidy)
    (arranged : ∀ path found, arrange path found ⊆ found) {workspace : Workspace}
    {scoping : Scoping} {source path : Path}
    (member : path ∈ ((RuleIndex.fresh workspace scoping).candidates
      (tree.snapshot arrange) source).run.paths) :
    ∃ node, (path, node) ∈ tree.nodes ∧ node.kind = .file := by
  have lexical := tidy.lexical_snapshot arranged
  have normal := (RuleIndex.sound_candidates _ (tree.snapshot arrange) source).normal path member
  obtain ⟨node, held, kind⟩ :=
    any_kind_iff.mp (RuleIndex.isFile_of_mem_candidates lexical member)
  rw [tidy.find?_eq_some_iff, normal] at held
  exact ⟨node, held, kind⟩

/-- In a tree without backslashes a first lookup reads its candidates in turn. -/
theorem Tidy.firstLookup (tidy : tree.Tidy) (free : tree.FreeOfBackslash)
    (arranged : ∀ path found, arrange path found ⊆ found) {workspace : Workspace}
    {scoping : Scoping} {source : Path} {styles : List Path}
    (found : ((RuleIndex.fresh workspace scoping).candidates
      (tree.snapshot arrange) source).run.paths = styles) (token : String) :
    let outcome := RuleIndex.firstLookup workspace scoping (tree.snapshot arrange) token source
    outcome.1.1 = RuleIndex.selection (tree.snapshot arrange) token styles ∧
      outcome.1.2.cachedEntries = styles.length ∧ outcome.2.reads = styles := by
  refine RuleIndex.firstLookup_of_distinct found (RuleIndex.nodup_key ?_ ?_ source) token
  · rw [← found]
    exact (RuleIndex.sound_candidates _ _ source).nodup
  · intro style member
    rw [← found] at member
    obtain ⟨node, held, -⟩ := tidy.exists_node_of_mem_candidates arranged member
    exact ⟨Path.Encoding.legible_text style, free (style, node) held⟩

end MemoryTree

end StyleLookup
