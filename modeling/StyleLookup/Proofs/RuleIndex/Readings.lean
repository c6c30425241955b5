import Mathlib.Data.List.DropRight
import Mathlib.Data.List.Induction
import StyleLookup.FileSystem.Memory
import StyleLookup.Proofs.Discovery.Unread
import StyleLookup.Proofs.RuleIndex.Lookup

/-!
Readings and entries of an index that is in use while files change. Each question that a lookup asks
may find other files than the question before. However they change, a reading leaves one entry of
its own, so the entries count the readings since the last invalidation.
-/

set_option autoImplicit false

namespace StyleLookup

/-- The files at every moment. There are no two questions at the same moment. -/
abbrev Timeline := Nat → Snapshot

/-- How far a run has come: the moment of its next question, and what it has asked for. -/
structure Progress where
  now : Nat
  log : AccessLog
deriving DecidableEq

namespace Progress

def start : Progress := ⟨0, .empty⟩

def reads (progress : Progress) : List Path := progress.log.reads

end Progress

namespace Timeline

def ask {α : Type} (timeline : Timeline)
    (question : FileSystem (StateM AccessLog) → StateM AccessLog α) : StateM Progress α :=
  fun progress =>
    let (answer, log) := (question (timeline progress.now).logged).run progress.log
    (answer, ⟨progress.now + 1, log⟩)

def files (timeline : Timeline) : FileSystem (StateM Progress) where
  readDir path := timeline.ask fun fs => fs.readDir path
  readText path := timeline.ask fun fs => fs.readText path
  isFile path := timeline.ask fun fs => fs.isFile path
  isDir path := timeline.ask fun fs => fs.isDir path

end Timeline

namespace RuleIndex

/-! ## Runs -/

/-- What an index may be asked for, and the order to forget. -/
inductive Request where
  | root (source : Path)
  | candidates (source : Path)
  | rulesIn (style source : Path)
  | rulesFor (token : String) (source : Path)
  | invalidate
deriving DecidableEq

variable {m : Type → Type} [Monad m]

def serve (fs : FileSystem m) (index : RuleIndex) : Request → m RuleIndex
  | .root source => do
      let _ ← index.root? fs source
      pure index
  | .candidates source => do
      let _ ← index.candidates fs source
      pure index
  | .rulesIn style source => do
      let (_, index) ← index.rulesIn fs style source
      pure index
  | .rulesFor token source => do
      let (_, index) ← index.rulesFor fs token source
      pure index
  | .invalidate => pure index.invalidate

def serveAll (fs : FileSystem m) (index : RuleIndex) (requests : List Request) : m RuleIndex :=
  requests.foldlM (serve fs) index

/-- An index and the run that it has behind it. -/
structure Used where
  index : RuleIndex
  progress : Progress

namespace Used

def created (workspace : Workspace) (scoping : Scoping) (encoding : Path.Encoding) : Used :=
  ⟨fresh workspace scoping encoding, .start⟩

/-- What a program over a timeline leaves behind. -/
def leave (used : Used) (program : StateM Progress RuleIndex) : Used :=
  let (index, progress) := program.run used.progress
  ⟨index, progress⟩

end Used

/-- An index and its run, from the moment at which it was made, after some requests. -/
def usedAfter (workspace : Workspace) (scoping : Scoping) (timeline : Timeline)
    (requests : List Request) (encoding : Path.Encoding := .text) : Used :=
  (Used.created workspace scoping encoding).leave
    ((fresh workspace scoping encoding).serveAll timeline.files requests)

theorem usedAfter_concat (workspace : Workspace) (scoping : Scoping) (timeline : Timeline)
    (requests : List Request) (encoding : Path.Encoding) (request : Request) :
    usedAfter workspace scoping timeline (requests ++ [request]) encoding =
      (usedAfter workspace scoping timeline requests encoding).leave
        ((usedAfter workspace scoping timeline requests encoding).index.serve
          timeline.files request) := by
  simp only [usedAfter, Used.leave, serveAll, List.foldlM_append, List.foldlM_cons,
    List.foldlM_nil, bind_pure, StateT.run_bind]
  rfl

/-! ## Readings leave entries -/

/-- From one point of a run to a later one entries have only been added, one for each reading and in
the same order. -/
def Accounted (before after : Used) : Prop :=
  after.index.setup = before.index.setup ∧
    ∃ reads added, after.progress.reads = before.progress.reads ++ reads ∧
      after.index.cache.entries = before.index.cache.entries ++ added ∧
        (added.map fun entry => entry.1.styleFile) =
          reads.map fun path => CacheKey.unifySeparators (before.index.encoding.decode path)

namespace Accounted

variable {before middle after : Used}

theorem of_same (reads : after.progress.reads = before.progress.reads)
    (index : after.index = before.index) : Accounted before after :=
  ⟨congrArg setup index, [], [], by simp [reads], by simp [index], rfl⟩

theorem trans (earlier : Accounted before middle) (later : Accounted middle after) :
    Accounted before after := by
  obtain ⟨setupFirst, reads, added, readFirst, addedFirst, filedFirst⟩ := earlier
  obtain ⟨setupThen, more, others, readThen, addedThen, filedThen⟩ := later
  rw [encoding_congr setupFirst] at filedThen
  refine ⟨setupThen.trans setupFirst, reads ++ more, added ++ others, ?_, ?_, ?_⟩
  · rw [readThen, readFirst, List.append_assoc]
  · rw [addedThen, addedFirst, List.append_assoc]
  · rw [List.map_append, List.map_append, filedFirst, filedThen]

theorem length_reads (accounted : Accounted before after) :
    after.progress.reads.length + before.index.cachedEntries =
      before.progress.reads.length + after.index.cachedEntries := by
  obtain ⟨-, reads, added, read, entered, filed⟩ := accounted
  have count : added.length = reads.length := by simpa using congrArg List.length filed
  simp only [cachedEntries, RuleCache.size, read, entered, List.length_append, count]
  omega

/-- What is filed stays as it is. -/
theorem get?_eq_some (accounted : Accounted before after) {key : CacheKey}
    {rules : List StyleRule} (filed : before.index.cache.get? key = some rules) :
    after.index.cache.get? key = some rules := by
  obtain ⟨-, -, added, -, entered, -⟩ := accounted
  rw [RuleCache.get?] at filed ⊢
  rw [entered, List.lookup_append, filed, Option.some_or]

end Accounted

/-! ## What each request leaves behind -/

variable (timeline : Timeline)

/-- Programs after which the readings are what they were. -/
def readsKept : Correspondence (StateM Progress) (StateM Progress) where
  Holds program _ := ∀ progress, (program.run progress).run.2.reads = progress.reads
  pure _ _ := rfl
  bind := by
    intro α β program _ further _ first later progress
    rw [StateT.run_bind]
    exact (later _ _).trans (first progress)

theorem readsKept_onPlaces : readsKept.OnPlaces timeline.files timeline.files where
  readDir _ _ := rfl
  isFile _ _ := rfl
  isDir _ _ := rfl

theorem readRules_files (style : Path) (progress : Progress) :
    (readRules timeline.files style).run progress =
      (rulesOfReading style ((timeline progress.now).readText style),
        ⟨progress.now + 1, { progress.log with reads := progress.log.reads ++ [style] }⟩) := by
  have asked : (timeline.files.readText style).run progress =
      ((timeline progress.now).readText style,
        ⟨progress.now + 1, { progress.log with reads := progress.log.reads ++ [style] }⟩) := rfl
  rw [readRules, StateT.run_bind, asked]
  simp only [bind]
  cases (timeline progress.now).readText style <;> rfl

theorem rulesIn_files_of_contains {index : RuleIndex} {style source : Path}
    (held : index.cache.contains (index.key style source) = true) (progress : Progress) :
    ∃ rules, (index.rulesIn timeline.files style source).run progress =
      ((rules, index), progress) := by
  obtain ⟨rules, filed⟩ := Option.isSome_iff_exists.mp held
  refine ⟨rules, ?_⟩
  simp only [rulesIn, filed]
  rfl

/-- The point that a program has come to when it answers with an index beside something else. -/
def Used.ofOutcome {α : Type} (outcome : Id ((α × RuleIndex) × Progress)) : Used :=
  ⟨outcome.run.1.2, outcome.run.2⟩

theorem rulesIn_accounted (used : Used) (style source : Path) :
    Accounted used
      (.ofOutcome ((used.index.rulesIn timeline.files style source).run used.progress)) := by
  cases filed : used.index.cache.get? (used.index.key style source) with
  | some rules =>
      obtain ⟨answer, ran⟩ := rulesIn_files_of_contains timeline
        (Option.isSome_iff_exists.mpr ⟨rules, filed⟩) used.progress
      rw [ran]
      exact .of_same rfl rfl
  | none =>
      let rules := rulesOfReading style ((timeline used.progress.now).readText style)
      refine ⟨?_, [style], [(used.index.key style source, rules)], ?_, ?_, rfl⟩
      · simp only [rulesIn, filed, StateT.run_bind, readRules_files]
        rfl
      · simp only [rulesIn, filed, StateT.run_bind, readRules_files]
        rfl
      · simp only [rulesIn, filed, StateT.run_bind, readRules_files]
        exact RuleCache.entries_insert_of_get?_eq_none filed rules

theorem rulesAmong_accounted (token : Token) (source : Path) (styles : List Path) (used : Used) :
    Accounted used (.ofOutcome
      ((rulesAmong timeline.files token source used.index styles).run used.progress)) := by
  induction styles generalizing used with
  | nil => exact .of_same rfl rfl
  | cons style rest ih =>
      have first := rulesIn_accounted timeline used style source
      exact first.trans (ih _)

theorem rulesFor_accounted (used : Used) (token : String) (source : Path) :
    Accounted used
      (.ofOutcome ((used.index.rulesFor timeline.files token source).run used.progress)) := by
  have unread := (readsKept_onPlaces timeline).candidates used.index source used.progress
  have found : Accounted used
      ⟨used.index, ((used.index.candidates timeline.files source).run used.progress).run.2⟩ :=
    .of_same unread rfl
  exact found.trans (rulesAmong_accounted timeline (Token.parse token) source _ _)

/-- No request but the order to forget takes an entry away, and none reads without an entry. -/
theorem serve_accounted (used : Used) {request : Request} (keeps : request ≠ .invalidate) :
    Accounted used (used.leave (used.index.serve timeline.files request)) := by
  cases request with
  | root source =>
      have unread := (readsKept_onPlaces timeline).root? used.index.workspace source used.progress
      exact .of_same unread rfl
  | candidates source =>
      have unread := (readsKept_onPlaces timeline).candidates used.index source used.progress
      exact .of_same unread rfl
  | rulesIn style source => exact rulesIn_accounted timeline used style source
  | rulesFor token source => exact rulesFor_accounted timeline used token source
  | invalidate => exact absurd rfl keeps

theorem leave_rulesIn_of_contains {used : Used} {style source : Path}
    (held : used.index.cache.contains (used.index.key style source) = true) :
    used.leave (used.index.serve timeline.files (.rulesIn style source)) = used := by
  obtain ⟨rules, ran⟩ := rulesIn_files_of_contains timeline held used.progress
  simp only [Used.leave, serve, StateT.run_bind, ran]
  rfl

/-- The requests up to the last order to forget. -/
def upToInvalidation (requests : List Request) : List Request :=
  requests.rdropWhile (· != .invalidate)

theorem setup_serve (used : Used) (request : Request) :
    (used.leave (used.index.serve timeline.files request)).index.setup = used.index.setup := by
  by_cases forgets : request = .invalidate
  · subst forgets
    rfl
  · exact (serve_accounted timeline used forgets).1

theorem encoding_usedAfter (workspace : Workspace) (scoping : Scoping) (requests : List Request)
    (encoding : Path.Encoding) :
    (usedAfter workspace scoping timeline requests encoding).index.encoding = encoding := by
  induction requests using List.reverseRecOn with
  | nil => rfl
  | append_singleton requests last ih =>
      rw [usedAfter_concat, encoding_congr (setup_serve timeline _ last), ih]

theorem accounted_since_invalidation (workspace : Workspace) (scoping : Scoping)
    (requests : List Request) (encoding : Path.Encoding) :
    (usedAfter workspace scoping timeline (upToInvalidation requests) encoding).index.cache =
        .empty ∧
      Accounted (usedAfter workspace scoping timeline (upToInvalidation requests) encoding)
        (usedAfter workspace scoping timeline requests encoding) := by
  -- On the last request: an order to forget starts the account anew, any other carries it on.
  induction requests using List.reverseRecOn with
  | nil => exact ⟨rfl, .of_same rfl rfl⟩
  | append_singleton requests last ih =>
      by_cases forgets : last = .invalidate
      · subst forgets
        have whole : upToInvalidation (requests ++ [.invalidate]) = requests ++ [.invalidate] :=
          List.rdropWhile_concat_neg _ _ _ (by decide)
        rw [whole, usedAfter_concat]
        exact ⟨rfl, .of_same rfl rfl⟩
      · have shorter : upToInvalidation (requests ++ [last]) = upToInvalidation requests :=
          List.rdropWhile_concat_pos _ _ _ (by simpa using forgets)
        obtain ⟨none, accounted⟩ := ih
        rw [shorter, usedAfter_concat]
        exact ⟨none, accounted.trans (serve_accounted timeline _ forgets)⟩

/-- However files change, there are as many readings since the last invalidation, failed ones
included, as there are entries. A sheet with an entry is not read again, and only an invalidation
takes an entry away or puts another in its place. -/
theorem readings_counted_by_entries (workspace : Workspace) (scoping : Scoping)
    (timeline : Timeline) (encoding : Path.Encoding) (requests : List Request) :
    (usedAfter workspace scoping timeline requests encoding).progress.reads.length =
        (usedAfter workspace scoping timeline (upToInvalidation requests)
            encoding).progress.reads.length +
          (usedAfter workspace scoping timeline requests encoding).index.cachedEntries ∧
      (∀ style source : Path,
        (usedAfter workspace scoping timeline requests encoding).index.cache.contains
            (.ofPaths style source encoding) = true →
          usedAfter workspace scoping timeline (requests ++ [.rulesIn style source]) encoding =
            usedAfter workspace scoping timeline requests encoding) ∧
      ∀ request : Request, request ≠ .invalidate →
        ∀ (key : CacheKey) (rules : List StyleRule),
          (usedAfter workspace scoping timeline requests encoding).index.cache.get? key =
              some rules →
            (usedAfter workspace scoping timeline (requests ++ [request])
              encoding).index.cache.get? key = some rules := by
  refine ⟨?_, ?_, ?_⟩
  · obtain ⟨none, accounted⟩ :=
      accounted_since_invalidation timeline workspace scoping requests encoding
    have counted := accounted.length_reads
    simpa [cachedEntries, none, RuleCache.size, RuleCache.empty] using counted
  · intro style source held
    have same := encoding_usedAfter timeline workspace scoping requests encoding
    rw [usedAfter_concat]
    exact leave_rulesIn_of_contains timeline (by rwa [key, same])
  · intro request keeps key rules filed
    rw [usedAfter_concat]
    exact (serve_accounted timeline _ keeps).get?_eq_some filed

/-- A sheet that is missing at the first question and there from then on. -/
def appearing : Timeline := fun now =>
  let places := if now = 0 then [] else [(⟨"/w/i.css"⟩, MemoryNode.text ".x { top: 0; }")]
  (MemoryTree.ofList places).snapshot fun _ found => found

def namedOnly : Scoping := { Scoping.standard with mode := .filename }

def asked : List Request :=
  [.rulesIn ⟨"/w/i.css"⟩ ⟨"/w/i.html"⟩, .rulesFor "x" ⟨"/w/i.html"⟩]

/-- The failed reading is the only one until the index is told to forget. -/
theorem appearing_sheet_read_once :
    (usedAfter (.fixed ⟨"/w"⟩) namedOnly appearing asked).progress.reads = [⟨"/w/i.css"⟩] ∧
      (usedAfter (.fixed ⟨"/w"⟩) namedOnly appearing asked).index.cachedEntries = 1 ∧
      usedAfter (.fixed ⟨"/w"⟩) namedOnly appearing
          (asked ++ [.rulesIn ⟨"/w/i.css"⟩ ⟨"/w/i.html"⟩]) =
        usedAfter (.fixed ⟨"/w"⟩) namedOnly appearing asked ∧
      (usedAfter (.fixed ⟨"/w"⟩) namedOnly appearing
          (asked ++ [.candidates ⟨"/w/i.html"⟩])).index.cache.get?
        (.ofPaths ⟨"/w/i.css"⟩ ⟨"/w/i.html"⟩) = some [] := by
  have read : (usedAfter (.fixed ⟨"/w"⟩) namedOnly appearing asked).progress.reads =
      [⟨"/w/i.css"⟩] := by decide +kernel
  have none : (usedAfter (.fixed ⟨"/w"⟩) namedOnly appearing
      (upToInvalidation asked)).progress.reads = [] := by decide +kernel
  have filed : (usedAfter (.fixed ⟨"/w"⟩) namedOnly appearing asked).index.cache.get?
      (.ofPaths ⟨"/w/i.css"⟩ ⟨"/w/i.html"⟩) = some [] := by decide +kernel
  obtain ⟨counted, again, kept⟩ :=
    readings_counted_by_entries (.fixed ⟨"/w"⟩) namedOnly appearing .text asked
  rw [read, none, List.length_singleton, List.length_nil, Nat.zero_add] at counted
  refine ⟨read, counted.symm, again _ _ ?_, kept (.candidates ⟨"/w/i.html"⟩) nofun _ _ filed⟩
  exact Option.isSome_iff_exists.mpr ⟨[], filed⟩

end RuleIndex

end StyleLookup
