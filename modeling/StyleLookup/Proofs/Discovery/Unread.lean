import StyleLookup.RuleIndex.Basic

/-!
Candidates are found from listings and from what kind of thing a path leads to. Two file systems
that answer these questions alike lead to the same candidates, whatever their files hold. In
particular no file is read for them, so a record of the readings is the same before and after.
-/

set_option autoImplicit false

namespace StyleLookup

/-- A relation between programs over two monads that lasts as long as both go on alike. -/
structure Correspondence (m n : Type → Type) [Monad m] [Monad n] where
  Holds {α : Type} : m α → n α → Prop
  pure {α : Type} (answer : α) : Holds (Pure.pure answer) (Pure.pure answer)
  bind {α β : Type} {left : m α} {right : n α} {leftLater : α → m β} {rightLater : α → n β} :
    Holds left right → (∀ answer, Holds (leftLater answer) (rightLater answer)) →
      Holds (left >>= leftLater) (right >>= rightLater)

namespace Correspondence

variable {m n : Type → Type} [Monad m] [Monad n]

theorem mapM [LawfulMonad m] [LawfulMonad n] (like : Correspondence m n) {α β : Type}
    {items : List α} {left : α → m β} {right : α → n β}
    (each : ∀ item, like.Holds (left item) (right item)) :
    like.Holds (items.mapM left) (items.mapM right) := by
  induction items with
  | nil =>
      rw [List.mapM_nil, List.mapM_nil]
      exact like.pure []
  | cons item rest ih =>
      rw [List.mapM_cons, List.mapM_cons]
      exact like.bind (each item) fun _ => like.bind ih fun _ => like.pure _

/-- The correspondence of programs that give the same answer. -/
def same : Correspondence Id Id where
  Holds left right := left.run = right.run
  pure _ := rfl
  bind := by
    intro α β left right leftLater rightLater earlier later
    rw [Id.run_bind, Id.run_bind, earlier]
    exact later right.run

/-- Two file systems that answer alike when they are asked what a path leads to. -/
structure OnKinds (like : Correspondence m n) (fs : FileSystem m) (other : FileSystem n) :
    Prop where
  isFile : ∀ path, like.Holds (fs.isFile path) (other.isFile path)
  isDir : ∀ path, like.Holds (fs.isDir path) (other.isDir path)

/-- Two file systems that answer alike when they are asked for listings, too. Of what their files
hold nothing is said. -/
structure OnPlaces (like : Correspondence m n) (fs : FileSystem m) (other : FileSystem n) : Prop
    extends like.OnKinds fs other where
  readDir : ∀ path, like.Holds (fs.readDir path) (other.readDir path)

theorem visitEntry (like : Correspondence m n) (scoping : Scoping) {wanted : String → Bool}
    {enter : Path → m (List Path)} {otherEnter : Path → n (List Path)}
    (inner : ∀ path, like.Holds (enter path) (otherEnter path)) (entry : DirEntry) :
    like.Holds (Discovery.visitEntry scoping wanted enter entry)
      (Discovery.visitEntry scoping wanted otherEnter entry) := by
  unfold Discovery.visitEntry
  cases scoping.isExcluded entry.name with
  | true => exact like.pure []
  | false =>
      cases entry.kind with
      | file => exact like.pure _
      | directory =>
          cases Discovery.isHidden entry.name with
          | true => exact like.pure []
          | false => exact inner entry.path
      | other => exact like.pure []

theorem beside (like : Correspondence m n) (source : Path) {search : Path → m (List Path)}
    {otherSearch : Path → n (List Path)}
    (inner : ∀ path, like.Holds (search path) (otherSearch path)) :
    like.Holds (Discovery.beside source search) (Discovery.beside source otherSearch) := by
  unfold Discovery.beside
  cases source.parent? with
  | none => exact like.pure []
  | some directory => exact inner directory

namespace OnKinds

variable {like : Correspondence m n} {fs : FileSystem m} {other : FileSystem n}
  (alike : like.OnKinds fs other)
include alike

theorem filesAmong (paths : List Path) :
    like.Holds (fs.filesAmong paths) (other.filesAmong paths) := by
  induction paths with
  | nil => exact like.pure []
  | cons path rest ih =>
      exact like.bind (alike.isFile path) fun _ => like.bind ih fun _ => like.pure _

theorem namedFiles (scoping : Scoping) (source : Path) (encoding : Path.Encoding) :
    like.Holds
      (Discovery.beside source fun directory =>
        Discovery.filenameMatches fs scoping directory source encoding)
      (Discovery.beside source fun directory =>
        Discovery.filenameMatches other scoping directory source encoding) :=
  like.beside source fun directory =>
    alike.filesAmong (Discovery.patternPaths scoping directory source encoding)

theorem isMarked (directory : Path) (markers : List String) :
    like.Holds (Workspace.isMarked fs directory markers)
      (Workspace.isMarked other directory markers) := by
  induction markers with
  | nil => exact like.pure false
  | cons marker rest ih =>
      refine like.bind (alike.isFile (directory.child marker)) fun isFile => ?_
      cases isFile with
      | true => exact like.pure true
      | false =>
          refine like.bind (alike.isDir (directory.child marker)) fun isDir => ?_
          cases isDir with
          | true => exact like.pure true
          | false => exact ih

theorem firstMarked? (markers : List String) (directories : List Path) :
    like.Holds (Workspace.firstMarked? fs markers directories)
      (Workspace.firstMarked? other markers directories) := by
  induction directories with
  | nil => exact like.pure none
  | cons directory rest ih =>
      refine like.bind (alike.isMarked directory markers) fun marked => ?_
      cases marked with
      | true => exact like.pure (some directory)
      | false => exact ih

theorem root? (workspace : Workspace) (source : Path) :
    like.Holds (workspace.root? fs source) (workspace.root? other source) := by
  cases workspace with
  | fixed root => exact like.pure _
  | marked markers => exact alike.firstMarked? markers source.ancestors

end OnKinds

namespace OnPlaces

variable {like : Correspondence m n} {fs : FileSystem m} {other : FileSystem n}
  (alike : like.OnPlaces fs other)
include alike

theorem entries (directory : Path) :
    like.Holds (fs.entries directory) (other.entries directory) := by
  refine like.bind (alike.readDir directory) fun listing => ?_
  cases listing with
  | error fault => exact like.pure []
  | ok found => exact like.pure found

/-! ## Searches -/

variable (scoping : Scoping)

theorem folderFiles (directory : Path) :
    like.Holds (Discovery.folderFiles fs scoping directory)
      (Discovery.folderFiles other scoping directory) :=
  like.bind (alike.entries directory) fun _ => like.pure _

variable [LawfulMonad m] [LawfulMonad n]

theorem visitDirectory {wanted : String → Bool} {enter : Path → m (List Path)}
    {otherEnter : Path → n (List Path)}
    (inner : ∀ path, like.Holds (enter path) (otherEnter path)) (directory : Path) :
    like.Holds (Discovery.visitDirectory fs scoping wanted enter directory)
      (Discovery.visitDirectory other scoping wanted otherEnter directory) :=
  like.bind (alike.entries directory) fun _ =>
    like.bind (like.mapM (like.visitEntry scoping inner)) fun _ => like.pure _

theorem filesBelow (wanted : String → Bool) (levels : Nat) (directory : Path) :
    like.Holds (Discovery.filesBelow fs scoping wanted levels directory)
      (Discovery.filesBelow other scoping wanted levels directory) := by
  induction levels generalizing directory with
  | zero => exact alike.visitDirectory scoping (fun _ => like.pure []) directory
  | succ levels ih => exact alike.visitDirectory scoping ih directory

theorem commonFiles (root : Path) :
    like.Holds (Discovery.commonFiles fs scoping root)
      (Discovery.commonFiles other scoping root) := by
  refine like.bind (like.mapM fun common => ?_) fun _ => like.pure _
  refine like.bind (alike.isDir (root.child common)) fun isDir => ?_
  cases isDir with
  | true => exact alike.folderFiles scoping (root.child common)
  | false => exact like.pure []

theorem scopedFiles (root source : Path) (encoding : Path.Encoding) :
    like.Holds (Discovery.scopedFiles fs scoping root source encoding)
      (Discovery.scopedFiles other scoping root source encoding) :=
  like.bind (alike.toOnKinds.namedFiles scoping source encoding) fun _ =>
    like.bind (like.beside source (alike.folderFiles scoping)) fun _ =>
      like.bind (alike.commonFiles scoping root) fun _ => like.pure _

theorem searched (root source : Path) (encoding : Path.Encoding) :
    like.Holds (Discovery.candidates fs scoping root source encoding)
      (Discovery.candidates other scoping root source encoding) := by
  refine like.bind (alike.isDir root) fun isDir => ?_
  cases isDir with
  | false => exact like.pure CandidateList.empty
  | true =>
      have everywhere :=
        alike.filesBelow scoping scoping.hasStyleExtension scoping.scanDepth root
      cases scoping.mode with
      | «global» => exact like.bind everywhere fun _ => like.pure _
      | filename =>
          exact like.bind (alike.toOnKinds.namedFiles scoping source encoding) fun _ => like.pure _
      | folder =>
          exact like.bind (like.beside source (alike.folderFiles scoping)) fun _ => like.pure _
      | smart =>
          refine like.bind (alike.scopedFiles scoping root source encoding) fun found => ?_
          dsimp only
          cases (CandidateList.ofList found).isEmpty && scoping.fallbackToGlobal with
          | true => exact like.bind everywhere fun _ => like.pure _
          | false => exact like.pure _

/-- Candidates depend on nothing but the places that there are. -/
theorem candidates (index : RuleIndex) (source : Path) :
    like.Holds (index.candidates fs source) (index.candidates other source) := by
  refine like.bind (alike.toOnKinds.root? index.workspace source) fun root? => ?_
  cases root? with
  | none => exact like.pure CandidateList.empty
  | some root => exact alike.searched index.scoping root source index.encoding

end OnPlaces

end Correspondence

/-! ## Nothing is read -/

/-- A program that keeps a record answers like one without, and it reads no file. -/
def ReadsNothing {α : Type} (program : StateM AccessLog α) (plain : Id α) : Prop :=
  ∀ log, ∃ listings, program.run log = (plain.run, ⟨log.reads, listings⟩)

namespace ReadsNothing

variable {α β : Type} {program : StateM AccessLog α} {plain : Id α}

theorem pure (answer : α) : ReadsNothing (Pure.pure answer) (Pure.pure answer) :=
  fun log => ⟨log.listings, rfl⟩

theorem bind {further : α → StateM AccessLog β} {plainFurther : α → Id β}
    (earlier : ReadsNothing program plain)
    (later : ∀ answer, ReadsNothing (further answer) (plainFurther answer)) :
    ReadsNothing (program >>= further) (plain >>= plainFurther) := by
  intro log
  obtain ⟨listings, ran⟩ := earlier log
  obtain ⟨final, ranOn⟩ := later plain.run ⟨log.reads, listings⟩
  refine ⟨final, ?_⟩
  rw [StateT.run_bind, ran]
  exact ranOn

def correspondence : Correspondence (StateM AccessLog) Id where
  Holds := ReadsNothing
  pure := pure
  bind := bind

theorem onPlaces (fs : Snapshot) : correspondence.OnPlaces fs.logged fs where
  readDir path := fun log => ⟨log.listings ++ [path], rfl⟩
  isFile _ := pure _
  isDir _ := pure _

end ReadsNothing

/-- The candidates for a source file are found without reading any file. -/
theorem RuleIndex.candidates_readsNothing (fs : Snapshot) (index : RuleIndex) (source : Path) :
    ReadsNothing (index.candidates fs.logged source) (index.candidates fs source) :=
  (ReadsNothing.onPlaces fs).candidates index source

end StyleLookup
