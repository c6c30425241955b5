import StyleLookup.Discovery.Walk
import StyleLookup.Proofs.FileSystem.Listing

/-!
What a walk finds. It stops at each directory that it lists and at each file that it wants, in the
order in which the listings name them, and it stops at exactly those that chains of names lead to
through directories that may be entered.
-/

set_option autoImplicit false

namespace StyleLookup

def AccessLog.listed (log : AccessLog) (directories : List Path) : AccessLog :=
  { log with listings := log.listings ++ directories }

@[simp] theorem AccessLog.listed_nil (log : AccessLog) : log.listed [] = log := by
  simp [listed]

@[simp] theorem AccessLog.listed_listed (log : AccessLog) (first later : List Path) :
    (log.listed first).listed later = log.listed (first ++ later) := by
  simp [listed]

namespace Discovery

/-! ## Chains of names -/

def place (root : Path) (names : List String) : Path := names.foldl Path.child root

variable (fs : Snapshot) (scoping : Scoping) (wanted : String → Bool)

/-- A subdirectory that is listed, not excluded and not hidden. -/
def Enters (directory : Path) (name : String) : Prop :=
  ∃ found, fs.readDir directory = .ok found ∧ ∃ entry ∈ found,
    entry.name = name ∧ entry.kind = .directory ∧ scoping.isExcluded name = false ∧
      isHidden name = false

/-- A file that is listed, not excluded and wanted. -/
def Wants (directory : Path) (name : String) : Prop :=
  ∃ found, fs.readDir directory = .ok found ∧ ∃ entry ∈ found,
    entry.name = name ∧ entry.kind = .file ∧ scoping.isExcluded name = false ∧
      wanted name = true

/-- Names that lead from a directory down, each through the listing of the directory that the names
before it lead to. -/
def LeadsDown : Path → List String → Prop
  | _, [] => True
  | directory, name :: rest => Enters fs scoping directory name ∧
      LeadsDown (directory.child name) rest

/-- The place of a name in the listing of a directory. -/
def position (directory : Path) (name : String) : Nat :=
  ((fs.listing directory).map (·.name)).idxOf name

def positions : Path → List String → List Nat
  | _, [] => []
  | directory, name :: rest => position fs directory name :: positions (directory.child name) rest

/-! ## Stops -/

/-- A stop of a walk: the directories entered on the way, and the file, unless the stop is the last
of the directories itself. -/
structure Stop where
  names : List String
  file? : Option String
deriving DecidableEq, Repr

namespace Stop

def behind (name : String) (stop : Stop) : Stop := ⟨name :: stop.names, stop.file?⟩

theorem behind_eq_behind_iff {name other : String} {stop : Stop} {inner : Stop} :
    stop.behind name = inner.behind other ↔ name = other ∧ stop = inner := by
  cases stop
  cases inner
  simp [behind, and_assoc]

def trail (stop : Stop) : List String := stop.names ++ stop.file?.toList

end Stop

/-- The stops that an entry contributes, given those in the directories below. -/
def stopsAt (below : Path → List Stop) (entry : DirEntry) : List Stop :=
  if scoping.isExcluded entry.name then []
  else
    match entry.kind with
    | .file => if wanted entry.name then [⟨[], some entry.name⟩] else []
    | .directory =>
        if isHidden entry.name then [] else (below entry.path).map (Stop.behind entry.name)
    | .other => []

def stopsIn (below : Path → List Stop) (directory : Path) : List Stop :=
  ⟨[], none⟩ :: (fs.listing directory).flatMap (stopsAt scoping wanted below)

/-- The stops of a walk through so many levels, in the order of the walk. -/
def stops : Nat → Path → List Stop
  | 0 => stopsIn fs scoping wanted fun _ => []
  | levels + 1 => stopsIn fs scoping wanted (stops levels)

variable {fs scoping wanted}

theorem mem_stopsAt_iff {below : Path → List Stop} {entry : DirEntry} {stop : Stop} :
    stop ∈ stopsAt scoping wanted below entry ↔
      scoping.isExcluded entry.name = false ∧
        ((entry.kind = .file ∧ wanted entry.name = true ∧ stop = ⟨[], some entry.name⟩) ∨
          (entry.kind = .directory ∧ isHidden entry.name = false ∧
            ∃ inner ∈ below entry.path, inner.behind entry.name = stop)) := by
  unfold stopsAt
  cases scoping.isExcluded entry.name with
  | true => simp
  | false =>
      cases entry.kind with
      | file => cases wanted entry.name <;> simp
      | directory => cases isHidden entry.name <;> simp
      | other => simp

theorem mem_stopsIn_iff {below : Path → List Stop} {directory : Path} {stop : Stop} :
    stop ∈ stopsIn fs scoping wanted below directory ↔
      stop = ⟨[], none⟩ ∨
        ∃ entry ∈ fs.listing directory, stop ∈ stopsAt scoping wanted below entry := by
  rw [stopsIn, List.mem_cons, List.mem_flatMap]

/-- What a walk has to show for a stop: a chain of directories that may be entered, and at its end a
file that is wanted, if the stop is a file. -/
def IsStop (fs : Snapshot) (scoping : Scoping) (wanted : String → Bool) (directory : Path)
    (stop : Stop) : Prop :=
  LeadsDown fs scoping directory stop.names ∧
    ∀ file ∈ stop.file?, Wants fs scoping wanted (place directory stop.names) file

theorem isStop_file_iff {directory : Path} {file : String} :
    IsStop fs scoping wanted directory ⟨[], some file⟩ ↔
      Wants fs scoping wanted directory file := by
  simp [IsStop, LeadsDown, place]

theorem isStop_behind_iff {directory : Path} {name : String} {stop : Stop} :
    IsStop fs scoping wanted directory (stop.behind name) ↔
      Enters fs scoping directory name ∧
        IsStop fs scoping wanted (directory.child name) stop := by
  rw [IsStop, IsStop, ← and_assoc]
  rfl

theorem mem_stopsIn_file_iff {below : Path → List Stop} {directory : Path} {file : String} :
    ⟨[], some file⟩ ∈ stopsIn fs scoping wanted below directory ↔
      Wants fs scoping wanted directory file := by
  rw [Wants, ← Snapshot.exists_mem_listing_iff, mem_stopsIn_iff]
  constructor
  · rintro (none | ⟨entry, member, found⟩)
    · cases none
    · obtain ⟨kept, ⟨kind, sought, same⟩ | ⟨-, -, inner, -, same⟩⟩ := mem_stopsAt_iff.mp found
      · cases same
        exact ⟨entry, member, rfl, kind, kept, sought⟩
      · cases same
  · rintro ⟨entry, member, rfl, kind, kept, sought⟩
    exact .inr ⟨entry, member, mem_stopsAt_iff.mpr ⟨kept, .inl ⟨kind, sought, rfl⟩⟩⟩

theorem mem_stopsIn_behind_iff (orderly : fs.Orderly) {below : Path → List Stop}
    {directory : Path} {name : String} {stop : Stop} :
    stop.behind name ∈ stopsIn fs scoping wanted below directory ↔
      Enters fs scoping directory name ∧ stop ∈ below (directory.child name) := by
  rw [Enters, ← Snapshot.exists_mem_listing_iff, mem_stopsIn_iff]
  constructor
  · rintro (none | ⟨entry, member, found⟩)
    · cases none
    · obtain ⟨kept, ⟨-, -, same⟩ | ⟨kind, shown, inner, inside, same⟩⟩ := mem_stopsAt_iff.mp found
      · cases same
      · obtain ⟨rfl, rfl⟩ := Stop.behind_eq_behind_iff.mp same
        rw [← orderly.path_of_mem_listing member]
        exact ⟨⟨entry, member, rfl, kind, kept, shown⟩, inside⟩
  · rintro ⟨⟨entry, member, rfl, kind, kept, shown⟩, inside⟩
    rw [← orderly.path_of_mem_listing member] at inside
    exact .inr ⟨entry, member, mem_stopsAt_iff.mpr ⟨kept, .inr ⟨kind, shown, stop, inside, rfl⟩⟩⟩

/-- A walk stops exactly where it has to, as far down as it goes. -/
theorem mem_stops_iff (orderly : fs.Orderly) {levels : Nat} {directory : Path} {stop : Stop} :
    stop ∈ stops fs scoping wanted levels directory ↔
      stop.names.length ≤ levels ∧ IsStop fs scoping wanted directory stop := by
  obtain ⟨names, file?⟩ := stop
  -- On the chain of names, not on the levels: each name takes one level off.
  induction names generalizing levels directory with
  | nil =>
      cases file? with
      | none => cases levels <;> simp [stops, mem_stopsIn_iff, IsStop, LeadsDown]
      | some file =>
          cases levels <;> rw [stops, mem_stopsIn_file_iff, isStop_file_iff] <;> simp
  | cons name rest ih =>
      have behind : (⟨name :: rest, file?⟩ : Stop) = Stop.behind name ⟨rest, file?⟩ := rfl
      rw [behind, isStop_behind_iff]
      cases levels with
      | zero =>
          rw [stops, mem_stopsIn_behind_iff orderly]
          simp [Stop.behind]
      | succ levels =>
          rw [stops, mem_stopsIn_behind_iff orderly, ih]
          simp only [Stop.behind, List.length_cons, Nat.add_le_add_iff_right]
          exact and_left_comm

/-! ## Order -/

/-- Whether one stop comes before another one, by the places of their names in the listings. -/
def Precedes (fs : Snapshot) (directory : Path) (left right : Stop) : Prop :=
  positions fs directory left.trail < positions fs directory right.trail

theorem exists_trail_eq_cons {below : Path → List Stop} {entry : DirEntry} {stop : Stop}
    (member : stop ∈ stopsAt scoping wanted below entry) :
    ∃ rest, stop.trail = entry.name :: rest := by
  obtain ⟨-, ⟨-, -, rfl⟩ | ⟨-, -, inner, -, rfl⟩⟩ := mem_stopsAt_iff.mp member
  · exact ⟨[], rfl⟩
  · exact ⟨inner.trail, rfl⟩

theorem precedes_of_position_lt {directory : Path} {left right : Stop} {first second : String}
    {rest other : List String} (leftTrail : left.trail = first :: rest)
    (rightTrail : right.trail = second :: other)
    (before : position fs directory first < position fs directory second) :
    Precedes fs directory left right := by
  rw [Precedes, leftTrail, rightTrail]
  exact List.cons_lt_cons_iff.mpr (.inl before)

theorem Precedes.behind {directory : Path} {name : String} {left right : Stop}
    (before : Precedes fs (directory.child name) left right) :
    Precedes fs directory (left.behind name) (right.behind name) :=
  List.cons_lt_cons_iff.mpr (.inr ⟨rfl, before⟩)

theorem pairwise_idxOf_lt {names : List String} (distinct : names.Nodup) :
    names.Pairwise fun left right => names.idxOf left < names.idxOf right := by
  rw [List.pairwise_iff_getElem]
  intro i j iInside jInside before
  rwa [distinct.idxOf_getElem, distinct.idxOf_getElem]

theorem pairwise_stopsAt {below : Path → List Stop} {directory : Path} {entry : DirEntry}
    (path : entry.path = directory.child entry.name)
    (inner : (below entry.path).Pairwise (Precedes fs entry.path)) :
    (stopsAt scoping wanted below entry).Pairwise (Precedes fs directory) := by
  unfold stopsAt
  split
  · exact .nil
  · split
    · split
      · exact List.pairwise_singleton _ _
      · exact .nil
    · split
      · exact .nil
      · rw [List.pairwise_map]
        rw [path] at inner ⊢
        exact inner.imp Precedes.behind
    · exact .nil

theorem pairwise_stopsIn (orderly : fs.Orderly) {below : Path → List Stop}
    (inner : ∀ path, (below path).Pairwise (Precedes fs path)) (directory : Path) :
    (stopsIn fs scoping wanted below directory).Pairwise (Precedes fs directory) := by
  rw [stopsIn, List.pairwise_cons]
  constructor
  · -- The directory itself is listed before anything in it.
    intro stop member
    obtain ⟨entry, -, found⟩ := List.mem_flatMap.mp member
    obtain ⟨rest, trail⟩ := exists_trail_eq_cons found
    rw [Precedes, trail]
    exact List.nil_lt_cons _ _
  · rw [List.pairwise_flatMap]
    constructor
    · exact fun entry member =>
        pairwise_stopsAt (orderly.path_of_mem_listing member) (inner entry.path)
    · have order := pairwise_idxOf_lt (orderly.nodup_listing directory)
      rw [List.pairwise_map] at order
      apply order.imp
      intro first second before left leftMember right rightMember
      obtain ⟨rest, leftTrail⟩ := exists_trail_eq_cons leftMember
      obtain ⟨other, rightTrail⟩ := exists_trail_eq_cons rightMember
      exact precedes_of_position_lt leftTrail rightTrail before

/-- The stops of a walk are in the order of the listings, so none of them comes twice. -/
theorem pairwise_stops (orderly : fs.Orderly) (levels : Nat) (directory : Path) :
    (stops fs scoping wanted levels directory).Pairwise (Precedes fs directory) := by
  induction levels generalizing directory with
  | zero => exact pairwise_stopsIn orderly (fun _ => .nil) directory
  | succ levels ih => exact pairwise_stopsIn orderly ih directory

/-! ## What a walk answers and what it asks -/

theorem run_entries_logged (fs : Snapshot) (directory : Path) (log : AccessLog) :
    (fs.logged.entries directory).run log = (fs.listing directory, log.listed [directory]) := by
  simp only [FileSystem.entries, Snapshot.listing, Snapshot.logged, StateT.run_bind]
  cases fs.readDir directory <;> rfl

/-- The files at which a walk stops, each with the directories on the way to it. -/
def sheetsOf (visited : List Stop) : List (List String × String) :=
  visited.filterMap fun stop => stop.file?.map fun file => (stop.names, file)

def directoriesOf (visited : List Stop) : List (List String) :=
  visited.filterMap fun stop => if stop.file?.isNone then some stop.names else none

def filePaths (root : Path) (visited : List Stop) : List Path :=
  (sheetsOf visited).map fun sheet => (place root sheet.1).child sheet.2

def directoryPaths (root : Path) (visited : List Stop) : List Path :=
  (directoriesOf visited).map (place root)

theorem directoryPaths_nil (root : Path) : directoryPaths root [] = [] := rfl

theorem filePaths_behind (directory : Path) (name : String) (visited : List Stop) :
    filePaths directory (visited.map (Stop.behind name)) =
      filePaths (directory.child name) visited := by
  rw [filePaths, filePaths, sheetsOf, sheetsOf, List.filterMap_map, List.map_filterMap,
    List.map_filterMap]
  apply List.filterMap_congr
  rintro ⟨names, file?⟩ -
  cases file? <;> rfl

theorem directoryPaths_behind (directory : Path) (name : String) (visited : List Stop) :
    directoryPaths directory (visited.map (Stop.behind name)) =
      directoryPaths (directory.child name) visited := by
  rw [directoryPaths, directoryPaths, directoriesOf, directoriesOf, List.filterMap_map,
    List.map_filterMap, List.map_filterMap]
  apply List.filterMap_congr
  rintro ⟨names, file?⟩ -
  cases file? <;> rfl

theorem filePaths_stopsIn (below : Path → List Stop) (directory : Path) :
    filePaths directory (stopsIn fs scoping wanted below directory) =
      (fs.listing directory).flatMap fun entry =>
        filePaths directory (stopsAt scoping wanted below entry) := by
  have first (rest : List Stop) :
      filePaths directory (⟨[], none⟩ :: rest) = filePaths directory rest := rfl
  rw [stopsIn, first, filePaths, sheetsOf, List.filterMap_flatMap, List.map_flatMap]
  rfl

theorem directoryPaths_stopsIn (below : Path → List Stop) (directory : Path) :
    directoryPaths directory (stopsIn fs scoping wanted below directory) =
      directory :: (fs.listing directory).flatMap fun entry =>
        directoryPaths directory (stopsAt scoping wanted below entry) := by
  have first (rest : List Stop) : directoryPaths directory (⟨[], none⟩ :: rest) =
      directory :: directoryPaths directory rest := rfl
  rw [stopsIn, first, directoryPaths, directoriesOf, List.filterMap_flatMap, List.map_flatMap]
  rfl

theorem visitEntry_snapshot {enter : Path → Id (List Path)} {below : Path → List Stop}
    {directory : Path} {entry : DirEntry} (path : entry.path = directory.child entry.name)
    (inner : enter entry.path = filePaths entry.path (below entry.path)) :
    visitEntry scoping wanted enter entry =
      filePaths directory (stopsAt scoping wanted below entry) := by
  unfold visitEntry stopsAt
  cases scoping.isExcluded entry.name with
  | true => rfl
  | false =>
      cases entry.kind with
      | file =>
          cases wanted entry.name with
          | true => rw [path]; rfl
          | false => rfl
      | directory =>
          cases isHidden entry.name with
          | true => rfl
          | false =>
              rw [path] at inner ⊢
              exact inner.trans (filePaths_behind directory entry.name _).symm
      | other => rfl

theorem visitDirectory_snapshot_eq_flatMap (fs : Snapshot) (enter : Path → Id (List Path))
    (directory : Path) :
    visitDirectory fs scoping wanted enter directory =
      (fs.listing directory).flatMap fun entry => (visitEntry scoping wanted enter entry).run := by
  rw [visitDirectory, Snapshot.entries_eq_listing, List.flatMap_def]
  exact congrArg List.flatten List.idRun_mapM

theorem visitDirectory_snapshot (orderly : fs.Orderly) {enter : Path → Id (List Path)}
    {below : Path → List Stop} (inner : ∀ path, enter path = filePaths path (below path))
    (directory : Path) :
    visitDirectory fs scoping wanted enter directory =
      filePaths directory (stopsIn fs scoping wanted below directory) := by
  rw [visitDirectory_snapshot_eq_flatMap, filePaths_stopsIn]
  apply List.flatMap_congr
  intro entry member
  exact visitEntry_snapshot (orderly.path_of_mem_listing member) (inner entry.path)

theorem filesBelow_snapshot (orderly : fs.Orderly) (levels : Nat) (directory : Path) :
    filesBelow fs scoping wanted levels directory =
      filePaths directory (stops fs scoping wanted levels directory) := by
  induction levels generalizing directory with
  | zero =>
      have nothing : ∀ path, (pure [] : Id (List Path)) = filePaths path [] := fun _ => rfl
      exact visitDirectory_snapshot orderly nothing directory
  | succ levels ih => exact visitDirectory_snapshot orderly ih directory

/-! The same walk with a record of what is listed. -/

theorem run_visitEntry_logged {enter : Path → StateM AccessLog (List Path)}
    {plain : Path → Id (List Path)} {below : Path → List Stop} {directory : Path}
    {entry : DirEntry} (path : entry.path = directory.child entry.name)
    (inner : ∀ log, (enter entry.path).run log =
      (plain entry.path, log.listed (directoryPaths entry.path (below entry.path))))
    (log : AccessLog) :
    (visitEntry scoping wanted enter entry).run log =
      (visitEntry scoping wanted plain entry,
        log.listed (directoryPaths directory (stopsAt scoping wanted below entry))) := by
  have unlisted : log = log.listed (directoryPaths directory []) := by
    rw [directoryPaths_nil, AccessLog.listed_nil]
  unfold visitEntry stopsAt
  cases scoping.isExcluded entry.name with
  | true => exact congrArg (Prod.mk _) unlisted
  | false =>
      cases entry.kind with
      | file => cases wanted entry.name <;> exact congrArg (Prod.mk _) unlisted
      | directory =>
          cases isHidden entry.name with
          | true => exact congrArg (Prod.mk _) unlisted
          | false =>
              have asked := inner log
              rw [path, ← directoryPaths_behind] at asked
              rw [path]
              exact asked
      | other => exact congrArg (Prod.mk _) unlisted

theorem run_mapM_listed {α β : Type} {action : α → StateM AccessLog β} {answer : α → β}
    {asked : α → List Path} {items : List α}
    (each : ∀ item ∈ items, ∀ log,
      (action item).run log = (answer item, log.listed (asked item)))
    (log : AccessLog) :
    (items.mapM action).run log = (items.map answer, log.listed (items.flatMap asked)) := by
  induction items generalizing log with
  | nil => rw [List.mapM_nil, StateT.run_pure, List.flatMap_nil, AccessLog.listed_nil]; rfl
  | cons item rest ih =>
      have first := each item List.mem_cons_self log
      have later := ih (fun other member => each other (List.mem_cons_of_mem item member))
        (log.listed (asked item))
      rw [AccessLog.listed_listed] at later
      simp only [List.mapM_cons, StateT.run_bind, StateT.run_pure, first]
      simp only [bind, later]
      rfl

theorem run_visitDirectory_logged (orderly : fs.Orderly)
    {enter : Path → StateM AccessLog (List Path)} {plain : Path → Id (List Path)}
    {below : Path → List Stop}
    (inner : ∀ path log, (enter path).run log =
      (plain path, log.listed (directoryPaths path (below path))))
    (directory : Path) (log : AccessLog) :
    (visitDirectory fs.logged scoping wanted enter directory).run log =
      (visitDirectory fs scoping wanted plain directory,
        log.listed (directoryPaths directory (stopsIn fs scoping wanted below directory))) := by
  have each : ∀ entry ∈ fs.listing directory, ∀ log,
      (visitEntry scoping wanted enter entry).run log =
        (visitEntry scoping wanted plain entry,
          log.listed (directoryPaths directory (stopsAt scoping wanted below entry))) :=
    fun entry member => run_visitEntry_logged (orderly.path_of_mem_listing member) (inner entry.path)
  have visited := run_mapM_listed each (log.listed [directory])
  rw [AccessLog.listed_listed] at visited
  rw [visitDirectory_snapshot_eq_flatMap, directoryPaths_stopsIn, List.flatMap_def, visitDirectory]
  simp only [StateT.run_bind, run_entries_logged, StateT.run_pure]
  simp only [bind, visited]
  rfl

/-- A walk with a record answers what it answers without one, and lists the directories at which it
stops. -/
theorem run_filesBelow_logged (orderly : fs.Orderly) (levels : Nat) (directory : Path)
    (log : AccessLog) :
    (filesBelow fs.logged scoping wanted levels directory).run log =
      (filesBelow fs scoping wanted levels directory,
        log.listed (directoryPaths directory (stops fs scoping wanted levels directory))) := by
  induction levels generalizing directory log with
  | zero =>
      have nothing : ∀ (path : Path) (log : AccessLog),
          (pure [] : StateM AccessLog (List Path)).run log =
            ((pure [] : Id (List Path)), log.listed (directoryPaths path [])) := by
        intro path log
        rw [StateT.run_pure, directoryPaths_nil, AccessLog.listed_nil]
        rfl
      exact run_visitDirectory_logged orderly nothing directory log
  | succ levels ih => exact run_visitDirectory_logged orderly ih directory log

/-! ## The walk through a workspace -/

theorem mem_sheetsOf_iff {visited : List Stop} {names : List String} {file : String} :
    (names, file) ∈ sheetsOf visited ↔ ⟨names, some file⟩ ∈ visited := by
  rw [sheetsOf, List.mem_filterMap]
  constructor
  · rintro ⟨⟨_, _ | _⟩, member, same⟩
    · cases same
    · cases same
      exact member
  · exact fun member => ⟨_, member, rfl⟩

theorem mem_directoriesOf_iff {visited : List Stop} {names : List String} :
    names ∈ directoriesOf visited ↔ ⟨names, none⟩ ∈ visited := by
  rw [directoriesOf, List.mem_filterMap]
  constructor
  · rintro ⟨⟨_, _ | _⟩, member, same⟩
    · cases same
      exact member
    · cases same
  · exact fun member => ⟨_, member, rfl⟩

theorem pairwise_sheetsOf {root : Path} {visited : List Stop}
    (order : visited.Pairwise (Precedes fs root)) :
    (sheetsOf visited).Pairwise fun left right =>
      positions fs root (left.1 ++ [left.2]) < positions fs root (right.1 ++ [right.2]) := by
  apply List.Pairwise.filterMap _ _ order
  rintro ⟨_, _ | _⟩ ⟨_, _ | _⟩ before left leftSame right rightSame
  all_goals cases leftSame
  all_goals cases rightSame
  exact before

theorem pairwise_directoriesOf {root : Path} {visited : List Stop}
    (order : visited.Pairwise (Precedes fs root)) :
    (directoriesOf visited).Pairwise fun left right =>
      positions fs root left < positions fs root right := by
  apply List.Pairwise.filterMap _ _ order
  rintro ⟨_, _ | _⟩ ⟨_, _ | _⟩ before left leftSame right rightSame
  all_goals cases leftSame
  all_goals cases rightSame
  simpa [Precedes, Stop.trail] using before

/-- What a search through a whole workspace finds and lists: each style sheet once for each way that
leads down to it, and each directory on these ways once, in the order of the listings. -/
structure Walked (fs : Snapshot) (scoping : Scoping) (root : Path)
    (sheets : List (List String × String)) (directories : List (List String)) : Prop where
  found : globalFiles fs scoping root =
    sheets.map fun sheet => (place root sheet.1).child sheet.2
  asked : ∀ log, (globalFiles fs.logged scoping root).run log =
    (globalFiles fs scoping root, log.listed (directories.map (place root)))
  mem_sheets_iff : ∀ names file, (names, file) ∈ sheets ↔
    names.length ≤ scoping.scanDepth ∧ LeadsDown fs scoping root names ∧
      Wants fs scoping scoping.hasStyleExtension (place root names) file
  mem_directories_iff : ∀ names, names ∈ directories ↔
    names.length ≤ scoping.scanDepth ∧ LeadsDown fs scoping root names
  nodup_sheets : sheets.Nodup
  nodup_directories : directories.Nodup
  pairwise_sheets : sheets.Pairwise fun left right =>
    positions fs root (left.1 ++ [left.2]) < positions fs root (right.1 ++ [right.2])
  pairwise_directories : directories.Pairwise fun left right =>
    positions fs root left < positions fs root right

theorem globalFiles_walked (orderly : fs.Orderly) (scoping : Scoping) (root : Path) :
    ∃ sheets directories, Walked fs scoping root sheets directories := by
  let visited := stops fs scoping scoping.hasStyleExtension scoping.scanDepth root
  have order : visited.Pairwise (Precedes fs root) := pairwise_stops orderly _ root
  have sheetOrder := pairwise_sheetsOf order
  have directoryOrder := pairwise_directoriesOf order
  refine ⟨sheetsOf visited, directoriesOf visited, ?found, ?asked, ?sheets, ?directories,
    ?sheetsNodup, ?directoriesNodup, sheetOrder, directoryOrder⟩
  case found => exact filesBelow_snapshot orderly _ root
  case asked => exact run_filesBelow_logged orderly _ root
  case sheets =>
    intro names file
    rw [mem_sheetsOf_iff, mem_stops_iff orderly, IsStop]
    simp
  case directories =>
    intro names
    rw [mem_directoriesOf_iff, mem_stops_iff orderly, IsStop]
    simp
  case sheetsNodup =>
    apply sheetOrder.imp
    rintro left _ before rfl
    exact List.lt_irrefl _ before
  case directoriesNodup =>
    apply directoryOrder.imp
    rintro left _ before rfl
    exact List.lt_irrefl _ before

/-- Every directory holds a sheet and, by way of a link, itself again; those called `sealed` cannot
be listed. -/
def selfNested : Snapshot where
  readDir directory :=
    if directory.fileName? = some "sealed" then .error .notDirectory
    else .ok [⟨directory.child "again", "again", .directory⟩,
      ⟨directory.child "sealed", "sealed", .directory⟩, ⟨directory.child "a.css", "a.css", .file⟩]
  readText _ := .error .notFound
  isFile path := path.fileName? == some "a.css"
  isDir path := path.fileName? != some "a.css"

theorem selfNested_orderly : selfNested.Orderly where
  path_eq := by
    intro directory found listed entry member
    simp only [selfNested] at listed
    split at listed
    · cases listed
    · cases listed
      simp only [List.mem_cons, List.not_mem_nil, or_false] at member
      rcases member with rfl | rfl | rfl <;> simp only
  names_nodup := by
    intro directory found listed
    simp only [selfNested] at listed
    split at listed
    · cases listed
    · cases listed
      simp

theorem selfNested_walked :
    selfNested.Orderly ∧
      (∃ sheets directories, Walked selfNested { Scoping.standard with maxScanDepth := 1 } ⟨"/w"⟩
        sheets directories) ∧
      (globalFiles selfNested { Scoping.standard with maxScanDepth := 1 } ⟨"/w"⟩).run =
        [⟨"/w/again/a.css"⟩, ⟨"/w/a.css"⟩] :=
  ⟨selfNested_orderly, globalFiles_walked selfNested_orderly _ _, by decide +kernel⟩

end Discovery

end StyleLookup
