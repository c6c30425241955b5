import StyleLookup.Path.Normal

/-!
Candidate style sheets in order of priority. Paths are kept in normal form, each once, at the place
where it was first added. Whether a path is there already is asked of a set that grows along with
the list.
-/

set_option autoImplicit false

namespace StyleLookup

/-- A set of paths. Paths that agree step by step are one member. -/
structure PathSet where
  members : List Path
deriving DecidableEq, Repr

namespace PathSet

def empty : PathSet := ⟨[]⟩

def contains (set : PathSet) (path : Path) : Bool := set.members.any path.sameAs

/-- Adds a path, and says whether it was missing. -/
def insert (set : PathSet) (path : Path) : Bool × PathSet :=
  if set.contains path then (false, set) else (true, ⟨path :: set.members⟩)

end PathSet

/-- Normal paths without repetition, the ones of highest priority first, and the same paths as a
set. -/
structure CandidateList where
  paths : List Path
  seen : PathSet
deriving DecidableEq, Repr

namespace CandidateList

def empty : CandidateList := ⟨[], .empty⟩

/-- Whether a path is among the candidates, in any spelling that has the same normal form. -/
def contains (candidates : CandidateList) (path : Path) : Bool :=
  candidates.seen.contains path.normalize

/-- Adds a path at the end unless it is among the candidates, and says whether it was added. -/
def push (candidates : CandidateList) (path : Path) : Bool × CandidateList :=
  match candidates.seen.insert path.normalize with
  | (true, seen) => (true, ⟨candidates.paths ++ [path.normalize], seen⟩)
  | (false, seen) => (false, ⟨candidates.paths, seen⟩)

theorem push_of_contains {candidates : CandidateList} {path : Path}
    (known : candidates.contains path = true) : candidates.push path = (false, candidates) := by
  have present : candidates.seen.contains path.normalize = true := known
  simp [push, PathSet.insert, present]

theorem push_of_not_contains {candidates : CandidateList} {path : Path}
    (unknown : candidates.contains path = false) :
    candidates.push path =
      (true, ⟨candidates.paths ++ [path.normalize],
        ⟨path.normalize :: candidates.seen.members⟩⟩) := by
  have absent : candidates.seen.contains path.normalize = false := unknown
  simp [push, PathSet.insert, absent]

theorem added_iff {candidates : CandidateList} {path : Path} :
    (candidates.push path).1 = true ↔ candidates.contains path = false := by
  cases known : candidates.contains path with
  | true => simp [push_of_contains known]
  | false => simp [push_of_not_contains known]

def extend (candidates : CandidateList) (paths : List Path) : CandidateList :=
  paths.foldl (fun grown path => (grown.push path).2) candidates

def ofList (paths : List Path) : CandidateList := empty.extend paths

def size (candidates : CandidateList) : Nat := candidates.paths.length

def isEmpty (candidates : CandidateList) : Bool := candidates.paths.isEmpty

end CandidateList

end StyleLookup
