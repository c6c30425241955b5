import StyleLookup.CommandLine.Commands
import StyleLookup.Proofs.Path.Ancestry

/-!
Workspaces that are found by a marker, seen again as fixed ones. The marker is looked for above the
source as it is written, while a fixed workspace holds what leads into it. The two disagree about a
source that climbs out of the marked directory on its way.
-/

set_option autoImplicit false

namespace StyleLookup

namespace Workspace

theorem enclosingRoot?_normalize_eq_some_iff {root source : Path} :
    enclosingRoot? root.normalize source = some root.normalize ↔ source.Within root := by
  rw [enclosingRoot?, Option.ite_none_right_eq_some, and_iff_left rfl,
    Path.startsWith_normalize_iff]

theorem enclosingRoot?_normalize_eq_none_iff {root source : Path} :
    enclosingRoot? root.normalize source = none ↔ ¬ source.Within root := by
  rw [← Path.startsWith_normalize_iff, enclosingRoot?]
  split <;> simp_all

theorem mem_of_firstMarked? {fs : Snapshot} {markers : List String} {directories : List Path}
    {root : Path} (found : (firstMarked? fs markers directories).run = some root) :
    root ∈ directories := by
  induction directories with
  | nil => cases found
  | cons directory rest ih =>
      cases held : (isMarked fs directory markers).run with
      | true =>
          have first : (firstMarked? fs markers (directory :: rest)).run = some directory := by
            change (if (isMarked fs directory markers).run then _ else _) = _
            rw [held]
            rfl
          rw [first] at found
          cases found
          exact List.mem_cons_self
      | false =>
          have later : (firstMarked? fs markers (directory :: rest)).run =
              (firstMarked? fs markers rest).run := by
            change (if (isMarked fs directory markers).run then _ else _) = _
            rw [held]
            rfl
          rw [later] at found
          exact List.mem_cons_of_mem directory (ih found)

end Workspace

namespace CommandLine

variable {fs : Snapshot} {options : Options} {workingDirectory source root : Path} {made : Setup}

/-- Without a root that is asked for, a command works in the workspace of its source. -/
theorem root_of_setup (unasked : options.root? = none)
    (marked : (Workspace.firstMarked? fs Workspace.standardMarkers source.ancestors).run =
      some root)
    (ready : (setup fs workingDirectory options (some source)).run = .ok made) :
    made.root = root := by
  have chosen : (chooseRoot fs workingDirectory options (some source)).run = root := by
    simp only [chooseRoot, unasked]
    change (Workspace.firstMarked? fs _ _).run.getD _ = _
    rw [marked]
    rfl
  have whole : (setup fs workingDirectory options (some source)).run =
      (chooseScoping fs options root).run.map fun scoping =>
        ⟨root, { scoping with mode := options.mode?.getD scoping.mode }⟩ := by
    rw [← chosen]
    rfl
  rw [whole] at ready
  cases loaded : (chooseScoping fs options root).run with
  | error fault =>
      rw [loaded] at ready
      cases ready
  | ok scoping =>
      rw [loaded] at ready
      cases ready
      rfl

theorem candidates_index_of_within (within : source.Within made.root) :
    (made.index.candidates fs source).run =
      (Discovery.candidates fs made.scoping made.root.normalize source).run := by
  have enclosed := Workspace.enclosingRoot?_normalize_eq_some_iff.mpr within
  simp only [RuleIndex.candidates, Setup.index, RuleIndex.fresh, RuleIndex.root?,
    Workspace.atRoot, Workspace.root?, pure_bind, enclosed]

theorem candidates_index_of_not_within (outside : ¬ source.Within made.root) :
    (made.index.candidates fs source).run = .empty := by
  have rejected := Workspace.enclosingRoot?_normalize_eq_none_iff.mpr outside
  simp only [RuleIndex.candidates, Setup.index, RuleIndex.fresh, RuleIndex.root?,
    Workspace.atRoot, Workspace.root?, pure_bind, rejected]
  rfl

end CommandLine

/-- A workspace that was found by a marker above a source, and is then taken for a fixed one, holds
the source exactly if the steps of the source below the marked directory return to it. So a command
that has found its root so searches there for these sources, and finds nothing for all others. -/
theorem root?_atRoot_eq_some_iff_returns {fs : Snapshot} {markers : List String}
    {source root : Path} (absolute : source.isAbsolute = true)
    (marked : ((Workspace.marked markers).root? fs source).run = some root) :
    ∃ below ≠ [], source.components = root.components ++ below ∧
      (((Workspace.atRoot root).root? fs source).run = some root.normalize ↔
        Path.Returns root.reached below) ∧
      (markers = Workspace.standardMarkers →
        ∀ (workingDirectory : Path) (options : CommandLine.Options) (made : CommandLine.Setup),
          options.root? = none →
          (CommandLine.setup fs workingDirectory options (some source)).run = .ok made →
            made.root = root ∧
              (Path.Returns root.reached below →
                (made.index.candidates fs source).run =
                  (Discovery.candidates fs made.scoping root.normalize source).run) ∧
              (¬ Path.Returns root.reached below →
                (made.index.candidates fs source).run = .empty)) := by
  obtain ⟨below, nonempty, whole, returns⟩ :=
    Path.exists_within_iff_returns absolute (Workspace.mem_of_firstMarked? marked)
  refine ⟨below, nonempty, whole, ?_, ?_⟩
  · rw [← returns]
    exact Workspace.enclosingRoot?_normalize_eq_some_iff
  · rintro rfl workingDirectory options made unasked ready
    obtain rfl := CommandLine.root_of_setup unasked marked ready
    rw [← returns]
    exact ⟨rfl, CommandLine.candidates_index_of_within,
      CommandLine.candidates_index_of_not_within⟩

/-- A marked directory, and beside it the style sheet of a page. Nothing else is known, and no
directory can be listed. -/
def siteAndNeighbour : Snapshot where
  readDir _ := .error .notFound
  readText _ := .error .notFound
  isFile path := [⟨"/s/.git"⟩, ⟨"/o/p.css"⟩].contains path.normalize
  isDir _ := false

/-- A source that goes through another directory on its way. The marked directory is found through
this directory too, under a spelling that is not normal. -/
theorem detour_kept :
    let source : Path := ⟨"/s/d/../p.html"⟩
    let made : CommandLine.Setup := ⟨⟨"/s/d/.."⟩, .standard⟩
    ((Workspace.marked Workspace.standardMarkers).root? siteAndNeighbour source).run =
        some ⟨"/s/d/.."⟩ ∧
      ((Workspace.atRoot ⟨"/s/d/.."⟩).root? siteAndNeighbour source).run =
        some ⟨"/s"⟩ ∧
      (CommandLine.setup siteAndNeighbour ⟨"/"⟩ ⟨none, none, none⟩ (some source)).run =
        .ok made ∧
      (made.index.candidates siteAndNeighbour source).run =
        (Discovery.candidates siteAndNeighbour .standard ⟨"/s"⟩ source).run := by
  intro source made
  have absolute : source.isAbsolute = true := by decide
  have marked : ((Workspace.marked Workspace.standardMarkers).root? siteAndNeighbour source).run =
      some ⟨"/s/d/.."⟩ := by decide +kernel
  have normal : Path.normalize ⟨"/s/d/.."⟩ = ⟨"/s"⟩ := by decide +kernel
  have ready : (CommandLine.setup siteAndNeighbour ⟨"/"⟩ ⟨none, none, none⟩ (some source)).run =
      .ok made := by decide +kernel
  obtain ⟨below, -, whole, resolved, command⟩ := root?_atRoot_eq_some_iff_returns absolute marked
  have split : Path.components ⟨"/s/d/.."⟩ ++ [.name "p.html"] =
      Path.components ⟨"/s/d/.."⟩ ++ below := by
    rw [← whole]
    decide
  obtain rfl := List.append_cancel_left split
  have returns : Path.Returns (Path.reached ⟨"/s/d/.."⟩) [.name "p.html"] :=
    Path.returns_of_up_eq_zero rfl _
  obtain ⟨-, searched, -⟩ := command rfl ⟨"/"⟩ ⟨none, none, none⟩ made rfl ready
  exact ⟨marked, normal ▸ resolved.mpr returns, ready, normal ▸ searched returns⟩

/-- A source that climbs out of the marked directory has this directory for its workspace and lies
outside it, so nothing is found for it. -/
theorem climber_lost :
    ((Workspace.marked Workspace.standardMarkers).root? siteAndNeighbour
        ⟨"/s/../o/p.html"⟩).run = some ⟨"/s"⟩ ∧
      ((Workspace.atRoot ⟨"/s"⟩).root? siteAndNeighbour
        ⟨"/s/../o/p.html"⟩).run = none ∧
      (siteAndNeighbour.isFile ⟨"/o/p.css"⟩).run = true ∧
      (CommandLine.run siteAndNeighbour ⟨"/"⟩ ["files", "s/../o/p.html"]).run =
        .success "No style sheets found.\n" := by
  decide +kernel

end StyleLookup
