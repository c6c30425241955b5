import Mathlib.Data.List.Basic
import StyleLookup.Path.Ancestor

/-!
How the parts of a path are read off its spelling: what a path that was put together from steps
reads as, what a joined path reads as, and what the directory that holds a path reads as.
-/

set_option autoImplicit false

namespace StyleLookup.Path

/-! ## Steps -/

/-- The steps that a path spells out, without the root or the dot at its start. -/
def steps (path : Path) : List Component := path.pieces.filterMap Component.ofPiece?

def Start.lead : Start → List Component
  | .root => [.root]
  | .here => [.current]
  | .relative => []

theorem components_eq_lead_append_steps (path : Path) :
    path.components = path.start.lead ++ path.steps := by
  unfold components
  cases path.start <;> rfl

theorem steps_eq_components {path : Path} (unrooted : .root ∉ path.components)
    (undotted : .current ∉ path.components) : path.steps = path.components := by
  rw [components_eq_lead_append_steps] at unrooted undotted ⊢
  cases start : path.start with
  | root => exact absurd (by simp [start, Start.lead]) unrooted
  | here => exact absurd (by simp [start, Start.lead]) undotted
  | relative => rfl

/-- A step that a piece of a path spells out: a `..`, or a name that is no dot, not empty and
without a slash. -/
def Component.Spelled (step : Component) : Prop :=
  ofPiece? step.text = some step ∧ '/' ∉ step.text

instance (step : Component) : Decidable step.Spelled :=
  inferInstanceAs (Decidable (_ ∧ _))

theorem Component.Spelled.ne_root {step : Component} (spelled : step.Spelled) : step ≠ .root := by
  rintro rfl
  exact absurd spelled (by decide)

theorem Component.Spelled.ne_current {step : Component} (spelled : step.Spelled) :
    step ≠ .current := by
  rintro rfl
  exact absurd spelled (by decide)

theorem Component.text_of_ofPiece? {piece : List Char} {step : Component}
    (read : ofPiece? piece = some step) : step.text = piece := by
  unfold ofPiece? at read
  split at read
  · cases read
  · split at read
    · cases read
      symm
      assumption
    · cases read
      exact String.toList_ofList

theorem ofPiece?_eq_none_iff {piece : List Char} :
    Component.ofPiece? piece = none ↔ isSilent piece = true := by
  unfold Component.ofPiece?
  split
  · simp [*]
  · split <;> simp_all

theorem slash_not_mem_of_mem_splitOn {text piece : List Char} (member : piece ∈ text.splitOn '/') :
    '/' ∉ piece := by
  induction text generalizing piece with
  | nil =>
      rw [List.splitOn_nil, List.mem_singleton] at member
      subst member
      exact List.not_mem_nil
  | cons c rest ih =>
      rw [List.splitOn_cons_eq_if_modifyHead] at member
      split at member
      · rcases List.mem_cons.mp member with rfl | later
        · exact List.not_mem_nil
        · exact ih later
      · rename_i noSlash
        cases cut : rest.splitOn '/' with
        | nil => exact absurd cut (List.splitOn_ne_nil _ _)
        | cons first others =>
            rw [cut, List.modifyHead_cons] at member
            rcases List.mem_cons.mp member with rfl | later
            · have free : '/' ∉ first := ih (cut ▸ List.mem_cons_self)
              rw [List.mem_cons, not_or]
              exact ⟨fun same => noSlash (beq_iff_eq.mpr same.symm), free⟩
            · exact ih (cut ▸ List.mem_cons_of_mem _ later)

theorem spelled_of_mem_steps {path : Path} {step : Component} (member : step ∈ path.steps) :
    step.Spelled := by
  obtain ⟨piece, pieceMember, read⟩ := List.mem_filterMap.mp member
  have same := Component.text_of_ofPiece? read
  exact ⟨same ▸ read, same ▸ slash_not_mem_of_mem_splitOn pieceMember⟩

/-- Steps read back from their texts. -/
theorem filterMap_ofPiece?_map_text {steps : List Component}
    (spelled : ∀ step ∈ steps, step.Spelled) :
    (steps.map Component.text).filterMap Component.ofPiece? = steps := by
  rw [List.filterMap_map]
  calc steps.filterMap (Component.ofPiece? ∘ Component.text)
      = steps.filterMap some := List.filterMap_congr fun step member => (spelled step member).1
    _ = steps := List.filterMap_some

theorem isAbsolute_iff {path : Path} :
    path.isAbsolute = true ↔ ∃ rest, path.text = '/' :: rest := by
  rw [isAbsolute, beq_iff_eq, List.head?_eq_some_iff]

theorem pieces_eq_nil_cons {path : Path} {rest : List Char} (absolute : path.text = '/' :: rest) :
    path.pieces = [] :: rest.splitOn '/' := by
  rw [pieces, absolute, ← List.nil_append ('/' :: rest), List.splitOn_append_cons_self]
  rfl

/-- A path whose spelling begins with a step starts nowhere in particular. -/
theorem start_eq_relative {path : Path} {piece : List Char}
    (first : path.pieces.head? = some piece) (heard : isSilent piece = false) :
    path.start = .relative := by
  have relative : ¬ path.isAbsolute = true := by
    intro absolute
    obtain ⟨rest, spelling⟩ := isAbsolute_iff.mp absolute
    rw [pieces_eq_nil_cons spelling] at first
    cases first
    cases heard
  have noDot : ¬ path.pieces.head? = some ['.'] := by
    intro dot
    rw [first] at dot
    cases dot
    cases heard
  rw [start, if_neg relative, if_neg noDot]

theorem Component.Spelled.isSilent_text {step : Component} (spelled : step.Spelled) :
    isSilent step.text = false := by
  rw [← Bool.not_eq_true, ← ofPiece?_eq_none_iff, spelled.1]
  exact Option.some_ne_none step

/-! ## Joined paths -/

/-- What stands behind a slash is read behind what stands in front of it, which may end in a slash
already. -/
theorem components_append_slash {directory whole : Path} {before after : List Char}
    (nonempty : directory.text ≠ [])
    (cut : directory.text = before ∨ directory.text = before ++ ['/'])
    (spelling : whole.text = before ++ '/' :: after) :
    whole.components = directory.components ++ (ofText after).steps := by
  have wholePieces : whole.pieces = before.splitOn '/' ++ after.splitOn '/' := by
    rw [pieces, spelling, List.splitOn_append_cons_self]
  obtain ⟨silent, directoryPieces, unread⟩ : ∃ silent,
      directory.pieces = before.splitOn '/' ++ silent ∧
        silent.filterMap Component.ofPiece? = [] := by
    rcases cut with bare | slashed
    · exact ⟨[], by rw [pieces, bare, List.append_nil], rfl⟩
    · exact ⟨[[]], by rw [pieces, slashed, List.splitOn_append_cons_self]; rfl, rfl⟩
  have firstChars : whole.text.head? = directory.text.head? := by
    rcases cut with bare | slashed
    · rw [spelling, bare, List.head?_append_of_ne_nil _ (bare ▸ nonempty)]
    · rw [spelling, slashed, List.head?_append, List.head?_append, List.head?_cons,
        List.head?_cons]
  have firstPieces : whole.pieces.head? = directory.pieces.head? := by
    rw [wholePieces, directoryPieces, List.head?_append_of_ne_nil _ (List.splitOn_ne_nil _ _),
      List.head?_append_of_ne_nil _ (List.splitOn_ne_nil _ _)]
  have starts : whole.start = directory.start := by
    rw [start, start, isAbsolute, isAbsolute, firstChars, firstPieces]
  rw [components_eq_lead_append_steps, components_eq_lead_append_steps, starts, List.append_assoc,
    steps, steps, wholePieces, directoryPieces, List.filterMap_append, List.filterMap_append, unread,
    List.append_nil, steps, pieces, text_ofText]

theorem join_of_empty {directory : Path} (blank : directory.text = []) (path : Path) :
    directory.join path = path := by
  simp [join, blank]

/-- A relative path is read behind its directory. Only behind the empty path a dot at its start
still counts. -/
theorem components_join {directory path : Path} (relative : path.isAbsolute = false)
    (nonempty : directory.text ≠ []) :
    (directory.join path).components = directory.components ++ path.steps := by
  by_cases slashed : directory.text.getLast? = some '/'
  · obtain ⟨before, spelling⟩ := List.getLast?_eq_some_iff.mp slashed
    have joined : (directory.join path).text = before ++ '/' :: path.text := by
      simp [join, relative, spelling]
    rw [components_append_slash nonempty (.inr spelling) joined, ofText_text]
  · have joined : (directory.join path).text = directory.text ++ '/' :: path.text := by
      simp [join, relative, nonempty, slashed]
    rw [components_append_slash nonempty (.inl rfl) joined, ofText_text]

/-! ## Paths put together from pieces and from steps -/

theorem filterMap_ofPiece?_splitOn_intercalate {pieces : List (List Char)}
    (free : ∀ piece ∈ pieces, '/' ∉ piece) :
    ((List.intercalate ['/'] pieces).splitOn '/').filterMap Component.ofPiece? =
      pieces.filterMap Component.ofPiece? := by
  cases pieces with
  | nil => rfl
  | cons piece rest => rw [List.splitOn_intercalate '/' free (List.cons_ne_nil _ _)]

/-- A relative path that is put together from pieces reads as these pieces do, unless the first one
is silent and so gives the path another start. -/
theorem components_assemble {start : Start} {pieces : List (List Char)}
    (free : ∀ piece ∈ pieces, '/' ∉ piece)
    (heard : start = .relative → ∀ piece ∈ pieces.head?, isSilent piece = false) :
    (assemble start pieces).components =
      start.lead ++ pieces.filterMap Component.ofPiece? := by
  cases start with
  | root =>
      have spelling : (assemble .root pieces).text =
          [] ++ '/' :: List.intercalate ['/'] pieces := by simp [assemble]
      have base : (root.text = [] ∨ root.text = [] ++ ['/']) := .inr rfl
      rw [components_append_slash (by decide) base spelling, steps, Path.pieces, text_ofText,
        filterMap_ofPiece?_splitOn_intercalate free]
      rfl
  | here =>
      cases pieces with
      | nil => decide
      | cons piece rest =>
          have spelling : (assemble .here (piece :: rest)).text =
              ['.'] ++ '/' :: List.intercalate ['/'] (piece :: rest) := by simp [assemble]
          have base : (ofText ['.']).text = ['.'] ∨ (ofText ['.']).text = ['.'] ++ ['/'] := .inl rfl
          rw [components_append_slash (by decide) base spelling, steps, Path.pieces, text_ofText,
            filterMap_ofPiece?_splitOn_intercalate free]
          rfl
  | relative =>
      cases pieces with
      | nil => decide
      | cons piece rest =>
          have cut : (assemble .relative (piece :: rest)).pieces = piece :: rest := by
            rw [Path.pieces, assemble, text_ofText]
            exact List.splitOn_intercalate '/' free (List.cons_ne_nil _ _)
          have start := start_eq_relative (congrArg List.head? cut) (heard rfl piece rfl)
          rw [components_eq_lead_append_steps, start, steps, cut]

/-- The start and the pieces that a path was put together from are found in it again. -/
theorem start_assemble {start : Start} {pieces : List (List Char)} (undotted : start ≠ .here)
    (free : ∀ piece ∈ pieces, '/' ∉ piece)
    (heard : ∀ piece ∈ pieces.head?, isSilent piece = false) :
    (assemble start pieces).start = start := by
  cases start with
  | root => simp [assemble, Path.start, isAbsolute]
  | here => exact absurd rfl undotted
  | relative =>
      cases pieces with
      | nil => decide
      | cons piece rest =>
          have cut : (assemble .relative (piece :: rest)).pieces = piece :: rest := by
            rw [Path.pieces, assemble, text_ofText]
            exact List.splitOn_intercalate '/' free (List.cons_ne_nil _ _)
          exact start_eq_relative (congrArg List.head? cut) (heard piece rfl)

theorem bodyPieces_assemble {start : Start} {pieces : List (List Char)} (undotted : start ≠ .here)
    (nonempty : pieces ≠ []) (free : ∀ piece ∈ pieces, '/' ∉ piece)
    (heard : ∀ piece ∈ pieces.head?, isSilent piece = false) :
    (assemble start pieces).bodyPieces = pieces := by
  rw [bodyPieces, start_assemble undotted free heard]
  cases start with
  | root =>
      have spelling : (assemble .root pieces).text = '/' :: List.intercalate ['/'] pieces := by
        simp [assemble]
      simp only [pieces_eq_nil_cons spelling, List.tail_cons]
      exact List.splitOn_intercalate '/' free nonempty
  | here => exact absurd rfl undotted
  | relative =>
      simp only [Path.pieces, assemble, text_ofText]
      exact List.splitOn_intercalate '/' free nonempty

section

variable {start : Start} {steps : List Component}

theorem slash_not_mem_of_mem_map_text (spelled : ∀ step ∈ steps, step.Spelled) :
    ∀ piece ∈ steps.map Component.text, '/' ∉ piece := by
  intro piece member
  obtain ⟨step, stepMember, rfl⟩ := List.mem_map.mp member
  exact (spelled step stepMember).2

theorem isSilent_eq_false_of_mem_map_text (spelled : ∀ step ∈ steps, step.Spelled) :
    ∀ piece ∈ (steps.map Component.text).head?, isSilent piece = false := by
  intro piece first
  obtain ⟨step, stepMember, rfl⟩ := List.mem_map.mp (List.mem_of_head? first)
  exact (spelled step stepMember).isSilent_text

theorem ofComponents_eq_assemble (undotted : start ≠ .here)
    (spelled : ∀ step ∈ steps, step.Spelled) :
    ofComponents (start.lead ++ steps) = assemble start (steps.map Component.text) := by
  cases start with
  | root => rfl
  | here => exact absurd rfl undotted
  | relative =>
      cases steps with
      | nil => rfl
      | cons step rest =>
          cases step with
          | root => exact absurd rfl (spelled .root List.mem_cons_self).ne_root
          | _ => rfl

theorem components_ofComponents_lead (undotted : start ≠ .here)
    (spelled : ∀ step ∈ steps, step.Spelled) :
    (ofComponents (start.lead ++ steps)).components = start.lead ++ steps := by
  rw [ofComponents_eq_assemble undotted spelled,
    components_assemble (slash_not_mem_of_mem_map_text spelled)
      fun _ => isSilent_eq_false_of_mem_map_text spelled,
    filterMap_ofPiece?_map_text spelled]

theorem components_ofComponents (spelled : ∀ step ∈ steps, step.Spelled) :
    (ofComponents steps).components = steps :=
  @components_ofComponents_lead .relative steps Start.noConfusion spelled

end

/-! ## Directories above a path -/

theorem filterMap_ofPiece?_reverse_dropWhile (back : List (List Char)) :
    (back.dropWhile isSilent).reverse.filterMap Component.ofPiece? =
      back.reverse.filterMap Component.ofPiece? := by
  induction back with
  | nil => rfl
  | cons piece before ih =>
      by_cases silent : isSilent piece = true
      · rw [List.dropWhile_cons_of_pos silent, ih, List.reverse_cons, List.filterMap_append,
          List.filterMap_cons_none (ofPiece?_eq_none_iff.mpr silent), List.filterMap_nil,
          List.append_nil]
      · rw [List.dropWhile_cons_of_neg silent]

theorem head?_reverse_of_cons {piece : List Char} {before : List (List Char)}
    (heard : ∀ other ∈ (piece :: before).reverse.head?, isSilent other = false) :
    ∀ other ∈ before.reverse.head?, isSilent other = false := by
  intro other first
  apply heard
  rw [List.reverse_cons, List.head?_append, Option.mem_def.mp first]
  rfl

/-- Silent pieces at the end of a path leave no trace in what it reads as. -/
theorem components_assemble_dropWhile {start : Start} {back : List (List Char)}
    (free : ∀ piece ∈ back, '/' ∉ piece)
    (heard : start = .relative → ∀ piece ∈ back.reverse.head?, isSilent piece = false) :
    (assemble start (back.dropWhile isSilent).reverse).components =
      start.lead ++ back.reverse.filterMap Component.ofPiece? := by
  obtain ⟨dropped, whole⟩ : (back.dropWhile isSilent).reverse <+: back.reverse :=
    List.reverse_prefix.mpr (List.dropWhile_suffix isSilent)
  rw [← filterMap_ofPiece?_reverse_dropWhile back]
  apply components_assemble
  · intro piece member
    exact free piece ((List.dropWhile_suffix isSilent).subset (List.mem_reverse.mp member))
  · intro relative piece first
    apply heard relative
    rw [← whole, List.head?_append, Option.mem_def.mp first]
    rfl

/-- The nearest ancestor that is found in front of the given pieces lacks just their last step. -/
theorem components_of_head?_ancestorsBefore {start : Start} {back : List (List Char)}
    {directory : Path} (free : ∀ piece ∈ back, '/' ∉ piece)
    (heard : start = .relative → ∀ piece ∈ back.reverse.head?, isSilent piece = false)
    (nearest : (ancestorsBefore start back).head? = some directory) :
    ∃ last, start.lead ++ back.reverse.filterMap Component.ofPiece? =
      directory.components ++ [last] := by
  induction back with
  | nil =>
      cases start with
      | here =>
          cases nearest
          exact ⟨.current, rfl⟩
      | _ => cases nearest
  | cons piece before ih =>
      have beforeFree : ∀ other ∈ before, '/' ∉ other := fun other member =>
        free other (List.mem_cons_of_mem piece member)
      have beforeHeard : start = .relative →
          ∀ other ∈ before.reverse.head?, isSilent other = false := fun relative =>
        head?_reverse_of_cons (heard relative)
      rw [List.reverse_cons, List.filterMap_append]
      by_cases silent : isSilent piece = true
      · rw [ancestorsBefore, if_pos silent] at nearest
        obtain ⟨last, read⟩ := ih beforeFree beforeHeard nearest
        refine ⟨last, ?_⟩
        rw [List.filterMap_cons_none (ofPiece?_eq_none_iff.mpr silent), List.filterMap_nil,
          List.append_nil, read]
      · rw [ancestorsBefore, if_neg silent, List.head?_cons] at nearest
        cases nearest
        obtain ⟨last, read⟩ := Option.ne_none_iff_exists'.mp (mt ofPiece?_eq_none_iff.mp silent)
        refine ⟨last, ?_⟩
        rw [components_assemble_dropWhile beforeFree beforeHeard, List.filterMap_cons_some read,
          List.filterMap_nil, List.append_assoc]

/-- What stands in front of the body of a path says nothing but where the path starts. -/
theorem pieces_eq_bodyPieces_or (path : Path) :
    (path.start = .relative ∧ path.pieces = path.bodyPieces) ∨
      ∃ mark, isSilent mark = true ∧ path.pieces = mark :: path.bodyPieces := by
  by_cases absolute : path.isAbsolute = true
  · have start : path.start = .root := if_pos absolute
    obtain ⟨rest, spelling⟩ := isAbsolute_iff.mp absolute
    have cut := pieces_eq_nil_cons spelling
    exact .inr ⟨[], rfl, by simp [bodyPieces, start, cut]⟩
  · by_cases dot : path.pieces.head? = some ['.']
    · have start : path.start = .here := by rw [Path.start, if_neg absolute, if_pos dot]
      obtain ⟨rest, cut⟩ := List.head?_eq_some_iff.mp dot
      exact .inr ⟨['.'], rfl, by simp [bodyPieces, start, cut]⟩
    · have start : path.start = .relative := by rw [Path.start, if_neg absolute, if_neg dot]
      exact .inl ⟨start, by simp [bodyPieces, start]⟩

theorem filterMap_bodyPieces (path : Path) :
    path.bodyPieces.filterMap Component.ofPiece? = path.steps := by
  rcases pieces_eq_bodyPieces_or path with ⟨-, whole⟩ | ⟨mark, silent, whole⟩
  · rw [steps, whole]
  · rw [steps, whole, List.filterMap_cons_none (ofPiece?_eq_none_iff.mpr silent)]

/-- Only the empty path starts nowhere in particular and with a silent piece. -/
theorem isSilent_eq_false_of_start_eq_relative {path : Path} (relative : path.start = .relative)
    (nonempty : path.text ≠ []) : ∀ piece ∈ path.pieces.head?, isSilent piece = false := by
  intro piece first
  obtain ⟨rest, cut⟩ := List.head?_eq_some_iff.mp first
  have spelling : path.text = List.intercalate ['/'] (piece :: rest) := by
    rw [← cut, pieces, List.intercalate_splitOn]
  rw [← Bool.not_eq_true]
  intro silent
  rcases (by simpa [isSilent] using silent : piece = [] ∨ piece = ['.']) with rfl | rfl
  · cases rest with
    | nil => exact nonempty spelling
    | cons next rest =>
        have absolute : path.isAbsolute = true := isAbsolute_iff.mpr ⟨_, spelling⟩
        rw [start, if_pos absolute] at relative
        cases relative
  · rw [start] at relative
    split at relative
    · cases relative
    · rw [if_pos (Option.mem_def.mp first)] at relative
      cases relative

theorem slash_not_mem_of_mem_bodyPieces {path : Path} {piece : List Char}
    (member : piece ∈ path.bodyPieces) : '/' ∉ piece := by
  have inside : piece ∈ path.pieces := by
    rcases pieces_eq_bodyPieces_or path with ⟨-, whole⟩ | ⟨mark, -, whole⟩
    · rwa [whole]
    · rw [whole]
      exact List.mem_cons_of_mem mark member
  exact slash_not_mem_of_mem_splitOn inside

/-- A path that has ancestors does not begin with a silent piece, unless that is its start. -/
theorem isSilent_eq_false_of_mem_ancestors {path directory : Path}
    (above : directory ∈ path.ancestors) (relative : path.start = .relative) :
    ∀ piece ∈ path.bodyPieces.head?, isSilent piece = false := by
  have nonempty : path.text ≠ [] := by
    intro blank
    obtain rfl : path = empty := by rw [← ofText_text path, blank]; rfl
    have unheld : empty.ancestors = [] := by decide
    rw [unheld] at above
    cases above
  have whole : path.pieces = path.bodyPieces := by simp [bodyPieces, relative]
  rw [← whole]
  exact isSilent_eq_false_of_start_eq_relative relative nonempty

/-- The directory that holds a path is read as the path without its last step. -/
theorem components_of_parent? {path directory : Path} (above : path.parent? = some directory) :
    ∃ last, path.components = directory.components ++ [last] := by
  have free : ∀ piece ∈ path.bodyPieces.reverse, '/' ∉ piece := fun piece member =>
    slash_not_mem_of_mem_bodyPieces (List.mem_reverse.mp member)
  have heard : path.start = .relative →
      ∀ piece ∈ path.bodyPieces.reverse.reverse.head?, isSilent piece = false := by
    rw [List.reverse_reverse]
    exact isSilent_eq_false_of_mem_ancestors (List.mem_of_head? above)
  obtain ⟨last, read⟩ := components_of_head?_ancestorsBefore free heard above
  rw [List.reverse_reverse, filterMap_bodyPieces, ← components_eq_lead_append_steps] at read
  exact ⟨last, read⟩

theorem getLast?_of_fileName? {path : Path} {name : String} (last : path.fileName? = some name) :
    path.components.getLast? = some (.name name) := by
  unfold fileName? at last
  split at last
  · rename_i entry read
    cases last
    exact read
  · cases last

theorem spelled_of_fileName? {path : Path} {name : String} (last : path.fileName? = some name) :
    Component.Spelled (.name name) := by
  have member := List.mem_of_getLast? (getLast?_of_fileName? last)
  rw [components_eq_lead_append_steps, List.mem_append] at member
  rcases member with led | step
  · cases start : path.start <;> simp [start, Start.lead] at led
  · exact spelled_of_mem_steps step

theorem components_of_parent?_of_fileName? {path directory : Path} {name : String}
    (above : path.parent? = some directory) (last : path.fileName? = some name) :
    path.components = directory.components ++ [.name name] := by
  obtain ⟨step, read⟩ := components_of_parent? above
  have named := getLast?_of_fileName? last
  rw [read, List.getLast?_concat] at named
  cases named
  exact read

end StyleLookup.Path
