import Mathlib.Data.List.Forall2
import StyleLookup.Proofs.Sheet.Parsed
import StyleLookup.Proofs.Text.Lines

/-!
Where a selector is found in the text of its style sheet. The search prefers lines by how well they
show the selector, and takes the first of equally good ones. The rules of a sheet are all found in
it, on a line that shows at least a part of their selector, though another line may be preferred to
the one that a rule stands on.
-/

set_option autoImplicit false

namespace StyleLookup

namespace Sheet

variable {needle line text : List Char}

/-! ## What one line shows -/

/-- One text is another with letters of any case. -/
def SameButCase (text other : List Char) : Prop :=
  List.Forall₂ (fun c d => Text.sameFold c d = true) text other

theorem SameButCase.refl (text : List Char) : SameButCase text text :=
  List.forall₂_same.mpr fun c _ => by simp [Text.sameFold]

/-- A line holds a text in letters of any case. -/
def HoldsInAnyCase (needle line : List Char) : Prop :=
  ∃ spelled, SameButCase needle spelled ∧ spelled <:+: line

/-- A line holds a text in letters of any case, then white space or nothing, and then a mark that
can follow a selector. -/
def Announces (needle line : List Char) : Prop :=
  ∃ spelled gap, ∃ mark ∈ ['{', '#', ',', ')'],
    SameButCase needle spelled ∧ Text.AllBlank gap ∧ spelled ++ (gap ++ [mark]) <:+: line

/-- A line holds a hyphen-separated part of a text as a class or an id. -/
def HoldsPart (needle line : List Char) : Prop :=
  ∃ part ∈ needle.splitOn '-', part ≠ [] ∧ ('.' :: part <:+: line ∨ '#' :: part <:+: line)

theorem dropFolded?_eq_some_iff {rest : List Char} :
    dropFolded? needle text = some rest ↔
      ∃ spelled, SameButCase needle spelled ∧ text = spelled ++ rest := by
  fun_induction dropFolded? needle text with
  | case1 text => simp [SameButCase, eq_comm (a := text)]
  | case2 c needle => simp [SameButCase, List.forall₂_cons_left_iff]
  | case3 c needle d text folds ih =>
      rw [ih]
      constructor
      · rintro ⟨spelled, same, rfl⟩
        exact ⟨d :: spelled, .cons folds same, rfl⟩
      · rintro ⟨spelled, same, whole⟩
        obtain ⟨e, others, -, sameOthers, rfl⟩ := List.forall₂_cons_left_iff.mp same
        exact ⟨others, sameOthers, (List.cons.inj whole).2⟩
  | case4 c needle d text differs =>
      simp only [reduceCtorEq, false_iff, not_exists, not_and]
      intro spelled same whole
      obtain ⟨e, spelled, folds, -, rfl⟩ := List.forall₂_cons_left_iff.mp same
      obtain ⟨rfl, -⟩ := List.cons.inj whole
      exact differs folds

theorem startsSelector_iff :
    startsSelector needle text = true ↔
      ∃ spelled gap, ∃ mark ∈ ['{', '#', ',', ')'],
        SameButCase needle spelled ∧ Text.AllBlank gap ∧ spelled ++ (gap ++ [mark]) <+: text := by
  unfold startsSelector
  constructor
  · intro starts
    split at starts
    · cases starts
    · rename_i rest dropped
      obtain ⟨spelled, same, rfl⟩ := dropFolded?_eq_some_iff.mp dropped
      split at starts
      · rename_i mark after inked
        refine ⟨spelled, rest.takeWhile Text.isBlank, mark, by simpa [or_assoc] using starts, same,
          fun c => List.mem_takeWhile_imp, after, ?_⟩
        rw [List.append_assoc, List.append_assoc, List.singleton_append, ← inked,
          List.takeWhile_append_dropWhile]
      · cases starts
  · rintro ⟨spelled, gap, mark, known, same, blank, after, rfl⟩
    have dropped : dropFolded? needle (spelled ++ (gap ++ [mark]) ++ after) =
        some (gap ++ mark :: after) :=
      dropFolded?_eq_some_iff.mpr ⟨spelled, same, by simp⟩
    have ink : Text.isBlank mark = false := by
      simp only [List.mem_cons, List.not_mem_nil, or_false] at known
      rcases known with rfl | rfl | rfl | rfl <;> decide
    rw [dropped]
    dsimp only
    rw [Text.dropWhile_stretch blank (by simpa using ink)]
    simpa [or_assoc] using known

theorem holdsSelector_iff : holdsSelector needle line = true ↔ Announces needle line := by
  induction line with
  | nil => simp only [holdsSelector, startsSelector_iff, Announces, List.infix_nil, List.prefix_nil]
  | cons c rest ih =>
      simp only [holdsSelector, Bool.or_eq_true, ih, startsSelector_iff, Announces,
        List.infix_cons_iff, and_or_left, exists_or]

theorem holdsPart_iff : holdsPart needle line = true ↔ HoldsPart needle line := by
  simp only [holdsPart, HoldsPart, List.any_filter, List.any_eq_true, Bool.and_eq_true,
    Bool.not_eq_true', List.isEmpty_eq_false_iff, Bool.or_eq_true, Text.contains_iff, ne_eq]

theorem HoldsInAnyCase.ofPiece (held : needle <:+: line) : HoldsInAnyCase needle line :=
  ⟨needle, .refl needle, held⟩

theorem Announces.holdsInAnyCase (announced : Announces needle (Text.trim line)) :
    HoldsInAnyCase needle line := by
  obtain ⟨spelled, gap, mark, -, same, -, piece⟩ := announced
  exact ⟨spelled, same, ((List.prefix_append spelled _).isInfix.trans piece).trans
    (Text.trim_isInfix line)⟩

/-- The ways in which a line can show a text that is looked for. The lower the number, the better
the line. -/
inductive Shows (needle line : List Char) : Nat → Prop where
  | announced (ahead : Announces needle (Text.trim line)) : Shows needle line 0
  | part (hyphened : '-' ∈ needle) (held : HoldsPart needle line) : Shows needle line 1
  | text (held : needle <:+: line) : Shows needle line 2

/-! ## The first of the best lines -/

/-- A test is passed: which of the tests it is, and where the item stands that passes. -/
def PassedAt {α : Type} (tests : List (α → Bool)) (items : List α) (rank place : Nat) : Prop :=
  ∃ test item, tests[rank]? = some test ∧ items[place]? = some item ∧ test item = true

/-- Tests that are tried one after another find the first of the items that pass the first test that
is passed at all. -/
theorem findSome?_findIdx?_eq_some_iff {α : Type} {tests : List (α → Bool)} {items : List α}
    {place : Nat} :
    tests.findSome? (fun test => items.findIdx? test) = some place ↔
      ∃ rank, PassedAt tests items rank place ∧
        ∀ otherRank other, PassedAt tests items otherRank other →
          rank < otherRank ∨ rank = otherRank ∧ place ≤ other := by
  induction tests with
  | nil => simp [PassedAt]
  | cons test tests ih =>
      have later (rank place : Nat) :
          PassedAt (test :: tests) items (rank + 1) place ↔ PassedAt tests items rank place := by
        simp [PassedAt]
      have first (place : Nat) :
          PassedAt (test :: tests) items 0 place ↔
            ∃ item, items[place]? = some item ∧ test item = true := by
        simp [PassedAt]
      rw [List.findSome?_cons]
      cases found : items.findIdx? test with
      | some index =>
          obtain ⟨bound, passes, failed⟩ := List.findIdx?_eq_some_iff_getElem.mp found
          have passed : PassedAt (test :: tests) items 0 index :=
            (first index).mpr ⟨_, List.getElem?_eq_getElem bound, passes⟩
          have notBefore : ∀ other, PassedAt (test :: tests) items 0 other → index ≤ other := by
            intro other elsewhere
            obtain ⟨item, stands, passesToo⟩ := (first other).mp elsewhere
            obtain ⟨_, rfl⟩ := List.getElem_of_getElem? stands
            by_contra early
            exact failed other (Nat.lt_of_not_le early) passesToo
          simp only [Option.some.injEq]
          constructor
          · rintro rfl
            refine ⟨0, passed, ?_⟩
            rintro (_ | otherRank) other elsewhere
            · exact .inr ⟨rfl, notBefore other elsewhere⟩
            · exact .inl otherRank.succ_pos
          · rintro ⟨rank, here, best⟩
            obtain ⟨rfl, notAfter⟩ : rank = 0 ∧ place ≤ index := by
              rcases best 0 index passed with lower | same
              · exact absurd lower rank.not_lt_zero
              · exact same
            exact Nat.le_antisymm (notBefore place here) notAfter
      | none =>
          have absent : ∀ other, ¬ PassedAt (test :: tests) items 0 other := by
            intro other passed
            obtain ⟨item, stands, passes⟩ := (first other).mp passed
            have fails := List.findIdx?_eq_none_iff.mp found item (List.mem_of_getElem? stands)
            rw [passes] at fails
            cases fails
          dsimp only
          rw [ih]
          constructor
          · rintro ⟨rank, here, best⟩
            refine ⟨rank + 1, (later rank place).mpr here, ?_⟩
            rintro (_ | otherRank) other elsewhere
            · exact absurd elsewhere (absent other)
            · have := best otherRank other ((later otherRank other).mp elsewhere)
              omega
          · rintro ⟨_ | rank, here, best⟩
            · exact absurd here (absent place)
            · refine ⟨rank, (later rank place).mp here, fun otherRank other elsewhere => ?_⟩
              have := best (otherRank + 1) other ((later otherRank other).mpr elsewhere)
              omega

theorem findSome?_findIdx?_eq_none_iff {α : Type} {tests : List (α → Bool)} {items : List α} :
    tests.findSome? (fun test => items.findIdx? test) = none ↔
      ∀ rank place, ¬ PassedAt tests items rank place := by
  simp only [List.findSome?_eq_none_iff, List.findIdx?_eq_none_iff]
  constructor
  · rintro absent rank place ⟨test, item, listed, stands, passes⟩
    have fails := absent test (List.mem_of_getElem? listed) item (List.mem_of_getElem? stands)
    rw [passes] at fails
    cases fails
  · intro absent test testMember item itemMember
    obtain ⟨rank, listed⟩ := List.mem_iff_getElem?.mp testMember
    obtain ⟨place, stands⟩ := List.mem_iff_getElem?.mp itemMember
    by_contra passes
    exact absent rank place ⟨test, item, listed, stands, by simpa using passes⟩

/-- The tests of the search for a line, from the most to the least demanding. -/
def lineTests (needle : List Char) : List (List Char → Bool) := [
  fun line => holdsSelector needle (Text.trim line),
  fun line => decide ('-' ∈ needle) && holdsPart needle line,
  Text.contains needle]

theorem lineOf?_eq_findSome? (nonempty : needle ≠ []) (content : List Char) :
    lineOf? needle content =
      (lineTests needle).findSome? fun test => (Text.lines content).findIdx? test := by
  have present : needle.isEmpty = false := List.isEmpty_eq_false_iff.mpr nonempty
  have hyphened :
      (if '-' ∈ needle then (Text.lines content).findIdx? (holdsPart needle) else none) =
      (Text.lines content).findIdx? fun line => decide ('-' ∈ needle) && holdsPart needle line := by
    by_cases hyphen : '-' ∈ needle
    · simp [hyphen]
    · have nowhere : (Text.lines content).findIdx? (fun _ => false) = none :=
        List.findIdx?_eq_none_iff.mpr fun _ _ => rfl
      simp [hyphen, nowhere]
  simp only [lineOf?, present, Bool.false_eq_true, if_false, hyphened, lineTests,
    List.findSome?_cons, List.findSome?_nil]
  generalize
    (Text.lines content).findIdx? (fun line => holdsSelector needle (Text.trim line)) = first
  generalize (Text.lines content).findIdx?
    (fun line => decide ('-' ∈ needle) && holdsPart needle line) = second
  generalize (Text.lines content).findIdx? (Text.contains needle) = third
  cases first <;> cases second <;> cases third <;> rfl

theorem shows_iff {rank : Nat} :
    Shows needle line rank ↔
      ∃ test, (lineTests needle)[rank]? = some test ∧ test line = true := by
  constructor
  · intro shows
    cases shows with
    | announced ahead => exact ⟨_, rfl, holdsSelector_iff.mpr ahead⟩
    | part hyphened held => exact ⟨_, rfl, by simp [hyphened, holdsPart_iff.mpr held]⟩
    | text held => exact ⟨_, rfl, Text.contains_iff.mpr held⟩
  · rintro ⟨test, listed, passes⟩
    match rank with
    | 0 =>
        cases listed
        exact .announced (holdsSelector_iff.mp passes)
    | 1 =>
        cases listed
        simp only [Bool.and_eq_true, decide_eq_true_eq] at passes
        exact .part passes.1 (holdsPart_iff.mp passes.2)
    | 2 =>
        cases listed
        exact .text (Text.contains_iff.mp passes)
    | rank + 3 => simp [lineTests] at listed

/-- The line with a number shows what is looked for. -/
def ShownAt (needle content : List Char) (rank number : Nat) : Prop :=
  ∃ line, (Text.lines content)[number]? = some line ∧ Shows needle line rank

theorem shownAt_iff {content : List Char} {rank number : Nat} :
    ShownAt needle content rank number ↔
      PassedAt (lineTests needle) (Text.lines content) rank number := by
  simp only [ShownAt, PassedAt, shows_iff]
  grind

/-- The line that is found is the first of those that show best what is looked for. -/
theorem lineOf?_eq_some_iff (nonempty : needle ≠ []) {content : List Char} {number : Nat} :
    lineOf? needle content = some number ↔
      ∃ rank, ShownAt needle content rank number ∧
        ∀ otherRank other, ShownAt needle content otherRank other →
          rank < otherRank ∨ rank = otherRank ∧ number ≤ other := by
  simp only [lineOf?_eq_findSome? nonempty, shownAt_iff, findSome?_findIdx?_eq_some_iff]

theorem lineOf?_eq_none_iff (nonempty : needle ≠ []) {content : List Char} :
    lineOf? needle content = none ↔ ∀ rank number, ¬ ShownAt needle content rank number := by
  simp only [lineOf?_eq_findSome? nonempty, shownAt_iff, findSome?_findIdx?_eq_none_iff]

/-! ## What is looked for -/

/-- What is left of a line without the commas at its end, the white space in front of them and a
sigil at its start. -/
def bareText (line : List Char) : List Char :=
  Selector.dropSigil (Text.trimEnd (Text.dropEndWhile (· == ',') line))

theorem searchText_eq (selector : List Char) :
    searchText selector = bareText (Text.trim (Text.firstLine (Text.trim selector))) := rfl

theorem exists_append_dropSigil (text : List Char) :
    ∃ sigil, text = sigil ++ Selector.dropSigil text := by
  unfold Selector.dropSigil
  split
  · exact ⟨['.'], rfl⟩
  · exact ⟨['#'], rfl⟩
  · exact ⟨[], rfl⟩

theorem exists_append_bareText (line : List Char) :
    ∃ sigil gap commas, line = sigil ++ (bareText line ++ (gap ++ commas)) ∧
      Text.AllBlank gap ∧ ∀ c ∈ commas, c = ',' := by
  let listed := Text.dropEndWhile (· == ',') line
  obtain ⟨sigil, cut⟩ := exists_append_dropSigil (Text.trimEnd listed)
  refine ⟨sigil, (listed.reverse.takeWhile Text.isBlank).reverse,
    (line.reverse.takeWhile (· == ',')).reverse, ?_, ?_, ?_⟩
  · rw [← List.append_assoc, bareText, ← cut, ← List.append_assoc, Text.trimEnd,
      Text.dropEndWhile_append_takeWhile, Text.dropEndWhile_append_takeWhile]
  · exact Text.AllBlank.reverse fun c member => List.mem_takeWhile_imp member
  · intro c member
    simpa using List.mem_takeWhile_imp (List.mem_reverse.mp member)

theorem bareText_isInfix (line : List Char) : bareText line <:+: line := by
  obtain ⟨sigil, gap, commas, whole, -⟩ := exists_append_bareText line
  exact ⟨sigil, gap ++ commas, by rw [List.append_assoc, ← whole]⟩

theorem isBlank_of_mem_getLast?_bareText {line : List Char} {c : Char}
    (last : c ∈ (bareText line).getLast?) : Text.isBlank c = false := by
  obtain ⟨sigil, cut⟩ := exists_append_dropSigil
    (Text.trimEnd (Text.dropEndWhile (· == ',') line))
  have ending : c ∈ (Text.trimEnd (Text.dropEndWhile (· == ',') line)).getLast? := by
    rw [cut, List.getLast?_append, ← bareText, Option.mem_def.mp last]
    rfl
  exact Text.isBlank_of_mem_getLast?_trimEnd ending

/-- Every rule of a sheet without comments is found in its text, unless the first line of its
selector has nothing but marks. The line that is found holds that first line, in letters of any case
and without the marks, or a hyphen-separated part of it as a class or an id. -/
theorem selectorLine?_of_mem_rules {content : String} {file : Path} {rule : StyleRule}
    (uncommented : Uncommented content.toList) (member : rule ∈ rules content file) :
    let needle := bareText (Text.trim (Text.firstLine rule.selector.toList))
    (selectorLine? content rule.selector = none ↔ needle = []) ∧
      ∀ number, selectorLine? content rule.selector = some number →
        ∃ line, (Text.lines content.toList)[number]? = some line ∧
          (HoldsInAnyCase needle line ∨ '-' ∈ needle ∧ HoldsPart needle line) := by
  intro needle
  have shape := readFrom_of_mem_rules member
  rw [stripComments_eq_self uncommented] at shape
  have searched : selectorLine? content rule.selector = lineOf? needle content.toList := by
    rw [selectorLine?, searchText_eq, shape.selector_trimmed]
  have piece : needle <:+: Text.firstLine rule.selector.toList :=
    (bareText_isInfix _).trans (Text.trim_isInfix _)
  rw [searched]
  constructor
  · constructor
    · intro unfound
      by_contra nonempty
      have unbroken : '\n' ∉ needle := fun inside =>
        Text.newline_not_mem_firstLine _ (piece.subset inside)
      have ends : needle.getLast? ≠ some '\r' := fun returned =>
        absurd (isBlank_of_mem_getLast?_bareText returned) (by decide)
      have inside : needle <:+: content.toList :=
        piece.trans ((Text.firstLine_isPrefix _).isInfix.trans shape.selector_piece)
      obtain ⟨line, lineMember, held⟩ :=
        Text.exists_mem_lines_of_infix nonempty unbroken ends inside
      obtain ⟨number, stands⟩ := List.mem_iff_getElem?.mp lineMember
      exact (lineOf?_eq_none_iff nonempty).mp unfound 2 number ⟨line, stands, .text held⟩
    · intro empty
      simp [lineOf?, empty]
  · intro number found
    by_cases empty : needle = []
    · simp [lineOf?, empty] at found
    obtain ⟨rank, ⟨line, stands, shows⟩, -⟩ := (lineOf?_eq_some_iff empty).mp found
    refine ⟨line, stands, ?_⟩
    cases shows with
    | announced ahead => exact .inl ahead.holdsInAnyCase
    | part hyphened held => exact .inr ⟨hyphened, held⟩
    | text held => exact .inl (.ofPiece held)

/-- The selector of the second rule is broken, and a part of its first line stands further up. -/
def brokenSelector : String := ".menu{top:0;}\r\n.menu-item\r\n.b\r\n{d:e;}"

theorem brokenSelector_located :
    let rule : StyleRule :=
      ⟨".menu-item\r\n.b", ⟨[("d", "e")], by decide⟩, ⟨"/w/a.css"⟩, .unresolved⟩
    let needle := "menu-item".toList
    Uncommented brokenSelector.toList ∧ rule ∈ rules brokenSelector ⟨"/w/a.css"⟩ ∧
      ∃ line, (Text.lines brokenSelector.toList)[0]? = some line ∧
        (HoldsInAnyCase needle line ∨ '-' ∈ needle ∧ HoldsPart needle line) := by
  intro rule needle
  have uncommented : Uncommented brokenSelector.toList := by decide +kernel
  have member : rule ∈ rules brokenSelector ⟨"/w/a.css"⟩ := by decide +kernel
  have found : selectorLine? brokenSelector rule.selector = some 0 := by decide +kernel
  have searched : bareText (Text.trim (Text.firstLine rule.selector.toList)) = needle := by
    decide +kernel
  have located := (selectorLine?_of_mem_rules uncommented member).2 0 found
  rw [searched] at located
  exact ⟨uncommented, member, located⟩

/-! ## The line that a rule stands on -/

section Own

variable {content : List Char} {number : Nat}

/-- A line is taken rather than another one: it shows what is looked for in a better way than any in
which the other one does, or in one as good and in front of it. -/
def Outranks (needle content : List Char) (other number : Nat) : Prop :=
  ∃ rank, ShownAt needle content rank other ∧
    ∀ own, ShownAt needle content own number → rank < own ∨ rank = own ∧ other < number

theorem lineOf?_eq_some_iff_of_shownAt (nonempty : needle ≠ []) {rank : Nat}
    (shown : ShownAt needle content rank number) :
    lineOf? needle content = some number ↔
      ∀ other, other ≠ number → ¬ Outranks needle content other number := by
  constructor
  · rintro found other - ⟨otherRank, there, better⟩
    obtain ⟨best, here, least⟩ := (lineOf?_eq_some_iff nonempty).mp found
    have := least otherRank other there
    have := better best here
    omega
  · intro unranked
    cases found : lineOf? needle content with
    | none => exact absurd shown ((lineOf?_eq_none_iff nonempty).mp found rank number)
    | some other =>
        obtain ⟨best, there, least⟩ := (lineOf?_eq_some_iff nonempty).mp found
        by_contra elsewhere
        have different : other ≠ number := fun same => elsewhere (congrArg some same)
        refine unranked other different ⟨best, there, fun own here => ?_⟩
        have := least own number here
        omega

/-- A line that announces what is looked for is found unless an earlier line does. -/
theorem lineOf?_eq_some_iff_of_announced (nonempty : needle ≠ [])
    (ahead : ShownAt needle content 0 number) :
    lineOf? needle content = some number ↔
      ∀ other, other < number → ¬ ShownAt needle content 0 other := by
  rw [lineOf?_eq_some_iff nonempty]
  constructor
  · rintro ⟨rank, -, least⟩ other earlier there
    have := least 0 number ahead
    have := least 0 other there
    omega
  · intro first
    refine ⟨0, ahead, fun otherRank other there => ?_⟩
    cases otherRank with
    | zero => exact .inr ⟨rfl, Nat.le_of_not_lt fun earlier => first other earlier there⟩
    | succ otherRank => exact .inl otherRank.succ_pos

/-- A selector announces itself in front of its opening brace, or with the comma at its end. -/
theorem announces_of_opened {selector gap : List Char} (trimmed : Text.trim selector = selector)
    (nonempty : bareText selector ≠ []) (gapBlank : Text.AllBlank gap)
    (opened : selector ++ (gap ++ ['{']) <:+: line) :
    Announces (bareText selector) (Text.trim line) := by
  obtain ⟨sigil, inner, commas, whole, innerBlank, commasOnly⟩ := exists_append_bareText selector
  have selectorSome : selector ≠ [] := by
    rw [whole]
    simp [nonempty]
  have piece : selector ++ (gap ++ ['{']) <:+: Text.trim line := by
    apply Text.infix_trim _ _ opened
    · intro c first
      rw [List.head?_append_of_ne_nil _ selectorSome, ← trimmed] at first
      exact Text.isBlank_of_mem_head?_trim first
    · intro c last
      simp only [List.getLast?_append, List.getLast?_singleton, Option.some_or,
        Option.mem_some_iff] at last
      subst last
      decide
  cases commas with
  | nil =>
      refine ⟨bareText selector, inner ++ gap, '{', by simp, .refl _, ?_, .trans ?_ piece⟩
      · exact List.forall_mem_append.mpr ⟨innerBlank, gapBlank⟩
      · refine ⟨sigil, [], ?_⟩
        conv_rhs => rw [whole]
        simp
  | cons comma commas =>
      obtain rfl : comma = ',' := commasOnly comma List.mem_cons_self
      refine ⟨bareText selector, inner, ',', by simp, .refl _, innerBlank, .trans ?_ piece⟩
      refine ⟨sigil, commas ++ (gap ++ ['{']), ?_⟩
      conv_rhs => rw [whole]
      simp

/-- A text stands on one line only, the one with a number. -/
def StandsOnlyOn (part content : List Char) (number : Nat) : Prop :=
  number < (Text.lines content).length ∧
    ∀ row ∈ (Text.lines content).zipIdx, part <:+: row.1 ↔ row.2 = number

instance (part content : List Char) (number : Nat) :
    Decidable (StandsOnlyOn part content number) :=
  inferInstanceAs (Decidable (_ ∧ _))

theorem StandsOnlyOn.infix_iff {part : List Char} (only : StandsOnlyOn part content number)
    {other : Nat} (stands : (Text.lines content)[other]? = some line) :
    part <:+: line ↔ other = number :=
  only.2 (line, other) (List.mk_mem_zipIdx_iff_getElem?.mpr stands)

/-- If no line break stands between a selector and its opening brace, the line of the selector
announces it. -/
theorem shownAt_of_mem_blocks {block : Block} (member : block ∈ blocks content)
    (nonempty : bareText (Text.trim block.selector) ≠ [])
    (unbroken : '\n' ∉ Text.trimStart block.selector)
    (only : StandsOnlyOn (Text.trim block.selector) content number) :
    ShownAt (bareText (Text.trim block.selector)) content 0 number := by
  let gap := ((Text.trimStart block.selector).reverse.takeWhile Text.isBlank).reverse
  have gapBlank : Text.AllBlank gap := Text.AllBlank.reverse fun c => List.mem_takeWhile_imp
  have whole : Text.trim block.selector ++ gap = Text.trimStart block.selector :=
    Text.dropEndWhile_append_takeWhile _ _
  have opened : Text.trim block.selector ++ (gap ++ ['{']) <:+: content := by
    rw [← List.append_assoc, whole]
    refine .trans ⟨block.selector.takeWhile Text.isBlank, block.body ++ ['}'], ?_⟩
      (braced_of_mem_blocks member)
    simp only [Text.trimStart, List.append_assoc, List.cons_append, List.nil_append]
    rw [← List.append_assoc, List.takeWhile_append_dropWhile]
  have pieceUnbroken : '\n' ∉ Text.trim block.selector ++ (gap ++ ['{']) := by
    rw [← List.append_assoc, whole, List.mem_append, not_or]
    exact ⟨unbroken, by decide⟩
  obtain ⟨line, lineMember, held⟩ :=
    Text.exists_mem_lines_of_infix (by simp) pieceUnbroken (by simp) opened
  obtain ⟨other, stands⟩ := List.mem_iff_getElem?.mp lineMember
  obtain rfl : other = number :=
    (only.infix_iff stands).mp ((List.prefix_append _ _).isInfix.trans held)
  exact ⟨line, stands,
    .announced (announces_of_opened (Text.trim_trim block.selector) nonempty gapBlank held)⟩

end Own

/-- A rule whose selector stands on one line only is found there unless the selector has nothing but
marks or another line is taken: a line that announces the selector, or else shows a part of it, or
else holds it, and that is a better one or an earlier one. If the opening brace stands on the line
of the selector, only an earlier line that announces it is taken instead. -/
theorem selectorLine?_eq_own_line_iff {content : String} {file : Path} {rule : StyleRule}
    {number : Nat} (uncommented : Uncommented content.toList) (member : rule ∈ rules content file)
    (oneLine : '\n' ∉ rule.selector.toList)
    (only : StandsOnlyOn rule.selector.toList content.toList number) :
    let needle := bareText rule.selector.toList
    (selectorLine? content rule.selector = some number ↔
      needle ≠ [] ∧ ∀ other, other ≠ number → ¬ Outranks needle content.toList other number) ∧
    ∀ block ∈ blocks (stripComments content.toList),
      StyleRule.ofBlock? file block = some rule → '\n' ∉ Text.trimStart block.selector →
      (selectorLine? content rule.selector = some number ↔
        needle ≠ [] ∧ ∀ other, other < number → ¬ ShownAt needle content.toList 0 other) := by
  intro needle
  have shape := readFrom_of_mem_rules member
  have searched : selectorLine? content rule.selector = lineOf? needle content.toList := by
    rw [selectorLine?, searchText_eq, shape.selector_trimmed,
      Text.firstLine_of_unbroken oneLine, shape.selector_trimmed]
  rw [searched, stripComments_eq_self uncommented]
  by_cases empty : needle = []
  · simp [lineOf?, empty]
  constructor
  · have stands := List.getElem?_eq_getElem only.1
    have held : needle <:+: _ := (bareText_isInfix _).trans ((only.infix_iff stands).mpr rfl)
    rw [lineOf?_eq_some_iff_of_shownAt empty ⟨_, stands, .text held⟩, and_iff_right empty]
  · intro block blockMember made unbroken
    obtain ⟨-, -, same⟩ := StyleRule.ofBlock?_eq_some_iff.mp made
    have selector : rule.selector.toList = Text.trim block.selector := by
      rw [same, String.toList_ofList]
    have ahead : ShownAt needle content.toList 0 number := by
      simp only [needle, selector] at empty only ⊢
      exact shownAt_of_mem_blocks blockMember empty unbroken only
    rw [lineOf?_eq_some_iff_of_announced empty ahead, and_iff_right empty]

/-- The selector of the second rule stands alone, in front of its brace and of its twin in capital
letters. -/
def capitalTwin : String := "h1{b:c;}\n.a {d:e;}\n.A{f:g;}"

theorem capitalTwin_passed :
    let rule : StyleRule := ⟨".a", ⟨[("d", "e")], by decide⟩, ⟨"/w/a.css"⟩, .unresolved⟩
    let needle := "a".toList
    (Uncommented capitalTwin.toList ∧ rule ∈ rules capitalTwin ⟨"/w/a.css"⟩ ∧
        '\n' ∉ rule.selector.toList ∧ StandsOnlyOn rule.selector.toList capitalTwin.toList 1) ∧
      selectorLine? capitalTwin rule.selector = some 1 ∧
      (∀ other, other ≠ 1 → ¬ Outranks needle capitalTwin.toList other 1) ∧
      ∀ other, other < 1 → ¬ ShownAt needle capitalTwin.toList 0 other := by
  intro rule needle
  have uncommented : Uncommented capitalTwin.toList := by decide +kernel
  have member : rule ∈ rules capitalTwin ⟨"/w/a.css"⟩ := by decide +kernel
  have oneLine : '\n' ∉ rule.selector.toList := by decide
  have only : StandsOnlyOn rule.selector.toList capitalTwin.toList 1 := by decide +kernel
  have found : selectorLine? capitalTwin rule.selector = some 1 := by decide +kernel
  have searched : bareText rule.selector.toList = needle := by decide +kernel
  obtain ⟨unranked, unannounced⟩ := selectorLine?_eq_own_line_iff uncommented member oneLine only
  rw [searched] at unranked unannounced
  have block : (⟨"\n.a ".toList, "d:e;".toList⟩ : Block) ∈
      blocks (stripComments capitalTwin.toList) := by decide +kernel
  exact ⟨⟨uncommented, member, oneLine, only⟩, found, (unranked.mp found).2,
    ((unannounced _ block (by decide +kernel) (by decide +kernel)).mp found).2⟩

/-- A longer name that ends in the name looked for is taken for it. -/
theorem longerName_taken :
    let content := ".xa{b:c;}\n.a{d:e;}"
    let rule : StyleRule := ⟨".a", ⟨[("d", "e")], by decide⟩, ⟨"/w/a.css"⟩, .unresolved⟩
    Uncommented content.toList ∧ rule ∈ rules content ⟨"/w/a.css"⟩ ∧
      '\n' ∉ rule.selector.toList ∧ StandsOnlyOn rule.selector.toList content.toList 1 ∧
      selectorLine? content rule.selector = some 0 := by
  decide +kernel

end Sheet

end StyleLookup
