import StyleLookup.Proofs.Text.Stretch
import StyleLookup.Sheet.Block
import StyleLookup.Sheet.Comment
import StyleLookup.Sheet.Declaration

/-!
What the scanners of a style sheet do at the start of a text of known shape: a text without comments
stays, a block or a declaration is cut off whole, and white space around declarations is ignored.
-/

set_option autoImplicit false

namespace StyleLookup.Sheet

/-! ## Comments -/

def Uncommented (text : List Char) : Prop := ¬ ['/', '*'] <:+: text

instance (text : List Char) : Decidable (Uncommented text) :=
  inferInstanceAs (Decidable (¬ _))

theorem Uncommented.piece {text part : List Char} (uncommented : Uncommented text)
    (inside : part <:+: text) : Uncommented part := fun opening =>
  uncommented (opening.trans inside)

theorem uncommented_cons_iff {c : Char} {rest : List Char} :
    Uncommented (c :: rest) ↔ ¬ (c = '/' ∧ rest.head? = some '*') ∧ Uncommented rest := by
  rw [Uncommented, List.infix_cons_iff, not_or, Uncommented]
  apply and_congr_left'
  cases rest with
  | nil => simp
  | cons d rest => simp [eq_comm]

/-- Two texts put together open no comment unless one of them does or their seam does. -/
theorem Uncommented.append {left right : List Char} (leftUncommented : Uncommented left)
    (rightUncommented : Uncommented right)
    (seam : left.getLast? ≠ some '/' ∨ right.head? ≠ some '*') : Uncommented (left ++ right) := by
  induction left with
  | nil => exact rightUncommented
  | cons c rest ih =>
      obtain ⟨apart, restUncommented⟩ := uncommented_cons_iff.mp leftUncommented
      rw [List.cons_append, uncommented_cons_iff]
      cases rest with
      | nil =>
          refine ⟨?_, rightUncommented⟩
          rintro ⟨rfl, star⟩
          exact seam.elim (fun other => other rfl) fun other => other star
      | cons d rest =>
          refine ⟨apart, ih restUncommented ?_⟩
          rwa [List.getLast?_cons_cons] at seam

theorem uncommented_cons_of_ne {mark : Char} (noSlash : mark ≠ '/') (rest : List Char) :
    Uncommented (mark :: rest) ↔ Uncommented rest := by
  simp [uncommented_cons_iff, noSlash]

theorem uncommented_append_cons_of_ne {mark : Char} (noStar : mark ≠ '*') (left rest : List Char) :
    Uncommented (left ++ mark :: rest) ↔ Uncommented left ∧ Uncommented (mark :: rest) := by
  constructor
  · intro whole
    exact ⟨whole.piece (List.prefix_append left _).isInfix,
      whole.piece (List.suffix_append left _).isInfix⟩
  · rintro ⟨leftUncommented, restUncommented⟩
    exact leftUncommented.append restUncommented (.inr (by simpa using noStar))

theorem stripComments_eq_self {text : List Char} (uncommented : Uncommented text) :
    stripComments text = text := by
  fun_induction stripComments text with
  | case1 => rfl
  | case2 rest after closed ih => exact absurd ⟨[], rest, rfl⟩ uncommented
  | case3 rest closed => rfl
  | case4 c rest apart ih => rw [ih (uncommented_cons_iff.mp uncommented).2]

/-! ## Blocks -/

theorem blocks_of_not_mem {text : List Char} (absent : '{' ∉ text) : blocks text = [] := by
  rw [blocks]
  split
  · rfl
  · rename_i c inner opened
    rw [Text.dropWhile_ne_eq_nil absent] at opened
    cases opened

/-- Between two braces stands a block, unless one of its parts is empty: then its opening brace is
passed over, and the text behind it is read anew. -/
theorem blocks_braces {selector body : List Char} (selectorFree : '{' ∉ selector)
    (bodyFree : '}' ∉ body) (rest : List Char) :
    blocks (selector ++ '{' :: (body ++ '}' :: rest)) =
      if selector.isEmpty || body.isEmpty then blocks (body ++ '}' :: rest)
      else ⟨selector, body⟩ :: blocks rest := by
  have opening := Text.dropWhile_ne_mark selectorFree (body ++ '}' :: rest)
  have closing := Text.dropWhile_ne_mark bodyFree rest
  rw [blocks]
  split
  · rename_i unopened
    rw [opening] at unopened
    cases unopened
  · rename_i c inner opened
    rw [opening] at opened
    cases opened
    split
    · rename_i unclosed
      rw [closing] at unclosed
      cases unclosed
    · rename_i d after closed
      rw [closing] at closed
      cases closed
      rw [Text.takeWhile_ne_mark selectorFree, Text.takeWhile_ne_mark bodyFree]

theorem blocks_block_append {selector body : List Char} (selectorSome : selector ≠ [])
    (selectorFree : '{' ∉ selector) (bodySome : body ≠ []) (bodyFree : '}' ∉ body)
    (rest : List Char) :
    blocks (selector ++ '{' :: (body ++ '}' :: rest)) = ⟨selector, body⟩ :: blocks rest := by
  simp [blocks_braces selectorFree bodyFree, selectorSome, bodySome]

/-- An opening brace and a closing one somewhere behind it. -/
def Braced (text : List Char) : Prop :=
  ∃ front inner after, text = front ++ '{' :: (inner ++ '}' :: after)

theorem not_braced_of_unclosed {selector inner : List Char} (free : '{' ∉ selector)
    (unclosed : '}' ∉ inner) : ¬ Braced (selector ++ '{' :: inner) := by
  intro braced
  obtain ⟨front, body, after, same⟩ := braced
  -- The first opening brace stands no later than the other one, so the closing one is behind it.
  cases List.append_eq_append_iff.mp same with
  | inl longer =>
      obtain ⟨middle, -, behind⟩ := longer
      cases List.cons_eq_append_iff.mp behind with
      | inl here =>
          cases here.2
          exact unclosed (by simp)
      | inr further =>
          obtain ⟨_, -, rfl⟩ := further
          exact unclosed (by simp)
  | inr shorter =>
      obtain ⟨middle, rfl, behind⟩ := shorter
      cases List.cons_eq_append_iff.mp behind with
      | inl here =>
          cases here.2
          exact unclosed (by simp)
      | inr earlier =>
          obtain ⟨_, rfl, -⟩ := earlier
          exact free (by simp)

theorem blocks_of_not_braced {text : List Char} (unbraced : ¬ Braced text) : blocks text = [] := by
  fun_induction blocks text with
  | case1 => rfl
  | case2 => rfl
  | case3 text c inner opened d after closed =>
      have front := Text.eq_append_cons_of_dropWhile opened
      rw [Text.eq_append_cons_of_dropWhile closed] at front
      exact absurd ⟨_, _, _, front⟩ unbraced
  | case4 text c inner opened d after closed =>
      have front := Text.eq_append_cons_of_dropWhile opened
      rw [Text.eq_append_cons_of_dropWhile closed] at front
      exact absurd ⟨_, _, _, front⟩ unbraced

/-- The cases in which a text is scanned for blocks. Without two braces in a row nothing is found.
If the text in front of the first brace or the body behind it is empty, the scan goes on at the
body, and else behind the block. -/
@[elab_as_elim]
theorem blocks_induction {motive : List Char → Prop}
    (unbraced : ∀ text, ¬ Braced text → motive text)
    (passed : ∀ selector body after, '{' ∉ selector → '}' ∉ body → selector = [] ∨ body = [] →
      motive (body ++ '}' :: after) → motive (selector ++ '{' :: (body ++ '}' :: after)))
    (read : ∀ selector body after, selector ≠ [] → '{' ∉ selector → body ≠ [] → '}' ∉ body →
      motive after → motive (selector ++ '{' :: (body ++ '}' :: after)))
    (text : List Char) : motive text := by
  fun_induction blocks text with
  | case1 text unopened =>
      apply unbraced
      intro braced
      obtain ⟨front, inner, after, rfl⟩ := braced
      simpa using List.dropWhile_eq_nil_iff.mp unopened '{' (by simp)
  | case2 text c inner opened unclosed =>
      apply unbraced
      rw [Text.eq_append_cons_of_dropWhile opened]
      apply not_braced_of_unclosed (Text.not_mem_takeWhile_ne '{' text)
      intro closing
      simpa using List.dropWhile_eq_nil_iff.mp unclosed '}' closing
  | case3 text c inner opened d after closed selector body empty ih =>
      rw [Text.eq_append_cons_of_dropWhile closed] at ih
      rw [Text.eq_append_cons_of_dropWhile opened, Text.eq_append_cons_of_dropWhile closed]
      rw [Bool.or_eq_true, List.isEmpty_iff, List.isEmpty_iff] at empty
      exact passed _ _ _ (Text.not_mem_takeWhile_ne '{' text) (Text.not_mem_takeWhile_ne '}' inner)
        empty ih
  | case4 text c inner opened d after closed selector body filled ih =>
      rw [Text.eq_append_cons_of_dropWhile opened, Text.eq_append_cons_of_dropWhile closed]
      simp only [Bool.or_eq_true, List.isEmpty_iff, not_or] at filled
      exact read _ _ _ filled.1 (Text.not_mem_takeWhile_ne '{' text) filled.2
        (Text.not_mem_takeWhile_ne '}' inner) ih

/-! ## Declarations -/

theorem isPropertyChar_of_isBlank {c : Char} (blank : Text.isBlank c = true) :
    isPropertyChar c = false := by
  rw [← Bool.not_eq_true]
  intro held
  have point : (65 ≤ c.toNat ∧ c.toNat ≤ 90) ∨ (97 ≤ c.toNat ∧ c.toNat ≤ 122) ∨ c.toNat = 45 := by
    have ranges : (decide ('A'.val ≤ c.val ∧ c.val ≤ 'Z'.val) ||
        (decide ('a'.val ≤ c.val) && decide (c.val ≤ 'z'.val)) || c == '-') = true := held
    simp only [Bool.or_eq_true, Bool.and_eq_true, decide_eq_true_eq, beq_iff_eq,
      UInt32.le_iff_toNat_le] at ranges
    rcases ranges with (upper | lower) | rfl
    · exact .inl upper
    · exact .inr (.inl lower)
    · exact .inr (.inr rfl)
  simp only [Text.isBlank, Bool.or_eq_true, Bool.and_eq_true, decide_eq_true_eq, beq_iff_eq]
    at blank
  omega

theorem unnamed_of_allBlank {text : List Char} (blank : Text.AllBlank text) :
    ∀ c ∈ text, isPropertyChar c = false :=
  fun c member => isPropertyChar_of_isBlank (blank c member)

/-- White space or a colon ends a run of name characters. -/
theorem stop_of_gap {gap : List Char} (blank : Text.AllBlank gap) (rest : List Char) :
    ∀ c ∈ (gap ++ ':' :: rest).head?, isPropertyChar c = false := by
  intro c start
  cases gap with
  | nil =>
      cases start
      decide
  | cons d gap =>
      cases start
      exact isPropertyChar_of_isBlank (blank c List.mem_cons_self)

/-- A value follows exactly a colon, with white space in front of it, and it ends at a semicolon. -/
theorem valueAfter?_eq_some_iff {text value after : List Char} :
    valueAfter? text = some (value, after) ↔
      value ≠ [] ∧ ';' ∉ value ∧
        ∃ gap, Text.AllBlank gap ∧ text = gap ++ ':' :: (value ++ ';' :: after) := by
  constructor
  · intro found
    unfold valueAfter? at found
    split at found
    · rename_i rest inked
      by_cases ends : ';' ∈ rest
      · obtain ⟨stretch, more, rfl, free⟩ := List.eq_append_cons_of_mem ends
        simp only [Text.dropWhile_ne_mark free, Text.takeWhile_ne_mark free] at found
        split at found
        · cases found
        · rename_i nonempty
          cases found
          refine ⟨fun empty => nonempty (List.isEmpty_iff.mpr empty), free,
            text.takeWhile Text.isBlank, fun c => List.mem_takeWhile_imp, ?_⟩
          rw [← inked, List.takeWhile_append_dropWhile]
      · rw [Text.dropWhile_ne_eq_nil ends] at found
        cases found
    · cases found
  · rintro ⟨nonempty, free, gap, gapBlank, rfl⟩
    have colon : (gap ++ ':' :: (value ++ ';' :: after)).dropWhile Text.isBlank =
        ':' :: (value ++ ';' :: after) := Text.dropWhile_stretch gapBlank (by simp; decide)
    simp [valueAfter?, colon, Text.dropWhile_ne_mark free, Text.takeWhile_ne_mark free, nonempty]

/-- White space at the end of a text gives no value and takes none away. -/
theorem valueAfter?_append_blank {tail : List Char} (blank : Text.AllBlank tail)
    (text : List Char) :
    valueAfter? (text ++ tail) =
      (valueAfter? text).map fun (value, after) => (value, after ++ tail) := by
  have tailFree : ';' ∉ tail := blank.not_mem ';' (by decide)
  simp only [valueAfter?, List.dropWhile_append]
  cases inked : text.dropWhile Text.isBlank with
  | nil => simp [List.dropWhile_eq_nil_iff.mpr blank]
  | cons c rest =>
      by_cases colon : c = ':'
      · subst colon
        by_cases ends : ';' ∈ rest
        · obtain ⟨value, after, rfl, valueFree⟩ := List.eq_append_cons_of_mem ends
          have longer : value ++ ';' :: after ++ tail = value ++ ';' :: (after ++ tail) := by simp
          simp only [List.isEmpty_cons, Bool.false_eq_true, if_false, List.cons_append, longer,
            Text.dropWhile_ne_mark valueFree, Text.takeWhile_ne_mark valueFree]
          split <;> rfl
        · have free : ';' ∉ rest ++ tail := by simp [ends, tailFree]
          simp [Text.dropWhile_ne_eq_nil ends, Text.dropWhile_ne_eq_nil free]
      · simp [colon]

theorem declarationPairs_of_unnamed {text : List Char}
    (unnamed : ∀ c ∈ text, isPropertyChar c = false) : declarationPairs text = [] := by
  rw [declarationPairs]
  split
  · rfl
  · rename_i c rest named
    have nothing : text.dropWhile (! isPropertyChar ·) = [] :=
      List.dropWhile_eq_nil_iff.mpr fun c member => by simp [unnamed c member]
    rw [nothing] at named
    cases named

/-- The first run of name characters is a declaration, if a value follows it, or else is passed
over. -/
theorem declarationPairs_of_named {text rest : List Char} {c : Char}
    (named : text.dropWhile (! isPropertyChar ·) = c :: rest) :
    declarationPairs text =
      match valueAfter? (rest.dropWhile isPropertyChar) with
      | some (value, after) =>
          (c :: rest.takeWhile isPropertyChar, Text.trim value) :: declarationPairs after
      | none => declarationPairs (rest.dropWhile isPropertyChar) := by
  rw [declarationPairs]
  split
  · rename_i nothing
    rw [named] at nothing
    cases nothing
  · rename_i d more found
    rw [named] at found
    cases found
    split <;> rename_i valued <;> rw [valued]

/-- A text is cut at its first full run of name characters. -/
theorem run_of_dropWhile {text rest : List Char} {c : Char}
    (named : text.dropWhile (! isPropertyChar ·) = c :: rest) :
    (∀ d ∈ text.takeWhile (! isPropertyChar ·), isPropertyChar d = false) ∧
      (∀ d ∈ c :: rest.takeWhile isPropertyChar, isPropertyChar d = true) ∧
      (∀ d ∈ (rest.dropWhile isPropertyChar).head?, isPropertyChar d = false) ∧
      text = text.takeWhile (! isPropertyChar ·) ++
        (c :: rest.takeWhile isPropertyChar ++ rest.dropWhile isPropertyChar) := by
  refine ⟨fun d member => ?_, fun d member => ?_, fun d => Text.outside_of_mem_head?_dropWhile, ?_⟩
  · simpa using List.mem_takeWhile_imp member
  · cases member with
    | head =>
        have start : c ∈ (text.dropWhile (! isPropertyChar ·)).head? := by
          rw [named]
          rfl
        simpa using Text.outside_of_mem_head?_dropWhile start
    | tail _ later => exact List.mem_takeWhile_imp later
  · rw [List.cons_append, List.takeWhile_append_dropWhile, ← named,
      List.takeWhile_append_dropWhile]

theorem declarationPairs_append_left {lead : List Char}
    (unnamed : ∀ c ∈ lead, isPropertyChar c = false) (text : List Char) :
    declarationPairs (lead ++ text) = declarationPairs text := by
  have skipped : (lead ++ text).dropWhile (! isPropertyChar ·) =
      text.dropWhile (! isPropertyChar ·) :=
    List.dropWhile_append_of_pos fun c member => by simp [unnamed c member]
  cases named : text.dropWhile (! isPropertyChar ·) with
  | nil =>
      have textUnnamed : ∀ c ∈ text, isPropertyChar c = false := by
        simpa using List.dropWhile_eq_nil_iff.mp named
      rw [declarationPairs_of_unnamed textUnnamed, declarationPairs_of_unnamed]
      intro c member
      exact (List.mem_append.mp member).elim (unnamed c) (textUnnamed c)
  | cons c rest =>
      rw [declarationPairs_of_named named, declarationPairs_of_named (skipped.trans named)]

/-- What the scan does at the first full run of name characters. -/
theorem declarationPairs_run {lead name rest : List Char}
    (unnamed : ∀ c ∈ lead, isPropertyChar c = false) (nameSome : name ≠ [])
    (nameChars : ∀ c ∈ name, isPropertyChar c = true)
    (stop : ∀ c ∈ rest.head?, isPropertyChar c = false) :
    declarationPairs (lead ++ (name ++ rest)) =
      match valueAfter? rest with
      | some (value, after) => (name, Text.trim value) :: declarationPairs after
      | none => declarationPairs rest := by
  rw [declarationPairs_append_left unnamed]
  cases name with
  | nil => exact absurd rfl nameSome
  | cons c more =>
      have first : isPropertyChar c = true := nameChars c List.mem_cons_self
      have others : ∀ d ∈ more, isPropertyChar d = true := fun d member =>
        nameChars d (List.mem_cons_of_mem _ member)
      have named : (c :: (more ++ rest)).dropWhile (! isPropertyChar ·) = c :: (more ++ rest) :=
        List.dropWhile_cons_of_neg (by simp [first])
      rw [List.cons_append, declarationPairs_of_named named, Text.dropWhile_stretch others stop,
        Text.takeWhile_stretch others stop]

/-- The cases in which a text is scanned for declarations. The first full run of name characters is
passed over or read, and the scan goes on behind it or behind its value. -/
@[elab_as_elim]
theorem declarationPairs_induction {motive : List Char → Prop}
    (unnamed : ∀ text, (∀ c ∈ text, isPropertyChar c = false) → motive text)
    (passed : ∀ lead name rest, (∀ c ∈ lead, isPropertyChar c = false) → name ≠ [] →
      (∀ c ∈ name, isPropertyChar c = true) → (∀ c ∈ rest.head?, isPropertyChar c = false) →
      valueAfter? rest = none → motive rest → motive (lead ++ (name ++ rest)))
    (read : ∀ lead name rest value after, (∀ c ∈ lead, isPropertyChar c = false) → name ≠ [] →
      (∀ c ∈ name, isPropertyChar c = true) → (∀ c ∈ rest.head?, isPropertyChar c = false) →
      valueAfter? rest = some (value, after) → motive after → motive (lead ++ (name ++ rest)))
    (text : List Char) : motive text := by
  fun_induction declarationPairs text with
  | case1 text nameless =>
      apply unnamed
      simpa using List.dropWhile_eq_nil_iff.mp nameless
  | case2 text c rest named value after valued ih =>
      obtain ⟨unnamedLead, chars, stop, whole⟩ := run_of_dropWhile named
      rw [whole]
      exact read _ _ _ value after unnamedLead (List.cons_ne_nil c _) chars stop valued ih
  | case3 text c rest named valueless ih =>
      obtain ⟨unnamedLead, chars, stop, whole⟩ := run_of_dropWhile named
      rw [whole]
      exact passed _ _ _ unnamedLead (List.cons_ne_nil c _) chars stop valueless ih

/-- A declaration that stands at the start of a text, behind anything that is no name, is read
whole. -/
theorem declarationPairs_declaration_append {lead name gap value : List Char}
    (unnamed : ∀ c ∈ lead, isPropertyChar c = false) (nameSome : name ≠ [])
    (nameChars : ∀ c ∈ name, isPropertyChar c = true) (gapBlank : Text.AllBlank gap)
    (valueSome : value ≠ []) (valueFree : ';' ∉ value) (rest : List Char) :
    declarationPairs (lead ++ (name ++ (gap ++ ':' :: (value ++ ';' :: rest)))) =
      (name, Text.trim value) :: declarationPairs rest := by
  rw [declarationPairs_run unnamed nameSome nameChars (stop_of_gap gapBlank (value ++ ';' :: rest)),
    valueAfter?_eq_some_iff.mpr ⟨valueSome, valueFree, gap, gapBlank, rfl⟩]

/-- Texts that are each read as one declaration, whatever follows, are read so in a row. -/
theorem declarationPairs_flatMap_append {α : Type} {items : List α} {text : α → List Char}
    {pair : α → List Char × List Char}
    (each : ∀ item ∈ items, ∀ rest,
      declarationPairs (text item ++ rest) = pair item :: declarationPairs rest)
    (ending : List Char) :
    declarationPairs (items.flatMap text ++ ending) =
      items.map pair ++ declarationPairs ending := by
  induction items with
  | nil => rfl
  | cons item rest ih =>
      rw [List.flatMap_cons, List.append_assoc, each item List.mem_cons_self,
        ih fun other member => each other (List.mem_cons_of_mem item member), List.map_cons,
        List.cons_append]

theorem declarationPairs_append_right {tail : List Char} (blank : Text.AllBlank tail)
    (text : List Char) : declarationPairs (text ++ tail) = declarationPairs text := by
  have tailUnnamed := unnamed_of_allBlank blank
  -- White space is part of no name, so each run ends where it did and leaves what it left.
  fun_induction declarationPairs text with
  | case1 text unnamed =>
      have textUnnamed : ∀ c ∈ text, isPropertyChar c = false := by
        simpa using List.dropWhile_eq_nil_iff.mp unnamed
      apply declarationPairs_of_unnamed
      intro c member
      exact (List.mem_append.mp member).elim (textUnnamed c) (tailUnnamed c)
  | case2 text c rest named value after valued ih =>
      have longer : (text ++ tail).dropWhile (! isPropertyChar ·) = c :: (rest ++ tail) := by
        rw [List.dropWhile_append, named]
        rfl
      rw [declarationPairs_of_named longer, Text.dropWhile_append_outside tailUnnamed,
        Text.takeWhile_append_outside tailUnnamed, valueAfter?_append_blank blank, valued,
        Option.map_some]
      simp only [ih]
  | case3 text c rest named valueless ih =>
      have longer : (text ++ tail).dropWhile (! isPropertyChar ·) = c :: (rest ++ tail) := by
        rw [List.dropWhile_append, named]
        rfl
      rw [declarationPairs_of_named longer, Text.dropWhile_append_outside tailUnnamed,
        valueAfter?_append_blank blank, valueless, Option.map_none]
      exact ih

theorem declarationPairs_trim (text : List Char) :
    declarationPairs (Text.trim text) = declarationPairs text := by
  obtain ⟨lead, tail, whole, leadBlank, tailBlank⟩ := Text.exists_trim_append text
  have outer : declarationPairs (lead ++ Text.trim text ++ tail) =
      declarationPairs (Text.trim text) := by
    rw [declarationPairs_append_right tailBlank,
      declarationPairs_append_left (unnamed_of_allBlank leadBlank)]
  rw [← outer, ← whole]

end StyleLookup.Sheet
