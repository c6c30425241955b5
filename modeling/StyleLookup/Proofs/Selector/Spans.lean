import StyleLookup.Proofs.Text.Lines
import StyleLookup.Proofs.Text.Lowercase
import StyleLookup.Selector.Token

/-!
Texts cut into spans: marks that are no part of a name, and then the run of name characters up to
the next mark. Where a marked name starts in such a text is read off its spans.
-/

set_option autoImplicit false

namespace StyleLookup

namespace Token

variable {c : Char}

theorem isNameChar_cases (inside : isNameChar c = true) :
    c.isAlphanum = true ∨ c = '-' ∨ c = '_' := by
  simpa [isNameChar, or_assoc] using inside

theorem toNat_of_isAlphanum (inside : c.isAlphanum = true) : 0x30 ≤ c.toNat ∧ c.toNat < 0x80 := by
  have ranges : (decide ('A'.val ≤ c.val ∧ c.val ≤ 'Z'.val) ||
      (decide ('a'.val ≤ c.val) && decide (c.val ≤ 'z'.val)) ||
      (decide ('0'.val ≤ c.val) && decide (c.val ≤ '9'.val))) = true := inside
  simp only [Bool.or_eq_true, Bool.and_eq_true, decide_eq_true_eq, UInt32.le_iff_toNat_le] at ranges
  change ((0x41 ≤ c.toNat ∧ c.toNat ≤ 0x5A) ∨ (0x61 ≤ c.toNat ∧ c.toNat ≤ 0x7A)) ∨
    (0x30 ≤ c.toNat ∧ c.toNat ≤ 0x39) at ranges
  omega

theorem toNat_of_isNameChar (inside : isNameChar c = true) : 0x2D ≤ c.toNat ∧ c.toNat < 0x80 := by
  rcases isNameChar_cases inside with alphanum | rfl | rfl
  · have := toNat_of_isAlphanum alphanum
    omega
  · decide
  · decide

theorem isNameChar_of_sigil (sigil : c = '.' ∨ c = '#') : isNameChar c = false := by
  rcases sigil with rfl | rfl <;> decide

theorem isBlank_of_isNameChar (inside : isNameChar c = true) : Text.isBlank c = false := by
  have ascii := (toNat_of_isNameChar inside).2
  revert inside
  exact Text.ascii_forall c ascii (by decide +kernel)

theorem isNameChar_asciiLower (inside : isNameChar c = true) :
    isNameChar (Text.asciiLower c) = true := by
  have ascii := (toNat_of_isNameChar inside).2
  revert inside
  exact Text.ascii_forall c ascii (by decide +kernel)

theorem asciiLower_of_not_isNameChar (outside : isNameChar c = false) :
    Text.asciiLower c = c := by
  rcases Nat.lt_or_ge c.toNat 0x80 with ascii | beyond
  · revert outside
    exact Text.ascii_forall c ascii (by decide +kernel)
  · exact Text.asciiLower_of_not_ascii beyond

end Token

namespace Selector

/-- Marks, and the run of name characters that follows them. -/
structure Span where
  marks : List Char
  run : List Char

namespace Span

def text (span : Span) : List Char := span.marks ++ span.run

structure Proper (span : Span) : Prop where
  marks : ∀ c ∈ span.marks, Token.isNameChar c = false
  run : ∀ c ∈ span.run, Token.isNameChar c = true

def lowered (span : Span) : Span := { span with run := span.run.map Text.asciiLower }

theorem Proper.lowered {span : Span} (proper : span.Proper) : span.lowered.Proper where
  marks := proper.marks
  run := by
    intro c member
    obtain ⟨d, inside, rfl⟩ := List.mem_map.mp member
    exact Token.isNameChar_asciiLower (proper.run d inside)

theorem Proper.text_lowered {span : Span} (proper : span.Proper) :
    span.lowered.text = span.text.map Text.asciiLower := by
  have still : span.marks.map Text.asciiLower = span.marks.map id :=
    List.map_congr_left fun c member => Token.asciiLower_of_not_isNameChar (proper.marks c member)
  simp [text, Span.lowered, still]

/-- Spans in a row, of which only the first one may do without marks. -/
structure Chain (spans : List Span) : Prop where
  proper : ∀ span ∈ spans, span.Proper
  marked : ∀ span ∈ spans.tail, span.marks ≠ []

theorem Chain.tail {first : Span} {later : List Span} (chain : Chain (first :: later)) :
    Chain later where
  proper := fun span member => chain.proper span (List.mem_cons_of_mem first member)
  marked := fun span member => chain.marked span (List.mem_of_mem_tail member)

theorem Chain.lowered {spans : List Span} (chain : Chain spans) :
    Chain (spans.map Span.lowered) where
  proper := by
    intro span member
    obtain ⟨origin, listed, rfl⟩ := List.mem_map.mp member
    exact (chain.proper origin listed).lowered
  marked := by
    intro span member
    rw [← List.map_tail] at member
    obtain ⟨origin, listed, rfl⟩ := List.mem_map.mp member
    exact chain.marked origin listed

/-- A chain goes on with a character that is no part of a name. -/
theorem Chain.exists_cons {first second : Span} {later : List Span}
    (chain : Chain (first :: second :: later)) :
    ∃ c rest, (second :: later).flatMap text = c :: rest ∧ Token.isNameChar c = false := by
  obtain ⟨c, marks, marked⟩ :=
    List.exists_cons_of_ne_nil (chain.marked second List.mem_cons_self)
  refine ⟨c, marks ++ second.run ++ later.flatMap text, by simp [text, marked], ?_⟩
  exact (chain.proper second (by simp)).marks c (by simp [marked])

theorem Chain.text_lowered {spans : List Span} (chain : Chain spans) :
    (spans.map Span.lowered).flatMap text = (spans.flatMap text).map Text.asciiLower := by
  rw [List.flatMap_map, List.map_flatMap]
  exact List.flatMap_congr fun span member => (chain.proper span member).text_lowered

section Chain

variable {mark : Char} {needle : List Char}

/-- A run of name characters after a mark does not reach over another mark. -/
theorem infix_append_mark_iff (inside : ∀ c ∈ needle, Token.isNameChar c = true) {c : Char}
    (outside : Token.isNameChar c = false) {left right : List Char} :
    mark :: needle <:+: left ++ c :: right ↔
      mark :: needle <:+: left ∨ mark :: needle <:+: c :: right := by
  have unmarked : c ∉ needle := fun member => by simp [inside c member] at outside
  constructor
  · intro held
    induction left with
    | nil => exact .inr held
    | cons d left ih =>
        rcases List.infix_cons_iff.mp held with start | later
        · obtain ⟨rfl, further⟩ := List.cons_prefix_cons.mp start
          have whole : mark :: needle <+: mark :: left :=
            List.cons_prefix_cons.mpr ⟨rfl, Text.prefix_of_prefix_append_cons unmarked further⟩
          exact .inl whole.isInfix
        · exact (ih later).imp_left fun inLeft => inLeft.trans (List.suffix_cons d left).isInfix
  · rintro (inLeft | inRight)
    · exact inLeft.trans (List.prefix_append left _).isInfix
    · exact inRight.trans (List.suffix_append left _).isInfix

theorem Proper.infix_text_iff {span : Span} (proper : span.Proper)
    (outside : Token.isNameChar mark = false) (nonempty : needle ≠ [])
    (inside : ∀ c ∈ needle, Token.isNameChar c = true) :
    mark :: needle <:+: span.text ↔ mark ∈ span.marks.getLast? ∧ needle <+: span.run := by
  obtain ⟨marks, run⟩ := span
  have notInRun : ¬ mark :: needle <:+: run := fun held => by
    have := proper.run mark (held.subset List.mem_cons_self)
    simp [this] at outside
  rcases List.eq_nil_or_concat' marks with rfl | ⟨front, last, rfl⟩
  · simpa [text] using notInRun
  · have notInFront : ¬ mark :: needle <:+: front := fun held => by
      obtain ⟨c, member⟩ := List.exists_mem_of_ne_nil needle nonempty
      have := proper.marks c
        (List.mem_append_left _ (held.subset (List.mem_cons_of_mem mark member)))
      simp [inside c member] at this
    have lastOutside : Token.isNameChar last = false := proper.marks last (by simp)
    have whole : text ⟨front ++ [last], run⟩ = front ++ last :: run := by simp [text]
    rw [whole, infix_append_mark_iff inside lastOutside, List.infix_cons_iff,
      List.cons_prefix_cons]
    simp [notInFront, notInRun, eq_comm]

/-- A marked run starts a text of spans where it starts the run of a span, and the mark is right in
front of that. -/
theorem Chain.infix_iff {spans : List Span} (chain : Chain spans)
    (outside : Token.isNameChar mark = false) (nonempty : needle ≠ [])
    (inside : ∀ c ∈ needle, Token.isNameChar c = true) :
    mark :: needle <:+: spans.flatMap text ↔
      ∃ span ∈ spans, mark ∈ span.marks.getLast? ∧ needle <+: span.run := by
  induction spans with
  | nil => simp
  | cons first later ih =>
      have firstIff :=
        (chain.proper first List.mem_cons_self).infix_text_iff outside nonempty inside
      cases later with
      | nil => simp [firstIff]
      | cons second later =>
          obtain ⟨c, rest, start, separated⟩ := chain.exists_cons
          rw [List.flatMap_cons, start, infix_append_mark_iff inside separated, ← start, firstIff,
            ih chain.tail, List.exists_mem_cons_iff _ first]

theorem Chain.prefix_iff {first : Span} {later : List Span} (chain : Chain (first :: later))
    (unmarked : first.marks = []) (inside : ∀ c ∈ needle, Token.isNameChar c = true) :
    needle <+: (first :: later).flatMap text ↔ needle <+: first.run := by
  have start : (first :: later).flatMap text = first.run ++ later.flatMap text := by
    simp [text, unmarked]
  rw [start]
  refine ⟨fun held => ?_, fun held => held.trans (List.prefix_append _ _)⟩
  cases later with
  | nil => simpa using held
  | cons second later =>
      obtain ⟨c, rest, start, separated⟩ := chain.exists_cons
      have unnamed : c ∉ needle := fun member => by simp [inside c member] at separated
      rw [start] at held
      exact Text.prefix_of_prefix_append_cons unnamed held

end Chain

end Span

end Selector

end StyleLookup
