import StyleLookup.Proofs.Selector.BareWord
import StyleLookup.Proofs.Selector.Spans

/-!
Selector lists as people write them, with commas, combinators and white space between compounds of
names. Every class and every id of such a list covers its name. An element covers its name only
where it stands first, or directly after a space or one of three signs.
-/

set_option autoImplicit false

namespace StyleLookup

namespace Selector

/-! ## The grammar -/

/-- The name of an element, a class or an id, in ASCII. -/
structure Name where
  text : List Char
  text_some : text ≠ [] := by decide
  text_chars : text.all Token.isNameChar = true := by decide
deriving DecidableEq

/-- A name behind the sigil of classes or of ids. -/
structure Part where
  sigil : Char
  name : Name
  sigil_known : sigil = '.' ∨ sigil = '#' := by decide
deriving DecidableEq

/-- What a selector asks of one element: perhaps its name, and classes and ids. -/
structure Compound where
  element? : Option Name
  parts : List Part
  asks : element?.isSome = true ∨ parts ≠ [] := by decide

/-- What stands between two compounds. A comma starts the next selector of a list. -/
inductive Joint where
  | space (blanks : List Char) (some : blanks ≠ []) (blank : Text.AllBlank blanks)
  | sign (before : List Char) (mark : Char) (after : List Char) (known : mark ∈ ['>', '+', '~'])
      (blankBefore : Text.AllBlank before) (blankAfter : Text.AllBlank after)
  | comma (after : List Char) (blank : Text.AllBlank after)

structure SelectorList where
  first : Compound
  rest : List (Joint × Compound)

namespace Name

variable (name : Name)

theorem isNameChar_of_mem : ∀ c ∈ name.text, Token.isNameChar c = true :=
  List.all_eq_true.mp name.text_chars

def lowered : List Char := name.text.map Text.asciiLower

theorem lowered_ne_nil : name.lowered ≠ [] := by
  simpa [lowered] using name.text_some

theorem isNameChar_of_mem_lowered : ∀ c ∈ name.lowered, Token.isNameChar c = true := by
  intro c member
  obtain ⟨d, inside, rfl⟩ := List.mem_map.mp member
  exact Token.isNameChar_asciiLower (name.isNameChar_of_mem d inside)

theorem isPlain_of_mem : ∀ c ∈ name.text, Text.IsPlain c :=
  fun c member => .inl (Token.toNat_of_isNameChar (name.isNameChar_of_mem c member)).2

theorem bare : Token.Bare name.text where
  ne_nil := name.text_some
  trimmed := Text.trim_eq_self_of_unblank fun c member =>
    Token.isBlank_of_isNameChar (name.isNameChar_of_mem c member)
  dotless := fun inside => absurd (name.isNameChar_of_mem '.' inside) (by decide)
  signless := fun inside => absurd (name.isNameChar_of_mem '#' inside) (by decide)

theorem normalForm_text : Token.normalForm name.text = name.lowered := by
  rw [name.bare.normalForm_eq, Text.lowercase_of_plain name.isPlain_of_mem, lowered]

end Name

namespace Part

def span (part : Part) : Span := ⟨[part.sigil], part.name.text⟩

theorem span_proper (part : Part) : part.span.Proper where
  marks := by
    simp [span, Token.isNameChar_of_sigil part.sigil_known]
  run := part.name.isNameChar_of_mem

end Part

namespace Compound

variable {compound : Compound} {before : List Char}

def elementText (compound : Compound) : List Char := (compound.element?.map Name.text).getD []

def text (compound : Compound) : List Char :=
  compound.elementText ++ compound.parts.flatMap fun part => part.sigil :: part.name.text

theorem isNameChar_of_mem_elementText :
    ∀ c ∈ compound.elementText, Token.isNameChar c = true := by
  unfold elementText
  cases compound.element? with
  | none => simp
  | some name => exact name.isNameChar_of_mem

theorem text_ne_nil (compound : Compound) : compound.text ≠ [] := by
  obtain ⟨element?, parts, asks⟩ := compound
  rcases asks with named | listed
  · obtain ⟨name, rfl⟩ := Option.isSome_iff_exists.mp named
    simp [text, elementText, name.text_some]
  · obtain ⟨part, parts, rfl⟩ := List.exists_cons_of_ne_nil listed
    simp [text]

theorem cases_of_mem_text {c : Char} (member : c ∈ compound.text) :
    Token.isNameChar c = true ∨ c = '.' ∨ c = '#' := by
  rcases List.mem_append.mp member with inElement | inParts
  · exact .inl (isNameChar_of_mem_elementText c inElement)
  · obtain ⟨part, -, inPart⟩ := List.mem_flatMap.mp inParts
    rcases List.mem_cons.mp inPart with rfl | inName
    · exact .inr part.sigil_known
    · exact .inl (part.name.isNameChar_of_mem c inName)

theorem prefix_elementText_iff {needle : List Char} (nonempty : needle ≠ []) :
    needle <+: compound.elementText.map Text.asciiLower ↔
      ∃ name, compound.element? = some name ∧ needle <+: name.lowered := by
  unfold elementText
  cases compound.element? with
  | none => simp [nonempty]
  | some name => simp [Name.lowered]

/-- A compound with the text in front of it, cut into spans. -/
def spans (before : List Char) (compound : Compound) : List Span :=
  ⟨before, compound.elementText⟩ :: compound.parts.map Part.span

theorem flatMap_text_spans :
    (compound.spans before).flatMap Span.text = before ++ compound.text := by
  simp [spans, text, Span.text, Part.span, List.flatMap_map]

end Compound

namespace Joint

def text : Joint → List Char
  | .space blanks .. => blanks
  | .sign before mark after .. => before ++ mark :: after
  | .comma after _ => ',' :: after

theorem text_ne_nil (joint : Joint) : joint.text ≠ [] := by
  cases joint with
  | space blanks some blank => exact some
  | sign before mark after known => simp [text]
  | comma after blank => simp [text]

theorem cases_of_mem {joint : Joint} {c : Char} (member : c ∈ joint.text) :
    Text.isBlank c = true ∨ c ∈ ['>', '+', '~', ','] := by
  cases joint with
  | space blanks some blank => exact .inl (blank c member)
  | sign before mark after known blankBefore blankAfter =>
      rcases List.mem_append.mp member with early | late
      · exact .inl (blankBefore c early)
      · rcases List.mem_cons.mp late with rfl | late
        · exact .inr (List.mem_append_left [','] known)
        · exact .inl (blankAfter c late)
  | comma after blank =>
      rcases List.mem_cons.mp member with rfl | late
      · exact .inr (by decide)
      · exact .inl (blank c late)

theorem outside_of_mem {joint : Joint} {c : Char} (member : c ∈ joint.text) :
    Token.isNameChar c = false ∧ Text.IsPlain c ∧ c ≠ '.' ∧ c ≠ '#' ∧ c ≠ '[' := by
  rcases cases_of_mem member with blank | sign
  · refine ⟨?_, .inr blank, ?_, ?_, ?_⟩
    · rw [← Bool.not_eq_true]
      intro inside
      simp [Token.isBlank_of_isNameChar inside] at blank
    all_goals
      rintro rfl
      exact absurd blank (by decide)
  · simp only [List.mem_cons, List.not_mem_nil, or_false] at sign
    rcases sign with rfl | rfl | rfl | rfl <;> decide

end Joint

namespace SelectorList

variable (list : SelectorList)

/-- The compounds of a list, each with the text between it and the one in front of it. -/
def members : List (List Char × Compound) :=
  ([], list.first) :: list.rest.map fun (joint, compound) => (joint.text, compound)

def text : List Char := list.members.flatMap fun (before, compound) => before ++ compound.text

def parts : List Part := list.members.flatMap fun (_, compound) => compound.parts

/-- The names of elements in a list, each with the character right in front of it. -/
def elements : List (Option Char × Name) :=
  list.members.filterMap fun (before, compound) => compound.element?.map (before.getLast?, ·)

variable {list}

theorem before_cases {before : List Char} {compound : Compound}
    (member : (before, compound) ∈ list.members) :
    (before = [] ∧ compound = list.first) ∨
      ∃ joint, (joint, compound) ∈ list.rest ∧ joint.text = before := by
  simpa [members] using member

theorem outside_of_mem_before {before : List Char} {compound : Compound} {c : Char}
    (member : (before, compound) ∈ list.members) (inside : c ∈ before) :
    Token.isNameChar c = false ∧ Text.IsPlain c ∧ c ≠ '.' ∧ c ≠ '#' ∧ c ≠ '[' := by
  rcases before_cases member with ⟨rfl, -⟩ | ⟨joint, -, rfl⟩
  · cases inside
  · exact joint.outside_of_mem inside

theorem plain_of_mem_text {c : Char} (member : c ∈ list.text) : Text.IsPlain c ∧ c ≠ '[' := by
  obtain ⟨⟨before, compound⟩, listed, inside⟩ := List.mem_flatMap.mp member
  rcases List.mem_append.mp inside with early | late
  · have := outside_of_mem_before listed early
    exact ⟨this.2.1, this.2.2.2.2⟩
  · rcases Compound.cases_of_mem_text late with named | rfl | rfl
    · refine ⟨.inl (Token.toNat_of_isNameChar named).2, ?_⟩
      rintro rfl
      exact absurd named (by decide)
    · decide
    · decide

variable (list)

/-- A list starts and ends with compounds, so there is nothing to trim. -/
theorem trim_text : Text.trim list.text = list.text := by
  have ink {compound : Compound} {c : Char} (member : c ∈ compound.text) :
      Text.isBlank c = false := by
    rcases Compound.cases_of_mem_text member with named | rfl | rfl
    · exact Token.isBlank_of_isNameChar named
    · decide
    · decide
  apply Text.trim_eq_self
  · intro c first
    obtain ⟨d, more, whole⟩ := List.exists_cons_of_ne_nil list.first.text_ne_nil
    have start : list.text.head? = some d := by simp [text, members, whole]
    obtain rfl : d = c := by simpa [start] using first
    exact @ink list.first d (by simp [whole])
  · intro c last
    rcases List.eq_nil_or_concat' list.members with none | ⟨earlier, ⟨before, compound⟩, whole⟩
    · cases none
    · have ending : list.text.getLast? = compound.text.getLast? := by
        rw [text, whole, List.flatMap_append, List.flatMap_singleton, ← List.append_assoc,
          List.getLast?_append_of_ne_nil _ compound.text_ne_nil]
      rw [ending] at last
      exact ink (List.mem_of_mem_getLast? last)

def spans : List Span := list.members.flatMap fun (before, compound) => compound.spans before

theorem flatMap_text_spans : list.spans.flatMap Span.text = list.text := by
  simp only [spans, text, List.flatMap_assoc, Compound.flatMap_text_spans]

theorem mem_spans_iff {span : Span} : span ∈ list.spans ↔
    (∃ before compound, (before, compound) ∈ list.members ∧ span = ⟨before, compound.elementText⟩) ∨
      ∃ part ∈ list.parts, span = part.span := by
  simp only [spans, parts, Compound.spans, List.mem_flatMap, List.mem_cons, List.mem_map,
    Prod.exists]
  constructor
  · rintro ⟨before, compound, member, same | ⟨part, listed, same⟩⟩
    · exact .inl ⟨before, compound, member, same⟩
    · exact .inr ⟨part, ⟨before, compound, member, listed⟩, same.symm⟩
  · rintro (⟨before, compound, member, same⟩ | ⟨part, ⟨before, compound, member, listed⟩, same⟩)
    · exact ⟨before, compound, member, .inl same⟩
    · exact ⟨before, compound, member, .inr ⟨part, listed, same.symm⟩⟩

theorem spans_eq : list.spans = ⟨[], list.first.elementText⟩ ::
    (list.first.parts.map Part.span ++
      list.rest.flatMap fun (joint, compound) => compound.spans joint.text) := by
  simp [spans, members, List.flatMap_map, Compound.spans]

theorem spans_chain : Span.Chain list.spans where
  proper := by
    intro span member
    rcases (mem_spans_iff list).mp member with ⟨before, compound, listed, rfl⟩ | ⟨part, -, rfl⟩
    · exact ⟨fun c inside => (outside_of_mem_before listed inside).1,
        Compound.isNameChar_of_mem_elementText⟩
    · exact part.span_proper
  marked := by
    intro span member
    rw [spans_eq, List.tail_cons] at member
    rcases List.mem_append.mp member with early | late
    · obtain ⟨part, -, rfl⟩ := List.mem_map.mp early
      exact List.cons_ne_nil _ _
    · obtain ⟨⟨joint, compound⟩, -, inside⟩ := List.mem_flatMap.mp late
      rcases List.mem_cons.mp inside with rfl | further
      · exact joint.text_ne_nil
      · obtain ⟨part, -, rfl⟩ := List.mem_map.mp further
        exact List.cons_ne_nil _ _

theorem normalForm_text : Token.normalForm list.text = list.text.map Text.asciiLower := by
  rw [Token.normalForm, trim_text,
    Text.lowercase_of_plain fun c member => (plain_of_mem_text member).1]

theorem normalForm_text_eq_flatMap :
    Token.normalForm list.text = (list.spans.map Span.lowered).flatMap Span.text := by
  rw [normalForm_text, list.spans_chain.text_lowered, flatMap_text_spans]

/-! ## What a list mentions -/

section Mentions

variable {list} {needle : List Char}

theorem infix_normalForm_iff {mark : Char} (outside : Token.isNameChar mark = false)
    (nonempty : needle ≠ []) (inside : ∀ c ∈ needle, Token.isNameChar c = true) :
    mark :: needle <:+: Token.normalForm list.text ↔
      ∃ span ∈ list.spans, mark ∈ span.marks.getLast? ∧
        needle <+: span.run.map Text.asciiLower := by
  rw [normalForm_text_eq_flatMap, list.spans_chain.lowered.infix_iff outside nonempty inside]
  simp only [List.mem_map, exists_exists_and_eq_and, Span.lowered]

theorem sigil_infix_iff {sigil : Char} (known : sigil = '.' ∨ sigil = '#') (nonempty : needle ≠ [])
    (inside : ∀ c ∈ needle, Token.isNameChar c = true) :
    sigil :: needle <:+: Token.normalForm list.text ↔
      ∃ part ∈ list.parts, part.sigil = sigil ∧ needle <+: part.name.lowered := by
  rw [infix_normalForm_iff (Token.isNameChar_of_sigil known) nonempty inside]
  constructor
  · rintro ⟨span, member, marked, start⟩
    rcases (mem_spans_iff list).mp member with
      ⟨before, compound, listed, rfl⟩ | ⟨part, listed, rfl⟩
    · have joint := outside_of_mem_before listed (List.mem_of_mem_getLast? marked)
      exact (known.elim joint.2.2.1 joint.2.2.2.1).elim
    · exact ⟨part, listed, by simpa [Part.span] using marked, start⟩
  · rintro ⟨part, listed, rfl, start⟩
    have member : part.span ∈ list.spans := (mem_spans_iff list).mpr (.inr ⟨part, listed, rfl⟩)
    exact ⟨part.span, member, by simp [Part.span], start⟩

/-- Where an element is looked for: at the start of a list, or behind one of the marks. -/
def InReach (before : Option Char) : Prop := ∀ mark ∈ before, mark ∈ elementMarks

theorem mem_elements_iff {before : Option Char} {name : Name} :
    (before, name) ∈ list.elements ↔
      ∃ marks compound, (marks, compound) ∈ list.members ∧ marks.getLast? = before ∧
        compound.element? = some name := by
  simp only [elements, List.mem_filterMap, Prod.exists, Option.map_eq_some_iff, Prod.mk.injEq]
  constructor
  · rintro ⟨marks, compound, member, name, named, rfl, rfl⟩
    exact ⟨marks, compound, member, rfl, named⟩
  · rintro ⟨marks, compound, member, rfl, named⟩
    exact ⟨marks, compound, member, name, named, rfl, rfl⟩

theorem mentionsElement_iff (nonempty : needle ≠ [])
    (inside : ∀ c ∈ needle, Token.isNameChar c = true) :
    MentionsElement (Token.normalForm list.text) needle ↔
      ∃ element ∈ list.elements, InReach element.1 ∧ needle <+: element.2.lowered := by
  have startIff : needle <+: Token.normalForm list.text ↔
      needle <+: list.first.elementText.map Text.asciiLower := by
    have chain := list.spans_chain.lowered
    rw [normalForm_text_eq_flatMap]
    rw [spans_eq, List.map_cons] at chain ⊢
    exact chain.prefix_iff rfl inside
  have signs : ∀ mark ∈ [' ', '>', '+', '~'], Token.isNameChar mark = false ∧
      mark ≠ '.' ∧ mark ≠ '#' := by
    simp only [List.mem_cons, List.not_mem_nil, or_false]
    rintro mark (rfl | rfl | rfl | rfl) <;> decide
  constructor
  · rintro (start | ⟨mark, known, held⟩)
    · obtain ⟨name, named, further⟩ :=
        (Compound.prefix_elementText_iff nonempty).mp (startIff.mp start)
      have listed : (none, name) ∈ list.elements :=
        mem_elements_iff.mpr ⟨[], list.first, List.mem_cons_self, rfl, named⟩
      exact ⟨(none, name), listed, by simp [InReach], further⟩
    · obtain ⟨outside, undotted, unsigned⟩ := signs mark known
      obtain ⟨span, member, marked, start⟩ :=
        (infix_normalForm_iff outside nonempty inside).mp held
      rcases (mem_spans_iff list).mp member with ⟨before, compound, listed, rfl⟩ | ⟨part, -, rfl⟩
      · obtain ⟨name, named, further⟩ := (Compound.prefix_elementText_iff nonempty).mp start
        refine ⟨(before.getLast?, name),
          mem_elements_iff.mpr ⟨before, compound, listed, rfl, named⟩, ?_, further⟩
        intro last ending
        obtain rfl : last = mark := Option.mem_unique ending marked
        exact known
      · obtain rfl : part.sigil = mark := by simpa [Part.span] using marked
        exact (part.sigil_known.elim undotted unsigned).elim
  · rintro ⟨⟨before, name⟩, listed, reach, start⟩
    obtain ⟨marks, compound, member, rfl, named⟩ := mem_elements_iff.mp listed
    have further := (Compound.prefix_elementText_iff nonempty).mpr ⟨name, named, start⟩
    cases ending : marks.getLast? with
    | none =>
        rcases before_cases member with ⟨-, rfl⟩ | ⟨joint, -, rfl⟩
        · exact .inl (startIff.mpr further)
        · exact absurd (List.getLast?_eq_none_iff.mp ending) joint.text_ne_nil
    | some mark =>
        have known : mark ∈ elementMarks := reach mark ending
        refine .inr ⟨mark, known, ?_⟩
        exact (infix_normalForm_iff (signs mark known).1 nonempty inside).mpr
          ⟨⟨marks, compound.elementText⟩,
            (mem_spans_iff list).mpr (.inl ⟨marks, compound, member, rfl⟩), ending, further⟩

theorem mentionsClass_iff {name : Name} :
    MentionsClass (Token.normalForm list.text) name.lowered ↔
      ∃ part ∈ list.parts, part.sigil = '.' ∧ name.lowered <+: part.name.lowered := by
  have unbracketed : '[' ∉ Token.normalForm list.text := by
    rw [normalForm_text]
    intro member
    obtain ⟨c, inside, lowers⟩ := List.mem_map.mp member
    have bracket : c = '[' := by
      by_cases named : Token.isNameChar c = true
      · have := Token.isNameChar_asciiLower named
        rw [lowers] at this
        exact absurd this (by decide)
      · rwa [Token.asciiLower_of_not_isNameChar (Bool.not_eq_true _ ▸ named)] at lowers
    exact (plain_of_mem_text inside).2 bracket
  have noAttribute (rest : List Char) : ¬ '[' :: rest <:+: Token.normalForm list.text :=
    fun held => unbracketed (held.subset List.mem_cons_self)
  rw [MentionsClass, sigil_infix_iff (.inl rfl) name.lowered_ne_nil name.isNameChar_of_mem_lowered]
  constructor
  · rintro (held | held | held)
    · exact held
    · exact absurd held (noAttribute _)
    · exact absurd held (noAttribute _)
  · exact .inl

end Mentions

end SelectorList

/-! ## Words as tokens -/

namespace Name

variable {name : Name}

theorem isNameChar_of_mem_lead :
    ∀ c ∈ name.lowered.takeWhile Char.isAlphanum, Token.isNameChar c = true :=
  fun c member => name.isNameChar_of_mem_lowered c (List.takeWhile_subset _ member)

theorem lead_ne_nil {first : Char} (start : first ∈ name.lowered.head?)
    (letter : first.isAlpha = true) : name.lowered.takeWhile Char.isAlphanum ≠ [] := by
  obtain ⟨rest, whole⟩ := List.head?_eq_some_iff.mp start
  simp [whole, Char.isAlphanum, letter]

theorem exists_alpha_lowered_iff :
    (∃ first ∈ name.lowered.head?, first.isAlpha = true) ↔
      ∃ first ∈ name.text.head?, first.isAlpha = true := by
  simp [lowered, Text.isAlpha_asciiLower]

end Name

theorem covers_name_iff {selector : List Char} {name : Name} :
    covers (String.ofList selector) (String.ofList name.text) = true ↔
      Token.normalForm selector = name.lowered ∨
        MentionsClass (Token.normalForm selector) name.lowered ∨
        '#' :: name.lowered <:+: Token.normalForm selector ∨
        ∃ first ∈ name.lowered.head?, first.isAlpha = true ∧
          MentionsElement (Token.normalForm selector) (name.lowered.takeWhile Char.isAlphanum) := by
  rw [covers_bare_iff name.bare, name.normalForm_text, MentionsName, or_assoc]
  rfl

/-- A list covers a word exactly if the name of a class or an id starts with it, or the name of an
element in reach starts with the letters and digits that the word starts with, or the list is the
word. -/
theorem covers_list_iff (list : SelectorList) (word : Name) :
    covers (String.ofList list.text) (String.ofList word.text) = true ↔
      (∃ part ∈ list.parts, word.lowered <+: part.name.lowered) ∨
        ((∃ first ∈ word.text.head?, first.isAlpha = true) ∧
          ∃ element ∈ list.elements, SelectorList.InReach element.1 ∧
            word.lowered.takeWhile Char.isAlphanum <+: element.2.lowered) ∨
        list.text.map Text.asciiLower = word.lowered := by
  have parts : (∃ part ∈ list.parts, part.sigil = '.' ∧ word.lowered <+: part.name.lowered) ∨
      (∃ part ∈ list.parts, part.sigil = '#' ∧ word.lowered <+: part.name.lowered) ↔
        ∃ part ∈ list.parts, word.lowered <+: part.name.lowered := by
    constructor
    · rintro (⟨part, listed, -, start⟩ | ⟨part, listed, -, start⟩) <;> exact ⟨part, listed, start⟩
    · rintro ⟨part, listed, start⟩
      exact part.sigil_known.imp (fun dot => ⟨part, listed, dot, start⟩)
        fun sign => ⟨part, listed, sign, start⟩
  have elements : (∃ first ∈ word.lowered.head?, first.isAlpha = true ∧
      MentionsElement (Token.normalForm list.text) (word.lowered.takeWhile Char.isAlphanum)) ↔
        (∃ first ∈ word.text.head?, first.isAlpha = true) ∧
          ∃ element ∈ list.elements, SelectorList.InReach element.1 ∧
            word.lowered.takeWhile Char.isAlphanum <+: element.2.lowered := by
    rw [← Name.exists_alpha_lowered_iff]
    have mentions {first : Char} (start : first ∈ word.lowered.head?)
        (letter : first.isAlpha = true) :=
      @SelectorList.mentionsElement_iff list _ (Name.lead_ne_nil start letter)
        Name.isNameChar_of_mem_lead
    constructor
    · rintro ⟨first, start, letter, mentioned⟩
      exact ⟨⟨first, start, letter⟩, (mentions start letter).mp mentioned⟩
    · rintro ⟨⟨first, start, letter⟩, reached⟩
      exact ⟨first, start, letter, (mentions start letter).mpr reached⟩
  rw [covers_name_iff, SelectorList.mentionsClass_iff,
    SelectorList.sigil_infix_iff (.inr rfl) word.lowered_ne_nil word.isNameChar_of_mem_lowered,
    elements, SelectorList.normalForm_text, ← parts]
  constructor
  · rintro (same | dotted | signed | reached)
    · exact .inr (.inr same)
    · exact .inl (.inl dotted)
    · exact .inl (.inr signed)
    · exact .inr (.inl reached)
  · rintro ((dotted | signed) | reached | same)
    · exact .inr (.inl dotted)
    · exact .inr (.inr (.inl signed))
    · exact .inr (.inr (.inr reached))
    · exact .inl same

def secondHeading : Name := ⟨"h2".toList, by decide, by decide⟩

/-- Two headings with nothing but a comma between them. -/
def headings : SelectorList where
  first := ⟨some ⟨"h1".toList, by decide, by decide⟩, [], by decide⟩
  rest := [(.comma [] .nil, ⟨some secondHeading, [], by decide⟩)]

/-- A comma is not one of the marks, so the element behind it is not found. -/
theorem headings_second_uncovered :
    headings.text = "h1,h2".toList ∧ (some ',', secondHeading) ∈ headings.elements ∧
      covers (String.ofList headings.text) (String.ofList secondHeading.text) = false := by
  decide +kernel

end Selector

end StyleLookup
