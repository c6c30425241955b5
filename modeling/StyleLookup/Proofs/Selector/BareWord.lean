import StyleLookup.Proofs.Selector.Covering
import StyleLookup.Proofs.Selector.NormalForm

/-!
Tokens that are one word. Such a word is looked for as a class and as an id, and a selector that
starts with it behind a sigil covers it unless lower-casing takes the word apart: a capital sigma at
the end of the word alone need not be at the end of a word in the selector.
-/

set_option autoImplicit false

namespace StyleLookup

namespace Token

/-- A word as it may stand for a class or an id: trimmed, and without sigils. -/
structure Bare (word : List Char) : Prop where
  ne_nil : word ≠ []
  trimmed : Text.trim word = word
  dotless : '.' ∉ word
  signless : '#' ∉ word

variable {word : List Char}

theorem Bare.normalForm_eq (bare : Bare word) : normalForm word = Text.lowercase word := by
  rw [normalForm, bare.trimmed]

theorem Bare.normalForm_ne_nil (bare : Bare word) : normalForm word ≠ [] := by
  rw [bare.normalForm_eq, ne_eq, Text.lowercase_eq_nil_iff]
  exact bare.ne_nil

theorem Bare.not_mem_normalForm (bare : Bare word) {sigil : Char}
    (known : sigil = '.' ∨ sigil = '#') : sigil ∉ normalForm word := by
  rw [bare.normalForm_eq]
  rcases known with rfl | rfl
  · exact Text.not_mem_lowercase (by decide) (by decide) bare.dotless
  · exact Text.not_mem_lowercase (by decide) (by decide) bare.signless

/-- A word without sigils stands for itself only. -/
theorem offers_iff_of_not_mem {sigil : Char} {text name : List Char} (dotless : '.' ∉ text)
    (signless : '#' ∉ text) (known : sigil = '.' ∨ sigil = '#') :
    Offers sigil text name ↔ name = text := by
  have held : ¬ HoldsName sigil text name := by
    rintro ⟨-, -, before, after, rfl, -⟩
    rcases known with rfl | rfl
    · simp at dotless
    · simp at signless
  simp [Offers, held, dotless, signless]

theorem Bare.offers_iff (bare : Bare word) {sigil : Char} {name : List Char}
    (known : sigil = '.' ∨ sigil = '#') :
    Offers sigil (normalForm word) name ↔ name = normalForm word :=
  offers_iff_of_not_mem (bare.not_mem_normalForm (.inl rfl)) (bare.not_mem_normalForm (.inr rfl))
    known

end Token

namespace Selector

open Token (Bare normalForm)

/-- A selector text mentions a word as the name of a class or an id. -/
def MentionsName (text name : List Char) : Prop := MentionsClass text name ∨ '#' :: name <:+: text

/-- A selector text mentions the element that a token starts with. -/
def MentionsLead (text wanted : List Char) : Prop :=
  ∃ first ∈ wanted.head?, first.isAlpha = true ∧
    MentionsElement text (wanted.takeWhile Char.isAlphanum)

theorem covers_bare_iff {selector word : List Char} (bare : Bare word) :
    covers (String.ofList selector) (String.ofList word) = true ↔
      normalForm selector = normalForm word ∨ MentionsName (normalForm selector) (normalForm word) ∨
        MentionsLead (normalForm selector) (normalForm word) := by
  have token : Token.parse (String.ofList word) = Token.ofNormal (normalForm word) := by
    rw [Token.parse, String.toList_ofList]
  have present : (Token.ofNormal (normalForm word)).isEmpty = false := by
    simp [Token.isEmpty, Token.ofNormal, bare.normalForm_ne_nil]
  have same : (String.ofList (normalForm selector) == (Token.ofNormal (normalForm word)).text) =
      true ↔ normalForm selector = normalForm word := by
    simp [Token.ofNormal, String.ofList_inj]
  simp only [covers, matchesToken, token, present, String.toList_ofList, Bool.not_false,
    Bool.true_and, Bool.or_eq_true, same, any_class_iff bare.normalForm_ne_nil,
    any_id_iff bare.normalForm_ne_nil, any_element_iff, bare.offers_iff (.inl rfl),
    bare.offers_iff (.inr rfl), exists_eq_left, MentionsName, MentionsLead, or_assoc]

/-! ## Selectors that start with the word -/

section Start

variable {sigil : Char} {word : List Char}

theorem isLower_of_sigil (known : sigil = '.' ∨ sigil = '#') : Text.IsLower sigil := by
  rcases known with rfl | rfl <;> decide +kernel

theorem startsCased_singleton_of_sigil (known : sigil = '.' ∨ sigil = '#') :
    Text.startsCased [sigil] = false := by
  rcases known with rfl | rfl <;> decide +kernel

/-- What trimming leaves of a selector that starts with a word, and what comes after the word. -/
theorem trim_sigil_append (known : sigil = '.' ∨ sigil = '#') (bare : Bare word)
    (rest : List Char) :
    ∃ kept tail, rest = kept ++ tail ∧ Text.AllBlank tail ∧
      Text.trim (sigil :: (word ++ rest)) = sigil :: (word ++ kept) := by
  have tailBlank : Text.AllBlank (rest.reverse.takeWhile Text.isBlank).reverse :=
    Text.AllBlank.reverse fun c member => List.mem_takeWhile_imp member
  have whole := Text.dropEndWhile_append_takeWhile Text.isBlank rest
  refine ⟨Text.trimEnd rest, _, whole.symm, tailBlank, ?_⟩
  have split : sigil :: (word ++ rest) =
      (sigil :: (word ++ Text.trimEnd rest)) ++ (rest.reverse.takeWhile Text.isBlank).reverse := by
    rw [List.cons_append, List.append_assoc, Text.trimEnd, whole]
  rw [split, Text.trim_append_right tailBlank]
  apply Text.trim_eq_self
  · rintro c first
    cases first
    rcases known with rfl | rfl <;> decide
  · intro c last
    rw [← List.cons_append, List.getLast?_append, Option.mem_def, Option.or_eq_some_iff] at last
    rcases last with last | ⟨-, last⟩
    · exact Text.isBlank_of_mem_getLast?_trimEnd last
    · rw [List.getLast?_cons_of_ne_nil bare.ne_nil, ← bare.trimmed, Text.trim] at last
      exact Text.isBlank_of_mem_getLast?_trimEnd last

/-- The normal form of such a selector has the normal form of the word behind the sigil exactly if
the selector does not break the word off. -/
theorem normalForm_sigil_append (known : sigil = '.' ∨ sigil = '#') (bare : Bare word)
    (rest : List Char) :
    ∃ onward, normalForm (sigil :: (word ++ rest)) = sigil :: onward ∧
      (normalForm word <+: onward ↔ ¬ Text.BreaksWord word rest) := by
  obtain ⟨kept, tail, rfl, tailBlank, trimmed⟩ := trim_sigil_append known bare rest
  have unbroken : Text.BreaksWord word (kept ++ tail) ↔ Text.BreaksWord word kept := by
    rw [Text.BreaksWord, Text.BreaksWord, Text.startsCased_append_blank tailBlank]
  refine ⟨Text.lowercaseBetween [sigil] word kept ++
    Text.lowercaseAfter (word.reverse ++ [sigil]) kept, ?_, ?_⟩
  · rw [normalForm, trimmed, Text.lowercase, Text.lowercaseAfter,
      Text.lowerAt_of_isLower (isLower_of_sigil known), Text.lowercaseAfter_append,
      List.singleton_append]
  · have sameLength : (Text.lowercase word).length =
        (Text.lowercaseBetween [sigil] word kept).length := by
      rw [Text.lowercase, ← Text.lowercaseBetween_nil]
      exact Text.length_lowercaseBetween _ _ _ _ _
    rw [unbroken, ← Text.lowercaseBetween_eq_lowercase_iff (startsCased_singleton_of_sigil known),
      bare.normalForm_eq]
    constructor
    · intro start
      have apart := List.prefix_of_prefix_length_le start (List.prefix_append _ _) sameLength.le
      exact (apart.eq_of_length sameLength).symm
    · intro same
      rw [← same]
      exact List.prefix_append _ _

/-- A text mentions a word further on, behind its first character: as a class, as an id or, if it
starts with a letter, as an element behind a combinator. -/
def MentionsOnward (onward name : List Char) : Prop :=
  MentionsName onward name ∨ ∃ first ∈ name.head?, first.isAlpha = true ∧
    ∃ mark ∈ [' ', '>', '+', '~'], mark :: name.takeWhile Char.isAlphanum <:+: onward

/-- Right behind the sigil at its start a text mentions a name as far as the name stands there. -/
theorem mentionsName_sigil_cons_iff (known : sigil = '.' ∨ sigil = '#') {onward name : List Char} :
    MentionsName (sigil :: onward) name ↔ name <+: onward ∨ MentionsName onward name := by
  have behind {mark : Char} {form : List Char} : mark :: form <:+: sigil :: onward ↔
      (mark = sigil ∧ form <+: onward) ∨ mark :: form <:+: onward := by
    rw [List.infix_cons_iff, List.cons_prefix_cons]
  have bracketed {form : List Char} : '[' :: form <:+: sigil :: onward ↔
      '[' :: form <:+: onward := by
    rw [behind, or_iff_right]
    rintro ⟨rfl, -⟩
    simp at known
  have contains : MentionsClass (sigil :: onward) name ↔
      ('.' = sigil ∧ name <+: onward) ∨ MentionsClass onward name := by
    rw [MentionsClass, behind, or_assoc]
    exact or_congr_right (or_congr_right (or_congr bracketed bracketed))
  rw [MentionsName, contains, behind, MentionsName]
  rcases known with rfl | rfl
  · simp [or_assoc]
  · simp [or_left_comm]

theorem mentionsLead_sigil_cons_iff (known : sigil = '.' ∨ sigil = '#') {onward name : List Char} :
    MentionsLead (sigil :: onward) name ↔ ∃ first ∈ name.head?, first.isAlpha = true ∧
      ∃ mark ∈ [' ', '>', '+', '~'], mark :: name.takeWhile Char.isAlphanum <:+: onward := by
  have unlettered : sigil.isAlpha = false := by
    rcases known with rfl | rfl <;> decide
  have unmarked : sigil ∉ [' ', '>', '+', '~'] := by
    rcases known with rfl | rfl <;> decide
  refine exists_congr fun first => and_congr_right fun start => and_congr_right fun letter => ?_
  obtain ⟨more, rfl⟩ := List.head?_eq_some_iff.mp start
  have inside : first.isAlphanum = true := by simp [Char.isAlphanum, letter]
  rw [MentionsElement, List.takeWhile_cons_of_pos inside, or_iff_right]
  · refine exists_congr fun mark => and_congr_right fun listed => ?_
    rw [List.infix_cons_iff, List.cons_prefix_cons, or_iff_right]
    rintro ⟨rfl, -⟩
    exact unmarked listed
  · rw [List.cons_prefix_cons]
    rintro ⟨rfl, -⟩
    rw [unlettered] at letter
    cases letter

/-- A selector that starts with a word behind a sigil covers the word exactly if the word does not
end inside a word of the selector, or else the selector mentions it further on. -/
theorem covers_sigil_append_iff (known : sigil = '.' ∨ sigil = '#') (bare : Bare word)
    (rest : List Char) :
    covers (String.ofList (sigil :: (word ++ rest))) (String.ofList word) = true ↔
      ¬ Text.BreaksWord word rest ∨
        MentionsOnward (normalForm (sigil :: (word ++ rest))).tail (normalForm word) := by
  obtain ⟨onward, start, prefixed⟩ := normalForm_sigil_append known bare rest
  have other : sigil :: onward ≠ normalForm word := fun same =>
    bare.not_mem_normalForm known (same ▸ List.mem_cons_self)
  rw [covers_bare_iff bare, start, or_iff_right other, mentionsName_sigil_cons_iff known, prefixed,
    mentionsLead_sigil_cons_iff known, List.tail_cons, MentionsOnward, or_assoc]

end Start

/-- A final sigma stays one in front of a hyphen. -/
theorem greek_word_covered_before_suffix :
    Bare "ΟΔΟΣ".toList ∧ ¬ Text.BreaksWord "ΟΔΟΣ".toList "-Btn:hover".toList ∧
      covers (String.ofList ('#' :: ("ΟΔΟΣ".toList ++ "-Btn:hover".toList)))
        (String.ofList "ΟΔΟΣ".toList) = true := by
  have bare : Bare "ΟΔΟΣ".toList := ⟨by decide, by decide, by decide, by decide⟩
  have unbroken : ¬ Text.BreaksWord "ΟΔΟΣ".toList "-Btn:hover".toList := by
    rintro ⟨further, -⟩
    exact absurd further (by decide +kernel)
  exact ⟨bare, unbroken,
    (covers_sigil_append_iff (.inr rfl) bare "-Btn:hover".toList).mpr (.inl unbroken)⟩

/-- Case mapping looks through a colon, so the word goes on in the name of the pseudo-class. -/
theorem greek_word_lost_before_pseudo_class :
    Bare "ΟΔΟΣ".toList ∧
      covers (String.ofList ('.' :: ("ΟΔΟΣ".toList ++ ":hover".toList)))
        (String.ofList "ΟΔΟΣ".toList) = false := by
  refine ⟨⟨by decide, by decide, by decide, by decide⟩, ?_⟩
  decide +kernel

end Selector

end StyleLookup
