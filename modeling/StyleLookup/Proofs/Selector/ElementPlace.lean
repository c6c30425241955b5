import Mathlib.Data.Bool.AllAny
import Mathlib.Data.List.Chain
import StyleLookup.Proofs.Selector.BareWord

/-!
Selectors without elements: compounds that each start with a sigil, joined by combinators. An
element is looked for at the start of a selector and behind combinators, and there such a selector
has sigils only, so no name in it is taken for an element.
-/

set_option autoImplicit false

namespace StyleLookup

namespace Selector

open Token (Bare normalForm)

/-- White space, or one of the three signs that join compounds. -/
def Combines (c : Char) : Prop := Text.isBlank c = true ∨ c ∈ ['>', '+', '~']

instance : DecidablePred Combines := fun c =>
  inferInstanceAs (Decidable (Text.isBlank c = true ∨ c ∈ ['>', '+', '~']))

/-- A sigil and any text without combinators behind it. -/
structure MarkedCompound where
  sigil : Char
  body : List Char
  known : sigil = '.' ∨ sigil = '#'
  unjoined : ∀ c ∈ body, ¬ Combines c

/-- Compounds, each with the combinators in front of it. The first one has none. -/
structure MarkedSelector where
  members : List (List Char × MarkedCompound)
  joined : ∀ member ∈ members, ∀ c ∈ member.1, Combines c
  unled : ∀ member ∈ members.head?, member.1 = []

/-- A word in ASCII that starts with a letter and holds no white space and no sigils. -/
structure LetterWord where
  text : List Char
  ascii : ∀ c ∈ text, c.toNat < 0x80
  lettered : ∃ first ∈ text.head?, first.isAlpha = true
  unspaced : ∀ c ∈ text, Text.isBlank c = false
  dotless : '.' ∉ text
  signless : '#' ∉ text

/-! ## Combinators -/

section Combinators

variable {c d : Char}

theorem isAlpha_of_combines (combines : Combines c) : c.isAlpha = false := by
  rcases combines with blank | sign
  · have table : ∀ point ∈ Text.blankPoints, (Char.ofNat point).isAlpha = false := by decide
    have unlettered := table c.toNat (Text.mem_blankPoints blank)
    rwa [Char.ofNat_toNat] at unlettered
  · simp only [List.mem_cons, List.not_mem_nil, or_false] at sign
    rcases sign with rfl | rfl | rfl <;> decide

theorem isLower_of_combines (combines : Combines c) : Text.IsLower c := by
  rcases combines with blank | sign
  · exact Text.isLower_of_isBlank blank
  · simp only [List.mem_cons, List.not_mem_nil, or_false] at sign
    rcases sign with rfl | rfl | rfl <;> decide +kernel

theorem combines_of_mem_elementMarks (listed : c ∈ elementMarks) :
    Combines c ∧ c.toNat < 0x80 := by
  simp only [elementMarks, List.mem_cons, List.not_mem_nil, or_false] at listed
  rcases listed with rfl | rfl | rfl | rfl
  · exact ⟨.inl rfl, by decide⟩
  all_goals exact ⟨.inr (by decide), by decide⟩

theorem not_combines_of_sigil (known : c = '.' ∨ c = '#') : ¬ Combines c := by
  rcases known with rfl | rfl <;> simp [Combines] <;> decide

/-- Behind a combinator stands another one, or a sigil. -/
def Follows (c d : Char) : Prop := Combines c → Combines d ∨ d = '.' ∨ d = '#'

theorem isChain_of_combines {text : List Char} (combines : ∀ c ∈ text, Combines c) :
    text.IsChain Follows :=
  (List.pairwise_of_forall_mem_list fun _ _ d member _ => .inl (combines d member)).isChain

theorem isChain_of_not_combines {text : List Char} (plain : ∀ c ∈ text, ¬ Combines c) :
    text.IsChain Follows :=
  (List.pairwise_of_forall_mem_list fun c member _ _ combines =>
    absurd combines (plain c member)).isChain

end Combinators

/-! ## The text of a selector -/

namespace MarkedCompound

variable (compound : MarkedCompound)

def text : List Char := compound.sigil :: compound.body

theorem text_ne_nil : compound.text ≠ [] := List.cons_ne_nil _ _

theorem not_combines_of_mem : ∀ c ∈ compound.text, ¬ Combines c :=
  List.forall_mem_cons.mpr ⟨not_combines_of_sigil compound.known, compound.unjoined⟩

end MarkedCompound

namespace MarkedSelector

variable (selector : MarkedSelector)

def text : List Char := selector.members.flatMap fun member => member.1 ++ member.2.text

theorem isChain_flatMap {members : List (List Char × MarkedCompound)}
    (joined : ∀ member ∈ members, ∀ c ∈ member.1, Combines c) :
    (members.flatMap fun member => member.1 ++ member.2.text).IsChain Follows := by
  induction members with
  | nil => exact .nil
  | cons member members ih =>
      obtain ⟨here, later⟩ := List.forall_mem_cons.mp joined
      rw [List.flatMap_cons, List.isChain_append, List.isChain_append]
      refine ⟨⟨isChain_of_combines here,
        isChain_of_not_combines member.2.not_combines_of_mem, ?_⟩, ih later, ?_⟩
      · rintro last - first start -
        cases start
        exact .inr member.2.known
      · intro last ending first _ combines
        rw [List.getLast?_append_of_ne_nil _ member.2.text_ne_nil] at ending
        exact absurd combines (member.2.not_combines_of_mem last (List.mem_of_mem_getLast? ending))

/-- A selector is empty or starts with a sigil. -/
theorem sigil_of_mem_head? : ∀ first ∈ selector.text.head?, first = '.' ∨ first = '#' := by
  obtain ⟨members, -, unled⟩ := selector
  cases members with
  | nil => simp [text]
  | cons member members =>
      have bare : member.1 = [] := unled member rfl
      intro first start
      rw [text, List.flatMap_cons, bare, List.nil_append, MarkedCompound.text] at start
      cases start
      exact member.2.known

theorem trim_text : Text.trim selector.text = selector.text := by
  have ink {c : Char} (plain : ¬ Combines c) : Text.isBlank c = false := by
    rw [← Bool.not_eq_true]
    exact fun blank => plain (.inl blank)
  apply Text.trim_eq_self
  · exact fun c first => ink (not_combines_of_sigil (selector.sigil_of_mem_head? c first))
  · intro c last
    rcases List.eq_nil_or_concat' selector.members with none | ⟨earlier, member, whole⟩
    · simp [text, none] at last
    · rw [text, whole, List.flatMap_append, List.flatMap_singleton, ← List.append_assoc,
        List.getLast?_append_of_ne_nil _ member.2.text_ne_nil] at last
      exact ink (member.2.not_combines_of_mem c (List.mem_of_mem_getLast? last))

theorem normalForm_text : normalForm selector.text = Text.lowercase selector.text := by
  rw [normalForm, selector.trim_text]

/-- Where elements are looked for, a selector has no letters. -/
theorem not_mentionsElement {first : Char} (letter : first.isAlpha = true) (rest : List Char) :
    ¬ MentionsElement (Text.lowercase selector.text) (first :: rest) := by
  -- Lower-casing keeps combinators and sigils, so what stands there in lower case stood there.
  have unlettered {d : Char} {before after : List Char} (stands : Combines d ∨ d = '.' ∨ d = '#') :
      ¬ first :: rest <+: Text.lowercaseAfter before (d :: after) := by
    have lower : Text.IsLower d := stands.elim isLower_of_combines isLower_of_sigil
    have mark : d.isAlpha = false := by
      rcases stands with combines | rfl | rfl
      · exact isAlpha_of_combines combines
      all_goals decide
    rw [Text.lowercaseAfter, Text.lowerAt_of_isLower lower, List.singleton_append,
      List.cons_prefix_cons]
    rintro ⟨rfl, -⟩
    rw [mark] at letter
    cases letter
  rintro (start | ⟨mark, listed, held⟩)
  · cases whole : selector.text with
    | nil => simp [whole, Text.lowercase, Text.lowercaseAfter] at start
    | cons d after =>
        rw [whole] at start
        exact unlettered (.inr (selector.sigil_of_mem_head? d (by simp [whole]))) start
  · obtain ⟨combines, ascii⟩ := combines_of_mem_elementMarks listed
    obtain ⟨front, back, whole, start⟩ := Text.exists_of_infix_lowercaseAfter
      ascii (isAlpha_of_combines combines) held
    have chain : selector.text.IsChain Follows := isChain_flatMap selector.joined
    rw [whole] at chain
    have behind := (List.isChain_cons.mp chain.right_of_append).1
    cases back with
    | nil => simp [Text.lowercaseAfter] at start
    | cons d after => exact unlettered (behind d rfl combines) start

end MarkedSelector

/-! ## Words in ASCII -/

namespace LetterWord

variable (word : LetterWord)

theorem bare : Bare word.text where
  ne_nil := by
    obtain ⟨first, start, -⟩ := word.lettered
    rintro none
    simp [none] at start
  trimmed := Text.trim_eq_self_of_unblank word.unspaced
  dotless := word.dotless
  signless := word.signless

theorem exists_lowercase_eq_cons :
    ∃ first more, Text.lowercase word.text = first :: more ∧ first.isAlpha = true := by
  obtain ⟨first, start, letter⟩ := word.lettered
  obtain ⟨more, whole⟩ := List.head?_eq_some_iff.mp start
  rw [Text.lowercase_of_plain fun c member => .inl (word.ascii c member), whole, List.map_cons]
  exact ⟨_, _, rfl, by rw [Text.isAlpha_asciiLower, letter]⟩

end LetterWord

/-- The element that a word starts with is not found in a selector without elements, so such a
selector covers the word exactly if it mentions it as a class or an id. -/
theorem elements_not_found (selector : MarkedSelector) (word : LetterWord) :
    ∃ element, (Token.parse (String.ofList word.text)).element? = some element ∧
      hasElement (String.ofList (Text.lowercase selector.text)) element = false ∧
      (covers (String.ofList selector.text) (String.ofList word.text) = true ↔
        MentionsName (Text.lowercase selector.text) (Text.lowercase word.text)) := by
  obtain ⟨first, more, whole, letter⟩ := word.exists_lowercase_eq_cons
  have inside : first.isAlphanum = true := by simp [Char.isAlphanum, letter]
  have absent := selector.not_mentionsElement letter
  refine ⟨String.ofList (first :: more.takeWhile Char.isAlphanum), ?_, ?_, ?_⟩
  · simp only [Token.parse, String.toList_ofList, word.bare.normalForm_eq, whole, Token.ofNormal,
      Token.leadingIdentifier?, letter, if_true, Option.map_some]
  · rw [← Bool.not_eq_true, hasElement_iff]
    exact absent _
  · rw [covers_bare_iff word.bare, selector.normalForm_text, word.bare.normalForm_eq, or_iff_right]
    · apply or_iff_left
      rintro ⟨d, start, -, mentioned⟩
      rw [whole, List.takeWhile_cons_of_pos inside] at mentioned
      exact absent _ mentioned
    · intro same
      exact absent more (.inl ⟨[], by rw [List.append_nil, same, whole]⟩)

/-- The word stands behind a dash in both names of the selector. -/
def dashedSelector : MarkedSelector where
  members :=
    [([], ⟨'.', "container-div".toList, .inl rfl, List.all_iff_forall_prop.mp (by decide)⟩),
      (" > ".toList, ⟨'#', "main-div".toList, .inr rfl, List.all_iff_forall_prop.mp (by decide)⟩)]
  joined := by
    have spaced : ∀ c ∈ " > ".toList, Combines c := List.all_iff_forall_prop.mp (by decide)
    simpa using spaced
  unled := by decide

def elementWord : LetterWord where
  text := "div".toList
  ascii := List.all_iff_forall_prop.mp (by decide)
  lettered := ⟨'d', rfl, by decide⟩
  unspaced := List.all_iff_forall_prop.mp (by decide)
  dotless := by decide
  signless := by decide

theorem dashed_names_not_elements :
    (Token.parse "div").element? = some "div" ∧
      hasElement ".container-div > #main-div" "div" = false ∧
      covers ".container-div > #main-div" "div" = false := by
  obtain ⟨element, starts, absent, named⟩ := elements_not_found dashedSelector elementWord
  have word : String.ofList elementWord.text = "div" := rfl
  have shown : String.ofList dashedSelector.text = ".container-div > #main-div" := by
    decide +kernel
  have lower : Text.lowercase dashedSelector.text = dashedSelector.text := by decide +kernel
  have parsed : (Token.parse "div").element? = some "div" := by decide +kernel
  rw [word, parsed, Option.some.injEq] at starts
  rw [lower, shown, ← starts] at absent
  rw [shown, word] at named
  refine ⟨parsed, absent, ?_⟩
  rw [← Bool.not_eq_true, named]
  unfold MentionsName MentionsClass
  decide +kernel

end Selector

end StyleLookup
