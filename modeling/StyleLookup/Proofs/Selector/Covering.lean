import StyleLookup.Proofs.Text.Stretch
import StyleLookup.Selector.Matching

/-!
What it means for a selector to cover a token, said without reading the token from left to right: a
name counts wherever it stands behind its sigil in full length.
-/

set_option autoImplicit false

namespace StyleLookup

namespace Token

/-- A text holds a name behind a sigil. The name goes on as far as it can. -/
def HoldsName (sigil : Char) (text name : List Char) : Prop :=
  name ≠ [] ∧ (∀ c ∈ name, isNameChar c = true) ∧
    ∃ before after, text = before ++ sigil :: (name ++ after) ∧
      ∀ c ∈ after.head?, isNameChar c = false

/-- A name behind a sigil at the start of a text is the full run of name characters there; every
other name stands further on. -/
theorem holdsName_cons_iff {sigil c : Char} {rest name : List Char} :
    HoldsName sigil (c :: rest) name ↔
      (c = sigil ∧ name ≠ [] ∧ name = rest.takeWhile isNameChar) ∨ HoldsName sigil rest name := by
  constructor
  · rintro ⟨nonempty, inside, before, after, whole, stop⟩
    cases before with
    | nil =>
        obtain ⟨rfl, rfl⟩ := List.cons.inj whole
        exact .inl ⟨rfl, nonempty, (Text.takeWhile_stretch inside stop).symm⟩
    | cons first before =>
        obtain ⟨-, rfl⟩ := List.cons.inj whole
        exact .inr ⟨nonempty, inside, before, after, rfl, stop⟩
  · rintro (⟨rfl, nonempty, rfl⟩ | ⟨nonempty, inside, before, after, rfl, stop⟩)
    · refine ⟨nonempty, fun d member => List.mem_takeWhile_imp member, [],
        rest.dropWhile isNameChar, ?_, fun d first => Text.outside_of_mem_head?_dropWhile first⟩
      rw [List.takeWhile_append_dropWhile]
      rfl
    · exact ⟨nonempty, inside, c :: before, after, rfl, stop⟩

theorem mem_namesAfter_cons_iff {sigil c : Char} {rest name : List Char} :
    name ∈ namesAfter sigil (c :: rest) ↔
      (c = sigil ∧ name ≠ [] ∧ name = rest.takeWhile isNameChar) ∨
        name ∈ namesAfter sigil rest := by
  simp only [namesAfter]
  cases run : rest.takeWhile isNameChar with
  | nil =>
      have absent : ¬ (name ≠ [] ∧ name = []) := fun both => both.1 both.2
      simp [absent]
  | cons first more =>
      have nonempty : name = first :: more → name ≠ [] := fun whole => by simp [whole]
      by_cases same : c = sigil <;> simp [same, and_iff_right_of_imp nonempty]

theorem mem_namesAfter_iff {sigil : Char} {text name : List Char} :
    name ∈ namesAfter sigil text ↔ HoldsName sigil text name := by
  induction text with
  | nil => simp [namesAfter, HoldsName]
  | cons c rest ih => rw [mem_namesAfter_cons_iff, holdsName_cons_iff, ih]

/-- A text may stand for a name behind a sigil: it holds the name so, or it is the name and holds
neither sigil. -/
def Offers (sigil : Char) (text name : List Char) : Prop :=
  HoldsName sigil text name ∨ (name = text ∧ '.' ∉ text ∧ '#' ∉ text)

theorem isBareWord_iff {text : List Char} :
    isBareWord text = true ↔ text ≠ [] ∧ '.' ∉ text ∧ '#' ∉ text := by
  simp [isBareWord, and_assoc]

theorem mem_listed_iff {sigil : Char} {text name : List Char} (nonempty : text ≠ []) :
    name ∈ namesAfter sigil text ++ (if isBareWord text then [text] else []) ↔
      Offers sigil text name := by
  rw [List.mem_append, mem_namesAfter_iff, Offers]
  apply or_congr_right
  by_cases bare : isBareWord text = true
  · simp [bare, (isBareWord_iff.mp bare).2]
  · have sigils : ¬ ('.' ∉ text ∧ '#' ∉ text) := fun absent =>
      bare (isBareWord_iff.mpr ⟨nonempty, absent⟩)
    simp [bare, sigils]

end Token

namespace Selector

def MentionsClass (selector name : List Char) : Prop :=
  '.' :: name <:+: selector ∨ "[class*=\"".toList ++ name ++ "\"]".toList <:+: selector ∨
    "[class~=\"".toList ++ name ++ "\"]".toList <:+: selector

/-- A selector text mentions an element, at its start or right after a space or combinator. -/
def MentionsElement (selector name : List Char) : Prop :=
  name <+: selector ∨ ∃ mark ∈ [' ', '>', '+', '~'], mark :: name <:+: selector

theorem hasClass_iff {selector name : List Char} :
    hasClass (String.ofList selector) (String.ofList name) = true ↔
      MentionsClass selector name := by
  simp only [hasClass, MentionsClass, String.toList_ofList, Bool.or_eq_true, Text.contains_iff,
    or_assoc]

theorem hasId_iff {selector name : List Char} :
    hasId (String.ofList selector) (String.ofList name) = true ↔ '#' :: name <:+: selector := by
  simp only [hasId, String.toList_ofList, Text.contains_iff]

theorem hasElement_iff {selector name : List Char} :
    hasElement (String.ofList selector) (String.ofList name) = true ↔
      MentionsElement selector name := by
  simp only [hasElement, MentionsElement, elementMarks, String.toList_ofList, Bool.or_eq_true,
    List.isPrefixOf_iff_prefix, List.any_eq_true, Text.contains_iff]

theorem any_class_iff {text wanted : List Char} (nonempty : wanted ≠ []) :
    (Token.ofNormal wanted).classes.any (hasClass (String.ofList text)) = true ↔
      ∃ name, Token.Offers '.' wanted name ∧ MentionsClass text name := by
  simp only [Token.ofNormal, List.any_map, List.any_eq_true, Function.comp, hasClass_iff,
    Token.mem_listed_iff nonempty]

theorem any_id_iff {text wanted : List Char} (nonempty : wanted ≠ []) :
    (Token.ofNormal wanted).ids.any (hasId (String.ofList text)) = true ↔
      ∃ name, Token.Offers '#' wanted name ∧ '#' :: name <:+: text := by
  simp only [Token.ofNormal, List.any_map, List.any_eq_true, Function.comp, hasId_iff,
    Token.mem_listed_iff nonempty]

theorem any_element_iff {text wanted : List Char} :
    (Token.ofNormal wanted).element?.any (hasElement (String.ofList text)) = true ↔
      ∃ first ∈ wanted.head?, first.isAlpha = true ∧
        MentionsElement text (wanted.takeWhile Char.isAlphanum) := by
  cases wanted with
  | nil => simp [Token.ofNormal, Token.leadingIdentifier?]
  | cons first rest =>
      by_cases letter : first.isAlpha = true
      · have inside : first.isAlphanum = true := by simp [Char.isAlphanum, letter]
        simp only [Token.ofNormal, Token.leadingIdentifier?, letter, if_true, Option.map_some,
          Option.any_some, hasElement_iff, List.takeWhile_cons_of_pos inside, List.head?_cons,
          Option.mem_some_iff, exists_eq_left', true_and]
      · simp [Token.ofNormal, Token.leadingIdentifier?, letter]

/-- A selector covers a token exactly if the token is not blank and, both being trimmed and in lower
case, they are the same, or the selector mentions a class or an id that the token offers, or the
element that the token starts with. -/
theorem covers_iff (selector token : String) :
    let text := Text.lowercase (Text.trim selector.toList)
    let wanted := Text.lowercase (Text.trim token.toList)
    covers selector token = true ↔
      wanted ≠ [] ∧
        (text = wanted ∨
          (∃ name, Token.Offers '.' wanted name ∧ MentionsClass text name) ∨
          (∃ name, Token.Offers '#' wanted name ∧ '#' :: name <:+: text) ∨
          (∃ first ∈ wanted.head?, first.isAlpha = true ∧
            MentionsElement text (wanted.takeWhile Char.isAlphanum))) := by
  intro text wanted
  have parsed : Token.parse token = Token.ofNormal wanted := rfl
  have normal : Token.normalForm selector.toList = text := rfl
  have empty : (Token.parse token).isEmpty = true ↔ wanted = [] := by
    simp [Token.isEmpty, parsed, Token.ofNormal]
  have same : (String.ofList text == (Token.parse token).text) = true ↔ text = wanted := by
    simp [parsed, Token.ofNormal, String.ofList_inj]
  by_cases blank : wanted = []
  · simp [covers, matchesToken, empty.mpr blank, blank]
  · have present : (Token.parse token).isEmpty = false := by
      rw [← Bool.not_eq_true, empty]
      exact blank
    simp only [covers, matchesToken, normal, present, Bool.not_false, Bool.true_and,
      Bool.or_eq_true]
    rw [same, parsed, any_class_iff blank, any_id_iff blank, any_element_iff]
    simp only [ne_eq, blank, not_false_eq_true, true_and, or_assoc]

end Selector

end StyleLookup
