import StyleLookup.Proofs.Usage.Place

/-!
Which of the names in a class attribute are found. The search looks for whole words, while the names
stand between blanks. The two come to the same for a name that starts and ends with characters of
words.
-/

set_option autoImplicit false

namespace StyleLookup

namespace Text

theorem isWordChar_eq_false_of_isBlank {c : Char} (blank : isBlank c = true) :
    isWordChar c = false := by
  have outside : ∀ point ∈ blankPoints, inRanges point wordRanges = false := by decide +kernel
  exact outside c.toNat (mem_blankPoints blank)

end Text

namespace Attribute

theorem isWordChar_eq_false_of_isQuote {c : Char} (quoted : isQuote c = true) :
    Text.isWordChar c = false := by
  simp only [isQuote, Bool.or_eq_true, beq_iff_eq] at quoted
  rcases quoted with rfl | rfl <;> decide +kernel

theorem quoteless_opening (kind : Attribute) : Quoteless kind.opening := by
  cases kind <;> decide

theorem isWordBoundary_blank_opening (kind : Attribute) :
    Text.isWordBoundary (some ' ') kind.opening.head? = true := by
  cases kind <;> decide +kernel

end Attribute

/-- A name as a class attribute lists it, and as it may stand for itself as a token. -/
structure IsClassName (name : List Char) : Prop where
  ne_nil : name ≠ []
  unblank : name.any Text.isBlank = false
  quoteless : Attribute.Quoteless name
  dotless : name.head? ≠ some '.'
  signless : name.head? ≠ some '#'

theorem IsClassName.searchedName_eq {token : String} (clean : IsClassName token.toList) :
    Usage.searchedName token = token.toList := by
  have unblank (c : Char) (member : c ∈ token.toList) : Text.isBlank c = false := by
    simpa using List.any_eq_false.mp clean.unblank c member
  rw [Usage.searchedName, Text.trim_eq_self_of_unblank unblank]
  cases spelled : token.toList with
  | nil => rfl
  | cons c rest =>
      have dotless := clean.dotless
      have signless := clean.signless
      rw [spelled] at dotless signless
      rw [Selector.dropSigil]
      · simpa using dotless
      · simpa using signless

namespace Attribute

variable {name : List Char} {before after : Option Char}

theorem isWord_iff_of_any_eq {otherBefore otherAfter : Option Char}
    (front : before.any Text.isWordChar = otherBefore.any Text.isWordChar)
    (back : after.any Text.isWordChar = otherAfter.any Text.isWordChar) :
    IsWord name before after ↔ IsWord name otherBefore otherAfter := by
  simp only [IsWord, Text.isWordBoundary, front, back]

/-- Between characters outside words, whole words are the names that start and end inside one. -/
theorem isWord_iff_of_any_eq_false (front : before.any Text.isWordChar = false)
    (back : after.any Text.isWordChar = false) :
    IsWord name before after ↔
      name.head?.any Text.isWordChar = true ∧ name.getLast?.any Text.isWordChar = true := by
  simp [IsWord, Text.isWordBoundary, front, back]

theorem fits_iff_isWord {kind : Attribute} (ne : kind ≠ .id) {quote closing : Char}
    {between inner : List Char} (quoted : isQuote quote = true) (closed : isQuote closing = true) :
    Fits kind name quote between inner closing ↔ IsWord name between.getLast? inner.head? := by
  have front : (quote :: between).getLast?.any Text.isWordChar =
      between.getLast?.any Text.isWordChar := by
    cases between with
    | nil => exact isWordChar_eq_false_of_isQuote quoted
    | cons c between => rw [List.getLast?_cons_cons]
  have back : (inner ++ [closing]).head?.any Text.isWordChar =
      inner.head?.any Text.isWordChar := by
    cases inner with
    | nil => exact isWordChar_eq_false_of_isQuote closed
    | cons c inner => rfl
  rw [← isWord_iff_of_any_eq front back]
  cases kind with
  | id => exact absurd rfl ne
  | classList | className => rfl

end Attribute

/-- A class attribute, with the same quote on both sides and without quotes in its value. -/
structure ClassAttribute where
  kind : Attribute
  quote : Char
  value : List Char
  kind_ne : kind ≠ .id
  quoted : Attribute.isQuote quote = true
  value_free : Attribute.Quoteless value

namespace ClassAttribute

open Attribute (Mention IsWord Quoteless)

/-- The attribute as markup has it, with the blank in front of it. -/
def text (classes : ClassAttribute) : List Char :=
  ' ' :: (classes.kind.opening ++ classes.quote :: (classes.value ++ [classes.quote]))

/-- The name is one of those that white space separates in the value. -/
def Lists (classes : ClassAttribute) (name : List Char) : Prop :=
  ∃ left right, classes.value = left ++ (name ++ right) ∧
    left.getLast?.all Text.isBlank = true ∧ right.head?.all Text.isBlank = true

/-- The name stands somewhere in the value as a whole word. -/
def HasWord (classes : ClassAttribute) (name : List Char) : Prop :=
  ∃ left right, classes.value = left ++ (name ++ right) ∧ IsWord name left.getLast? right.head?

/-- A text goes on from a name in the value, given what stands behind the attribute. -/
def GoesOnInside (classes : ClassAttribute) (name after onward : List Char) : Prop :=
  ∃ left right, classes.value = left ++ (name ++ right) ∧
    onward = name ++ (right ++ classes.quote :: after)

/-- A text goes on from a name in front of the attribute, and the next quote is the opening quote of
the attribute. -/
def GoesOnInto (classes : ClassAttribute) (name after onward : List Char) : Prop :=
  ∃ gap, Quoteless gap ∧
    onward = name ++ (gap ++ classes.quote :: (classes.value ++ classes.quote :: after))

variable {classes : ClassAttribute} {name before after : List Char}

theorem hasWord_of_lists (listed : classes.Lists name)
    (starts : name.head?.any Text.isWordChar = true)
    (ends : name.getLast?.any Text.isWordChar = true) : classes.HasWord name := by
  obtain ⟨left, right, whole, front, back⟩ := listed
  have outside {neighbour : Option Char} (blank : neighbour.all Text.isBlank = true) :
      neighbour.any Text.isWordChar = false := by
    cases neighbour with
    | none => rfl
    | some c => exact Text.isWordChar_eq_false_of_isBlank blank
  exact ⟨left, right, whole, (Attribute.isWord_iff_of_any_eq_false (outside front)
    (outside back)).mpr ⟨starts, ends⟩⟩

/-! ## Mentions of the name in a text with the attribute -/

section Mentions

variable {mention : Mention classes.kind name}

theorem length_of_goesOnInside (whole : mention.text = before ++ (classes.text ++ after))
    (inside : classes.GoesOnInside name after mention.onward) :
    mention.lead.length = before.length + 1 := by
  obtain ⟨left, right, value, onward⟩ := inside
  have split :
      ((mention.lead ++ classes.kind.opening) ++ mention.quote :: mention.between) ++
          mention.onward =
        ((before ++ ' ' :: classes.kind.opening) ++ classes.quote :: left) ++ mention.onward := by
    calc _ = mention.text := by simp [Mention.text, Mention.markup, Mention.value]
      _ = _ := by simp [whole, text, value, onward]
  have leftFree : Quoteless left := by
    have free := classes.value_free
    rw [value, Attribute.quoteless_append_iff] at free
    exact free.1
  obtain ⟨front, -, -⟩ := Attribute.append_cons_inj_of_last mention.between_free leftFree
    mention.quoted classes.quoted (List.append_cancel_right split)
  have counted := congrArg List.length front
  simp only [List.length_append, List.length_cons] at counted
  omega

/-- A mention in the attribute is a place in its value where the name is a whole word. -/
theorem goesOnInside_and_hasWord (quoteless : Quoteless name)
    (whole : mention.text = before ++ (classes.text ++ after))
    (here : mention.lead.length = before.length + 1) :
    classes.GoesOnInside name after mention.onward ∧ classes.HasWord name := by
  have split : mention.lead ++ (classes.kind.opening ++ mention.quote :: mention.value) =
      (before ++ [' ']) ++ (classes.kind.opening ++
        classes.quote :: (classes.value ++ classes.quote :: after)) := by
    calc _ = mention.text := rfl
      _ = _ := by simp [whole, text]
  obtain ⟨-, markup⟩ := List.append_inj split (by simpa using here)
  obtain ⟨-, value⟩ := List.cons.inj (List.append_cancel_left markup)
  have free : Quoteless (mention.between ++ (name ++ mention.inner)) :=
    Attribute.quoteless_append_iff.mpr ⟨mention.between_free,
      Attribute.quoteless_append_iff.mpr ⟨quoteless, mention.inner_free⟩⟩
  obtain ⟨same, closing, rest⟩ := Attribute.append_cons_inj_of_first free classes.value_free
    mention.closed classes.quoted (by simpa [Mention.value, Mention.onward] using value)
  refine ⟨⟨mention.between, mention.inner, same.symm, ?_⟩,
    mention.between, mention.inner, same.symm, ?_⟩
  · rw [Mention.onward, closing, rest]
  · exact (Attribute.fits_iff_isWord classes.kind_ne mention.quoted mention.closed).mp mention.fits

theorem exists_mention_of_hasWord (word : classes.HasWord name) (before after : List Char) :
    ∃ mention : Mention classes.kind name, mention.text = before ++ (classes.text ++ after) ∧
      mention.lead.length = before.length + 1 := by
  obtain ⟨left, right, value, isWord⟩ := word
  have free := classes.value_free
  rw [value, Attribute.quoteless_append_iff, Attribute.quoteless_append_iff] at free
  obtain ⟨leftFree, -, rightFree⟩ := free
  refine ⟨⟨before ++ [' '], classes.quote, left, right, classes.quote, after, ?_, classes.quoted,
    leftFree, rightFree, classes.quoted, ?_⟩, ?_, by simp⟩
  · rw [List.getLast?_append_cons]
    exact Attribute.isWordBoundary_blank_opening classes.kind
  · exact (Attribute.fits_iff_isWord classes.kind_ne classes.quoted classes.quoted).mpr isWord
  · simp [Mention.text, Mention.markup, Mention.value, Mention.onward, text, value]

theorem exists_middle {first second third fourth : List Char}
    (same : first ++ second = third ++ fourth) (shorter : first.length ≤ third.length) :
    ∃ middle, third = first ++ middle ∧ second = middle ++ fourth := by
  obtain ⟨middle, rfl⟩ := List.prefix_of_prefix_length_le ⟨second, same⟩
    (List.prefix_append third fourth) shorter
  exact ⟨middle, rfl, List.append_cancel_left (by rw [same, List.append_assoc])⟩

/-- A mention that starts in front of the attribute and ends behind its start ends at its opening
quote: it cannot end before, where there is no quote, and it has no quotes inside. -/
theorem closes_at_quote (quoteless : Quoteless name)
    (whole : mention.text = before ++ (classes.text ++ after))
    (starts : mention.lead.length ≤ before.length) (reaches : before.length + 1 < mention.past) :
    mention.closing = classes.quote ∧ mention.rest = classes.value ++ classes.quote :: after := by
  let opened := mention.lead ++ (classes.kind.opening ++ [mention.quote])
  let content := mention.between ++ (name ++ mention.inner)
  have split : (opened ++ content) ++ mention.closing :: mention.rest =
      ((before ++ [' ']) ++ classes.kind.opening) ++
        classes.quote :: (classes.value ++ classes.quote :: after) := by
    calc _ = mention.text := by
            simp [opened, content, Mention.text, Mention.markup, Mention.value, Mention.onward]
      _ = _ := by simp [whole, text]
  have past : mention.past = (opened ++ content).length + 1 := by
    simp only [Mention.past, Mention.hit, opened, content, List.length_append, List.length_cons,
      List.length_nil]
    omega
  have free : Quoteless content :=
    Attribute.quoteless_append_iff.mpr ⟨mention.between_free,
      Attribute.quoteless_append_iff.mpr ⟨quoteless, mention.inner_free⟩⟩
  have start : (before ++ [' ']).length ≤ (opened ++ content).length := by
    rw [List.length_append, List.length_singleton]
    omega
  have quote : opened.length ≤ ((before ++ [' ']) ++ classes.kind.opening).length := by
    simp only [opened, List.length_append, List.length_singleton]
    omega
  obtain shorter | longer := Nat.le_total (opened ++ content).length
    ((before ++ [' ']) ++ classes.kind.opening).length
  · obtain ⟨middle, upToQuote, back⟩ := exists_middle split shorter
    cases middle with
    | nil =>
        obtain ⟨closing, rest⟩ := List.cons.inj back
        exact ⟨closing, rest⟩
    | cons c middle =>
        -- The closing quote would stand in the name of the attribute.
        obtain ⟨closing, -⟩ := List.cons.inj back
        obtain ⟨front, -, opening⟩ := exists_middle upToQuote start
        have plain := Attribute.quoteless_opening classes.kind c (by rw [opening]; simp)
        rw [← closing, mention.closed] at plain
        cases plain
  · obtain ⟨middle, upToClosing, back⟩ := exists_middle split.symm longer
    cases middle with
    | nil =>
        obtain ⟨closing, rest⟩ := List.cons.inj back
        exact ⟨closing.symm, rest.symm⟩
    | cons c middle =>
        -- The opening quote would stand in what the mention encloses.
        obtain ⟨opening, -⟩ := List.cons.inj back
        obtain ⟨front, -, inside⟩ := exists_middle upToClosing quote
        have plain := free c (by rw [inside]; simp)
        rw [← opening, classes.quoted] at plain
        cases plain

theorem goesOnInto_iff (quoteless : Quoteless name)
    (whole : mention.text = before ++ (classes.text ++ after)) :
    classes.GoesOnInto name after mention.onward ↔
      mention.lead.length ≤ before.length ∧ before.length + 1 < mention.past := by
  constructor
  · intro into
    obtain ⟨gap, free, onward⟩ := into
    obtain ⟨-, -, rest⟩ := Attribute.append_cons_inj_of_first mention.inner_free free
      mention.closed classes.quoted (List.append_cancel_left onward)
    have length := mention.length_text
    rw [whole, rest] at length
    simp only [Mention.past, Mention.hit, text, List.length_append, List.length_cons,
      List.length_nil] at length ⊢
    omega
  · intro overlapping
    obtain ⟨starts, reaches⟩ := overlapping
    obtain ⟨closing, rest⟩ := closes_at_quote quoteless whole starts reaches
    exact ⟨mention.inner, mention.inner_free, by rw [Mention.onward, closing, rest]⟩

end Mentions

/-- In a text with the attribute in it, the name is found in the value exactly if it is a whole word
there and no place in front is found from which the search goes on through the opening quote. -/
theorem exists_place_iff {text : List Char} (named : name ≠ []) (quoteless : Quoteless name)
    (whole : text = before ++ (classes.text ++ after)) :
    (∃ place ∈ classes.kind.places name text,
        classes.GoesOnInside name after (text.drop place)) ↔
      classes.HasWord name ∧ ¬ ∃ place ∈ classes.kind.places name text,
        classes.GoesOnInto name after (text.drop place) := by
  obtain ⟨mentions, places, scanned⟩ := Attribute.exists_scanned_places named classes.kind text
  have found (P : List Char → Prop) :
      (∃ place ∈ classes.kind.places name text, P (text.drop place)) ↔
        ∃ mention ∈ mentions, P mention.onward := by
    rw [places]
    simp only [List.mem_map, exists_exists_and_eq_and]
    apply exists_congr
    intro mention
    apply and_congr_right
    intro member
    rw [← scanned.text_eq mention member, mention.drop_place_text]
  rw [found, found]
  constructor
  · intro found
    obtain ⟨mention, member, inside⟩ := found
    have here := length_of_goesOnInside ((scanned.text_eq mention member).trans whole) inside
    refine ⟨(goesOnInside_and_hasWord quoteless ((scanned.text_eq mention member).trans whole)
      here).2, ?_⟩
    intro taken
    obtain ⟨earlier, earlierMember, into⟩ := taken
    obtain ⟨starts, reaches⟩ :=
      (goesOnInto_iff quoteless ((scanned.text_eq earlier earlierMember).trans whole)).mp into
    have apart := scanned.past_le_of_lt earlierMember member (by omega)
    omega
  · intro standing
    obtain ⟨word, free⟩ := standing
    obtain ⟨sought, soughtText, start⟩ := exists_mention_of_hasWord word before after
    obtain ⟨mention, member, starts, reaches⟩ :=
      scanned.complete sought (soughtText.trans whole.symm) (Nat.zero_le _)
    have inText := (scanned.text_eq mention member).trans whole
    rw [start] at starts reaches
    rcases Nat.lt_or_eq_of_le starts with front | here
    · exact absurd ⟨mention, member, (goesOnInto_iff quoteless inText).mpr
        ⟨Nat.le_of_lt_succ front, reaches⟩⟩ free
    · exact ⟨mention, member, (goesOnInside_and_hasWord quoteless inText here).1⟩

end ClassAttribute

namespace Usage

variable {fs : Snapshot} {scoping : Scoping} {extensions : List String} {token : String}
  {root path : Path} {content : String} {before after : List Char} {classes : ClassAttribute}

theorem exists_mem_find_iff {kind : Attribute} (named : searchedName token ≠ [])
    (walked : path ∈ (Discovery.walk fs scoping (hasExtension extensions) root).run)
    (read : fs.readText path = .ok content) (P : List Char → Prop) :
    (∃ usage ∈ (find fs scoping extensions token root).run,
        usage.path = path ∧ usage.kind = kind ∧ P (usage.onward content.toList)) ↔
      ∃ place ∈ kind.places (searchedName token) content.toList, P (content.toList.drop place) := by
  constructor
  · intro reported
    obtain ⟨usage, member, rfl, rfl, holds⟩ := reported
    obtain ⟨-, -, other, again, place, found, same⟩ := mem_run_find_iff.mp member
    obtain rfl : content = other := by
      rw [read] at again
      cases again
      rfl
    rw [← same, onward_ofOffset] at holds
    exact ⟨place, found, holds⟩
  · intro here
    obtain ⟨place, found, holds⟩ := here
    refine ⟨ofOffset path kind content.toList place, mem_run_find_iff.mpr
      ⟨named, walked, content, read, place, found, rfl⟩, rfl, rfl, ?_⟩
    rwa [onward_ofOffset]

/-- A name that a class attribute lists is found there exactly if it is a whole word somewhere in
the value, as each name is that starts and ends with characters of words, and if no usage in front
of the attribute has taken its opening quote for a closing one. -/
theorem exists_mem_find_inside_iff (clean : IsClassName token.toList)
    (walked : path ∈ (Discovery.walk fs scoping (hasExtension extensions) root).run)
    (read : fs.readText path = .ok content)
    (whole : content.toList = before ++ (classes.text ++ after))
    (listed : classes.Lists token.toList) :
    ((∃ usage ∈ (find fs scoping extensions token root).run,
        usage.path = path ∧ usage.kind = classes.kind ∧
          classes.GoesOnInside token.toList after (usage.onward content.toList)) ↔
      classes.HasWord token.toList ∧
        ¬ ∃ usage ∈ (find fs scoping extensions token root).run,
          usage.path = path ∧ usage.kind = classes.kind ∧
            classes.GoesOnInto token.toList after (usage.onward content.toList)) ∧
      (token.toList.head?.any Text.isWordChar = true →
        token.toList.getLast?.any Text.isWordChar = true → classes.HasWord token.toList) := by
  have named : searchedName token ≠ [] := clean.searchedName_eq ▸ clean.ne_nil
  refine ⟨?_, ClassAttribute.hasWord_of_lists listed⟩
  rw [exists_mem_find_iff named walked read, exists_mem_find_iff named walked read,
    clean.searchedName_eq]
  exact ClassAttribute.exists_place_iff clean.ne_nil clean.quoteless whole

def twoNames : ClassAttribute where
  kind := .classList
  quote := '"'
  value := "a-b b".toList
  kind_ne := by decide
  quoted := by decide
  value_free := by decide

/-- The usage that is found for a listed name need not be at its own place. -/
theorem twoNames_found :
    let page := onePage "<p class=\"a-b b\">"
    IsClassName "b".toList ∧ twoNames.Lists "b".toList ∧
      (find page .standard ["html"] "b" ⟨"/w"⟩).run = [⟨⟨"/w/i.html"⟩, 0, 12, .classList⟩] ∧
        ∃ usage ∈ (find page .standard ["html"] "b" ⟨"/w"⟩).run,
          usage.path = ⟨"/w/i.html"⟩ ∧ usage.kind = .classList ∧
            twoNames.GoesOnInside "b".toList ">".toList
              (usage.onward "<p class=\"a-b b\">".toList) := by
  intro page
  have clean : IsClassName "b".toList :=
    ⟨by decide, by decide, by decide, by decide, by decide⟩
  have listed : twoNames.Lists "b".toList :=
    ⟨"a-b ".toList, [], rfl, by decide +kernel, by decide +kernel⟩
  have all : (find page .standard ["html"] "b" ⟨"/w"⟩).run =
      [⟨⟨"/w/i.html"⟩, 0, 12, .classList⟩] := by decide +kernel
  have walked : (⟨"/w/i.html"⟩ : Path) ∈
      (Discovery.walk page .standard (hasExtension ["html"]) ⟨"/w"⟩).run := by
    rw [walk_onePage]
    exact List.mem_singleton_self _
  have read : page.readText ⟨"/w/i.html"⟩ = .ok "<p class=\"a-b b\">" := rfl
  have whole : "<p class=\"a-b b\">".toList =
      "<p".toList ++ (twoNames.text ++ ">".toList) := by decide
  obtain ⟨found, word⟩ := exists_mem_find_inside_iff clean walked read whole listed
  refine ⟨clean, listed, all, found.mpr ⟨word (by decide +kernel) (by decide +kernel), ?_⟩⟩
  intro taken
  obtain ⟨usage, member, -, -, gap, -, onward⟩ := taken
  have rest : usage.onward "<p class=\"a-b b\">".toList = "b b\">".toList := by
    rw [all, List.mem_singleton] at member
    subst member
    decide +kernel
  have counted := congrArg List.length (rest.symm.trans onward)
  have short : "b b\">".toList.length = 5 := by decide
  have value : twoNames.value.length = 5 := by decide
  simp only [List.length_append, List.length_cons] at counted
  omega

def hyphenated : ClassAttribute where
  kind := .classList
  quote := '"'
  value := "-mt-2".toList
  kind_ne := by decide
  quoted := by decide
  value_free := by decide

/-- A name that starts with a hyphen is not found where it stands alone. -/
theorem hyphenated_missed :
    IsClassName "-mt-2".toList ∧ hyphenated.Lists "-mt-2".toList ∧
      "<p class=\"-mt-2\">".toList = "<p".toList ++ (hyphenated.text ++ ">".toList) ∧
        (find (onePage "<p class=\"-mt-2\">") .standard ["html"] "-mt-2" ⟨"/w"⟩).run = [] := by
  refine ⟨⟨by decide, by decide, by decide, by decide, by decide⟩,
    ⟨[], [], rfl, by decide, by decide⟩, by decide, by decide +kernel⟩

/-- An attribute that is not closed takes the opening quote of the next one. -/
example : (find (onePage "<p class=\"b class=\"b\">") .standard ["html"] "b" ⟨"/w"⟩).run =
    [⟨⟨"/w/i.html"⟩, 0, 10, .classList⟩] := by decide +kernel

end Usage

end StyleLookup
