import Mathlib.Data.List.Basic
import StyleLookup.Proofs.Text.CaseMap

/-!
Lower-casing of whole texts. Done twice it does nothing more, it keeps white space and marks where
they are, and it does not see the case of ASCII letters. What a part of a text becomes depends on
the rest in one place only: at a capital sigma behind which the part has no more letters.
-/

set_option autoImplicit false

namespace StyleLookup.Text

/-! ## Parts of a text -/

/-- A part of a text in lower case. The text in front of it is given from its end. -/
def lowercaseBetween (before : List Char) : List Char → List Char → List Char
  | [], _ => []
  | c :: part, after =>
      lowerAt before c (part ++ after) ++ lowercaseBetween (c :: before) part after

section Parts

variable {before part after : List Char} {c d : Char}

theorem lowercaseAfter_append (before part after : List Char) :
    lowercaseAfter before (part ++ after) =
      lowercaseBetween before part after ++ lowercaseAfter (part.reverse ++ before) after := by
  induction part generalizing before with
  | nil => rfl
  | cons c part ih =>
      rw [List.cons_append, lowercaseAfter, ih, lowercaseBetween, List.append_assoc,
        List.reverse_cons, List.append_assoc, List.singleton_append]

theorem lowercaseBetween_nil (before part : List Char) :
    lowercaseBetween before part [] = lowercaseAfter before part := by
  have whole := lowercaseAfter_append before part []
  rw [List.append_nil] at whole
  rw [whole, lowercaseAfter, List.append_nil]

theorem exists_of_mem_lowercaseBetween (member : d ∈ lowercaseBetween before part after) :
    ∃ c ∈ part, ∃ front back, d ∈ lowerAt front c back := by
  induction part generalizing before with
  | nil => cases member
  | cons c part ih =>
      rcases List.mem_append.mp member with here | later
      · exact ⟨c, List.mem_cons_self, _, _, here⟩
      · obtain ⟨origin, listed, front, back, becomes⟩ := ih later
        exact ⟨origin, List.mem_cons_of_mem c listed, front, back, becomes⟩

theorem exists_of_mem_lowercase {text : List Char} (member : d ∈ lowercase text) :
    ∃ c ∈ text, ∃ front back, d ∈ lowerAt front c back := by
  rw [lowercase, ← lowercaseBetween_nil] at member
  exact exists_of_mem_lowercaseBetween member

theorem length_lowercaseBetween (before part after other rest : List Char) :
    (lowercaseBetween before part after).length = (lowercaseBetween other part rest).length := by
  induction part generalizing before other with
  | nil => rfl
  | cons c part ih =>
      rw [lowercaseBetween, lowercaseBetween, List.length_append, List.length_append,
        ih (c :: before) (c :: other), length_lowerAt]

end Parts

/-! ## Once and twice -/

theorem lowercase_of_isLower {text : List Char} (lower : ∀ c ∈ text, IsLower c) :
    lowercase text = text := by
  have fromHere (before : List Char) : lowercaseAfter before text = text := by
    induction text generalizing before with
    | nil => rfl
    | cons c text ih =>
        obtain ⟨first, later⟩ := List.forall_mem_cons.mp lower
        rw [lowercaseAfter, lowerAt_of_isLower first, ih later, List.singleton_append]
  exact fromHere []

theorem lowercase_lowercase (text : List Char) : lowercase (lowercase text) = lowercase text := by
  apply lowercase_of_isLower
  intro d member
  obtain ⟨c, -, front, back, becomes⟩ := exists_of_mem_lowercase member
  exact isLower_of_mem_lowerAt becomes

theorem lowercase_eq_nil_iff {text : List Char} : lowercase text = [] ↔ text = [] := by
  cases text with
  | nil => simp [lowercase, lowercaseAfter]
  | cons c text => simp [lowercase, lowercaseAfter, lowerAt_ne_nil]

/-- Lower-casing brings no marks of ASCII into a text. -/
theorem not_mem_lowercaseBetween {mark : Char} (ascii : mark.toNat < 0x80)
    (unlettered : mark.isAlpha = false) {part : List Char} (absent : mark ∉ part)
    (before after : List Char) : mark ∉ lowercaseBetween before part after := by
  intro member
  obtain ⟨c, listed, front, back, becomes⟩ := exists_of_mem_lowercaseBetween member
  exact absent (eq_of_mem_lowerAt becomes ascii unlettered ▸ listed)

theorem not_mem_lowercase {mark : Char} (ascii : mark.toNat < 0x80)
    (unlettered : mark.isAlpha = false) {text : List Char} (absent : mark ∉ text) :
    mark ∉ lowercase text := by
  rw [lowercase, ← lowercaseBetween_nil]
  exact not_mem_lowercaseBetween ascii unlettered absent [] []

theorem infix_of_infix_append {mark : Char} {form front back : List Char} (absent : mark ∉ front)
    (held : mark :: form <:+: front ++ back) : mark :: form <:+: back := by
  rcases List.infix_append_iff.mp held with early | late | ⟨first, second, whole, ends, starts⟩
  · exact absurd (early.subset List.mem_cons_self) absent
  · exact late
  · cases first with
    | nil =>
        rw [List.nil_append] at whole
        exact (whole ▸ starts).isInfix
    | cons c first =>
        obtain ⟨rfl, -⟩ := List.cons.inj whole
        exact absurd (ends.subset List.mem_cons_self) absent

/-- A mark of ASCII in a text in lower case stands at the same place in the text, and what comes
behind it is the rest of the text in lower case. -/
theorem exists_of_infix_lowercaseAfter {mark : Char} (ascii : mark.toNat < 0x80)
    (unlettered : mark.isAlpha = false) {form before text : List Char}
    (held : mark :: form <:+: lowercaseAfter before text) :
    ∃ front back, text = front ++ mark :: back ∧
      form <+: lowercaseAfter (mark :: (front.reverse ++ before)) back := by
  induction text generalizing before with
  | nil => simp [lowercaseAfter] at held
  | cons c text ih =>
      rw [lowercaseAfter] at held
      have further (later : mark :: form <:+: lowercaseAfter (c :: before) text) :
          ∃ front back, c :: text = front ++ mark :: back ∧
            form <+: lowercaseAfter (mark :: (front.reverse ++ before)) back := by
        obtain ⟨front, back, rfl, starts⟩ := ih later
        exact ⟨c :: front, back, rfl, by simpa using starts⟩
      by_cases here : mark ∈ lowerAt before c text
      · have lower := isLower_of_mem_lowerAt here
        obtain rfl := eq_of_mem_lowerAt here ascii unlettered
        rw [lowerAt_of_isLower lower, List.singleton_append, List.infix_cons_iff,
          List.cons_prefix_cons] at held
        rcases held with ⟨-, starts⟩ | later
        · exact ⟨[], text, rfl, starts⟩
        · exact further later
      · exact further (infix_of_infix_append here held)

/-- A trimmed text in lower case is trimmed. -/
theorem trim_lowercase_trim (text : List Char) :
    trim (lowercase (trim text)) = lowercase (trim text) := by
  apply trim_eq_self
  · intro d first
    cases start : trim text with
    | nil =>
        rw [start] at first
        cases first
    | cons c rest =>
        rw [start, lowercase, lowercaseAfter,
          List.head?_append_of_ne_nil _ (lowerAt_ne_nil _ _ _)] at first
        rw [isBlank_of_mem_lowerAt (List.mem_of_mem_head? first)]
        exact isBlank_of_mem_head?_trim (by rw [start]; rfl)
  · intro d last
    rcases List.eq_nil_or_concat' (trim text) with none | ⟨front, c, whole⟩
    · rw [none] at last
      cases last
    · have ending : lowercase (trim text) =
          lowercaseBetween [] front [c] ++ lowerAt (front.reverse ++ []) c [] := by
        rw [whole, lowercase, lowercaseAfter_append, lowercaseAfter, lowercaseAfter,
          List.append_nil]
      rw [ending, List.getLast?_append_of_ne_nil _ (lowerAt_ne_nil _ _ _)] at last
      rw [isBlank_of_mem_lowerAt (List.mem_of_mem_getLast? last)]
      have ink : c ∈ (trimEnd (trimStart text)).getLast? := by
        rw [← trim, whole, List.getLast?_concat]
        rfl
      exact isBlank_of_mem_getLast?_trimEnd ink

/-! ## The case of ASCII letters -/

/-- A class of characters that does not tell small letters of ASCII from capital ones. -/
theorem asciiLower_invariant {inside : Char → Bool}
    (table : ∀ point < 0x80, inside (asciiLower (Char.ofNat point)) = inside (Char.ofNat point))
    (c : Char) : inside (asciiLower c) = inside c := by
  rcases Nat.lt_or_ge c.toNat 0x80 with ascii | beyond
  · exact ascii_forall c ascii table
  · rw [asciiLower_of_not_ascii beyond]

theorem isBlank_asciiLower (c : Char) : isBlank (asciiLower c) = isBlank c :=
  asciiLower_invariant (by decide +kernel) c

theorem isCased_asciiLower (c : Char) : isCased (asciiLower c) = isCased c :=
  asciiLower_invariant (by decide +kernel) c

theorem isCaseIgnorable_asciiLower (c : Char) :
    isCaseIgnorable (asciiLower c) = isCaseIgnorable c :=
  asciiLower_invariant (by decide +kernel) c

theorem asciiLower_asciiLower (c : Char) : asciiLower (asciiLower c) = asciiLower c := by
  rcases Nat.lt_or_ge c.toNat 0x80 with ascii | beyond
  · exact ascii_forall c ascii (by decide +kernel)
  · rw [asciiLower_of_not_ascii beyond, asciiLower_of_not_ascii beyond]

theorem dropWhile_map_asciiLower {inside : Char → Bool}
    (same : ∀ c, inside (asciiLower c) = inside c) (text : List Char) :
    (text.map asciiLower).dropWhile inside = (text.dropWhile inside).map asciiLower := by
  rw [List.dropWhile_map]
  exact congrArg (fun test => (text.dropWhile test).map asciiLower) (funext same)

theorem trim_map_asciiLower (text : List Char) :
    trim (text.map asciiLower) = (trim text).map asciiLower := by
  simp only [trim, trimStart, trimEnd, dropEndWhile, ← List.map_reverse,
    dropWhile_map_asciiLower isBlank_asciiLower]

theorem startsCased_map_asciiLower (text : List Char) :
    startsCased (text.map asciiLower) = startsCased text := by
  rw [startsCased, startsCased, dropWhile_map_asciiLower isCaseIgnorable_asciiLower]
  cases text.dropWhile isCaseIgnorable with
  | nil => rfl
  | cons c rest => exact isCased_asciiLower c

theorem lowerAt_map_asciiLower (before : List Char) (c : Char) (after : List Char) :
    lowerAt (before.map asciiLower) (asciiLower c) (after.map asciiLower) =
      lowerAt before c after := by
  rcases Nat.lt_or_ge c.toNat 0x80 with ascii | beyond
  · have lowered : (asciiLower c).toNat < 0x80 := ascii_forall c ascii (by decide +kernel)
    rw [lowerAt_of_isPlain (.inl lowered), lowerAt_of_isPlain (.inl ascii), asciiLower_asciiLower]
  · rw [asciiLower_of_not_ascii beyond, lowerAt, lowerAt, endsWord, endsWord,
      startsCased_map_asciiLower, startsCased_map_asciiLower]

theorem lowercase_map_asciiLower (text : List Char) :
    lowercase (text.map asciiLower) = lowercase text := by
  have fromHere (before : List Char) :
      lowercaseAfter (before.map asciiLower) (text.map asciiLower) =
        lowercaseAfter before text := by
    induction text generalizing before with
    | nil => rfl
    | cons c text ih =>
        rw [List.map_cons, lowercaseAfter, lowercaseAfter, lowerAt_map_asciiLower,
          ← List.map_cons, ih (c :: before)]
  exact fromHere []

/-! ## The neighbourhood -/

theorem startsCased_append (text rest : List Char) :
    startsCased (text ++ rest) =
      if text.all isCaseIgnorable then startsCased rest else startsCased text := by
  unfold startsCased
  rw [List.dropWhile_append]
  by_cases through : text.all isCaseIgnorable = true
  · have gone : text.dropWhile isCaseIgnorable = [] :=
      List.dropWhile_eq_nil_iff.mpr (List.all_eq_true.mp through)
    simp only [gone, through, List.isEmpty_nil, if_true]
  · obtain ⟨c, more, stop⟩ := List.exists_cons_of_ne_nil fun gone =>
      through (List.all_eq_true.mpr (List.dropWhile_eq_nil_iff.mp gone))
    simp only [stop, through, List.isEmpty_cons, Bool.false_eq_true, if_false, List.cons_append]

theorem startsCased_of_all {text : List Char} (through : text.all isCaseIgnorable = true) :
    startsCased text = false := by
  have whole := startsCased_append text []
  rw [List.append_nil, if_pos through] at whole
  exact whole

/-- White space behind a text is no letter of it. -/
theorem startsCased_append_blank {tail : List Char} (blank : AllBlank tail) (text : List Char) :
    startsCased (text ++ tail) = startsCased text := by
  rw [startsCased_append]
  split
  · rename_i through
    rw [startsCased_of_all through]
    cases tail with
    | nil => rfl
    | cons c tail =>
        have table : ∀ point ∈ blankPoints, isCaseIgnorable (Char.ofNat point) = false ∧
            isCased (Char.ofNat point) = false := by decide +kernel
        have outside := table c.toNat (mem_blankPoints (blank c List.mem_cons_self))
        rw [Char.ofNat_toNat] at outside
        simp [startsCased, outside]
  · rfl

theorem lowerAt_eq_iff {c : Char} {before after other rest : List Char} :
    lowerAt before c after = lowerAt other c rest ↔
      (c = 'Σ' → endsWord before after = endsWord other rest) := by
  unfold lowerAt
  by_cases sigma : c = 'Σ'
  · simp only [sigma, if_true, forall_const]
    cases endsWord before after <;> cases endsWord other rest <;> decide
  · simp [sigma]

/-- A part becomes the same in two neighbourhoods exactly if the same ones of its capital sigmas end
a word. -/
theorem lowercaseBetween_eq_iff {part before after other rest : List Char} :
    lowercaseBetween before part after = lowercaseBetween other part rest ↔
      ∀ front back, part = front ++ 'Σ' :: back →
        endsWord (front.reverse ++ before) (back ++ after) =
          endsWord (front.reverse ++ other) (back ++ rest) := by
  induction part generalizing before other with
  | nil => simp [lowercaseBetween]
  | cons c part ih =>
      have split : lowercaseBetween before (c :: part) after =
          lowercaseBetween other (c :: part) rest ↔
            lowerAt before c (part ++ after) = lowerAt other c (part ++ rest) ∧
              lowercaseBetween (c :: before) part after =
                lowercaseBetween (c :: other) part rest := by
        rw [lowercaseBetween, lowercaseBetween]
        exact ⟨fun same => List.append_inj same (length_lowerAt _ _ _ _ _),
          fun ⟨first, later⟩ => first ▸ later ▸ rfl⟩
      rw [split, lowerAt_eq_iff, ih]
      constructor
      · rintro ⟨first, later⟩ front back whole
        cases front with
        | nil =>
            obtain ⟨sigma, rfl⟩ := List.cons.inj whole
            exact first sigma
        | cons d front =>
            obtain ⟨rfl, further⟩ := List.cons.inj whole
            simpa using later front back further
      · intro all
        constructor
        · rintro rfl
          exact all [] part rfl
        · rintro front back rfl
          simpa using all (c :: front) back rfl

/-- A text that ends inside a word: it has a word that ends with a capital sigma and then no more
letters, and the word goes on with a letter in what comes after the text. -/
def BreaksWord (text after : List Char) : Prop :=
  startsCased after = true ∧ ∃ front back, text = front ++ 'Σ' :: back ∧
    startsCased front.reverse = true ∧ back.all isCaseIgnorable = true

/-- Behind a character that is no letter, a text becomes what it becomes alone unless it ends inside
a word. -/
theorem lowercaseBetween_eq_lowercase_iff {mark : Char} (uncased : startsCased [mark] = false)
    {text after : List Char} :
    lowercaseBetween [mark] text after = lowercase text ↔ ¬ BreaksWord text after := by
  have front (piece : List Char) :
      startsCased (piece.reverse ++ [mark]) = startsCased piece.reverse := by
    rw [startsCased_append]
    split
    · rename_i through
      rw [uncased, startsCased_of_all through]
    · rfl
  have back (piece : List Char) : startsCased (piece ++ after) = startsCased piece ↔
      ¬ (piece.all isCaseIgnorable = true ∧ startsCased after = true) := by
    rw [startsCased_append]
    split
    · rename_i through
      simp [through, startsCased_of_all through]
    · rename_i stops
      simp [stops]
  rw [lowercase, ← lowercaseBetween_nil, lowercaseBetween_eq_iff, BreaksWord]
  constructor
  · rintro same ⟨cased, before, rest, whole, inWord, through⟩
    have ends := same before rest whole
    simp only [endsWord, List.append_nil, front, inWord, Bool.true_and] at ends
    exact (back rest).mp (by simpa using ends) ⟨through, cased⟩
  · intro unbroken before rest whole
    simp only [endsWord, List.append_nil, front]
    cases inWord : startsCased before.reverse with
    | false => rfl
    | true =>
        have apart : startsCased (rest ++ after) = startsCased rest :=
          (back rest).mpr fun ⟨through, cased⟩ =>
            unbroken ⟨cased, before, rest, whole, inWord, through⟩
        rw [apart]

end StyleLookup.Text
