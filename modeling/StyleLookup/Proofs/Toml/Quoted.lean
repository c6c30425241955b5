import StyleLookup.Proofs.Text.Lowercase
import StyleLookup.Toml.Quoted
import StyleLookup.Toml.Writer

/-!
Strings of TOML documents are read as they were written. Each of the four quoted forms is followed
on its own, and the writer takes a form only where this form can hold the string.
-/

set_option autoImplicit false

namespace StyleLookup.Toml

theorem consRead_map_some (c : Char) (read rest : List Char) :
    consRead c <$> some (read, rest) = some (c :: read, rest) := rfl

/-! ## Characters that stand for themselves -/

theorem isPlain_of_not_needsEscape {c : Char} (unescaped : needsEscape c = false)
    (unbroken : c ≠ '\n') : isPlain c = true := by
  by_cases tab : c = '\t'
  · simp [isPlain, tab]
  · simp only [needsEscape, isPlain, Bool.or_eq_false_iff, Bool.and_eq_false_iff,
      decide_eq_false_iff_not, bne_eq_false_iff_eq, beq_eq_false_iff_ne, tab, unbroken, or_false,
      Bool.or_eq_true, Bool.and_eq_true, decide_eq_true_eq, bne_iff_ne, beq_iff_eq] at *
    omega

theorem eq_newline_or_isPlain {c : Char} (unescaped : needsEscape c = false) :
    c = '\n' ∨ isPlain c = true := by
  by_cases broken : c = '\n'
  · exact .inl broken
  · exact .inr (isPlain_of_not_needsEscape unescaped broken)

/-! ## Escapes -/

/-- A reader that takes an escape for the character that it spells. -/
structure ReadsEscapes (read : List Char → Option (List Char × List Char)) : Prop where
  letter : ∀ {mark c : Char}, escaped? mark = some c → ∀ rest,
    read ('\\' :: mark :: rest) = consRead c <$> read rest
  digits : ∀ {c first second third fourth : Char},
    charOfHex? [first, second, third, fourth] = some c → ∀ rest,
      read ('\\' :: 'u' :: first :: second :: third :: fourth :: rest) = consRead c <$> read rest

theorem readsEscapes_basicBody? : ReadsEscapes basicBody? where
  letter known rest := by
    unfold escaped? at known
    split at known <;> cases known <;> rfl
  digits spelled rest := by
    simp [basicBody?, spelled]

theorem readsEscapes_multiBasicBody? : ReadsEscapes (multiBasicBody? false) where
  letter known rest := by
    unfold escaped? at known
    split at known <;> cases known <;> rfl
  digits spelled rest := by
    simp [multiBasicBody?, spelled]

theorem charOfHex?_upperHexDigit {c : Char} (ascii : c.toNat < 0x80) :
    charOfHex? [upperHexDigit (c.toNat / 4096 % 16), upperHexDigit (c.toNat / 256 % 16),
      upperHexDigit (c.toNat / 16 % 16), upperHexDigit (c.toNat % 16)] = some c :=
  Text.ascii_forall c ascii (by decide +kernel)

theorem ReadsEscapes.read_escapeOf {read : List Char → Option (List Char × List Char)}
    (reads : ReadsEscapes read) {c : Char} (ascii : c.toNat < 0x80) (rest : List Char) :
    read (escapeOf c ++ rest) = consRead c <$> read rest := by
  unfold escapeOf
  iterate 7
    split
    · exact reads.letter (by simp [*, escaped?]) rest
  exact reads.digits (charOfHex?_upperHexDigit ascii) rest

theorem ascii_of_escaped {c : Char}
    (escaped : c = '"' ∨ c = '\\' ∨ c = '\t' ∨ c = '\n' ∨ needsEscape c = true) :
    c.toNat < 0x80 := by
  rcases escaped with rfl | rfl | rfl | rfl | needed
  iterate 4 decide
  simp only [needsEscape, Bool.or_eq_true, Bool.and_eq_true, decide_eq_true_eq,
    beq_iff_eq] at needed
  omega

theorem basicBody?_cons {c : Char} (plain : isPlain c = true) (inside : c ≠ '"')
    (unescaped : c ≠ '\\') (rest : List Char) :
    basicBody? (c :: rest) = consRead c <$> basicBody? rest := by
  rw [basicBody?]
  · simp [plain, unescaped]
  all_goals
    intros
    contradiction

theorem multiBasicBody?_cons {c : Char} (keeps : c = '\n' ∨ isPlain c = true)
    (unescaped : c ≠ '\\') (rest : List Char) (unclosed : ¬ ['"', '"', '"'] <+: c :: rest) :
    multiBasicBody? false (c :: rest) = consRead c <$> multiBasicBody? false rest := by
  have unreturned : c ≠ '\r' := by
    rintro rfl
    exact absurd keeps (by decide)
  rw [multiBasicBody?]
  · simp [keeps, unescaped]
  all_goals
    intros
    simp_all

theorem literalBody?_cons {c : Char} (plain : isPlain c = true) (inside : c ≠ '\'')
    (rest : List Char) : literalBody? (c :: rest) = consRead c <$> literalBody? rest := by
  rw [literalBody?]
  · simp [plain]
  · exact inside

theorem multiLiteralBody?_cons {c : Char} (keeps : c = '\n' ∨ isPlain c = true)
    (rest : List Char) (unclosed : ¬ ['\'', '\'', '\''] <+: c :: rest) :
    multiLiteralBody? (c :: rest) = consRead c <$> multiLiteralBody? rest := by
  have unreturned : c ≠ '\r' := by
    rintro rfl
    exact absurd keeps (by decide)
  rw [multiLiteralBody?]
  · simp [keeps]
  all_goals
    intros
    simp_all

/-! ## The four forms -/

theorem basicBody?_escapeBasic_append (text rest : List Char) :
    basicBody? (escapeBasic text ++ '"' :: rest) = some (text, rest) := by
  induction text with
  | nil => rfl
  | cons c text ih =>
      rw [escapeBasic, List.flatMap_cons, ← escapeBasic, List.append_assoc]
      split
      · rename_i marked
        have ascii : c.toNat < 0x80 := ascii_of_escaped (by simpa [or_assoc] using marked)
        rw [readsEscapes_basicBody?.read_escapeOf ascii, ih, consRead_map_some]
      · rename_i unmarked
        simp only [Bool.or_eq_true, decide_eq_true_eq, not_or, Bool.not_eq_true] at unmarked
        obtain ⟨⟨⟨⟨unquoted, unescaped⟩, -⟩, unbroken⟩, unneeded⟩ := unmarked
        rw [List.singleton_append,
          basicBody?_cons (isPlain_of_not_needsEscape unneeded unbroken) unquoted unescaped, ih,
          consRead_map_some]

theorem literalBody?_append {text : List Char} (plain : ∀ c ∈ text, isPlain c = true)
    (unquoted : '\'' ∉ text) (rest : List Char) :
    literalBody? (text ++ '\'' :: rest) = some (text, rest) := by
  induction text with
  | nil => rfl
  | cons c text ih =>
      rw [List.mem_cons, not_or] at unquoted
      rw [List.cons_append, literalBody?_cons (plain c List.mem_cons_self) (Ne.symm unquoted.1),
        ih (fun other member => plain other (List.mem_cons_of_mem c member)) unquoted.2,
        consRead_map_some]

/-- Up to two quotes in front of the closing ones belong to the string. -/
theorem multiBasicBody?_closing {quotes : Nat} (few : quotes ≤ 2) {rest : List Char}
    (stop : ∀ c ∈ rest.head?, c ≠ '"') :
    multiBasicBody? false (List.replicate quotes '"' ++ '"' :: '"' :: '"' :: rest) =
      some (List.replicate quotes '"', rest) := by
  rcases quotes with _ | _ | _ | more
  · cases rest with
    | nil => rfl
    | cons c rest => simp [multiBasicBody?, stop c rfl]
  · cases rest with
    | nil => rfl
    | cons c rest => simp [multiBasicBody?, stop c rfl]
  · rfl
  · omega

theorem exists_escapeOf_eq_cons (c : Char) : ∃ spelled, escapeOf c = '\\' :: spelled := by
  unfold escapeOf
  iterate 7
    split
    · exact ⟨_, rfl⟩
  exact ⟨_, rfl⟩

/-- A third quote is escaped, so what is written for it does not start with a quote. -/
theorem not_quote_prefix_escapeMultiBasic {quotes : Nat} {c : Char}
    (unquoted : c ≠ '"' ∨ quotes = 2) (text more : List Char) :
    ¬ ['"'] <+: escapeMultiBasic quotes (c :: text) ++ more := by
  obtain ⟨spelled, escaped⟩ := exists_escapeOf_eq_cons c
  rw [escapeMultiBasic, escaped]
  split
  · rename_i quote
    rw [if_pos (unquoted.resolve_left fun other => other quote)]
    simp
  · rename_i other
    split <;> simp [Ne.symm other]

/-- After a quote and fewer than two before it, the string ends within the quotes that may still
follow, or it goes on without closing. -/
theorem closing_or_unclosed {quotes : Nat} (few : quotes < 2) (text more : List Char) :
    (∃ count, quotes + 1 + count ≤ 2 ∧ text = List.replicate count '"' ∧
        escapeMultiBasic (quotes + 1) text = List.replicate count '"') ∨
      ¬ ['"', '"'] <+: escapeMultiBasic (quotes + 1) text ++ more := by
  cases text with
  | nil => exact .inl ⟨0, by omega, rfl, rfl⟩
  | cons c text =>
      by_cases first : c ≠ '"' ∨ quotes + 1 = 2
      · right
        intro whole
        exact not_quote_prefix_escapeMultiBasic first text more
          ((List.prefix_append ['"'] ['"']).trans whole)
      · obtain ⟨rfl, rfl⟩ : c = '"' ∧ quotes = 0 := by
          rw [not_or, not_not] at first
          exact ⟨first.1, by omega⟩
        cases text with
        | nil => exact .inl ⟨1, by decide, rfl, rfl⟩
        | cons second text =>
            right
            rw [escapeMultiBasic, if_pos rfl, if_neg (by decide), List.cons_append,
              List.cons_prefix_cons]
            exact fun whole => not_quote_prefix_escapeMultiBasic (.inr rfl) text more whole.2

theorem multiBasicBody?_escapeMultiBasic_append {quotes : Nat} (few : quotes ≤ 2)
    (text : List Char) {rest : List Char} (stop : ∀ c ∈ rest.head?, c ≠ '"') :
    multiBasicBody? false (escapeMultiBasic quotes text ++ '"' :: '"' :: '"' :: rest) =
      some (text, rest) := by
  -- At most two quotes stand in front of what is left, so a third one can only be a closing one.
  induction text generalizing quotes with
  | nil => exact multiBasicBody?_closing (Nat.zero_le 2) stop
  | cons c text ih =>
      rw [escapeMultiBasic]
      split
      · rename_i quote
        subst quote
        split
        · rw [List.append_assoc, readsEscapes_multiBasicBody?.read_escapeOf (by decide),
            ih (Nat.zero_le 2), consRead_map_some]
        · rename_i fewer
          have below : quotes < 2 := by omega
          rcases closing_or_unclosed below text ('"' :: '"' :: '"' :: rest) with
            ⟨count, bound, same, written⟩ | unclosed
          · rw [written, same]
            have few : count + 1 ≤ 2 := by omega
            exact multiBasicBody?_closing few stop
          · have going : ¬ ['"', '"', '"'] <+:
                '"' :: (escapeMultiBasic (quotes + 1) text ++ '"' :: '"' :: '"' :: rest) := by
              rw [List.cons_prefix_cons]
              exact fun whole => unclosed whole.2
            rw [List.cons_append, multiBasicBody?_cons (.inr (by decide)) (by decide) _ going,
              ih below, consRead_map_some]
      · rename_i unquoted
        have going (more : List Char) : ¬ ['"', '"', '"'] <+: c :: more := by
          rw [List.cons_prefix_cons]
          exact fun whole => unquoted whole.1.symm
        split
        · rename_i marked
          have ascii : c.toNat < 0x80 := ascii_of_escaped (by grind)
          rw [List.append_assoc, readsEscapes_multiBasicBody?.read_escapeOf ascii,
            ih (Nat.zero_le 2), consRead_map_some]
        · rename_i unmarked
          simp only [Bool.or_eq_true, decide_eq_true_eq, not_or, Bool.not_eq_true] at unmarked
          obtain ⟨⟨unescaped, -⟩, unneeded⟩ := unmarked
          rw [List.cons_append, multiBasicBody?_cons (eq_newline_or_isPlain unneeded) unescaped _
            (going _), ih (Nat.zero_le 2), consRead_map_some]

/-! ### Triple single quotes -/

theorem multiLiteralBody?_closing {quotes : Nat} (few : quotes ≤ 2) {rest : List Char}
    (stop : ∀ c ∈ rest.head?, c ≠ '\'') :
    multiLiteralBody? (List.replicate quotes '\'' ++ '\'' :: '\'' :: '\'' :: rest) =
      some (List.replicate quotes '\'', rest) := by
  rcases quotes with _ | _ | _ | more
  · cases rest with
    | nil => rfl
    | cons c rest => simp [multiLiteralBody?, stop c rfl]
  · cases rest with
    | nil => rfl
    | cons c rest => simp [multiLiteralBody?, stop c rfl]
  · rfl
  · omega

theorem le_longestRunFrom (mark : Char) (current : Nat) (text : List Char) :
    current ≤ longestRunFrom mark current text := by
  induction text generalizing current with
  | nil => exact Nat.le_refl current
  | cons c text ih =>
      rw [longestRunFrom]
      split
      · exact Nat.le_trans (Nat.le_succ current) (ih (current + 1))
      · exact Nat.le_max_left _ _

theorem closing_or_unclosed_run {current : Nat} {text : List Char}
    (short : longestRunFrom '\'' (current + 1) text ≤ 2) (more : List Char) :
    (∃ count, 1 + count ≤ 2 ∧ text = List.replicate count '\'') ∨
      ¬ ['\'', '\''] <+: text ++ more := by
  cases text with
  | nil => exact .inl ⟨0, by decide, rfl⟩
  | cons c text =>
      by_cases quote : c = '\''
      · subst quote
        rw [longestRunFrom, if_pos rfl] at short
        cases text with
        | nil => exact .inl ⟨1, by decide, rfl⟩
        | cons second text =>
            right
            intro whole
            obtain ⟨-, rest⟩ := List.cons_prefix_cons.mp whole
            obtain ⟨rfl, -⟩ := List.cons_prefix_cons.mp rest
            rw [longestRunFrom, if_pos rfl] at short
            have := le_longestRunFrom '\'' (current + 1 + 1 + 1) text
            omega
      · right
        rw [List.cons_append, List.cons_prefix_cons]
        exact fun whole => quote whole.1.symm

theorem multiLiteralBody?_append {text : List Char}
    (keeps : ∀ c ∈ text, c = '\n' ∨ isPlain c = true) {current : Nat}
    (short : longestRunFrom '\'' current text ≤ 2) {rest : List Char}
    (stop : ∀ c ∈ rest.head?, c ≠ '\'') :
    multiLiteralBody? (text ++ '\'' :: '\'' :: '\'' :: rest) = some (text, rest) := by
  induction text generalizing current with
  | nil => exact multiLiteralBody?_closing (Nat.zero_le 2) stop
  | cons c text ih =>
      have kept := keeps c List.mem_cons_self
      have others : ∀ other ∈ text, other = '\n' ∨ isPlain other = true :=
        fun other member => keeps other (List.mem_cons_of_mem c member)
      rw [longestRunFrom] at short
      split at short
      · rename_i quote
        subst quote
        rcases closing_or_unclosed_run short ('\'' :: '\'' :: '\'' :: rest) with
          ⟨count, bound, same⟩ | unclosed
        · rw [same]
          have few : count + 1 ≤ 2 := by omega
          exact multiLiteralBody?_closing few stop
        · have going : ¬ ['\'', '\'', '\''] <+:
              '\'' :: (text ++ '\'' :: '\'' :: '\'' :: rest) := by
            rw [List.cons_prefix_cons]
            exact fun whole => unclosed whole.2
          rw [List.cons_append, multiLiteralBody?_cons kept _ going, ih others short,
            consRead_map_some]
      · rename_i unquoted
        have going (more : List Char) : ¬ ['\'', '\'', '\''] <+: c :: more := by
          rw [List.cons_prefix_cons]
          exact fun whole => unquoted whole.1.symm
        rw [List.cons_append, multiLiteralBody?_cons kept _ (going _),
          ih others (Nat.le_trans (Nat.le_max_right _ _) short), consRead_map_some]

/-! ## The form that is chosen -/

theorem not_mem_of_longestRunFrom {mark : Char} {current : Nat} {text : List Char}
    (short : longestRunFrom mark current text = 0) : mark ∉ text := by
  induction text generalizing current with
  | nil => exact List.not_mem_nil
  | cons c text ih =>
      rw [longestRunFrom] at short
      split at short
      · have := le_longestRunFrom mark (current + 1) text
        omega
      · rename_i other
        rw [List.mem_cons, not_or]
        have later : longestRunFrom mark 0 text = 0 := by omega
        exact ⟨Ne.symm other, ih later⟩

theorem needsEscape_eq_false {text : List Char} (unescaped : (!text.any needsEscape) = true)
    {c : Char} (member : c ∈ text) : needsEscape c = false := by
  rw [Bool.not_eq_true', List.any_eq_false] at unescaped
  exact Bool.eq_false_iff.mpr (unescaped c member)

theorem holds_of_literal {text : List Char} (chosen : quotingOf text = .literal) :
    text ≠ [] ∧ (∀ c ∈ text, isPlain c = true) ∧ '\'' ∉ text := by
  have filled : text ≠ [] := by
    rintro rfl
    exact absurd chosen (by decide)
  simp only [quotingOf] at chosen
  split_ifs at chosen with _ fits
  simp only [Bool.and_eq_true, beq_iff_eq] at fits
  obtain ⟨⟨unescaped, unbroken⟩, unquoted⟩ := fits
  have unbroken : '\n' ∉ text := by simpa using unbroken
  refine ⟨filled, fun c member => ?_, not_mem_of_longestRunFrom unquoted⟩
  exact isPlain_of_not_needsEscape (needsEscape_eq_false unescaped member)
    fun broken => unbroken (broken ▸ member)

theorem holds_of_multiLiteral {text : List Char} (chosen : quotingOf text = .multiLiteral) :
    (∀ c ∈ text, c = '\n' ∨ isPlain c = true) ∧ longestRun '\'' text ≤ 2 := by
  simp only [quotingOf] at chosen
  split_ifs at chosen with _ _ _ fits
  simp only [Bool.and_eq_true, decide_eq_true_eq] at fits
  exact ⟨fun c member => eq_newline_or_isPlain (needsEscape_eq_false fits.1 member), fits.2⟩

theorem inner_of_not_needsEscape {c : Char} (unescaped : needsEscape c = false)
    (unbroken : c ≠ '\n') : c ≠ '\n' ∧ c ≠ '\r' := by
  refine ⟨unbroken, ?_⟩
  rintro rfl
  exact absurd unescaped (by decide)

theorem escapeBasic_ne_quote (c : Char) (text more rest : List Char) :
    escapeBasic (c :: text) ++ more ≠ '"' :: rest := by
  obtain ⟨spelled, escaped⟩ := exists_escapeOf_eq_cons c
  rw [escapeBasic, List.flatMap_cons, escaped]
  split
  · simp
  · simp_all

/-- The line feed in front of a string with line feeds is the one that is dropped. -/
theorem skipNewline_opening {text written : List Char}
    (inner : '\n' ∉ text → ∀ c ∈ written.head?, c ≠ '\n' ∧ c ≠ '\r') :
    skipNewline ((if text.contains '\n' then ['\n'] else []) ++ written) = written := by
  by_cases broken : '\n' ∈ text
  · rw [if_pos (List.contains_iff_mem.mpr broken)]
    rfl
  · rw [if_neg fun found => broken (List.contains_iff_mem.mp found)]
    cases written with
    | nil => rfl
    | cons c written =>
        obtain ⟨unbroken, unreturned⟩ := inner broken c rfl
        unfold skipNewline afterNewline?
        split <;> simp_all

theorem inner_escapeMultiBasic {text : List Char} (unbroken : '\n' ∉ text) (rest : List Char) :
    ∀ c ∈ (escapeMultiBasic 0 text ++ '"' :: rest).head?, c ≠ '\n' ∧ c ≠ '\r' := by
  cases text with
  | nil => simp [escapeMultiBasic]
  | cons first text =>
      obtain ⟨spelled, escaped⟩ := exists_escapeOf_eq_cons first
      rw [List.mem_cons, not_or] at unbroken
      rw [escapeMultiBasic, escaped]
      split
      · simp_all
      · split
        · simp
        · rename_i unmarked
          simp only [Bool.or_eq_true, not_or, Bool.not_eq_true] at unmarked
          simpa using inner_of_not_needsEscape unmarked.2 (Ne.symm unbroken.1)

theorem inner_literal {text : List Char} (keeps : ∀ c ∈ text, c = '\n' ∨ isPlain c = true)
    (unbroken : '\n' ∉ text) (rest : List Char) :
    ∀ c ∈ (text ++ '\'' :: rest).head?, c ≠ '\n' ∧ c ≠ '\r' := by
  cases text with
  | nil => simp
  | cons first text =>
      rw [List.mem_cons, not_or] at unbroken
      have plain := (keeps first List.mem_cons_self).resolve_left (Ne.symm unbroken.1)
      have unreturned : first ≠ '\r' := by
        rintro rfl
        exact absurd plain (by decide)
      simpa using ⟨Ne.symm unbroken.1, unreturned⟩

theorem quoted?_writeString_append (text : List Char) {rest : List Char}
    (stop : ∀ c ∈ rest.head?, c ≠ '"' ∧ c ≠ '\'') :
    quoted? (writeString text ++ rest) = some (text, rest) := by
  have stopDouble : ∀ c ∈ rest.head?, c ≠ '"' := fun c first => (stop c first).1
  have stopSingle : ∀ c ∈ rest.head?, c ≠ '\'' := fun c first => (stop c first).2
  unfold writeString
  cases chosen : quotingOf text with
  | basic =>
      have read := basicBody?_escapeBasic_append text rest
      simp only [List.append_assoc, List.cons_append, List.nil_append]
      rw [quoted?, read]
      intro more same
      cases text with
      | nil =>
          obtain ⟨-, rfl⟩ := List.cons.inj same
          exact stopDouble '"' rfl rfl
      | cons first text => exact escapeBasic_ne_quote first text _ _ same
  | literal =>
      obtain ⟨filled, plain, unquoted⟩ := holds_of_literal chosen
      have read := literalBody?_append plain unquoted rest
      simp only [List.append_assoc, List.cons_append, List.nil_append]
      rw [quoted?, read]
      intro more same
      cases text with
      | nil => exact filled rfl
      | cons first text =>
          obtain ⟨rfl, -⟩ := List.cons.inj same
          exact unquoted List.mem_cons_self
  | multiBasic =>
      have read := multiBasicBody?_escapeMultiBasic_append (Nat.zero_le 2) text stopDouble
      simp only [List.append_assoc, List.cons_append, List.nil_append, quoted?]
      rw [skipNewline_opening fun unbroken => inner_escapeMultiBasic unbroken _, read]
  | multiLiteral =>
      obtain ⟨keeps, short⟩ := holds_of_multiLiteral chosen
      have read := multiLiteralBody?_append keeps short stopSingle
      simp only [List.append_assoc, List.cons_append, List.nil_append, quoted?]
      rw [skipNewline_opening fun unbroken => inner_literal keeps unbroken _, read]

end StyleLookup.Toml
