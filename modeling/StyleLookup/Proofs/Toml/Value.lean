import StyleLookup.Proofs.Toml.Number
import StyleLookup.Proofs.Toml.Quoted
import StyleLookup.Toml.Reader

/-!
Values of TOML documents are read as they were written: strings, lists of strings, whole numbers of
64 bits and flags, each at the end of its line.
-/

set_option autoImplicit false

namespace StyleLookup.Toml

/-- The value that a written setting is read as. -/
def Setting.node : Setting → Node
  | .text value => .text value
  | .whole value => .whole value
  | .flag value => .flag value
  | .list items => .array (items.map .text)

/-- Whether a document can hold a setting: its whole numbers have 64 bits. -/
def Setting.IsHeld : Setting → Prop
  | .whole value => wholeLeast ≤ value ∧ value ≤ wholeGreatest
  | _ => True

/-! ## Strings -/

theorem exists_writeString_eq_cons (text : List Char) :
    ∃ mark more, (mark = '"' ∨ mark = '\'') ∧ writeString text = mark :: more := by
  unfold writeString
  cases quotingOf text with
  | basic => exact ⟨_, _, .inl rfl, rfl⟩
  | literal => exact ⟨_, _, .inr rfl, rfl⟩
  | multiBasic => exact ⟨_, _, .inl rfl, rfl⟩
  | multiLiteral => exact ⟨_, _, .inr rfl, rfl⟩

theorem scalar?_writeString_append (text : List Char) {rest : List Char}
    (stop : ∀ c ∈ rest.head?, c ≠ '"' ∧ c ≠ '\'') :
    scalar? (writeString text ++ rest) = some (.text (String.ofList text), rest) := by
  have read := quoted?_writeString_append text stop
  obtain ⟨mark, more, quote, written⟩ := exists_writeString_eq_cons text
  rw [written, List.cons_append] at read ⊢
  rcases quote with rfl | rfl <;> simp only [scalar?, read, Option.map_some]

theorem value?_of_unbracketed {c : Char} (bracket : c ≠ '[') (brace : c ≠ '{') (limit : Nat)
    (rest : List Char) : value? limit (c :: rest) = scalar? (c :: rest) := by
  cases limit with
  | zero => rw [value?]
  | succ limit =>
      rw [value?]
      · exact fun more same => bracket (List.cons.inj same).1
      · exact fun more same => brace (List.cons.inj same).1

theorem value?_writeString_append (limit : Nat) (text : List Char) {rest : List Char}
    (stop : ∀ c ∈ rest.head?, c ≠ '"' ∧ c ≠ '\'') :
    value? limit (writeString text ++ rest) = some (.text (String.ofList text), rest) := by
  have read := scalar?_writeString_append text stop
  obtain ⟨mark, more, quote, written⟩ := exists_writeString_eq_cons text
  rw [written, List.cons_append] at read ⊢
  have unbracketed : mark ≠ '[' ∧ mark ≠ '{' := by
    rcases quote with rfl | rfl <;> decide
  rw [value?_of_unbracketed unbracketed.1 unbracketed.2, read]

/-! ## Lists -/

theorem skipFiller?_writeString_append (text rest : List Char) :
    skipFiller? false (writeString text ++ rest) = some (writeString text ++ rest) := by
  obtain ⟨mark, more, quote, written⟩ := exists_writeString_eq_cons text
  rw [written, List.cons_append]
  rcases quote with rfl | rfl <;> rfl

/-- The lines of the items of a list that stand on lines of their own. -/
def writeItems (items : List String) : List Char :=
  items.flatMap fun item => "    ".toList ++ writeString item.toList ++ [',', '\n']

section

variable {limit bound : Nat} {text rest : List Char} {item : String}

theorem items?_comma
    (start : skipFiller? false text = some (writeString item.toList ++ ',' :: rest)) :
    items? (value? limit) (bound + 1) text =
      (items? (value? limit) bound rest).map fun (items, after) =>
        (.text item :: items, after) := by
  have stop : ∀ c ∈ (',' :: rest).head?, c ≠ '"' ∧ c ≠ '\'' := by simp
  have read := value?_writeString_append limit item.toList stop
  have after : skipFiller? false (',' :: rest) = some (',' :: rest) := rfl
  obtain ⟨mark, more, quote, written⟩ := exists_writeString_eq_cons item.toList
  rw [written, List.cons_append] at start read
  rw [items?, start]
  cases others : items? (value? limit) bound rest with
  | none => rcases quote with rfl | rfl <;> simp [read, after, others]
  | some final => rcases quote with rfl | rfl <;> simp [read, after, others]

theorem items?_bracket
    (start : skipFiller? false text = some (writeString item.toList ++ ']' :: rest)) :
    items? (value? limit) (bound + 1) text = some ([.text item], rest) := by
  have stop : ∀ c ∈ (']' :: rest).head?, c ≠ '"' ∧ c ≠ '\'' := by simp
  have read := value?_writeString_append limit item.toList stop
  have after : skipFiller? false (']' :: rest) = some (']' :: rest) := rfl
  obtain ⟨mark, more, quote, written⟩ := exists_writeString_eq_cons item.toList
  rw [written, List.cons_append] at start read
  rw [items?, start]
  rcases quote with rfl | rfl <;> simp [read, after]

end

theorem items?_writeItems {items : List String} {bound : Nat} (enough : items.length < bound)
    (limit : Nat) (rest : List Char) :
    items? (value? limit) bound ('\n' :: (writeItems items ++ ']' :: rest)) =
      some (items.map .text, rest) := by
  induction items generalizing bound with
  | nil =>
      cases bound with
      | zero => exact absurd enough (Nat.lt_irrefl 0)
      | succ bound => rfl
  | cons item items ih =>
      cases bound with
      | zero => exact absurd enough (Nat.not_lt_zero _)
      | succ bound =>
          have start : skipFiller? false ('\n' :: (writeItems (item :: items) ++ ']' :: rest)) =
              some (writeString item.toList ++
                ',' :: '\n' :: (writeItems items ++ ']' :: rest)) := by
            rw [← skipFiller?_writeString_append]
            simp [writeItems, skipFiller?, isSpace]
          rw [items?_comma start, ih (Nat.lt_of_succ_lt_succ enough)]
          rfl

theorem length_le_length_writeItems (items : List String) :
    items.length ≤ (writeItems items).length := by
  induction items with
  | nil => exact Nat.le_refl 0
  | cons item items ih =>
      have longer : writeItems (item :: items) =
          "    ".toList ++ writeString item.toList ++ [',', '\n'] ++ writeItems items := rfl
      simp only [longer, List.length_append, List.length_cons, List.length_nil]
      omega

theorem value?_bracket (limit : Nat) (rest : List Char) :
    value? (limit + 1) ('[' :: rest) =
      (items? (value? limit) (rest.length + 1) rest).map fun (items, after) =>
        (.array items, after) := by
  rw [value?]

theorem value?_writeList_append (limit : Nat) (items : List String) (rest : List Char) :
    value? (limit + 1) (writeList items ++ rest) = some (.array (items.map .text), rest) := by
  match items with
  | [] => rfl
  | [item] =>
      have start := skipFiller?_writeString_append item.toList (']' :: rest)
      simp only [writeList, List.append_assoc, List.cons_append, List.nil_append]
      rw [value?_bracket, items?_bracket start]
      rfl
  | first :: second :: others =>
      have counted := length_le_length_writeItems (first :: second :: others)
      have whole : writeList (first :: second :: others) ++ rest =
          '[' :: '\n' :: (writeItems (first :: second :: others) ++ ']' :: rest) := by
        simp [writeList, writeItems]
      rw [whole, value?_bracket, items?_writeItems]
      · rfl
      · simp only [List.length_cons, List.length_append] at counted ⊢
        omega

/-! ## Settings -/

theorem ne_of_numberStart {c mark : Char} (start : c = '-' ∨ c.isDigit = true)
    (other : ¬ (mark = '-' ∨ mark.isDigit = true)) : c ≠ mark :=
  fun same => other (same ▸ start)

theorem value?_of_numberStart {c : Char} (start : c = '-' ∨ c.isDigit = true) (limit : Nat)
    (rest : List Char) : value? limit (c :: rest) = number? (c :: rest) := by
  rw [value?_of_unbracketed (ne_of_numberStart start (by decide))
    (ne_of_numberStart start (by decide)), scalar?]
  all_goals
    intro more same
    exact ne_of_numberStart start (by decide) (List.cons.inj same).1

theorem exists_signedDecimal_eq_cons (value : Int) :
    ∃ c more, (c = '-' ∨ c.isDigit = true) ∧ Text.signedDecimal value = c :: more := by
  cases value with
  | ofNat number =>
      obtain ⟨c, digits, written, digit, -⟩ := Text.exists_decimal_eq_cons number
      exact ⟨c, digits, .inr digit, written⟩
  | negSucc number => exact ⟨'-', _, .inl rfl, rfl⟩

theorem value?_write_append {setting : Setting} (held : setting.IsHeld) (limit : Nat)
    (rest : List Char) :
    value? (limit + 1) (setting.write ++ '\n' :: rest) = some (setting.node, '\n' :: rest) := by
  cases setting with
  | text value =>
      have stop : ∀ c ∈ ('\n' :: rest).head?, c ≠ '"' ∧ c ≠ '\'' := by simp
      have read := value?_writeString_append (limit + 1) value.toList stop
      rwa [String.ofList_toList] at read
  | whole value =>
      have read := number?_signedDecimal held.1 held.2 rest
      obtain ⟨c, more, start, written⟩ := exists_signedDecimal_eq_cons value
      rw [Setting.write, written, List.cons_append, value?_of_numberStart start]
      rwa [written, List.cons_append] at read
  | flag value => cases value <;> rfl
  | list items => exact value?_writeList_append limit items ('\n' :: rest)

end StyleLookup.Toml
