import StyleLookup.Proofs.Declarations
import StyleLookup.Proofs.Sheet.Scan
import StyleLookup.Proofs.Text.Leftmost

/-!
The declarations of any text, well formed or not. They are read from left to right: the next one is
at the first full run of name characters that a value follows, and the search goes on behind its
semicolon.
-/

set_option autoImplicit false

namespace StyleLookup.Sheet

/-- A declaration starts at a place: a run of name characters that is not part of a longer one,
white space, a colon, and a value that is not empty up to the next semicolon. The value is trimmed,
so it may be empty then. -/
structure DeclarationAt (before here : List Char) (pair : List Char × List Char)
    (after : List Char) : Prop where
  fresh : ∀ c ∈ before.getLast?, isPropertyChar c = false
  name_some : pair.1 ≠ []
  name_chars : ∀ c ∈ pair.1, isPropertyChar c = true
  valued : ∃ gap value, Text.AllBlank gap ∧ value ≠ [] ∧ ';' ∉ value ∧
    pair.2 = Text.trim value ∧ here = pair.1 ++ (gap ++ ':' :: (value ++ ';' :: after))

/-- The reading of declarations. -/
def declarationAt : Text.Reading (List Char × List Char) := DeclarationAt

variable {before here after : List Char} {pair : List Char × List Char}

/-- The name is the whole run at its place, and the value is the one that the scanner finds behind
it. -/
theorem DeclarationAt.valueAfter?_eq_some (starts : DeclarationAt before here pair after) :
    pair.1 = here.takeWhile isPropertyChar ∧
      ∃ value, pair.2 = Text.trim value ∧
        valueAfter? (here.dropWhile isPropertyChar) = some (value, after) := by
  obtain ⟨gap, value, blank, nonempty, free, trimmed, rfl⟩ := starts.valued
  have stop := stop_of_gap blank (value ++ ';' :: after)
  rw [Text.takeWhile_stretch starts.name_chars stop, Text.dropWhile_stretch starts.name_chars stop]
  exact ⟨rfl, value, trimmed, valueAfter?_eq_some_iff.mpr ⟨nonempty, free, gap, blank, rfl⟩⟩

theorem functional_declarationAt : declarationAt.Functional := by
  intro before here left after right rest leftRead rightRead
  obtain ⟨leftName, leftValue, leftTrimmed, leftFound⟩ := leftRead.valueAfter?_eq_some
  obtain ⟨rightName, rightValue, rightTrimmed, rightFound⟩ := rightRead.valueAfter?_eq_some
  cases leftFound.symm.trans rightFound
  exact ⟨Prod.ext (leftName.trans rightName.symm) (leftTrimmed.trans rightTrimmed.symm), rfl⟩

theorem isPropertyChar_of_starts (starts : declarationAt.Starts before here) :
    ∃ c ∈ here.head?, isPropertyChar c = true := by
  obtain ⟨pair, after, read⟩ := starts
  obtain ⟨gap, value, -, -, -, -, rfl⟩ := read.valued
  obtain ⟨c, rest, named⟩ := List.exists_cons_of_ne_nil read.name_some
  exact ⟨c, by simp [named], read.name_chars c (by simp [named])⟩

variable {lead name rest : List Char}

/-- No declaration starts in front of the first name character. -/
theorem silentFor_unnamed (unnamed : ∀ c ∈ lead, isPropertyChar c = false) (text : List Char) :
    declarationAt.SilentFor lead.length (lead ++ text) := by
  intro before here whole early starts
  obtain ⟨part, rfl⟩ := List.prefix_of_prefix_length_le ⟨here, whole.symm⟩ ⟨text, rfl⟩ early.le
  obtain ⟨c, start, named⟩ := isPropertyChar_of_starts starts
  have same : part ++ text = here := by simpa using whole
  cases part with
  | nil => simp at early
  | cons d part =>
      rw [← same] at start
      cases start
      rw [unnamed c (by simp)] at named
      cases named

/-- No declaration starts in a run of name characters that no value follows: at its first character
the whole run would be the name, and further on the name would not be a full run. -/
theorem silentFor_valueless (unnamed : ∀ c ∈ lead, isPropertyChar c = false)
    (nameChars : ∀ c ∈ name, isPropertyChar c = true)
    (stop : ∀ c ∈ rest.head?, isPropertyChar c = false) (valueless : valueAfter? rest = none) :
    declarationAt.SilentFor (lead ++ name).length (lead ++ name ++ rest) := by
  intro before here whole early starts
  have behind : lead.length ≤ before.length := by
    have silent := silentFor_unnamed unnamed (name ++ rest)
    rw [← List.append_assoc, whole] at silent
    exact silent.length_le starts
  obtain ⟨part, rfl⟩ : lead <+: before :=
    List.prefix_of_prefix_length_le ⟨name ++ rest, by simp⟩ ⟨here, whole.symm⟩ behind
  have inside : part.length ≤ name.length := by
    simp only [List.length_append] at early
    omega
  have same : part ++ here = name ++ rest := by simpa using whole.symm
  obtain ⟨pair, after, read⟩ := starts
  cases part using List.reverseRecOn with
  | nil =>
      obtain ⟨-, value, -, found⟩ := read.valueAfter?_eq_some
      rw [List.nil_append] at same
      rw [same, Text.dropWhile_stretch nameChars stop, valueless] at found
      cases found
  | append_singleton part c =>
      have held : part ++ [c] <+: name :=
        List.prefix_of_prefix_length_le ⟨here, same⟩ ⟨rest, rfl⟩ inside
      have named : isPropertyChar c = true := nameChars c (held.subset (by simp))
      rw [read.fresh c (by simp)] at named
      cases named

/-- In a text that starts with no name character it makes no difference what stands in front. -/
theorem declarationAt_append_iff (stop : ∀ c ∈ (before ++ here).head?, isPropertyChar c = false) :
    declarationAt (lead ++ before) here pair after ↔ declarationAt before here pair after := by
  cases before using List.reverseRecOn with
  | nil =>
      have silent {front : List Char} : ¬ declarationAt front here pair after := by
        intro read
        obtain ⟨c, start, named⟩ := isPropertyChar_of_starts ⟨pair, after, read⟩
        rw [stop c start] at named
        cases named
      exact ⟨fun read => absurd read silent, fun read => absurd read silent⟩
  | append_singleton before c =>
      have last : (lead ++ (before ++ [c])).getLast? = (before ++ [c]).getLast? := by simp
      constructor
      · exact fun read => { read with fresh := last ▸ read.fresh }
      · exact fun read => { read with fresh := last ▸ read.fresh }

/-- The declarations that are scanned are those that are read from left to right. -/
theorem exists_leftmost_declarations (text : List Char) :
    ∃ found ending, declarationAt.Leftmost text found ending ∧
      found.map Prod.snd = declarationPairs text := by
  induction text using declarationPairs_induction with
  | unnamed text unnamed =>
      have nowhere : ∀ before here, text = before ++ here →
          ¬ declarationAt.Starts before here := by
        intro before here whole starts
        obtain ⟨c, start, named⟩ := isPropertyChar_of_starts starts
        have member : c ∈ text := whole ▸ List.mem_append_right before (List.mem_of_mem_head? start)
        rw [unnamed c member] at named
        cases named
      exact ⟨[], text, .ending nowhere, (declarationPairs_of_unnamed unnamed).symm⟩
  | passed lead name rest unnamed nameSome nameChars stop valueless ih =>
      obtain ⟨found, ending, cut, same⟩ := ih
      have silent := silentFor_valueless unnamed nameChars stop valueless
      obtain ⟨others, left, longer, kept⟩ := cut.append_left silent fun before here _ _ whole =>
        declarationAt_append_iff (whole ▸ stop)
      refine ⟨others, left, by simpa using longer, ?_⟩
      rw [kept, same, declarationPairs_run unnamed nameSome nameChars stop, valueless]
  | read lead name rest value after unnamed nameSome nameChars stop valued ih =>
      obtain ⟨found, ending, cut, same⟩ := ih
      obtain ⟨valueSome, free, gap, blank, rfl⟩ := valueAfter?_eq_some_iff.mp valued
      have fresh : ∀ c ∈ lead.getLast?, isPropertyChar c = false := fun c last =>
        unnamed c (List.mem_of_mem_getLast? last)
      have read : declarationAt lead (name ++ (gap ++ ':' :: (value ++ ';' :: after)))
          (name, Text.trim value) after :=
        ⟨fresh, nameSome, nameChars, gap, value, blank, valueSome, free, rfl, rfl⟩
      refine ⟨(lead, (name, Text.trim value)) :: found, ending,
        .item rfl read (silentFor_unnamed unnamed _) cut, ?_⟩
      rw [declarationPairs_run unnamed nameSome nameChars stop, valued, List.map_cons, same]

/-- The declarations of any text are those that are read from left to right, in one way only, each
name once: it stands where it was read first, with the value that was read last. -/
theorem declarations_of_leftmost (body : List Char) :
    ∃ found ending,
      declarationAt.Leftmost body found ending ∧
      (∀ others rest, declarationAt.Leftmost body others rest → others = found ∧ rest = ending) ∧
      (declarations body).entries = Declarations.lastValues (found.map fun entry =>
        (String.ofList entry.2.1, String.ofList entry.2.2)) := by
  obtain ⟨found, ending, cut, same⟩ := exists_leftmost_declarations body
  refine ⟨found, ending, cut, ?_, ?_⟩
  · exact fun others rest other => other.unique functional_declarationAt cut
  · rw [declarations, Declarations.entries_ofList, ← same, List.map_map]
    rfl

/-- A run that a digit breaks, a colon with a semicolon right behind it, a blank value, a value that
holds colons and braces, a name that comes again, and an open end. -/
example : (declarations "x1y: a; b:; c : ;\nd:e:\x7bf; y:g; h:i".toList).entries =
    [("y", "g"), ("c", ""), ("d", "e:\x7bf")] := by
  decide +kernel

end StyleLookup.Sheet
