/-!
Searching a text for another text, and cutting a text at a character.
-/

set_option autoImplicit false

namespace StyleLookup.Text

def contains (needle : List Char) : List Char → Bool
  | [] => needle.isEmpty
  | c :: rest => needle.isPrefixOf (c :: rest) || contains needle rest

theorem contains_iff {needle text : List Char} :
    contains needle text = true ↔ needle <:+: text := by
  induction text with
  | nil => simp [contains, List.isEmpty_iff]
  | cons c rest ih =>
      simp [contains, ih, List.infix_cons_iff]

/-- The text cut at the last occurrence of a character, which is left out. -/
def splitLast? (mark : Char) : List Char → Option (List Char × List Char)
  | [] => none
  | c :: rest =>
      match splitLast? mark rest with
      | some (before, after) => some (c :: before, after)
      | none => if c = mark then some ([], rest) else none

theorem splitLast?_eq_none_iff {mark : Char} {text : List Char} :
    splitLast? mark text = none ↔ mark ∉ text := by
  induction text with
  | nil => simp [splitLast?]
  | cons c rest ih =>
      simp only [splitLast?, List.mem_cons, not_or]
      cases cut : splitLast? mark rest with
      | some parts =>
          have present : mark ∈ rest := by simpa [cut] using ih
          simp [present]
      | none =>
          have absent : mark ∉ rest := ih.mp cut
          simp [absent, eq_comm]

theorem splitLast?_eq_some {mark : Char} {text before after : List Char}
    (cut : splitLast? mark text = some (before, after)) :
    text = before ++ mark :: after ∧ mark ∉ after := by
  induction text generalizing before with
  | nil => simp [splitLast?] at cut
  | cons c rest ih =>
      simp only [splitLast?] at cut
      cases inner : splitLast? mark rest with
      | some parts =>
          simp only [inner, Option.some.injEq, Prod.mk.injEq] at cut
          obtain ⟨rfl, rfl⟩ := cut
          obtain ⟨whole, absent⟩ := ih inner
          exact ⟨by simpa using whole, absent⟩
      | none =>
          have absent : mark ∉ rest := splitLast?_eq_none_iff.mp inner
          by_cases same : c = mark
          · simp only [inner, same, if_true, Option.some.injEq, Prod.mk.injEq] at cut
            obtain ⟨rfl, rfl⟩ := cut
            exact ⟨by simp [same], absent⟩
          · simp [inner, same] at cut

def replaceFirst (needle replacement : List Char) : List Char → List Char
  | [] => if needle.isEmpty then replacement else []
  | c :: rest =>
      if needle.isPrefixOf (c :: rest) then replacement ++ (c :: rest).drop needle.length
      else c :: replaceFirst needle replacement rest

end StyleLookup.Text
