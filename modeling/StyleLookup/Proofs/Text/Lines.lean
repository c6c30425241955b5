import Mathlib.Data.List.Infix
import StyleLookup.Text.Lines

/-!
The lines of a text, from the first to the last. A piece of the text that holds no line feed stands
on one of its lines, unless it ends in the carriage return that belongs to the end of the line.
-/

set_option autoImplicit false

namespace StyleLookup.Text

variable {part text : List Char}

/-! ## Pieces on one side of a mark -/

section Mark

variable {mark : Char} {left right : List Char}

theorem prefix_of_prefix_append_cons (unmarked : mark ∉ part)
    (start : part <+: left ++ mark :: right) : part <+: left := by
  induction left generalizing part with
  | nil =>
      rcases List.prefix_cons_iff.mp start with rfl | ⟨rest, rfl, -⟩
      · exact List.nil_prefix
      · exact absurd List.mem_cons_self unmarked
  | cons c left ih =>
      rcases List.prefix_cons_iff.mp start with rfl | ⟨rest, rfl, further⟩
      · exact List.nil_prefix
      · rw [List.cons_prefix_cons]
        exact ⟨rfl, ih (fun inside => unmarked (List.mem_cons_of_mem c inside)) further⟩

/-- A piece without a mark stands on one side of it. -/
theorem infix_append_cons_iff (unmarked : mark ∉ part) :
    part <:+: left ++ mark :: right ↔ part <:+: left ∨ part <:+: right := by
  constructor
  · intro inside
    induction left with
    | nil =>
        rcases List.infix_cons_iff.mp inside with start | later
        · exact .inl (prefix_of_prefix_append_cons unmarked start).isInfix
        · exact .inr later
    | cons c left ih =>
        rcases List.infix_cons_iff.mp inside with start | later
        · exact .inl (prefix_of_prefix_append_cons unmarked start).isInfix
        · exact (ih later).imp_left fun inLeft => inLeft.trans (List.suffix_cons c left).isInfix
  · rintro (inLeft | inRight)
    · exact inLeft.trans (List.prefix_append left _).isInfix
    · exact inRight.trans ((List.suffix_cons mark right).trans (List.suffix_append left _)).isInfix

end Mark

/-! ## Carriage returns -/

theorem dropCarriageReturn_concat (text : List Char) :
    dropCarriageReturn (text ++ ['\r']) = text := by
  simp [dropCarriageReturn]

theorem dropCarriageReturn_eq_self (kept : text.getLast? ≠ some '\r') :
    dropCarriageReturn text = text := by
  unfold dropCarriageReturn
  split
  · rename_i before turned
    rw [List.getLast?_eq_head?_reverse, turned] at kept
    exact absurd rfl kept
  · rfl

theorem dropCarriageReturn_isPrefix (text : List Char) : dropCarriageReturn text <+: text := by
  by_cases returned : text.getLast? = some '\r'
  · obtain ⟨before, rfl⟩ := List.getLast?_eq_some_iff.mp returned
    rw [dropCarriageReturn_concat]
    exact List.prefix_append before _
  · rw [dropCarriageReturn_eq_self returned]

theorem infix_dropCarriageReturn (ends : part.getLast? ≠ some '\r') (inside : part <:+: text) :
    part <:+: dropCarriageReturn text := by
  by_cases returned : text.getLast? = some '\r'
  · obtain ⟨before, rfl⟩ := List.getLast?_eq_some_iff.mp returned
    rw [dropCarriageReturn_concat]
    rcases List.infix_concat_iff.mp inside with atEnd | earlier
    · rcases List.suffix_concat_iff.mp atEnd with rfl | ⟨front, rfl, -⟩
      · exact List.nil_infix
      · exact absurd List.getLast?_concat ends
    · exact earlier
  · rwa [dropCarriageReturn_eq_self returned]

/-! ## Lines -/

theorem lines_of_unbroken (nonempty : text ≠ []) (unbroken : '\n' ∉ text) :
    lines text = [text] := by
  simp [lines, List.splitOn_eq_singleton unbroken, nonempty]

theorem lines_append_newline {first : List Char} (unbroken : '\n' ∉ first) (rest : List Char) :
    lines (first ++ '\n' :: rest) = dropCarriageReturn first :: lines rest := by
  have pieces : (first ++ '\n' :: rest).splitOn '\n' = first :: rest.splitOn '\n' := by
    rw [List.splitOn_append_cons_self, List.splitOn_eq_singleton unbroken, List.singleton_append]
  have some := List.splitOn_ne_nil '\n' rest
  simp only [lines, pieces, List.dropLast_cons_of_ne_nil some, List.getLast?_cons_of_ne_nil some,
    List.map_cons, List.cons_append]

/-- What stands in a text without a line feed in it stands on a line. -/
theorem exists_mem_lines_of_infix (nonempty : part ≠ []) (unbroken : '\n' ∉ part)
    (ends : part.getLast? ≠ some '\r') (inside : part <:+: text) :
    ∃ line ∈ lines text, part <:+: line := by
  -- The text is taken line by line, so the induction is on its length.
  induction counted : text.length using Nat.strong_induction_on generalizing text with
  | _ count ih =>
      by_cases broken : '\n' ∈ text
      · obtain ⟨first, rest, rfl, firstUnbroken⟩ := List.eq_append_cons_of_mem broken
        rw [lines_append_newline firstUnbroken]
        rcases (infix_append_cons_iff unbroken).mp inside with early | late
        · exact ⟨_, List.mem_cons_self, infix_dropCarriageReturn ends early⟩
        · have shorter : rest.length < count := by
            rw [← counted, List.length_append, List.length_cons]
            omega
          obtain ⟨line, member, held⟩ := ih rest.length shorter late rfl
          exact ⟨line, List.mem_cons_of_mem _ member, held⟩
      · have textSome : text ≠ [] := fun empty => nonempty (List.infix_nil.mp (empty ▸ inside))
        rw [lines_of_unbroken textSome broken]
        exact ⟨text, List.mem_singleton_self text, inside⟩

/-! ## The first line -/

theorem firstLine_of_unbroken (unbroken : '\n' ∉ text) : firstLine text = text := by
  by_cases empty : text = []
  · subst empty
    rfl
  · rw [firstLine, lines_of_unbroken empty unbroken, List.headD_cons]

theorem firstLine_isPrefix (text : List Char) : firstLine text <+: text := by
  by_cases broken : '\n' ∈ text
  · obtain ⟨first, rest, rfl, firstUnbroken⟩ := List.eq_append_cons_of_mem broken
    rw [firstLine, lines_append_newline firstUnbroken, List.headD_cons]
    exact (dropCarriageReturn_isPrefix first).trans (List.prefix_append first _)
  · rw [firstLine_of_unbroken broken]

theorem newline_not_mem_firstLine (text : List Char) : '\n' ∉ firstLine text := by
  by_cases broken : '\n' ∈ text
  · obtain ⟨first, rest, rfl, firstUnbroken⟩ := List.eq_append_cons_of_mem broken
    rw [firstLine, lines_append_newline firstUnbroken, List.headD_cons]
    exact fun inside => firstUnbroken ((dropCarriageReturn_isPrefix first).subset inside)
  · rwa [firstLine_of_unbroken broken]

end StyleLookup.Text
