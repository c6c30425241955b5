/-!
Blocks of a style sheet: a stretch of text, an opening brace, a second stretch and the first closing
brace after it. Braces are not balanced, so a nested block ends its outer block, and text that
forms no block is passed over.
-/

set_option autoImplicit false

namespace StyleLookup.Sheet

/-- What stands before and between the braces of a block, untrimmed. -/
structure Block where
  selector : List Char
  body : List Char
deriving DecidableEq, Repr

/-- The blocks of a text from left to right. A block takes all text from the end of the previous
one up to the first opening brace, and from there up to the first closing brace. If one of the two
parts is empty the brace opens nothing, and the search goes on right after it. -/
def blocks (text : List Char) : List Block :=
  match _opened : text.dropWhile (· != '{') with
  | [] => []
  | _ :: inner =>
      match _closed : inner.dropWhile (· != '}') with
      | [] => []
      | _ :: after =>
          let selector := text.takeWhile (· != '{')
          let body := inner.takeWhile (· != '}')
          if selector.isEmpty || body.isEmpty then blocks inner
          else ⟨selector, body⟩ :: blocks after
termination_by text.length
decreasing_by
  all_goals
    have outer := congrArg List.length _opened
    have inward := (List.dropWhile_sublist (l := text) (· != '{')).length_le
    have nested := congrArg List.length _closed
    have further := (List.dropWhile_sublist (l := inner) (· != '}')).length_le
    simp only [List.length_cons] at outer nested
    omega

theorem wellFormed_of_mem_blocks {text : List Char} {block : Block} (member : block ∈ blocks text) :
    (block.selector ≠ [] ∧ '{' ∉ block.selector) ∧ (block.body ≠ [] ∧ '}' ∉ block.body) := by
  have free (mark : Char) (stretch : List Char) : mark ∉ stretch.takeWhile (· != mark) := by
    intro inside
    have := List.all_takeWhile (p := (· != mark)) (l := stretch)
    rw [List.all_eq_true] at this
    simpa using this mark inside
  fun_induction blocks text with
  | case1 => simp at member
  | case2 => simp at member
  | case3 text _ inner opened _ after closed selector body empty ih => exact ih member
  | case4 text _ inner opened _ after closed selector body empty ih =>
      rcases List.mem_cons.mp member with rfl | later
      · simp only [Bool.or_eq_true, List.isEmpty_iff, not_or] at empty
        exact ⟨⟨empty.1, free '{' text⟩, ⟨empty.2, free '}' inner⟩⟩
      · exact ih later

end StyleLookup.Sheet
