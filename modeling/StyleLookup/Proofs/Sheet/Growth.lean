import StyleLookup.Proofs.Sheet.Comments
import StyleLookup.Sheet.Rules

/-!
A style sheet that grows at its end. The rules that it had stay, since what is written behind a text
can complete a block that is still open, but it never changes one that is complete.
-/

set_option autoImplicit false

namespace StyleLookup.Sheet

/-- Where the search for a block fails for good, the shorter text has no further block; anywhere
else it goes on at the same place in both texts. -/
theorem blocks_prefix_append (text more : List Char) : blocks text <+: blocks (text ++ more) := by
  induction text using blocks_induction with
  | unbraced text unbraced =>
      rw [blocks_of_not_braced unbraced]
      exact List.nil_prefix
  | passed selector body after selectorFree bodyFree empty ih =>
      have longer := blocks_braces selectorFree bodyFree (after ++ more)
      have passed : (selector.isEmpty || body.isEmpty) = true := by simpa using empty
      rw [if_pos passed] at longer
      rw [blocks_braces selectorFree bodyFree, if_pos passed]
      simpa [longer] using ih
  | read selector body after selectorSome selectorFree bodySome bodyFree ih =>
      have longer := blocks_block_append selectorSome selectorFree bodySome bodyFree (after ++ more)
      rw [blocks_block_append selectorSome selectorFree bodySome bodyFree]
      simpa [longer] using ih

/-- Text behind a style sheet that leaves no comment open, and that ends in no slash, adds rules at
the end and keeps all that were there. -/
theorem rules_prefix_append (sheet more : String) (file : Path)
    (closed : CommentsClosed sheet.toList) (last : sheet.toList.getLast? ≠ some '/') :
    rules sheet file <+: rules (sheet ++ more) file := by
  have stripped : stripComments (sheet ++ more).toList =
      stripComments sheet.toList ++ stripComments more.toList := by
    rw [String.toList_append, closed.stripComments_append last]
  rw [rules, rules, stripped]
  exact (blocks_prefix_append _ _).filterMap _

/-- A sheet with a brace in a comment, an empty block and a block that is cut off in the middle of a
value. The text behind it closes that block, and it opens a comment of its own. -/
def cutSheet : String := "a/*\x7b*/\x7bb:c;\x7dd\x7b\x7de\x7bf:g;h:"

theorem cutSheet_grows :
    CommentsClosed cutSheet.toList ∧ cutSheet.toList.getLast? ≠ some '/' ∧
      (rules cutSheet ⟨"/w/a.css"⟩).map (·.selector) = ["a"] ∧
      (rules (cutSheet ++ "i;\x7dj\x7bk:l;\x7d/*") ⟨"/w/a.css"⟩).map (·.selector) =
        ["a", "\x7de", "j"] ∧
      rules cutSheet ⟨"/w/a.css"⟩ <+: rules (cutSheet ++ "i;\x7dj\x7bk:l;\x7d/*") ⟨"/w/a.css"⟩ := by
  have cut : cutSheet.toList = ['a'] ++ '/' :: '*' ::
      (['\x7b'] ++ '*' :: '/' :: "\x7bb:c;\x7dd\x7b\x7de\x7bf:g;h:".toList) := by
    decide +kernel
  have closed : CommentsClosed cutSheet.toList := by
    rw [cut]
    exact .comment (by decide +kernel) (by decide +kernel) (.plain (by decide +kernel))
  have last : cutSheet.toList.getLast? ≠ some '/' := by decide +kernel
  exact ⟨closed, last, by decide +kernel, by decide +kernel, rules_prefix_append _ _ _ closed last⟩

end StyleLookup.Sheet
