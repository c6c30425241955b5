import StyleLookup.Proofs.Sheet.Comments
import StyleLookup.Proofs.Sheet.Parsed
import StyleLookup.Proofs.Text.Leftmost

/-!
The blocks of any text, however its braces stand. A text is cut in one way into blocks and gaps such
that no block starts anywhere in a gap, and these blocks are the ones that the scanner finds.
-/

set_option autoImplicit false

namespace StyleLookup.Sheet

namespace Block

def text (block : Block) : List Char := block.selector ++ '{' :: (block.body ++ ['}'])

/-- A block as it can stand in a text. Its selector reaches up to the first opening brace, and its
body from there up to the first closing one; its body may hold opening braces. -/
structure Proper (block : Block) : Prop where
  selector_some : block.selector ≠ []
  selector_free : '{' ∉ block.selector
  body_some : block.body ≠ []
  body_free : '}' ∉ block.body

theorem text_append (block : Block) (after : List Char) :
    block.text ++ after = block.selector ++ '{' :: (block.body ++ '}' :: after) := by
  simp [text]

end Block

/-- The reading of blocks: one starts where its text does. -/
def blockAt : Text.Reading Block := fun _ here block after =>
  block.Proper ∧ here = block.text ++ after

theorem functional_blockAt : blockAt.Functional := by
  intro _ here left after right rest leftRead rightRead
  obtain ⟨leftProper, leftText⟩ := leftRead
  obtain ⟨rightProper, rightText⟩ := rightRead
  rw [Block.text_append] at leftText rightText
  obtain ⟨selector, behind⟩ := Text.append_mark_inj leftProper.selector_free
    rightProper.selector_free (leftText.symm.trans rightText)
  obtain ⟨body, rests⟩ := Text.append_mark_inj leftProper.body_free rightProper.body_free behind
  cases left
  cases right
  cases selector
  cases body
  exact ⟨rfl, rests⟩

/-- No block starts at or in front of an opening brace that has no text before it, or none behind it
up to the next closing brace. -/
theorem silentFor_opening {selector body : List Char} (selectorFree : '{' ∉ selector)
    (bodyFree : '}' ∉ body) (empty : selector = [] ∨ body = []) (after : List Char) :
    blockAt.SilentFor (selector ++ ['{']).length (selector ++ '{' :: (body ++ '}' :: after)) := by
  intro before here whole early starts
  obtain ⟨block, rest, proper, rfl⟩ := starts
  have short : before.length ≤ selector.length := by
    simpa [Nat.lt_succ_iff] using early
  obtain ⟨part, rfl⟩ := List.prefix_of_prefix_length_le ⟨_, whole.symm⟩ ⟨_, rfl⟩ short
  have partFree : '{' ∉ part := fun member => selectorFree (List.mem_append_right _ member)
  have same : part ++ '{' :: (body ++ '}' :: after) =
      block.selector ++ '{' :: (block.body ++ '}' :: rest) := by
    simpa [Block.text] using whole
  obtain ⟨rfl, behind⟩ := Text.append_mark_inj partFree proper.selector_free same
  obtain ⟨rfl, -⟩ := Text.append_mark_inj bodyFree proper.body_free behind
  cases empty with
  | inl none => exact proper.selector_some (List.append_eq_nil_iff.mp none).2
  | inr none => exact proper.body_some none

theorem braced_of_starts {before here : List Char} (starts : blockAt.Starts before here) :
    Braced (before ++ here) := by
  obtain ⟨block, after, -, rfl⟩ := starts
  exact ⟨before ++ block.selector, block.body, after, by simp [Block.text]⟩

/-- The blocks that are scanned are those that are read from left to right. -/
theorem exists_leftmost_blocks (text : List Char) :
    ∃ found ending, blockAt.Leftmost text found ending ∧ found.map Prod.snd = blocks text := by
  induction text using blocks_induction with
  | unbraced text unbraced =>
      have nowhere : ∀ before here, text = before ++ here → ¬ blockAt.Starts before here := by
        intro before here whole starts
        exact unbraced (whole ▸ braced_of_starts starts)
      exact ⟨[], text, .ending nowhere, (blocks_of_not_braced unbraced).symm⟩
  | passed selector body after selectorFree bodyFree empty ih =>
      obtain ⟨found, ending, cut, same⟩ := ih
      have silent : blockAt.SilentFor (selector ++ ['{']).length
          (selector ++ ['{'] ++ (body ++ '}' :: after)) := by
        simpa using silentFor_opening selectorFree bodyFree empty after
      obtain ⟨others, rest, longer, kept⟩ := cut.append_left silent fun _ _ _ _ _ => Iff.rfl
      have passed : (selector.isEmpty || body.isEmpty) = true := by simpa using empty
      refine ⟨others, rest, by simpa using longer, ?_⟩
      rw [kept, same, blocks_braces selectorFree bodyFree, if_pos passed]
  | read selector body after selectorSome selectorFree bodySome bodyFree ih =>
      obtain ⟨found, ending, cut, same⟩ := ih
      have read : blockAt [] (selector ++ '{' :: (body ++ '}' :: after)) ⟨selector, body⟩ after :=
        ⟨⟨selectorSome, selectorFree, bodySome, bodyFree⟩, by simp [Block.text]⟩
      refine ⟨([], ⟨selector, body⟩) :: found, ending, .item rfl read .zero cut, ?_⟩
      rw [blocks_block_append selectorSome selectorFree bodySome bodyFree, List.map_cons, same]

theorem rules_eq_map_filter (css : String) (file : Path) {found : List (List Char × Block)}
    (same : found.map Prod.snd = blocks (stripComments css.toList)) :
    rules css file = ((found.map Prod.snd).filter Block.isInked).map (Block.rule file) := by
  rw [rules, ← same, Block.filterMap_ofBlock?]

/-- A text without comments consists of gaps, blocks and an ending, in one way only: no block starts
anywhere in a gap, and none stands in the ending. The rules of the text are those of its blocks that
are not blank, in their order. -/
theorem rules_of_leftmost_blocks (css : String) (file : Path)
    (commentless : Commentless css.toList) :
    ∃ (found : List (List Char × Block)) (ending : List Char),
      css.toList = found.flatMap (fun entry => entry.1 ++ entry.2.text) ++ ending ∧
      found.map Prod.snd = blocks css.toList ∧
      (∀ entry ∈ found, entry.2.Proper) ∧
      blockAt.Leftmost css.toList found ending ∧
      (∀ block : Block, block.Proper → ¬ block.text <:+: ending) ∧
      (∀ others rest, blockAt.Leftmost css.toList others rest → others = found ∧ rest = ending) ∧
      rules css file = ((found.map Prod.snd).filter Block.isInked).map (Block.rule file) := by
  obtain ⟨found, ending, cut, same⟩ := exists_leftmost_blocks css.toList
  refine ⟨found, ending, cut.eq_flatMap_append fun read => read.2, same,
    cut.of_mem_found fun read => read.1, cut, ?_,
    fun others rest other => other.unique functional_blockAt cut, ?_⟩
  · intro block proper held
    obtain ⟨before, after, whole⟩ := held
    have whole : ending = before ++ (block.text ++ after) := by simp [← whole]
    exact cut.not_starts_ending before _ whole ⟨block, after, proper, rfl⟩
  · apply rules_eq_map_filter
    rw [same, stripComments_eq_self_iff.mpr commentless]

/-- A sheet with an empty block, stray and nested braces, a blank block and an open end. It holds
the opening of a comment that is never closed. -/
def unbalanced : String :=
  "a\x7b\x7db\x7bc\x7bd:e;\x7d\x7d f\x7b \x7d\x7bg/*\x7bh\x7di\x7bj"

theorem unbalanced_rules :
    Commentless unbalanced.toList ∧
      ∃ found ending, blockAt.Leftmost unbalanced.toList found ending ∧
        (((found.map Prod.snd).filter Block.isInked).map (Block.rule ⟨"/w/a.css"⟩)).map
            (fun rule => (rule.selector, rule.properties.entries)) =
          [("\x7db", [("d", "e")]), ("g/*", [])] := by
  have commentless : Commentless unbalanced.toList := by decide +kernel
  obtain ⟨found, ending, -, -, -, cut, -, -, same⟩ :=
    rules_of_leftmost_blocks unbalanced ⟨"/w/a.css"⟩ commentless
  refine ⟨commentless, found, ending, cut, ?_⟩
  rw [← same]
  decide +kernel

end StyleLookup.Sheet
