import StyleLookup.Proofs.Sheet.Parsed

/-!
Blocks one after another, any of whose parts may be blank or empty. A blank part only takes its own
block away. An empty one leaves a closing brace over, which goes to the selector of the next block
that is read.
-/

set_option autoImplicit false

namespace StyleLookup.Sheet

/-- A block without braces in its parts. -/
structure PlainBlock where
  selector : List Char
  body : List Char
  selector_free : '{' ∉ selector ∧ '}' ∉ selector := by decide
  body_free : '{' ∉ body ∧ '}' ∉ body := by decide

namespace PlainBlock

def text (block : PlainBlock) : List Char := block.selector ++ '{' :: (block.body ++ ['}'])

def isInked (block : PlainBlock) : Bool :=
  !(Text.trim block.selector).isEmpty && !(Text.trim block.body).isEmpty

def rule (file : Path) (block : PlainBlock) : StyleRule :=
  ⟨String.ofList (Text.trim block.selector), declarations (Text.trim block.body), file, .unresolved⟩

theorem ofBlock?_eq (file : Path) (block : PlainBlock) :
    StyleRule.ofBlock? file ⟨block.selector, block.body⟩ =
      if block.isInked then some (block.rule file) else none :=
  Block.ofBlock?_eq_ite file ⟨block.selector, block.body⟩

end PlainBlock

/-- The rules that blocks spell out, blank ones left aside. -/
def spelledRules (file : Path) (written : List PlainBlock) : List StyleRule :=
  (written.filter PlainBlock.isInked).map (PlainBlock.rule file)

/-- The blocks that are read from blocks one after another, with text left over in front of them. -/
def readOff : List Char → List PlainBlock → List Block
  | _, [] => []
  | lead, block :: rest =>
      if (lead ++ block.selector).isEmpty || block.body.isEmpty then
        readOff (block.body ++ ['}']) rest
      else ⟨lead ++ block.selector, block.body⟩ :: readOff [] rest

theorem blocks_append_flatMap_text {lead : List Char} (free : '{' ∉ lead)
    (written : List PlainBlock) :
    blocks (lead ++ written.flatMap PlainBlock.text) = readOff lead written := by
  induction written generalizing lead with
  | nil => simpa [readOff] using blocks_of_not_mem free
  | cons block rest ih =>
      have selectorFree : '{' ∉ lead ++ block.selector := by simp [free, block.selector_free.1]
      have leftFree : '{' ∉ block.body ++ ['}'] := by simp [block.body_free.1]
      have whole : lead ++ (block :: rest).flatMap PlainBlock.text =
          (lead ++ block.selector) ++
            '{' :: (block.body ++ '}' :: rest.flatMap PlainBlock.text) := by
        simp [PlainBlock.text]
      have left := ih leftFree
      have clear := @ih [] List.not_mem_nil
      rw [List.append_assoc, List.singleton_append] at left
      rw [whole, blocks_braces selectorFree block.body_free.2, left, readOff]
      congr 2

/-! ## Closing braces that are left over -/

/-- Whether a closing brace is left over behind a block. It is if the body is empty, and also if the
selector is, unless the selector takes up a brace that was left over before. -/
def PlainBlock.leavesBrace (left : Bool) (block : PlainBlock) : Bool :=
  block.body.isEmpty || (!left && block.selector.isEmpty)

theorem PlainBlock.leavesBrace_eq_true_iff {left : Bool} {block : PlainBlock} :
    block.leavesBrace left = true ↔
      block.body = [] ∨ (left = false ∧ block.selector = []) := by
  simp [leavesBrace]

theorem PlainBlock.isInked_eq_false_of_leavesBrace {left : Bool} {block : PlainBlock}
    (skipped : block.leavesBrace left = true) : block.isInked = false := by
  have nothing : Text.trim [] = [] := rfl
  rcases leavesBrace_eq_true_iff.mp skipped with body | ⟨-, selector⟩
  · simp [isInked, body, nothing]
  · simp [isInked, selector, nothing]

theorem PlainBlock.allBlank_body_of_leavesBrace {block : PlainBlock}
    (skipped : block.leavesBrace true = true) : Text.AllBlank block.body := by
  rcases leavesBrace_eq_true_iff.mp skipped with body | ⟨clear, -⟩
  · rw [body]
    decide
  · cases clear

/-- A brace is left over exactly behind the blocks that are not read. -/
theorem readOff_skips_iff {lead : List Char} {block : PlainBlock} :
    ((lead ++ block.selector).isEmpty || block.body.isEmpty) = true ↔
      block.leavesBrace (!lead.isEmpty) = true := by
  rw [PlainBlock.leavesBrace_eq_true_iff]
  simp only [Bool.or_eq_true, List.isEmpty_iff, List.append_eq_nil_iff, Bool.not_eq_false',
    or_comm]

/-- No block takes up a brace that was left over, except for those that are skipped anyway because
their body is blank. -/
def Undisturbed (left : Bool) (written : List PlainBlock) : Prop :=
  ∀ (n : Nat) (inside : n < written.length),
    (written.take n).foldl PlainBlock.leavesBrace left = true → Text.AllBlank written[n].body

instance (left : Bool) (written : List PlainBlock) : Decidable (Undisturbed left written) :=
  inferInstanceAs (Decidable (∀ (n : Nat) (_ : n < written.length), _))

theorem undisturbed_cons_iff {left : Bool} {block : PlainBlock} {rest : List PlainBlock} :
    Undisturbed left (block :: rest) ↔
      (left = true → Text.AllBlank block.body) ∧ Undisturbed (block.leavesBrace left) rest := by
  constructor
  · intro whole
    refine ⟨whole 0 (Nat.zero_lt_succ _), fun n inside => ?_⟩
    exact whole (n + 1) (Nat.succ_lt_succ inside)
  · rintro ⟨first, later⟩ n inside
    cases n with
    | zero => exact first
    | succ n => exact later n (Nat.lt_of_succ_lt_succ inside)

theorem brace_not_mem_selector_of_mem_spelledRules {file : Path} {written : List PlainBlock}
    {rule : StyleRule} (member : rule ∈ spelledRules file written) :
    '}' ∉ rule.selector.toList := by
  obtain ⟨block, -, rfl⟩ := List.mem_map.mp member
  intro brace
  exact block.selector_free.2 (Text.mem_of_mem_trim (by simpa [PlainBlock.rule] using brace))

theorem ofBlock?_brace_eq_none_iff {file : Path} {selector body : List Char}
    (brace : '}' ∈ selector) :
    StyleRule.ofBlock? file ⟨selector, body⟩ = none ↔ Text.AllBlank body := by
  have inked : Text.trim selector ≠ [] :=
    List.ne_nil_of_mem (Text.mem_trim_of_mem (by decide) brace)
  simp [StyleRule.ofBlock?, inked, Text.trim_eq_nil_iff]

theorem spelledRules_cons (file : Path) (block : PlainBlock) (rest : List PlainBlock) :
    spelledRules file (block :: rest) =
      if block.isInked then block.rule file :: spelledRules file rest
      else spelledRules file rest := by
  unfold spelledRules
  rw [List.filter_cons]
  split <;> rfl

/-- A block that takes up a brace does no harm exactly if its body is blank. Otherwise it is read as
a rule with a brace in its selector, and no block spells out such a rule. -/
theorem filterMap_brace_cons_eq_iff {file : Path} {selector : List Char} {block : PlainBlock}
    {others : List Block} {rest : List PlainBlock} (brace : '}' ∈ selector) :
    (⟨selector, block.body⟩ :: others).filterMap (StyleRule.ofBlock? file) =
        spelledRules file (block :: rest) ↔
      Text.AllBlank block.body ∧
        others.filterMap (StyleRule.ofBlock? file) = spelledRules file rest := by
  by_cases blank : Text.AllBlank block.body
  · have uninked : block.isInked = false := by
      simp [PlainBlock.isInked, Text.trim_eq_nil_iff.mpr blank]
    rw [List.filterMap_cons_none ((ofBlock?_brace_eq_none_iff brace).mpr blank),
      spelledRules_cons, uninked, if_neg Bool.false_ne_true, and_iff_right blank]
  · obtain ⟨rule, made⟩ := Option.ne_none_iff_exists'.mp
      (mt (ofBlock?_brace_eq_none_iff brace).mp blank)
    have braced : '}' ∈ rule.selector.toList := by
      obtain ⟨-, -, rfl⟩ := StyleRule.ofBlock?_eq_some_iff.mp made
      simpa using Text.mem_trim_of_mem (by decide) brace
    rw [List.filterMap_cons_some made]
    constructor
    · intro same
      have member : rule ∈ spelledRules file (block :: rest) := same ▸ List.mem_cons_self
      exact absurd braced (brace_not_mem_selector_of_mem_spelledRules member)
    · exact fun both => absurd both.1 blank

theorem filterMap_readOff_eq_iff {file : Path} {lead : List Char} {written : List PlainBlock}
    (leftOver : lead = [] ∨ '}' ∈ lead) :
    (readOff lead written).filterMap (StyleRule.ofBlock? file) = spelledRules file written ↔
      Undisturbed (!lead.isEmpty) written := by
  induction written generalizing lead with
  | nil => simp [readOff, spelledRules, Undisturbed]
  | cons block rest ih =>
      rw [undisturbed_cons_iff, readOff]
      by_cases skipped : block.leavesBrace (!lead.isEmpty) = true
      · have uninked := PlainBlock.isInked_eq_false_of_leavesBrace skipped
        have bare : (!lead.isEmpty) = true → Text.AllBlank block.body := fun taken =>
          PlainBlock.allBlank_body_of_leavesBrace (taken ▸ skipped)
        have later := @ih (block.body ++ ['}']) (.inr (by simp))
        have left : (!(block.body ++ ['}']).isEmpty) = true := by simp
        rw [if_pos (readOff_skips_iff.mpr skipped), spelledRules_cons, uninked,
          if_neg Bool.false_ne_true, skipped, later, left, and_iff_right bare]
      · have next : block.leavesBrace (!lead.isEmpty) = false := by simpa using skipped
        have later := @ih [] (.inl rfl)
        rw [if_neg (mt readOff_skips_iff.mp skipped), next]
        rcases leftOver with rfl | brace
        · -- Nothing is left over, so the block is read as it was written.
          rw [List.nil_append, List.filterMap_cons, PlainBlock.ofBlock?_eq, spelledRules_cons]
          split <;> simp_all
        · have taken : (!lead.isEmpty) = true := by simpa using List.ne_nil_of_mem brace
          rw [filterMap_brace_cons_eq_iff (List.mem_append_left _ brace), later, taken,
            forall_prop_of_true rfl]
          rfl

/-- Blocks without braces in them, one after another and without comments, have exactly the rules
that they spell out, unless a block that is not blank takes up a brace that an empty one left over. -/
theorem rules_flatMap_text_iff {written : List PlainBlock} (file : Path)
    (uncommented : Uncommented (written.flatMap PlainBlock.text)) :
    rules (String.ofList (written.flatMap PlainBlock.text)) file = spelledRules file written ↔
      Undisturbed false written := by
  rw [rules, String.toList_ofList, stripComments_eq_self uncommented,
    ← List.nil_append (written.flatMap _), blocks_append_flatMap_text List.not_mem_nil]
  exact filterMap_readOff_eq_iff (.inl rfl)

/-- Blank parts anywhere, an empty selector whose block stands in front of a blank body, and an empty
body at the end. -/
def undisturbed : List PlainBlock := [
  { selector := ".a".toList, body := " ".toList },
  { selector := [], body := "x:y;".toList },
  { selector := ".b".toList, body := "\n".toList },
  { selector := "\n".toList, body := "x:y;".toList },
  { selector := " .c ".toList, body := " d: e; ".toList },
  { selector := ".f".toList, body := [] }]

theorem undisturbed_rules :
    Uncommented (undisturbed.flatMap PlainBlock.text) ∧ Undisturbed false undisturbed ∧
      (rules (String.ofList (undisturbed.flatMap PlainBlock.text)) ⟨"/w/a.css"⟩).map
          (fun rule => (rule.selector, rule.properties.entries)) = [(".c", [("d", "e")])] := by
  have uncommented : Uncommented (undisturbed.flatMap PlainBlock.text) := by decide +kernel
  have clear : Undisturbed false undisturbed := by decide +kernel
  refine ⟨uncommented, clear, ?_⟩
  rw [(rules_flatMap_text_iff ⟨"/w/a.css"⟩ uncommented).mpr clear]
  decide +kernel

def disturbed : List PlainBlock := [
  { selector := ".a".toList, body := [] },
  { selector := ".b".toList, body := "c:d;".toList }]

/-- An empty block changes the selector of its neighbour. -/
theorem disturbed_rules :
    Uncommented (disturbed.flatMap PlainBlock.text) ∧
      (spelledRules ⟨"/w/a.css"⟩ disturbed).map (·.selector) = [".b"] ∧
      (rules (String.ofList (disturbed.flatMap PlainBlock.text)) ⟨"/w/a.css"⟩).map (·.selector) =
        ["\x7d.b"] := by
  decide +kernel

end StyleLookup.Sheet
