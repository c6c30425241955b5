import Mathlib.Data.List.Forall2
import StyleLookup.Proofs.Declarations
import StyleLookup.Proofs.Sheet.Scan
import StyleLookup.Sheet.Rules

/-!
Flat style sheets, as people write them: blocks one after another, each with a selector and with
declarations in braces, and white space wherever it does no harm. Such a sheet has exactly the rules
that it spells out.
-/

set_option autoImplicit false

namespace StyleLookup.Sheet

structure WrittenDeclaration where
  beforeName : List Char
  name : List Char
  afterName : List Char
  beforeValue : List Char
  value : List Char
  afterValue : List Char
  beforeName_blank : Text.AllBlank beforeName := by decide
  name_some : name ≠ [] := by decide
  name_chars : name.all isPropertyChar = true := by decide
  afterName_blank : Text.AllBlank afterName := by decide
  beforeValue_blank : Text.AllBlank beforeValue := by decide
  value_inked : ¬ Text.AllBlank value := by decide
  value_free : ';' ∉ value ∧ '{' ∉ value ∧ '}' ∉ value := by decide
  afterValue_blank : Text.AllBlank afterValue := by decide

/-- A block with the white space in it. Its closing brace may stand apart from the last
declaration. -/
structure WrittenBlock where
  beforeSelector : List Char
  selector : List Char
  afterSelector : List Char
  declarations : List WrittenDeclaration
  beforeClose : List Char
  beforeSelector_blank : Text.AllBlank beforeSelector := by decide
  selector_inked : ¬ Text.AllBlank selector := by decide
  selector_free : '{' ∉ selector ∧ '}' ∉ selector := by decide
  afterSelector_blank : Text.AllBlank afterSelector := by decide
  declarations_some : declarations ≠ [] := by decide
  beforeClose_blank : Text.AllBlank beforeClose := by decide

/-- Blocks one after another, and white space at the end. -/
structure FlatSheet where
  blocks : List WrittenBlock
  ending : List Char
  ending_blank : Text.AllBlank ending := by decide

namespace WrittenDeclaration

def valueText (declaration : WrittenDeclaration) : List Char :=
  declaration.beforeValue ++ declaration.value ++ declaration.afterValue

def text (declaration : WrittenDeclaration) : List Char :=
  declaration.beforeName ++ (declaration.name ++
    (declaration.afterName ++ ':' :: (declaration.valueText ++ [';'])))

def pair (declaration : WrittenDeclaration) : List Char × List Char :=
  (declaration.name, Text.trim declaration.value)

theorem trim_valueText (declaration : WrittenDeclaration) :
    Text.trim declaration.valueText = Text.trim declaration.value := by
  rw [valueText, Text.trim_append_right declaration.afterValue_blank,
    Text.trim_append_left declaration.beforeValue_blank]

theorem valueText_ne_nil (declaration : WrittenDeclaration) : declaration.valueText ≠ [] := by
  intro empty
  apply declaration.value_inked
  rw [← Text.trim_eq_nil_iff, ← trim_valueText, empty]
  rfl

/-- The marks that could end a value or a block too early are nowhere in a value. -/
theorem not_mem_valueText (declaration : WrittenDeclaration) {mark : Char}
    (ink : Text.isBlank mark = false) (free : mark ∉ declaration.value) :
    mark ∉ declaration.valueText := by
  simp only [valueText, List.mem_append, not_or]
  exact ⟨⟨declaration.beforeValue_blank.not_mem mark ink, free⟩,
    declaration.afterValue_blank.not_mem mark ink⟩

theorem not_mem_text (declaration : WrittenDeclaration) : '}' ∉ declaration.text := by
  have nameFree : '}' ∉ declaration.name := fun member =>
    absurd (List.all_eq_true.mp declaration.name_chars _ member) (by decide)
  simp [text, nameFree, declaration.beforeName_blank.not_mem '}' (by decide),
    declaration.afterName_blank.not_mem '}' (by decide),
    declaration.not_mem_valueText (by decide) declaration.value_free.2.2]

theorem declarationPairs_text_append (declaration : WrittenDeclaration) (rest : List Char) :
    declarationPairs (declaration.text ++ rest) = declaration.pair :: declarationPairs rest := by
  have whole : declaration.text ++ rest = declaration.beforeName ++ (declaration.name ++
      (declaration.afterName ++ ':' :: (declaration.valueText ++ ';' :: rest))) := by
    simp [text]
  rw [whole, declarationPairs_declaration_append
    (unnamed_of_allBlank declaration.beforeName_blank) declaration.name_some
    (List.all_eq_true.mp declaration.name_chars) declaration.afterName_blank
    declaration.valueText_ne_nil
    (declaration.not_mem_valueText (by decide) declaration.value_free.1), trim_valueText, pair]

end WrittenDeclaration

namespace WrittenBlock

def selectorText (block : WrittenBlock) : List Char :=
  block.beforeSelector ++ block.selector ++ block.afterSelector

def body (block : WrittenBlock) : List Char :=
  block.declarations.flatMap WrittenDeclaration.text ++ block.beforeClose

def text (block : WrittenBlock) : List Char :=
  block.selectorText ++ '{' :: (block.body ++ ['}'])

def pairs (block : WrittenBlock) : List (String × String) :=
  block.declarations.map fun declaration =>
    (String.ofList declaration.name, String.ofList (Text.trim declaration.value))

/-- A rule says what a block spells out: the trimmed selector, and each name in its first place with
its last value. -/
structure Yields (file : Path) (block : WrittenBlock) (rule : StyleRule) : Prop where
  selector : rule.selector = String.ofList (Text.trim block.selector)
  properties : rule.properties.entries = Declarations.lastValues block.pairs
  file : rule.file = file
  line : rule.line = .unresolved

theorem trim_selectorText (block : WrittenBlock) :
    Text.trim block.selectorText = Text.trim block.selector := by
  rw [selectorText, Text.trim_append_right block.afterSelector_blank,
    Text.trim_append_left block.beforeSelector_blank]

theorem trim_selectorText_ne_nil (block : WrittenBlock) : Text.trim block.selectorText ≠ [] := by
  rw [trim_selectorText, ne_eq, Text.trim_eq_nil_iff]
  exact block.selector_inked

theorem declarationPairs_body (block : WrittenBlock) :
    declarationPairs (Text.trim block.body) = block.declarations.map WrittenDeclaration.pair := by
  have nothing : declarationPairs block.beforeClose = [] :=
    declarationPairs_of_unnamed (unnamed_of_allBlank block.beforeClose_blank)
  rw [declarationPairs_trim, body, declarationPairs_flatMap_append fun declaration _ rest =>
    declaration.declarationPairs_text_append rest, nothing, List.append_nil]

theorem trim_body_ne_nil (block : WrittenBlock) : Text.trim block.body ≠ [] := by
  intro empty
  have pairs := block.declarationPairs_body
  rw [empty, declarationPairs_of_unnamed (by simp)] at pairs
  exact block.declarations_some (List.map_eq_nil_iff.mp pairs.symm)

theorem exists_rule (block : WrittenBlock) (file : Path) :
    ∃ rule, StyleRule.ofBlock? file ⟨block.selectorText, block.body⟩ = some rule ∧
      block.Yields file rule := by
  refine ⟨⟨String.ofList (Text.trim block.selectorText), Sheet.declarations (Text.trim block.body),
    file, .unresolved⟩, ?_, ?_⟩
  · simp [StyleRule.ofBlock?, block.trim_selectorText_ne_nil, block.trim_body_ne_nil]
  · refine ⟨by rw [trim_selectorText], ?_, rfl, rfl⟩
    simp only [Sheet.declarations, declarationPairs_body, Declarations.entries_ofList, List.map_map]
    rfl

theorem blocks_text_append (block : WrittenBlock) (rest : List Char) :
    blocks (block.text ++ rest) = ⟨block.selectorText, block.body⟩ :: blocks rest := by
  have selectorFree : '{' ∉ block.selectorText := by
    simp [selectorText, block.selector_free.1,
      block.beforeSelector_blank.not_mem '{' (by decide),
      block.afterSelector_blank.not_mem '{' (by decide)]
  have bodyFree : '}' ∉ block.body := by
    simp [body, WrittenDeclaration.not_mem_text,
      block.beforeClose_blank.not_mem '}' (by decide)]
  have selectorSome : block.selectorText ≠ [] := fun empty =>
    block.trim_selectorText_ne_nil (by rw [empty]; rfl)
  have bodySome : block.body ≠ [] := fun empty => block.trim_body_ne_nil (by rw [empty]; rfl)
  have whole : block.text ++ rest =
      block.selectorText ++ '{' :: (block.body ++ '}' :: rest) := by
    simp [text]
  rw [whole, blocks_block_append selectorSome selectorFree bodySome bodyFree]

end WrittenBlock

namespace FlatSheet

def text (sheet : FlatSheet) : List Char :=
  sheet.blocks.flatMap WrittenBlock.text ++ sheet.ending

theorem blocks_flatMap_append (written : List WrittenBlock) {ending : List Char}
    (blank : Text.AllBlank ending) :
    Sheet.blocks (written.flatMap WrittenBlock.text ++ ending) =
      written.map fun block => ⟨block.selectorText, block.body⟩ := by
  induction written with
  | nil => exact blocks_of_not_mem (blank.not_mem '{' (by decide))
  | cons block rest ih =>
      rw [List.flatMap_cons, List.append_assoc, WrittenBlock.blocks_text_append, ih, List.map_cons]

/-- A flat sheet without comments has one rule for each of its blocks, in their order, and each rule
says what its block spells out. -/
theorem rules_text (sheet : FlatSheet) (file : Path) (uncommented : Uncommented sheet.text) :
    List.Forall₂ (WrittenBlock.Yields file) sheet.blocks
      (Sheet.rules (String.ofList sheet.text) file) := by
  rw [Sheet.rules, String.toList_ofList, stripComments_eq_self uncommented, text,
    blocks_flatMap_append _ sheet.ending_blank]
  induction sheet.blocks with
  | nil => exact .nil
  | cons block rest ih =>
      obtain ⟨rule, made, yields⟩ := block.exists_rule file
      rw [List.map_cons, List.filterMap_cons_some made]
      exact .cons yields ih

/-- A sheet of two blocks, one written with much white space and a repeated name, the other one
without any white space. -/
def sample : FlatSheet where
  blocks := [
    { beforeSelector := ['\n']
      selector := "h1,\nh2".toList
      afterSelector := [' ']
      declarations := [
        { beforeName := "\n\t".toList, name := "color".toList, afterName := [' ']
          beforeValue := [' '], value := "red".toList, afterValue := [] },
        { beforeName := [' '], name := "margin".toList, afterName := []
          beforeValue := [], value := "a:b c".toList, afterValue := [' '] },
        { beforeName := [], name := "color".toList, afterName := []
          beforeValue := [], value := "blue".toList, afterValue := [] }]
      beforeClose := ['\n'] },
    { beforeSelector := []
      selector := "#x".toList
      afterSelector := []
      declarations := [
        { beforeName := [], name := "--v".toList, afterName := []
          beforeValue := [], value := "1".toList, afterValue := [] }]
      beforeClose := [] }]
  ending := ['\n']

theorem sample_rules :
    Uncommented sample.text ∧
      (Sheet.rules (String.ofList sample.text) ⟨"/w/a.css"⟩).map
          (fun rule => (rule.selector, rule.properties.entries)) =
        [("h1,\nh2", [("color", "blue"), ("margin", "a:b c")]), ("#x", [("--v", "1")])] := by
  have uncommented : Uncommented sample.text := by decide +kernel
  have yields := rules_text sample ⟨"/w/a.css"⟩ uncommented
  refine ⟨uncommented, ?_⟩
  generalize Sheet.rules (String.ofList sample.text) ⟨"/w/a.css"⟩ = rules at yields ⊢
  cases yields with
  | cons first later =>
      cases later with
      | cons second none =>
          cases none
          simp only [List.map_cons, List.map_nil, first.selector, first.properties,
            second.selector, second.properties]
          decide +kernel

end FlatSheet

end StyleLookup.Sheet
