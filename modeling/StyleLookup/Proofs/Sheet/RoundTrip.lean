import StyleLookup.Proofs.Sheet.Parsed
import StyleLookup.StyleRule.Printer

/-!
Reading back the text form of rules. Rules that were read from a style sheet, written one under the
other, are read as the same rules again, except that a rule without declarations is lost: its body
is blank.
-/

set_option autoImplicit false

namespace StyleLookup

namespace StyleRule

def renderBody (rule : StyleRule) : List Char :=
  '\n' :: rule.properties.entries.flatMap fun (name, value) => renderProperty name value

theorem renderText_append (rule : StyleRule) (rest : List Char) :
    rule.renderText ++ rest =
      (rule.selector.toList ++ [' ']) ++ '{' :: (rule.renderBody ++ '}' :: rest) := by
  simp [renderText, renderBody]

variable {text : List Char} {file : Path} {rule : StyleRule}

theorem not_mem_renderBody (shape : rule.ReadFrom text file) : '}' ∉ rule.renderBody := by
  have propertyFree : ∀ entry ∈ rule.properties.entries,
      '}' ∉ renderProperty entry.1 entry.2 := by
    intro entry member
    have nameFree : '}' ∉ entry.1.toList := fun inside =>
      absurd ((shape.pairs entry member).name_chars _ inside) (by decide)
    simp [renderProperty, nameFree, shape.values_free entry member]
  simpa [renderBody] using fun name value member => propertyFree (name, value) member

theorem uncommented_flatMap_renderProperty (uncommented : Sheet.Uncommented text)
    {entries : List (String × String)}
    (pairs : ∀ entry ∈ entries, Sheet.ReadPair text entry.1.toList entry.2.toList) :
    Sheet.Uncommented
      (entries.flatMap (fun (name, value) => renderProperty name value) ++ ['}']) := by
  induction entries with
  | nil => decide
  | cons entry rest ih =>
      have later := ih fun other member => pairs other (List.mem_cons_of_mem entry member)
      have here := pairs entry List.mem_cons_self
      -- Every seam has a space or a mark on one side, so it opens no comment.
      simpa [renderProperty, Sheet.uncommented_append_cons_of_ne, Sheet.uncommented_cons_of_ne,
        uncommented.piece here.name_piece, uncommented.piece here.value_piece] using later

theorem uncommented_renderText (uncommented : Sheet.Uncommented text)
    (shape : rule.ReadFrom text file) : Sheet.Uncommented rule.renderText := by
  have properties := uncommented_flatMap_renderProperty uncommented shape.pairs
  simpa [renderText, Sheet.uncommented_append_cons_of_ne, Sheet.uncommented_cons_of_ne,
    uncommented.piece shape.selector_piece] using properties

end StyleRule

namespace Sheet

theorem declarationPairs_renderProperty_append {text : List Char} {name value : String}
    (pair : ReadPair text name.toList value.toList) (rest : List Char) :
    declarationPairs (StyleRule.renderProperty name value ++ rest) =
      (name.toList, value.toList) :: declarationPairs rest := by
  have whole : StyleRule.renderProperty name value ++ rest = "  ".toList ++ (name.toList ++
      ([] ++ ':' :: ((' ' :: value.toList) ++ ';' :: (['\n'] ++ rest)))) := by
    simp [StyleRule.renderProperty]
  have valueFree : ';' ∉ ' ' :: value.toList := by simp [pair.value_free]
  have indent : Text.AllBlank "  ".toList := by decide
  have gap : Text.AllBlank [] := by decide
  have space : Text.AllBlank [' '] := by decide
  have lineFeed : Text.AllBlank ['\n'] := by decide
  have trimmed : Text.trim (' ' :: value.toList) = value.toList :=
    (Text.trim_append_left space value.toList).trans pair.value_trimmed
  rw [whole, declarationPairs_declaration_append (unnamed_of_allBlank indent) pair.name_some
    pair.name_chars gap (List.cons_ne_nil _ _) valueFree,
    declarationPairs_append_left (unnamed_of_allBlank lineFeed), trimmed]

theorem declarationPairs_flatMap_renderProperty {text : List Char}
    {entries : List (String × String)}
    (pairs : ∀ entry ∈ entries, ReadPair text entry.1.toList entry.2.toList) :
    declarationPairs (entries.flatMap fun (name, value) => StyleRule.renderProperty name value) =
      entries.map fun (name, value) => (name.toList, value.toList) := by
  have nothing : declarationPairs [] = [] := declarationPairs_of_unnamed (by simp)
  have row := declarationPairs_flatMap_append (fun entry member =>
    declarationPairs_renderProperty_append (pairs entry member)) []
  rwa [List.append_nil, nothing, List.append_nil] at row

end Sheet

namespace StyleRule

variable {text : List Char} {file : Path} {rule : StyleRule}

theorem declarations_renderBody (shape : rule.ReadFrom text file) :
    Sheet.declarations (Text.trim rule.renderBody) = rule.properties := by
  have pairs : Sheet.declarationPairs rule.renderBody =
      rule.properties.entries.map fun (name, value) => (name.toList, value.toList) := by
    have lineFeed : Text.AllBlank ['\n'] := by decide
    rw [renderBody, ← List.singleton_append,
      Sheet.declarationPairs_append_left (Sheet.unnamed_of_allBlank lineFeed),
      Sheet.declarationPairs_flatMap_renderProperty shape.pairs]
  rw [Sheet.declarations, Sheet.declarationPairs_trim, pairs, List.map_map]
  simpa [Function.comp_def] using Declarations.ofList_entries rule.properties

theorem trim_renderBody_eq_nil_iff (shape : rule.ReadFrom text file) :
    Text.trim rule.renderBody = [] ↔ rule.properties.isEmpty = true := by
  constructor
  · intro blank
    rw [← declarations_renderBody shape, blank, Sheet.declarations,
      Sheet.declarationPairs_of_unnamed (by simp)]
    rfl
  · intro undeclared
    rw [renderBody, List.isEmpty_iff.mp undeclared]
    decide

/-- The block of a rule in text form stands for the rule itself, if anything is declared. -/
theorem ofBlock?_rendered (shape : rule.ReadFrom text file) {lead : List Char}
    (blank : Text.AllBlank lead) :
    ofBlock? file ⟨lead ++ (rule.selector.toList ++ [' ']), rule.renderBody⟩ =
      Option.guard (fun rule => !rule.properties.isEmpty) rule := by
  have selector : Text.trim (lead ++ (rule.selector.toList ++ [' '])) = rule.selector.toList := by
    rw [Text.trim_append_left blank, Text.trim_append_right (by decide), shape.selector_trimmed]
  by_cases undeclared : rule.properties.isEmpty = true
  · rw [Option.guard_eq_none_iff.mpr (by simp [undeclared])]
    simp [ofBlock?, (trim_renderBody_eq_nil_iff shape).mpr undeclared]
  · have inked := mt (trim_renderBody_eq_nil_iff shape).mp undeclared
    rw [Option.guard_pos (by simp [undeclared]), ofBlock?_eq_some_iff, selector,
      declarations_renderBody shape]
    obtain ⟨selectorText, properties, place, line⟩ := rule
    obtain rfl : place = file := shape.file
    obtain rfl : line = .unresolved := shape.line
    exact ⟨shape.selector_some, inked, by simp⟩

end StyleRule

namespace Sheet

variable {text : List Char} {file : Path} {written : List StyleRule}

def renderLines (written : List StyleRule) : List Char :=
  ['\n'].intercalate (written.map StyleRule.renderText)

theorem toList_intercalate_render (written : List StyleRule) :
    ("\n".intercalate (written.map StyleRule.render)).toList = renderLines written := by
  simp [renderLines, StyleRule.render, Function.comp_def]

theorem uncommented_renderLines (uncommented : Uncommented text)
    (shapes : ∀ rule ∈ written, rule.ReadFrom text file) : Uncommented (renderLines written) := by
  induction written with
  | nil => decide
  | cons rule rest ih =>
      have here := StyleRule.uncommented_renderText uncommented (shapes rule List.mem_cons_self)
      have later := ih fun other member => shapes other (List.mem_cons_of_mem rule member)
      cases rest with
      | nil => simpa [renderLines] using here
      | cons next rest =>
          simp only [renderLines, List.map_cons, List.intercalate_cons_cons] at later ⊢
          simpa [uncommented_append_cons_of_ne, uncommented_cons_of_ne, here] using later

/-- Rules in text form stand for themselves, one after another, as far as anything is declared. -/
theorem filterMap_blocks_renderLines (shapes : ∀ rule ∈ written, rule.ReadFrom text file)
    {lead : List Char} (blank : Text.AllBlank lead) :
    (blocks (lead ++ renderLines written)).filterMap (StyleRule.ofBlock? file) =
      written.filterMap (Option.guard fun rule => !rule.properties.isEmpty) := by
  induction written generalizing lead with
  | nil =>
      have nothing : blocks (lead ++ renderLines []) = [] :=
        blocks_of_not_mem (by simpa [renderLines] using blank.not_mem '{' (by decide))
      rw [nothing]
      rfl
  | cons rule rest ih =>
      have shape := shapes rule List.mem_cons_self
      -- Every rule but the last is followed by a line feed, which is trimmed off the next selector.
      obtain ⟨gap, gapBlank, cut⟩ : ∃ gap, Text.AllBlank gap ∧
          renderLines (rule :: rest) = rule.renderText ++ (gap ++ renderLines rest) := by
        cases rest with
        | nil => exact ⟨[], by decide, by simp [renderLines]⟩
        | cons next rest => exact ⟨['\n'], by decide, by simp [renderLines]⟩
      have later := ih (fun other member => shapes other (List.mem_cons_of_mem rule member)) gapBlank
      have selectorFree : '{' ∉ lead ++ (rule.selector.toList ++ [' ']) := by
        simp [blank.not_mem '{' (by decide), shape.selector_free]
      have bodySome : rule.renderBody ≠ [] := List.cons_ne_nil _ _
      rw [cut, StyleRule.renderText_append, ← List.append_assoc,
        blocks_block_append (by simp) selectorFree bodySome (StyleRule.not_mem_renderBody shape),
        List.filterMap_cons, StyleRule.ofBlock?_rendered shape blank, later, List.filterMap_cons]

/-- Writing the rules of a style sheet one under the other and reading them back gives the rules
that declare anything, in their order and with all that they say. -/
theorem rules_intercalate_render (css : String) (file : Path)
    (uncommented : Uncommented css.toList) :
    rules ("\n".intercalate ((rules css file).map StyleRule.render)) file =
      (rules css file).filter fun rule => !rule.properties.isEmpty := by
  have shapes : ∀ rule ∈ rules css file, rule.ReadFrom css.toList file := by
    intro rule member
    have shape := readFrom_of_mem_rules member
    rwa [stripComments_eq_self uncommented] at shape
  rw [rules, toList_intercalate_render,
    stripComments_eq_self (uncommented_renderLines uncommented shapes), ← List.filterMap_eq_filter]
  have nothing : Text.AllBlank [] := by decide
  exact filterMap_blocks_renderLines shapes nothing

/-- A sheet with stray and nested braces, a rule without declarations, an empty value, a blank body
and an open end. -/
def malformed : String :=
  "a\x7bb: c\x7bd;e:;\x7d\x7d f\x7bg\x7d\n\x7d.h\x7bi : ;\x7dx\x7b \x7d\x7b"

theorem malformed_read_back :
    Uncommented malformed.toList ∧
      (rules malformed ⟨"/w/a.css"⟩).map (·.selector) = ["a", "\x7d f", "\x7d.h"] ∧
      (rules ("\n".intercalate ((rules malformed ⟨"/w/a.css"⟩).map StyleRule.render))
          ⟨"/w/a.css"⟩).map (fun rule => (rule.selector, rule.properties.entries)) =
        [("a", [("b", "c\x7bd")]), ("\x7d.h", [("i", "")])] := by
  have uncommented : Uncommented malformed.toList := by decide +kernel
  refine ⟨uncommented, by decide +kernel, ?_⟩
  rw [rules_intercalate_render _ _ uncommented]
  decide +kernel

end Sheet

end StyleLookup
