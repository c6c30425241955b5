import StyleLookup.Proofs.Declarations
import StyleLookup.Proofs.Sheet.Scan
import StyleLookup.Sheet.Rules

/-!
The shape of what is read from a style sheet, whatever the text is: every name, value and selector
is a trimmed piece of the text without the marks that end it, and the selectors stand in the text in
the order of their rules.
-/

set_option autoImplicit false

namespace StyleLookup

namespace Sheet

/-! ## Declarations -/

/-- A name and a value as they can be read from a text. The value may be empty, and it may hold
colons and braces. -/
structure ReadPair (text name value : List Char) : Prop where
  name_some : name ≠ []
  name_chars : ∀ c ∈ name, isPropertyChar c = true
  name_piece : name <:+: text
  value_trimmed : Text.trim value = value
  value_free : ';' ∉ value
  value_piece : value <:+: text

theorem ReadPair.of_piece {text piece name value : List Char} (pair : ReadPair piece name value)
    (inside : piece <:+: text) : ReadPair text name value :=
  { pair with
    name_piece := pair.name_piece.trans inside
    value_piece := pair.value_piece.trans inside }

theorem readPair_of_valueAfter? {text value after name : List Char}
    (valued : valueAfter? text = some (value, after)) (nameSome : name ≠ [])
    (nameChars : ∀ c ∈ name, isPropertyChar c = true) :
    ReadPair (name ++ text) name (Text.trim value) ∧ after <:+ text := by
  obtain ⟨-, free, gap, -, rfl⟩ := valueAfter?_eq_some_iff.mp valued
  refine ⟨⟨nameSome, nameChars, (List.prefix_append _ _).isInfix, Text.trim_trim value,
    fun member => free (Text.mem_of_mem_trim member), ?_⟩, ?_⟩
  · exact (Text.trim_isInfix value).trans ⟨name ++ gap ++ [':'], ';' :: after, by simp⟩
  · exact ⟨gap ++ ':' :: (value ++ [';']), by simp⟩

theorem readPair_of_mem_declarationPairs {text name value : List Char}
    (member : (name, value) ∈ declarationPairs text) : ReadPair text name value := by
  fun_induction declarationPairs text with
  | case1 => cases member
  | case2 text c rest named found after valued ih =>
      have start : c ∈ (text.dropWhile (! isPropertyChar ·)).head? := by
        rw [named]
        rfl
      have first : isPropertyChar c = true := by
        simpa using Text.outside_of_mem_head?_dropWhile start
      have chars : ∀ d ∈ c :: rest.takeWhile isPropertyChar, isPropertyChar d = true := by
        intro d inside
        rcases List.mem_cons.mp inside with rfl | later
        · exact first
        · exact List.mem_takeWhile_imp later
      -- The full run and what follows it are again the text from its first character on.
      obtain ⟨pair, remains⟩ := readPair_of_valueAfter? valued (List.cons_ne_nil c _) chars
      rw [List.cons_append, List.takeWhile_append_dropWhile] at pair
      have inside : c :: rest <:+: text := named ▸ (List.dropWhile_suffix _).isInfix
      rcases List.mem_cons.mp member with here | later
      · cases here
        exact pair.of_piece inside
      · have further : after <:+ text :=
          remains.trans ((List.dropWhile_suffix _).trans (Text.suffix_of_dropWhile_eq_cons named))
        exact (ih later).of_piece further.isInfix
  | case3 text c rest named valueless ih =>
      have further : rest.dropWhile isPropertyChar <:+ text :=
        (List.dropWhile_suffix _).trans (Text.suffix_of_dropWhile_eq_cons named)
      exact (ih member).of_piece further.isInfix

theorem readPair_of_mem_declarations {text : List Char} {entry : String × String}
    (member : entry ∈ (declarations text).entries) :
    ReadPair text entry.1.toList entry.2.toList := by
  obtain ⟨⟨name, value⟩, pair, rfl⟩ :=
    List.mem_map.mp (Declarations.mem_of_mem_entries_ofList member)
  simpa using readPair_of_mem_declarationPairs pair

/-! ## Rules -/

/-- A block stands in its text with both of its braces. -/
theorem braced_of_mem_blocks {text : List Char} {block : Block} (member : block ∈ blocks text) :
    block.selector ++ '{' :: (block.body ++ ['}']) <:+: text := by
  fun_induction blocks text with
  | case1 => cases member
  | case2 => cases member
  | case3 text c inner opened _ after closed selector body _ ih =>
      exact (ih member).trans (Text.suffix_of_dropWhile_eq_cons opened).isInfix
  | case4 text c inner opened d after closed selector body _ ih =>
      rcases List.mem_cons.mp member with rfl | later
      · have front : text = selector ++ '{' :: inner := Text.eq_append_cons_of_dropWhile opened
        have back : inner = body ++ '}' :: after := Text.eq_append_cons_of_dropWhile closed
        exact ⟨[], after, by simp [front, back]⟩
      · have further : after <:+ text := (Text.suffix_of_dropWhile_eq_cons closed).trans
          (Text.suffix_of_dropWhile_eq_cons opened)
        exact (ih later).trans further.isInfix

theorem infix_of_mem_blocks {text : List Char} {block : Block} (member : block ∈ blocks text) :
    block.selector <:+: text ∧ block.body <:+: text := by
  have braced := braced_of_mem_blocks member
  exact ⟨(List.prefix_append block.selector _).isInfix.trans braced,
    List.IsInfix.trans ⟨block.selector ++ ['{'], ['}'], by simp⟩ braced⟩

end Sheet

namespace StyleRule

/-- A rule as it can be read from a text without comments. Its selector may hold a closing brace,
and its values may hold opening ones. -/
structure ReadFrom (text : List Char) (file : Path) (rule : StyleRule) : Prop where
  selector_some : rule.selector.toList ≠ []
  selector_trimmed : Text.trim rule.selector.toList = rule.selector.toList
  selector_free : '{' ∉ rule.selector.toList
  selector_piece : rule.selector.toList <:+: text
  pairs : ∀ entry ∈ rule.properties.entries,
    Sheet.ReadPair text entry.1.toList entry.2.toList
  values_free : ∀ entry ∈ rule.properties.entries, '}' ∉ entry.2.toList
  file : rule.file = file
  line : rule.line = .unresolved

/-- A block stands for a rule exactly if none of its parts is blank. -/
theorem ofBlock?_eq_some_iff {file : Path} {block : Sheet.Block} {rule : StyleRule} :
    ofBlock? file block = some rule ↔
      Text.trim block.selector ≠ [] ∧ Text.trim block.body ≠ [] ∧
        rule = ⟨String.ofList (Text.trim block.selector),
          Sheet.declarations (Text.trim block.body), file, .unresolved⟩ := by
  simp only [ofBlock?, Bool.or_eq_true, List.isEmpty_iff, Option.ite_none_left_eq_some, not_or,
    Option.some.injEq, eq_comm (b := rule), and_assoc, ne_eq]

end StyleRule

namespace Sheet

namespace Block

def isInked (block : Block) : Bool :=
  !(Text.trim block.selector).isEmpty && !(Text.trim block.body).isEmpty

/-- What a block says, if none of its parts is blank. -/
def rule (file : Path) (block : Block) : StyleRule :=
  ⟨String.ofList (Text.trim block.selector), declarations (Text.trim block.body), file, .unresolved⟩

theorem ofBlock?_eq_ite (file : Path) (block : Block) :
    StyleRule.ofBlock? file block = if block.isInked then some (block.rule file) else none := by
  by_cases inked : block.isInked = true
  · rw [if_pos inked, StyleRule.ofBlock?_eq_some_iff]
    simpa [isInked, rule] using inked
  · rw [if_neg inked]
    simp_all [StyleRule.ofBlock?, isInked]

theorem filterMap_ofBlock? (file : Path) (found : List Block) :
    found.filterMap (StyleRule.ofBlock? file) = (found.filter isInked).map (rule file) := by
  induction found with
  | nil => rfl
  | cons block rest ih =>
      rw [List.filterMap_cons, ofBlock?_eq_ite, List.filter_cons, ih]
      cases block.isInked <;> rfl

end Block

theorem readFrom_of_mem_rules {content : String} {file : Path} {rule : StyleRule}
    (member : rule ∈ rules content file) :
    rule.ReadFrom (stripComments content.toList) file := by
  obtain ⟨block, blockMember, made⟩ := List.mem_filterMap.mp member
  obtain ⟨selectorSome, -, rfl⟩ := StyleRule.ofBlock?_eq_some_iff.mp made
  obtain ⟨⟨-, selectorFree⟩, -, bodyFree⟩ := wellFormed_of_mem_blocks blockMember
  obtain ⟨selectorPiece, bodyPiece⟩ := infix_of_mem_blocks blockMember
  have pairs : ∀ entry ∈ (declarations (Text.trim block.body)).entries,
      ReadPair (Text.trim block.body) entry.1.toList entry.2.toList := fun _ =>
    readPair_of_mem_declarations
  have bodyInside := Text.trim_isInfix block.body
  exact
    { selector_some := by simpa using selectorSome
      selector_trimmed := by simp
      selector_free := by simpa using fun inside => selectorFree (Text.mem_of_mem_trim inside)
      selector_piece := by simpa using (Text.trim_isInfix _).trans selectorPiece
      pairs := fun entry inside => (pairs entry inside).of_piece (bodyInside.trans bodyPiece)
      values_free := fun entry inside brace =>
        bodyFree (((pairs entry inside).value_piece.trans bodyInside).subset brace)
      file := rfl
      line := rfl }

/-! ## The places of selectors -/

/-- Pieces that stand in a text one behind the other: each starts where the one before it has ended,
or further on. -/
inductive InTurn : List (List Char) → List Char → Prop
  | ending {text} : InTurn [] text
  | piece {gap piece pieces after} : InTurn pieces after →
      InTurn (piece :: pieces) (gap ++ (piece ++ after))

theorem InTurn.append_left {pieces : List (List Char)} {text : List Char}
    (inTurn : InTurn pieces text) (lead : List Char) : InTurn pieces (lead ++ text) := by
  cases inTurn with
  | ending => exact .ending
  | piece later =>
      rw [← List.append_assoc]
      exact .piece later

theorem inTurn_selectors (text : List Char) (file : Path) :
    InTurn (((blocks text).filterMap (StyleRule.ofBlock? file)).map (·.selector.toList)) text := by
  induction text using blocks_induction with
  | unbraced text unbraced =>
      rw [blocks_of_not_braced unbraced]
      exact .ending
  | passed selector body after selectorFree bodyFree empty ih =>
      have passed : (selector.isEmpty || body.isEmpty) = true := by simpa using empty
      rw [blocks_braces selectorFree bodyFree, if_pos passed]
      simpa using ih.append_left (selector ++ ['{'])
  | read selector body after selectorSome selectorFree bodySome bodyFree ih =>
      rw [blocks_block_append selectorSome selectorFree bodySome bodyFree, List.filterMap_cons,
        Block.ofBlock?_eq_ite]
      -- The text behind the selector is passed over before the rest is searched.
      have behind (front : List Char) := ih.append_left (front ++ '{' :: (body ++ ['}']))
      by_cases inked : Block.isInked ⟨selector, body⟩ = true
      · obtain ⟨lead, tail, whole, -, -⟩ := Text.exists_trim_append selector
        rw [if_pos inked]
        have cut : selector ++ '{' :: (body ++ '}' :: after) =
            lead ++ (Text.trim selector ++ (tail ++ '{' :: (body ++ ['}']) ++ after)) := by
          conv_lhs => rw [whole]
          simp
        rw [cut]
        simpa [Block.rule] using InTurn.piece (behind tail)
      · rw [if_neg inked]
        simpa using behind selector

/-- Whatever the text is, its rules are well formed. Selectors and values are trimmed and end in
front of the marks that close them, names are not empty and come once in each rule, and all of them
are pieces of the text without its comments, the selectors one behind the other. -/
theorem rules_well_formed (css : String) (file : Path) :
    (∀ rule ∈ rules css file,
      (rule.selector ≠ "" ∧ Text.Unpadded rule.selector.toList ∧ '{' ∉ rule.selector.toList ∧
        rule.selector.toList <:+: stripComments css.toList) ∧
      (rule.file = file ∧ rule.line = .unresolved) ∧
      (rule.properties.entries.map Prod.fst).Nodup ∧
      ∀ entry ∈ rule.properties.entries,
        (entry.1 ≠ "" ∧ (∀ c ∈ entry.1.toList, c.isAlpha = true ∨ c = '-') ∧
          entry.1.toList <:+: stripComments css.toList) ∧
        (Text.Unpadded entry.2.toList ∧ ';' ∉ entry.2.toList ∧ '}' ∉ entry.2.toList ∧
          entry.2.toList <:+: stripComments css.toList)) ∧
    InTurn ((rules css file).map (·.selector.toList)) (stripComments css.toList) := by
  refine ⟨fun rule member => ?_, inTurn_selectors _ file⟩
  have read := readFrom_of_mem_rules member
  have trimmed := Text.trim_eq_self_iff.mp read.selector_trimmed
  refine ⟨⟨?_, trimmed, read.selector_free, read.selector_piece⟩, ⟨read.file, read.line⟩,
    rule.properties.distinct, fun entry inside => ?_⟩
  · simpa using read.selector_some
  · have pair := read.pairs entry inside
    have valueTrimmed := Text.trim_eq_self_iff.mp pair.value_trimmed
    refine ⟨⟨by simpa using pair.name_some, fun c spelled => ?_, pair.name_piece⟩, valueTrimmed,
      pair.value_free, read.values_free entry inside, pair.value_piece⟩
    simpa [isPropertyChar] using pair.name_chars c spelled

end Sheet

end StyleLookup
