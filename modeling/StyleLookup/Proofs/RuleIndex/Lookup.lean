import Mathlib.Data.List.Basic
import StyleLookup.Proofs.Path.Encoding
import StyleLookup.RuleIndex.Basic

/-!
Lookups in the cache of an index, seen through what the cache holds for each pair of paths. What a
rule remembers of its line is left aside throughout, since callers may resolve the lines of rules
that the cache still holds.
-/

set_option autoImplicit false

namespace StyleLookup

def Path.FreeOfBackslash (path : Path) : Prop := '\\' ∉ path.text

instance (path : Path) : Decidable path.FreeOfBackslash :=
  inferInstanceAs (Decidable ('\\' ∉ path.text))

/-- A path that is text and has no backslash, so that no other such path is filed under the same
name. -/
def Path.Encoding.Plain (encoding : Encoding) (path : Path) : Prop :=
  encoding.Legible path ∧ path.FreeOfBackslash

instance (encoding : Path.Encoding) (path : Path) : Decidable (encoding.Plain path) :=
  inferInstanceAs (Decidable (_ ∧ _))

namespace CacheKey

variable {encoding : Path.Encoding}

theorem unifySeparators_eq_self {spelling : String} (free : '\\' ∉ spelling.toList) :
    unifySeparators spelling = spelling := by
  have kept : spelling.toList.map (fun c => if c = '\\' then '/' else c) =
      spelling.toList.map id := by
    apply List.map_congr_left
    intro c member
    have different : c ≠ '\\' := fun same => free (same ▸ member)
    simp [different]
  rw [unifySeparators, kept, List.map_id, String.ofList_toList]

theorem unifySeparators_decode {path : Path} (plain : encoding.Plain path) :
    unifySeparators (encoding.decode path) = encoding.decode path := by
  obtain ⟨legible, free⟩ := plain
  refine unifySeparators_eq_self fun held => free ?_
  have written := Path.Encoding.mem_text_encode encoding (by decide) held
  rwa [legible] at written

theorem unifySeparators_decode_inj {path other : Path} (plain : encoding.Plain path)
    (otherPlain : encoding.Plain other) :
    unifySeparators (encoding.decode path) = unifySeparators (encoding.decode other) ↔
      path = other := by
  rw [unifySeparators_decode plain, unifySeparators_decode otherPlain]
  exact ⟨plain.1.eq_of_decode_eq otherPlain.1, congrArg encoding.decode⟩

theorem ofPaths_inj {style source otherStyle otherSource : Path} (stylePlain : encoding.Plain style)
    (sourcePlain : encoding.Plain source) (otherStylePlain : encoding.Plain otherStyle)
    (otherSourcePlain : encoding.Plain otherSource) :
    ofPaths style source encoding = ofPaths otherStyle otherSource encoding ↔
      (style, source) = (otherStyle, otherSource) := by
  rw [ofPaths, ofPaths, mk.injEq, Prod.mk.injEq,
    unifySeparators_decode_inj stylePlain otherStylePlain,
    unifySeparators_decode_inj sourcePlain otherSourcePlain]

/-- Whether text is held as text or by its bytes makes no difference to what is filed under it. -/
theorem ofPaths_encode (encoding : Path.Encoding) (style source : String) :
    ofPaths (encoding.encode style) (encoding.encode source) encoding =
      ofPaths ⟨style⟩ ⟨source⟩ := by
  rw [ofPaths, Path.Encoding.decode_encode, Path.Encoding.decode_encode]
  rfl

end CacheKey

theorem RuleCache.entries_insert_of_get?_eq_none {cache : RuleCache} {key : CacheKey}
    (absent : cache.get? key = none) (rules : List StyleRule) :
    (cache.insert key rules).entries = cache.entries ++ [(key, rules)] := by
  have others : (cache.entries.filter fun entry => entry.1 != key) = cache.entries := by
    rw [List.filter_eq_self]
    intro entry member
    have apart := List.lookup_eq_none_iff.mp absent entry member
    exact bne_iff_ne.mpr (bne_iff_ne.mp apart).symm
  rw [insert, others]

namespace StyleRule

/-- The rule as it was parsed, before anything was found out about its line. -/
def forgetLine (rule : StyleRule) : StyleRule := { rule with line := .unresolved }

@[simp] theorem forgetLine_resolveLine (rule : StyleRule) (content : String) :
    (rule.resolveLine content).forgetLine = rule.forgetLine := by
  unfold resolveLine
  split <;> simp only [forgetLine]

theorem forgetLine_of_ofBlock? {file : Path} {block : Sheet.Block} {rule : StyleRule}
    (made : ofBlock? file block = some rule) : rule.forgetLine = rule := by
  dsimp only [ofBlock?] at made
  split at made
  · cases made
  · cases made
    rfl

end StyleRule

theorem Sheet.map_forgetLine_rules (content : String) (file : Path) :
    (Sheet.rules content file).map StyleRule.forgetLine = Sheet.rules content file := by
  have kept : (Sheet.rules content file).map StyleRule.forgetLine =
      (Sheet.rules content file).map id := by
    apply List.map_congr_left
    intro rule member
    obtain ⟨block, -, made⟩ := List.mem_filterMap.mp member
    exact StyleRule.forgetLine_of_ofBlock? made
  rw [kept, List.map_id]

namespace RuleIndex

/-- The rules of a style sheet as an attempt to read it gives them: those of its content, or none if
it could not be read. -/
def rulesOfReading (style : Path) : Except FileFault String → List StyleRule
  | .ok content => Sheet.rules content style
  | .error _ => []

theorem map_forgetLine_rulesOfReading (style : Path) (reading : Except FileFault String) :
    (rulesOfReading style reading).map StyleRule.forgetLine = rulesOfReading style reading := by
  cases reading with
  | error fault => rfl
  | ok content => exact Sheet.map_forgetLine_rules content style

theorem readRules_snapshot (snapshot : Snapshot) (style : Path) :
    readRules snapshot style = rulesOfReading style (snapshot.readText style) := by
  simp only [readRules, bind]
  cases snapshot.readText style <;> rfl

/-- What an index holds for a style sheet and a source file, lines left aside. -/
def held? (index : RuleIndex) (style source : Path) : Option (List StyleRule) :=
  (index.cache.get? (index.key style source)).map (List.map StyleRule.forgetLine)

@[simp] theorem held?_fresh (workspace : Workspace) (scoping : Scoping) (encoding : Path.Encoding)
    (style source : Path) : (fresh workspace scoping encoding).held? style source = none := rfl

@[simp] theorem held?_invalidate (index : RuleIndex) (style source : Path) :
    index.invalidate.held? style source = none := rfl

theorem held?_insert (index : RuleIndex) (filed : CacheKey) (rules : List StyleRule)
    (style source : Path) :
    held? { index with cache := index.cache.insert filed rules } style source =
      if index.key style source = filed then some (rules.map StyleRule.forgetLine)
      else index.held? style source := by
  have sameKey : key { index with cache := index.cache.insert filed rules } style source =
      index.key style source := rfl
  by_cases same : index.key style source = filed
  · rw [held?, sameKey, same, RuleCache.get?_insert_same, if_pos rfl, Option.map_some]
  · rw [held?, sameKey, RuleCache.get?_insert_other _ same, if_neg same, held?]

theorem held?_insert_of_plain (index : RuleIndex) (rules : List StyleRule)
    {style source otherStyle otherSource : Path} (stylePlain : index.encoding.Plain style)
    (sourcePlain : index.encoding.Plain source) (otherStylePlain : index.encoding.Plain otherStyle)
    (otherSourcePlain : index.encoding.Plain otherSource) :
    held? { index with cache := index.cache.insert (index.key style source) rules }
        otherStyle otherSource =
      if (otherStyle, otherSource) = (style, source) then some (rules.map StyleRule.forgetLine)
      else index.held? otherStyle otherSource := by
  have apart := CacheKey.ofPaths_inj otherStylePlain otherSourcePlain stylePlain sourcePlain
  simp only [held?_insert, key, apart]

/-- How an index was set up, apart from what it has read. -/
def setup (index : RuleIndex) : Workspace × Scoping × Path.Encoding :=
  (index.workspace, index.scoping, index.encoding)

theorem encoding_congr {index other : RuleIndex} (same : index.setup = other.setup) :
    index.encoding = other.encoding :=
  congrArg (fun setup => setup.2.2) same

theorem candidates_congr {index other : RuleIndex} (same : index.setup = other.setup)
    (snapshot : Snapshot) (source : Path) :
    index.candidates snapshot source = other.candidates snapshot source := by
  simp only [setup, Prod.mk.injEq] at same
  simp only [candidates, root?, same.1, same.2.1, same.2.2]

/-- How looking up some pairs of paths turns one index into another: a pair that was held stays as
it was, one that was not gets the rules of its sheet as it is now, and no other pair is touched. -/
structure LookedUp (snapshot : Snapshot) (pairs : List (Path × Path)) (before after : RuleIndex) :
    Prop where
  setup : after.setup = before.setup
  held : ∀ style source : Path, before.encoding.Plain style → before.encoding.Plain source →
    after.held? style source =
      if (style, source) ∈ pairs then
        some ((before.held? style source).getD (rulesOfReading style (snapshot.readText style)))
      else before.held? style source

theorem LookedUp.refl (snapshot : Snapshot) (index : RuleIndex) :
    LookedUp snapshot [] index index :=
  ⟨rfl, fun _ _ _ _ => by simp⟩

theorem LookedUp.encoding {snapshot : Snapshot} {pairs : List (Path × Path)}
    {before after : RuleIndex} (looked : LookedUp snapshot pairs before after) :
    after.encoding = before.encoding :=
  encoding_congr looked.setup

theorem LookedUp.trans {snapshot : Snapshot} {pairs more : List (Path × Path)}
    {first second third : RuleIndex} (earlier : LookedUp snapshot pairs first second)
    (later : LookedUp snapshot more second third) :
    LookedUp snapshot (pairs ++ more) first third := by
  refine ⟨later.setup.trans earlier.setup, ?_⟩
  intro style source stylePlain sourcePlain
  have laterHeld := later.held style source
  rw [earlier.encoding] at laterHeld
  rw [laterHeld stylePlain sourcePlain, earlier.held style source stylePlain sourcePlain]
  by_cases now : (style, source) ∈ more <;> by_cases already : (style, source) ∈ pairs <;>
    simp [now, already]

theorem rulesIn_of_filed {index : RuleIndex} (snapshot : Snapshot) {style source : Path}
    {rules : List StyleRule} (filed : index.cache.get? (index.key style source) = some rules) :
    (index.rulesIn snapshot style source).run = (rules, index) := by
  simp only [rulesIn, filed]
  rfl

theorem rulesIn_of_unfiled {index : RuleIndex} (snapshot : Snapshot) {style source : Path}
    (unfiled : index.cache.get? (index.key style source) = none) :
    (index.rulesIn snapshot style source).run =
      (rulesOfReading style (snapshot.readText style),
        { index with
          cache := index.cache.insert (index.key style source)
            (rulesOfReading style (snapshot.readText style)) }) := by
  simp only [rulesIn, unfiled, readRules_snapshot]
  rfl

theorem setup_rulesIn (index : RuleIndex) (snapshot : Snapshot) (style source : Path) :
    (index.rulesIn snapshot style source).run.2.setup = index.setup := by
  cases filed : index.cache.get? (index.key style source) with
  | some rules => rw [rulesIn_of_filed snapshot filed]
  | none =>
      rw [rulesIn_of_unfiled snapshot filed]
      rfl

/-- A lookup answers with what is held, or else with what is read now. -/
theorem rulesIn_spec (index : RuleIndex) (snapshot : Snapshot) {style source : Path}
    (stylePlain : index.encoding.Plain style) (sourcePlain : index.encoding.Plain source) :
    (index.rulesIn snapshot style source).run.1.map StyleRule.forgetLine =
        (index.held? style source).getD (rulesOfReading style (snapshot.readText style)) ∧
      LookedUp snapshot [(style, source)] index (index.rulesIn snapshot style source).run.2 := by
  cases filed : index.cache.get? (index.key style source) with
  | some rules =>
      have held : index.held? style source = some (rules.map StyleRule.forgetLine) := by
        simp [held?, filed]
      rw [rulesIn_of_filed snapshot filed]
      refine ⟨by simp [held], rfl, ?_⟩
      intro otherStyle otherSource _ _
      by_cases same : (otherStyle, otherSource) = (style, source)
      · obtain ⟨rfl, rfl⟩ := Prod.mk.inj same
        simp [held]
      · simp [same]
  | none =>
      have held : index.held? style source = none := by simp [held?, filed]
      rw [rulesIn_of_unfiled snapshot filed]
      refine ⟨by simp [held, map_forgetLine_rulesOfReading], rfl, ?_⟩
      intro otherStyle otherSource otherStylePlain otherSourcePlain
      simp only [held?_insert_of_plain index _ stylePlain sourcePlain otherStylePlain
        otherSourcePlain, map_forgetLine_rulesOfReading, List.mem_singleton]
      by_cases same : (otherStyle, otherSource) = (style, source)
      · obtain ⟨rfl, rfl⟩ := Prod.mk.inj same
        simp [held]
      · simp [same]

theorem map_forgetLine_filter (token : Token) (rules : List StyleRule) :
    (rules.filter fun rule => Selector.matchesToken rule.selector token).map
        StyleRule.forgetLine =
      (rules.map StyleRule.forgetLine).filter
        fun rule => Selector.matchesToken rule.selector token := by
  rw [List.filter_map]
  rfl

theorem rulesAmong_spec (snapshot : Snapshot) (token : Token) {source : Path}
    (styles : List Path) (index : RuleIndex) (sourcePlain : index.encoding.Plain source)
    (stylesPlain : ∀ style ∈ styles, index.encoding.Plain style) :
    (rulesAmong snapshot token source index styles).run.1.map StyleRule.forgetLine =
        styles.flatMap (fun style =>
          ((index.held? style source).getD (rulesOfReading style (snapshot.readText style))).filter
            fun rule => Selector.matchesToken rule.selector token) ∧
      LookedUp snapshot (styles.map fun style => (style, source)) index
        (rulesAmong snapshot token source index styles).run.2 := by
  induction styles generalizing index with
  | nil => exact ⟨rfl, LookedUp.refl snapshot index⟩
  | cons style rest ih =>
      obtain ⟨stylePlain, restPlain⟩ := List.forall_mem_cons.mp stylesPlain
      obtain ⟨answer, looked⟩ := rulesIn_spec index snapshot stylePlain sourcePlain
      have outcome : (rulesAmong snapshot token source index (style :: rest)).run =
          let first := (index.rulesIn snapshot style source).run
          let later := (rulesAmong snapshot token source first.2 rest).run
          (first.1.filter (fun rule => Selector.matchesToken rule.selector token) ++ later.1,
            later.2) := rfl
      rw [outcome]
      generalize (index.rulesIn snapshot style source).run = first at answer looked ⊢
      obtain ⟨rules, next⟩ := first
      obtain ⟨more, lookedMore⟩ := ih next (looked.encoding ▸ sourcePlain)
        (looked.encoding ▸ restPlain)
      -- Looking up the first sheet does not change what the later ones answer.
      have unchanged : ∀ other ∈ rest,
          (next.held? other source).getD (rulesOfReading other (snapshot.readText other)) =
            (index.held? other source).getD (rulesOfReading other (snapshot.readText other)) := by
        intro other member
        rw [looked.held other source (restPlain other member) sourcePlain]
        by_cases same : (other, source) ∈ [(style, source)] <;> simp [same]
      refine ⟨?_, looked.trans lookedMore⟩
      simp only [List.map_append, List.flatMap_cons, map_forgetLine_filter, answer, more]
      congr 1
      apply List.flatMap_congr
      intro other member
      rw [unchanged other member]

/-! ## Paths that are no text -/

def folderScoping : Scoping := { Scoping.standard with mode := .folder }

/-- Two sheets whose paths are held by their bytes. They differ in a byte that is not part of any
text, so both are read alike, and both are listed under the name that is read. -/
def garbledSheets : Snapshot :=
  let first : Path := ⟨"/w/\xfe.css"⟩
  let second : Path := ⟨"/w/\xff.css"⟩
  let name := (Path.Encoding.bytes.encode "\ufffd.css").spelling
  { readDir := fun directory =>
      if directory.spelling = "/w" then .ok [⟨first, name, .file⟩, ⟨second, name, .file⟩]
      else .error .notFound
    readText := fun path =>
      if path = first then .ok ".x { c: d; }"
      else if path = second then .ok ".x { e: f; }"
      else .error .notFound
    isFile := fun path => [first, second].contains path
    isDir := fun path => path.spelling == "/w" }

end RuleIndex

end StyleLookup
