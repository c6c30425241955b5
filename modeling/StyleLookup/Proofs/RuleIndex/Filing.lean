import Mathlib.Data.List.Forall2
import StyleLookup.Proofs.RuleIndex.History
import StyleLookup.Proofs.Sheet.Parsed

/-!
Paths of any spelling. The cache reads paths as text and takes a backslash for a slash, so a lookup
is answered with the sheet that was looked up first, since the last invalidation, under a path whose
text differs at most in slashes. That sheet may be another one, but its rules are its own and they
carry its path.
-/

set_option autoImplicit false

namespace StyleLookup

/-- Two paths whose texts differ at most in which of the two slashes stand in them. -/
def Path.Encoding.Alike (encoding : Encoding) (path other : Path) : Prop :=
  List.Forall₂ (fun c d => c = d ∨ (c ∈ ['/', '\\'] ∧ d ∈ ['/', '\\']))
    (encoding.decode path).toList (encoding.decode other).toList

instance (encoding : Path.Encoding) (path other : Path) : Decidable (encoding.Alike path other) :=
  inferInstanceAs (Decidable (List.Forall₂ _ _ _))

theorem CacheKey.unifySeparators_decode_eq_iff {encoding : Path.Encoding} {path other : Path} :
    unifySeparators (encoding.decode path) = unifySeparators (encoding.decode other) ↔
      encoding.Alike path other := by
  have letter (c d : Char) : ((if c = '\\' then '/' else c) = if d = '\\' then '/' else d) ↔
      c = d ∨ (c ∈ ['/', '\\'] ∧ d ∈ ['/', '\\']) := by
    simp only [List.mem_cons, List.not_mem_nil, or_false]
    grind
  simp only [unifySeparators, String.ofList_inj, Path.Encoding.Alike, ← List.forall₂_eq_eq_eq,
    List.forall₂_map_left_iff, List.forall₂_map_right_iff, letter]

namespace RuleIndex

theorem key_eq_iff {index : RuleIndex} {style source otherStyle otherSource : Path} :
    index.key style source = index.key otherStyle otherSource ↔
      index.encoding.Alike style otherStyle ∧ index.encoding.Alike source otherSource := by
  simp only [key, CacheKey.ofPaths, CacheKey.mk.injEq, CacheKey.unifySeparators_decode_eq_iff]

/-- A look at a sheet for a source file, with the files as they were. -/
structure Lookup where
  snapshot : Snapshot
  style : Path
  source : Path

namespace Lookup

def rules (lookup : Lookup) : List StyleRule :=
  rulesOfReading lookup.style (lookup.snapshot.readText lookup.style)

def IsAlike (lookup : Lookup) (encoding : Path.Encoding) (style source : Path) : Prop :=
  encoding.Alike lookup.style style ∧ encoding.Alike lookup.source source

instance (lookup : Lookup) (encoding : Path.Encoding) (style source : Path) :
    Decidable (lookup.IsAlike encoding style source) :=
  inferInstanceAs (Decidable (_ ∧ _))

/-- A rule that was parsed from what the sheet held, and that carries the path of the sheet. -/
def Yields (lookup : Lookup) (rule : StyleRule) : Prop :=
  rule.file = lookup.style ∧
    ∃ content, lookup.snapshot.readText lookup.style = .ok content ∧
      rule.forgetLine ∈ Sheet.rules content lookup.style

theorem yields_of_mem_rules {lookup : Lookup} {rule : StyleRule}
    (member : rule.forgetLine ∈ lookup.rules) : lookup.Yields rule := by
  unfold rules rulesOfReading at member
  cases read : lookup.snapshot.readText lookup.style with
  | error fault => simp [read] at member
  | ok content =>
      rw [read] at member
      exact ⟨(Sheet.readFrom_of_mem_rules member).file, content, read, member⟩

end Lookup

/-! ## One request -/

/-- How looking up some sheets turns one index into another: what was held stays as it was, and what
was not comes from the first of the lookups that is filed in the same place. -/
structure Filed (lookups : List Lookup) (before after : RuleIndex) : Prop where
  setup : after.setup = before.setup
  held : ∀ style source, after.held? style source =
    (before.held? style source).or
      ((lookups.find? fun lookup => lookup.IsAlike before.encoding style source).map Lookup.rules)

theorem Filed.refl (index : RuleIndex) : Filed [] index index :=
  ⟨rfl, fun _ _ => by simp⟩

theorem Filed.trans {lookups more : List Lookup} {first second third : RuleIndex}
    (earlier : Filed lookups first second) (later : Filed more second third) :
    Filed (lookups ++ more) first third := by
  refine ⟨later.setup.trans earlier.setup, ?_⟩
  intro style source
  rw [later.held, earlier.held, encoding_congr earlier.setup, List.find?_append, Option.or_assoc,
    Option.map_or]

theorem held?_insert_alike (index : RuleIndex) (rules : List StyleRule)
    (style source otherStyle otherSource : Path) :
    held? { index with cache := index.cache.insert (index.key style source) rules }
        otherStyle otherSource =
      if index.encoding.Alike style otherStyle ∧ index.encoding.Alike source otherSource then
        some (rules.map StyleRule.forgetLine)
      else index.held? otherStyle otherSource := by
  simp only [held?_insert, eq_comm (a := index.key otherStyle otherSource), key_eq_iff]

theorem held?_eq_of_alike (index : RuleIndex) {style source otherStyle otherSource : Path}
    (alike : index.encoding.Alike style otherStyle ∧ index.encoding.Alike source otherSource) :
    index.held? otherStyle otherSource = index.held? style source := by
  rw [held?, held?, key_eq_iff.mpr alike]

/-- What a lookup answers is held from then on. -/
theorem rulesIn_filed (index : RuleIndex) (snapshot : Snapshot) (style source : Path) :
    (index.rulesIn snapshot style source).run.2.held? style source =
        some ((index.rulesIn snapshot style source).run.1.map StyleRule.forgetLine) ∧
      Filed [⟨snapshot, style, source⟩] index (index.rulesIn snapshot style source).run.2 := by
  cases filed : index.cache.get? (index.key style source) with
  | some rules =>
      have held : index.held? style source = some (rules.map StyleRule.forgetLine) := by
        simp [held?, filed]
      rw [rulesIn_of_filed snapshot filed]
      refine ⟨held, rfl, fun otherStyle otherSource => ?_⟩
      by_cases alike :
        index.encoding.Alike style otherStyle ∧ index.encoding.Alike source otherSource
      · rw [held?_eq_of_alike index alike, held, Option.some_or]
      · simp [Lookup.IsAlike, alike]
  | none =>
      have held : index.held? style source = none := by simp [held?, filed]
      have fresh := map_forgetLine_rulesOfReading style (snapshot.readText style)
      rw [rulesIn_of_unfiled snapshot filed]
      refine ⟨by rw [held?_insert, if_pos rfl], rfl, ?_⟩
      intro otherStyle otherSource
      rw [held?_insert_alike, fresh]
      by_cases alike :
        index.encoding.Alike style otherStyle ∧ index.encoding.Alike source otherSource
      · rw [if_pos alike, held?_eq_of_alike index alike, held]
        simp [Lookup.IsAlike, alike, Lookup.rules]
      · simp [Lookup.IsAlike, alike]

/-- Sheets that are looked up one after another. Each is answered with what is held for it in the
end, since nothing that is held is replaced. -/
theorem rulesAmong_filed (snapshot : Snapshot) (token : Token) (source : Path) (styles : List Path)
    (index : RuleIndex) :
    let after := (rulesAmong snapshot token source index styles).run.2
    (∀ style ∈ styles, (after.held? style source).isSome = true) ∧
      (rulesAmong snapshot token source index styles).run.1.map StyleRule.forgetLine =
        styles.flatMap (fun style => ((after.held? style source).getD []).filter
          fun rule => Selector.matchesToken rule.selector token) ∧
      Filed (styles.map fun style => ⟨snapshot, style, source⟩) index after := by
  induction styles generalizing index with
  | nil => exact ⟨by simp, rfl, Filed.refl index⟩
  | cons style rest ih =>
      obtain ⟨held, filed⟩ := rulesIn_filed index snapshot style source
      have outcome : (rulesAmong snapshot token source index (style :: rest)).run =
          let first := (index.rulesIn snapshot style source).run
          let later := (rulesAmong snapshot token source first.2 rest).run
          (first.1.filter (fun rule => Selector.matchesToken rule.selector token) ++ later.1,
            later.2) := rfl
      rw [outcome]
      generalize (index.rulesIn snapshot style source).run = first at held filed ⊢
      obtain ⟨rules, next⟩ := first
      obtain ⟨present, answer, filedMore⟩ := ih next
      have kept : (rulesAmong snapshot token source next rest).run.2.held? style source =
          some (rules.map StyleRule.forgetLine) := by
        rw [filedMore.held, held, Option.some_or]
      refine ⟨?_, ?_, filed.trans filedMore⟩
      · rw [List.forall_mem_cons, kept]
        exact ⟨rfl, present⟩
      · simp only [List.map_append, List.flatMap_cons, map_forgetLine_filter, answer, kept,
          Option.getD_some]

/-! ## A whole life -/

def Moment.lookupsMade (index : RuleIndex) (moment : Moment) : List Lookup :=
  (moment.lookups index).map fun pair => ⟨moment.snapshot, pair.1, pair.2⟩

def lookupsSince (created : RuleIndex) (past : List Moment) : List Lookup :=
  (sinceInvalidation past).flatMap (Moment.lookupsMade created)

/-- The first lookup since the last invalidation that asked for a sheet and a source file under
these spellings or alike ones. -/
def firstAlike? (created : RuleIndex) (past : List Moment) (style source : Path) : Option Lookup :=
  (lookupsSince created past).find? fun lookup => lookup.IsAlike created.encoding style source

theorem isAlike_of_firstAlike? {created : RuleIndex} {past : List Moment} {style source : Path}
    {first : Lookup} (found : firstAlike? created past style source = some first) :
    first.IsAlike created.encoding style source := by
  simpa using List.find?_some found

theorem lookupsSince_concat_invalidation (created : RuleIndex) (past : List Moment)
    {moment : Moment} (invalidates : moment.isInvalidation = true) :
    lookupsSince created (past ++ [moment]) = [] := by
  simp [lookupsSince, sinceInvalidation, invalidates]

theorem lookupsSince_concat (created : RuleIndex) (past : List Moment) {moment : Moment}
    (keeps : moment.isInvalidation = false) :
    lookupsSince created (past ++ [moment]) =
      lookupsSince created past ++ moment.lookupsMade created := by
  simp [lookupsSince, sinceInvalidation, keeps]

/-- An index stands where its past has led it, whatever the spelling of the paths: what it holds for
two paths comes from the first lookup that is filed in the same place. -/
structure Served (created : RuleIndex) (past : List Moment) (index : RuleIndex) : Prop where
  setup : index.setup = created.setup
  held : ∀ style source, index.held? style source =
    (firstAlike? created past style source).map Lookup.rules

theorem Served.created (workspace : Workspace) (scoping : Scoping) (encoding : Path.Encoding) :
    Served (fresh workspace scoping encoding) [] (fresh workspace scoping encoding) :=
  ⟨rfl, fun _ _ => rfl⟩

theorem Served.filed {created index after : RuleIndex} {past : List Moment} {moment : Moment}
    (served : Served created past index) (keeps : moment.isInvalidation = false)
    (filed : Filed (moment.lookupsMade created) index after) :
    Served created (past ++ [moment]) after := by
  refine ⟨filed.setup.trans served.setup, ?_⟩
  intro style source
  rw [filed.held, served.held, encoding_congr served.setup, firstAlike?, firstAlike?,
    lookupsSince_concat created past keeps, List.find?_append, Option.map_or]

theorem Served.invalidated {created index : RuleIndex} {past : List Moment} {moment : Moment}
    (served : Served created past index) (invalidates : moment.isInvalidation = true) :
    Served created (past ++ [moment]) index.invalidate := by
  refine ⟨served.setup, fun style source => ?_⟩
  rw [firstAlike?, lookupsSince_concat_invalidation created past invalidates]
  rfl

theorem filed_resolveHeld (index : RuleIndex) (snapshot : Snapshot) (style source : Path)
    (position : Nat) : Filed [] index (index.resolveHeld snapshot style source position) := by
  refine ⟨setup_resolveHeld index snapshot style source position, fun _ _ => ?_⟩
  simp [held?_resolveHeld]

theorem Served.rulesFor_filed {created index : RuleIndex} {past : List Moment}
    (served : Served created past index) (snapshot : Snapshot) (token : String) (source : Path) :
    let sheets := (created.candidates snapshot source).run.paths
    let after := (index.rulesFor snapshot token source).run.2
    (∀ style ∈ sheets, (after.held? style source).isSome = true) ∧
      (index.rulesFor snapshot token source).run.1.map StyleRule.forgetLine =
        sheets.flatMap (fun style => ((after.held? style source).getD []).filter
          fun rule => Selector.matchesToken rule.selector (Token.parse token)) ∧
      Filed (Moment.lookupsMade created ⟨snapshot, .rulesFor token source⟩) index after := by
  have outcome : (index.rulesFor snapshot token source).run =
      (rulesAmong snapshot (Token.parse token) source index
        (created.candidates snapshot source).run.paths).run := by
    rw [← candidates_congr served.setup snapshot source]
    rfl
  rw [outcome, Moment.lookupsMade, Moment.lookups, List.map_map]
  exact rulesAmong_filed snapshot (Token.parse token) source _ index

theorem Served.step {created : RuleIndex} {past : List Moment} {state : State}
    (served : Served created past state.index) (event : Event) :
    Served created (past ++ [⟨state.snapshot, event⟩]) (state.step event).index := by
  cases event with
  | rulesIn style source =>
      exact served.filed rfl (rulesIn_filed state.index state.snapshot style source).2
  | rulesFor token source =>
      exact served.filed rfl (served.rulesFor_filed state.snapshot token source).2.2
  | resolveCopy rule => exact served.filed rfl (Filed.refl state.index)
  | resolveHeld style source position =>
      exact served.filed rfl (filed_resolveHeld state.index state.snapshot style source position)
  | invalidate => exact served.invalidated rfl
  | change next => exact served.filed rfl (Filed.refl state.index)

theorem served_run (workspace : Workspace) (scoping : Scoping) (encoding : Path.Encoding)
    (start : Snapshot) (events : List Event) :
    Served (fresh workspace scoping encoding)
      (moments (.opened workspace scoping start encoding) events)
      ((State.opened workspace scoping start encoding).run events).index := by
  induction events using List.reverseRecOn with
  | nil => exact Served.created workspace scoping encoding
  | append_singleton events event ih =>
      rw [moments_concat, State.run_concat]
      exact ih.step event

/-- What a sheet is answered with for a source file: the rules of the first lookup alike. -/
def servedRules (created : RuleIndex) (past : List Moment) (style source : Path) :
    List StyleRule :=
  (firstAlike? created past style source).elim [] Lookup.rules

/-- What is held for two paths was answered by the first lookup alike. -/
theorem Served.exists_firstAlike {created index : RuleIndex} {past : List Moment}
    (served : Served created past index) {style source : Path} {rules : List StyleRule}
    (held : index.held? style source = some rules) :
    ∃ first, firstAlike? created past style source = some first ∧
      first.IsAlike created.encoding style source ∧ rules = first.rules := by
  rw [served.held, Option.map_eq_some_iff] at held
  obtain ⟨first, found, rfl⟩ := held
  exact ⟨first, found, isAlike_of_firstAlike? found, rfl⟩

theorem yields_of_map_forgetLine_eq {lookup : Lookup} {rules : List StyleRule}
    (same : rules.map StyleRule.forgetLine = lookup.rules) {rule : StyleRule}
    (member : rule ∈ rules) : lookup.Yields rule :=
  Lookup.yields_of_mem_rules (same ▸ List.mem_map_of_mem member)

/-- Whatever has happened to an index, and however the paths are spelled, a sheet is answered with
the rules of the first sheet that was looked up under a path alike since the last invalidation. Each
rule was parsed from what stood under the path that it carries. A request for a token takes its
rules from one such sheet for each candidate. -/
theorem answers_from_first_alike (workspace : Workspace) (scoping : Scoping)
    (encoding : Path.Encoding) (start : Snapshot) (events : List Event) (style source : Path)
    (token : String) :
    let created := fresh workspace scoping encoding
    let opened := State.opened workspace scoping start encoding
    let now := opened.run events
    (∃ first,
      firstAlike? created (moments opened (events ++ [.rulesIn style source])) style source =
          some first ∧
        first.IsAlike encoding style source ∧
        (now.rulesIn style source).map StyleRule.forgetLine = first.rules ∧
        ∀ rule ∈ now.rulesIn style source,
          encoding.Alike rule.file style ∧ first.Yields rule) ∧
    (let past := moments opened (events ++ [.rulesFor token source])
      let sheets := (created.candidates now.snapshot source).run.paths
      (now.rulesFor token source).map StyleRule.forgetLine =
          sheets.flatMap (fun sheet => (servedRules created past sheet source).filter
            fun rule => Selector.matchesToken rule.selector (Token.parse token)) ∧
        (∀ sheet ∈ sheets, ∃ first, firstAlike? created past sheet source = some first ∧
          first.IsAlike encoding sheet source) ∧
        ∀ rule ∈ now.rulesFor token source, ∃ sheet ∈ sheets, ∃ first,
          firstAlike? created past sheet source = some first ∧ encoding.Alike rule.file sheet ∧
            first.Yields rule) := by
  intro created opened now
  have served := served_run workspace scoping encoding start events
  have next (event : Event) : Served created (moments opened (events ++ [event]))
      (now.step event).index := by
    rw [moments_concat]
    exact served.step event
  constructor
  · have held := (rulesIn_filed now.index now.snapshot style source).1
    obtain ⟨first, found, alike, same⟩ := (next (.rulesIn style source)).exists_firstAlike held
    refine ⟨first, found, alike, same, fun rule member => ?_⟩
    have yields := yields_of_map_forgetLine_eq same member
    exact ⟨yields.1 ▸ alike.1, yields⟩
  · intro past sheets
    obtain ⟨present, answer, -⟩ := served.rulesFor_filed now.snapshot token source
    have after : Served created past (now.index.rulesFor now.snapshot token source).run.2 :=
      next (.rulesFor token source)
    have firsts : ∀ sheet ∈ sheets, ∃ first, firstAlike? created past sheet source = some first ∧
        first.IsAlike encoding sheet source ∧
        ((now.index.rulesFor now.snapshot token source).run.2.held? sheet source).getD [] =
          first.rules := by
      intro sheet member
      obtain ⟨rules, held⟩ := Option.isSome_iff_exists.mp (present sheet member)
      obtain ⟨first, found, alike, same⟩ := after.exists_firstAlike held
      exact ⟨first, found, alike, by rw [held, same, Option.getD_some]⟩
    have whole : (now.rulesFor token source).map StyleRule.forgetLine =
        sheets.flatMap (fun sheet => (servedRules created past sheet source).filter
          fun rule => Selector.matchesToken rule.selector (Token.parse token)) := by
      rw [State.rulesFor, answer]
      apply List.flatMap_congr
      intro sheet member
      obtain ⟨first, found, -, same⟩ := firsts sheet member
      rw [same, servedRules, found, Option.elim_some]
    refine ⟨whole, fun sheet member => ?_, fun rule member => ?_⟩
    · obtain ⟨first, found, alike, -⟩ := firsts sheet member
      exact ⟨first, found, alike⟩
    · have listed : rule.forgetLine ∈ sheets.flatMap _ := whole ▸ List.mem_map_of_mem member
      obtain ⟨sheet, sheetMember, chosen⟩ := List.mem_flatMap.mp listed
      obtain ⟨first, found, alike, -⟩ := firsts sheet sheetMember
      rw [servedRules, found, Option.elim_some] at chosen
      have yields := Lookup.yields_of_mem_rules (List.mem_of_mem_filter chosen)
      exact ⟨sheet, sheetMember, first, found, yields.1 ▸ alike.1, yields⟩

/-- Two sheets whose paths differ in one slash. -/
def twinSheets : Snapshot where
  readDir directory :=
    if directory.spelling = "/w" then
      .ok [⟨⟨"/w/a"⟩, "a", .directory⟩, ⟨⟨"/w/a\\b.css"⟩, "a\\b.css", .file⟩]
    else if directory.spelling = "/w/a" then .ok [⟨⟨"/w/a/b.css"⟩, "b.css", .file⟩]
    else .error .notFound
  readText path :=
    if path.spelling = "/w/a/b.css" then .ok ".x { c: d; }"
    else if path.spelling = "/w/a\\b.css" then .ok ".y { e: f; }"
    else .error .notFound
  isFile path := ["/w/a/b.css", "/w/a\\b.css"].contains path.spelling
  isDir path := ["/w", "/w/a"].contains path.spelling

def globalScoping : Scoping := { Scoping.standard with mode := .global }

/-- The twin with the backslash is asked for after the other one, on its own and as a candidate. -/
theorem twin_answers :
    let opened := State.opened (.fixed ⟨"/w"⟩) globalScoping twinSheets
    let now := opened.run [.rulesIn ⟨"/w/a/b.css"⟩ ⟨"/w/i.html"⟩]
    let rule : StyleRule := ⟨".x", ⟨[("c", "d")], by decide⟩, ⟨"/w/a/b.css"⟩, .unresolved⟩
    (rule ∈ now.rulesIn ⟨"/w/a\\b.css"⟩ ⟨"/w/i.html"⟩ ∧
        Path.Encoding.text.Alike rule.file ⟨"/w/a\\b.css"⟩ ∧ ∃ first : Lookup, first.Yields rule) ∧
      rule ∈ now.rulesFor "x" ⟨"/w/i.html"⟩ ∧
        ∃ sheet ∈ (now.index.candidates now.snapshot ⟨"/w/i.html"⟩).run.paths,
          Path.Encoding.text.Alike rule.file sheet ∧ ∃ first : Lookup, first.Yields rule := by
  intro opened now rule
  obtain ⟨⟨first, -, -, -, each⟩, -, -, chosen⟩ := answers_from_first_alike (.fixed ⟨"/w"⟩)
    globalScoping .text twinSheets [.rulesIn ⟨"/w/a/b.css"⟩ ⟨"/w/i.html"⟩] ⟨"/w/a\\b.css"⟩
    ⟨"/w/i.html"⟩ "x"
  have answered : rule ∈ now.rulesIn ⟨"/w/a\\b.css"⟩ ⟨"/w/i.html"⟩ := by decide +kernel
  have found : rule ∈ now.rulesFor "x" ⟨"/w/i.html"⟩ := by decide +kernel
  obtain ⟨alike, yields⟩ := each rule answered
  obtain ⟨sheet, candidate, source, -, alikeSheet, sourceYields⟩ := chosen rule found
  exact ⟨⟨answered, alike, first, yields⟩, found, sheet, candidate, alikeSheet, source,
    sourceYields⟩

/-- The rules of one sheet stand for the other one, whose own rules are never seen: where two paths
differ in a slash, and where they differ in a byte that is not part of any text. -/
theorem twin_served :
    (let opened := State.opened (.fixed ⟨"/w"⟩) globalScoping twinSheets
    let now := opened.run [.rulesIn ⟨"/w/a/b.css"⟩ ⟨"/w/i.html"⟩]
    (now.rulesIn ⟨"/w/a\\b.css"⟩ ⟨"/w/i.html"⟩).map
        (fun rule => (rule.selector, rule.file.sameAs ⟨"/w/a\\b.css"⟩)) = [(".x", false)] ∧
      (now.index.candidates now.snapshot ⟨"/w/i.html"⟩).run.paths =
        [⟨"/w/a/b.css"⟩, ⟨"/w/a\\b.css"⟩] ∧
      (now.rulesFor "x" ⟨"/w/i.html"⟩).map (·.file) = [⟨"/w/a/b.css"⟩, ⟨"/w/a/b.css"⟩]) ∧
    (let opened := State.opened (.fixed ⟨"/w"⟩) folderScoping garbledSheets .bytes
    let now := opened.run [.rulesIn ⟨"/w/\xfe.css"⟩ ⟨"/w/i.html"⟩]
    (now.rulesIn ⟨"/w/\xff.css"⟩ ⟨"/w/i.html"⟩).map
        (fun rule => (rule.selector, rule.file.sameAs ⟨"/w/\xff.css"⟩)) = [(".x", false)] ∧
      (now.index.candidates now.snapshot ⟨"/w/i.html"⟩).run.paths =
        [⟨"/w/\xfe.css"⟩, ⟨"/w/\xff.css"⟩] ∧
      (now.rulesFor "x" ⟨"/w/i.html"⟩).map (·.file) = [⟨"/w/\xfe.css"⟩, ⟨"/w/\xfe.css"⟩]) := by
  decide +kernel

end RuleIndex

end StyleLookup
