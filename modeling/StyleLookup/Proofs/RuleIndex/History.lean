import Mathlib.Data.List.DropRight
import StyleLookup.FileSystem.Memory
import StyleLookup.Proofs.RuleIndex.Lookup

/-!
The whole life of an index: requests and invalidations in any order, while files change behind its
back. Every answer is made of first readings: a sheet counts as it was when it was first looked up
for its source file after the last invalidation, whatever has become of it since.
-/

set_option autoImplicit false

namespace StyleLookup.RuleIndex

/-- One thing that happens to an index in use or to the files that it reads. A line is resolved in a
copy of a rule, which belongs to the caller, or in the list that a lookup of a sheet has handed out,
which is the very list that the cache holds. Files may change in any way. -/
inductive Event where
  | rulesIn (style source : Path)
  | rulesFor (token : String) (source : Path)
  | resolveCopy (rule : StyleRule)
  | resolveHeld (style source : Path) (position : Nat)
  | invalidate
  | change (next : Snapshot)

/-- The index after the line of a rule has been resolved in a list that it holds. -/
def resolveHeld (index : RuleIndex) (snapshot : Snapshot) (style source : Path) (position : Nat) :
    RuleIndex :=
  match index.cache.get? (index.key style source) with
  | none => index
  | some rules =>
      let resolved := rules.modify position fun rule => (resolveLine snapshot rule).run
      { index with cache := index.cache.insert (index.key style source) resolved }

structure State where
  snapshot : Snapshot
  index : RuleIndex

namespace State

def rulesIn (state : State) (style source : Path) : List StyleRule :=
  (state.index.rulesIn state.snapshot style source).run.1

def rulesFor (state : State) (token : String) (source : Path) : List StyleRule :=
  (state.index.rulesFor state.snapshot token source).run.1

def step (state : State) : Event → State
  | .rulesIn style source =>
      { state with index := (state.index.rulesIn state.snapshot style source).run.2 }
  | .rulesFor token source =>
      { state with index := (state.index.rulesFor state.snapshot token source).run.2 }
  | .resolveCopy _ => state
  | .resolveHeld style source position =>
      { state with index := state.index.resolveHeld state.snapshot style source position }
  | .invalidate => { state with index := state.index.invalidate }
  | .change next => { state with snapshot := next }

def run (state : State) (events : List Event) : State := events.foldl step state

theorem run_concat (state : State) (events : List Event) (event : Event) :
    state.run (events ++ [event]) = (state.run events).step event := by
  simp [run]

end State

/-- An event and the files as they are when it happens. -/
structure Moment where
  snapshot : Snapshot
  event : Event

namespace Moment

/-- The paths of the sheets that are looked up at a moment, each with the source file that asks. The
index counts for how it was set up only. -/
def lookups (index : RuleIndex) (moment : Moment) : List (Path × Path) :=
  match moment.event with
  | .rulesIn style source => [(style, source)]
  | .rulesFor _ source =>
      (index.candidates moment.snapshot source).run.paths.map fun style => (style, source)
  | _ => []

def isInvalidation (moment : Moment) : Bool :=
  match moment.event with
  | .invalidate => true
  | _ => false

end Moment

def moments : State → List Event → List Moment
  | _, [] => []
  | state, event :: later => ⟨state.snapshot, event⟩ :: moments (state.step event) later

theorem moments_append (state : State) (earlier later : List Event) :
    moments state (earlier ++ later) = moments state earlier ++ moments (state.run earlier) later := by
  induction earlier generalizing state with
  | nil => rfl
  | cons event earlier ih => simp [moments, ih, State.run]

theorem moments_concat (state : State) (events : List Event) (event : Event) :
    moments state (events ++ [event]) =
      moments state events ++ [⟨(state.run events).snapshot, event⟩] :=
  moments_append state events [event]

def sinceInvalidation (past : List Moment) : List Moment :=
  past.rtakeWhile fun moment => !moment.isInvalidation

/-- The first moment since the last invalidation at which a sheet was looked up for a source file. -/
def firstLookup? (index : RuleIndex) (past : List Moment) (style source : Path) : Option Moment :=
  (sinceInvalidation past).find? fun moment => (moment.lookups index).contains (style, source)

/-- What reading a sheet gave when it was first looked up for a source file since the last
invalidation. -/
def firstReading? (index : RuleIndex) (past : List Moment) (style source : Path) :
    Option (Except FileFault String) :=
  (firstLookup? index past style source).map fun moment => moment.snapshot.readText style

def firstRules (index : RuleIndex) (past : List Moment) (style source : Path) : List StyleRule :=
  (firstReading? index past style source).elim [] (rulesOfReading style)

theorem firstReading?_nil (index : RuleIndex) (style source : Path) :
    firstReading? index [] style source = none := by
  simp [firstReading?, firstLookup?, sinceInvalidation]

theorem firstReading?_concat_invalidation (index : RuleIndex) (past : List Moment)
    {moment : Moment} (invalidates : moment.isInvalidation = true) (style source : Path) :
    firstReading? index (past ++ [moment]) style source = none := by
  simp [firstReading?, firstLookup?, sinceInvalidation, invalidates]

/-- A moment without invalidation counts as a reading only for the pairs that it looks up, and only
if they had not been looked up before. -/
theorem firstReading?_concat (index : RuleIndex) (past : List Moment) {moment : Moment}
    (keeps : moment.isInvalidation = false) (style source : Path) :
    firstReading? index (past ++ [moment]) style source =
      if (style, source) ∈ moment.lookups index then
        some ((firstReading? index past style source).getD (moment.snapshot.readText style))
      else firstReading? index past style source := by
  simp only [firstReading?, firstLookup?, sinceInvalidation, List.rtakeWhile_concat, keeps,
    Bool.not_false, if_true, List.find?_append, List.find?_singleton, List.contains_iff_mem]
  cases (past.rtakeWhile fun moment => !moment.isInvalidation).find?
      fun moment => (moment.lookups index).contains (style, source) <;>
    split <;> simp

theorem forgetLine_resolveLine_snapshot (snapshot : Snapshot) (rule : StyleRule) :
    (resolveLine snapshot rule).run.forgetLine = rule.forgetLine := by
  simp only [resolveLine, bind]
  split
  · rfl
  · cases snapshot.readText rule.file with
    | error fault => rfl
    | ok content => exact StyleRule.forgetLine_resolveLine rule content

theorem map_forgetLine_modify (snapshot : Snapshot) (rules : List StyleRule) (position : Nat) :
    (rules.modify position fun rule => (resolveLine snapshot rule).run).map StyleRule.forgetLine =
      rules.map StyleRule.forgetLine := by
  induction rules generalizing position with
  | nil => simp
  | cons rule rest ih =>
      cases position with
      | zero => simp [forgetLine_resolveLine_snapshot]
      | succ position => simp [ih]

theorem held?_resolveHeld (index : RuleIndex) (snapshot : Snapshot) (style source : Path)
    (position : Nat) (otherStyle otherSource : Path) :
    (index.resolveHeld snapshot style source position).held? otherStyle otherSource =
      index.held? otherStyle otherSource := by
  unfold resolveHeld
  cases filed : index.cache.get? (index.key style source) with
  | none => rfl
  | some rules =>
      simp only [held?_insert, map_forgetLine_modify]
      split
      · rename_i same
        rw [held?, same, filed, Option.map_some]
      · rfl

theorem setup_resolveHeld (index : RuleIndex) (snapshot : Snapshot) (style source : Path)
    (position : Nat) :
    (index.resolveHeld snapshot style source position).setup = index.setup := by
  unfold resolveHeld
  split <;> rfl

theorem lookedUp_resolveHeld (index : RuleIndex) (snapshot : Snapshot) (style source : Path)
    (position : Nat) :
    LookedUp snapshot [] index (index.resolveHeld snapshot style source position) := by
  refine ⟨setup_resolveHeld index snapshot style source position, fun _ _ _ _ => ?_⟩
  simp [held?_resolveHeld]

/-- An index stands where its past has led it: it is set up as it was made, and what it holds for a
pair of paths comes from the first reading since the last invalidation. -/
structure Faithful (created : RuleIndex) (past : List Moment) (index : RuleIndex) : Prop where
  setup : index.setup = created.setup
  held : ∀ style source : Path, created.encoding.Plain style → created.encoding.Plain source →
    index.held? style source =
      (firstReading? created past style source).map (rulesOfReading style)

theorem Faithful.created (workspace : Workspace) (scoping : Scoping) (encoding : Path.Encoding) :
    Faithful (fresh workspace scoping encoding) [] (fresh workspace scoping encoding) :=
  ⟨rfl, fun style source _ _ => by simp [firstReading?_nil]⟩

theorem Faithful.encoding {created index : RuleIndex} {past : List Moment}
    (faithful : Faithful created past index) : index.encoding = created.encoding :=
  encoding_congr faithful.setup

theorem Faithful.lookedUp {created index after : RuleIndex} {past : List Moment} {moment : Moment}
    (faithful : Faithful created past index) (keeps : moment.isInvalidation = false)
    (looked : LookedUp moment.snapshot (moment.lookups created) index after) :
    Faithful created (past ++ [moment]) after := by
  refine ⟨looked.setup.trans faithful.setup, ?_⟩
  intro style source stylePlain sourcePlain
  have held := looked.held style source
  rw [faithful.encoding] at held
  rw [held stylePlain sourcePlain, firstReading?_concat created past keeps,
    faithful.held style source stylePlain sourcePlain]
  split
  · cases firstReading? created past style source <;> rfl
  · rfl

theorem Faithful.invalidated {created index : RuleIndex} {past : List Moment} {moment : Moment}
    (faithful : Faithful created past index) (invalidates : moment.isInvalidation = true) :
    Faithful created (past ++ [moment]) index.invalidate := by
  refine ⟨faithful.setup, fun style source _ _ => ?_⟩
  simp [firstReading?_concat_invalidation created past invalidates]

/-- The paths of everything that is looked up are text and have no backslash. -/
def Moment.Plain (index : RuleIndex) (moment : Moment) : Prop :=
  ∀ pair ∈ moment.lookups index, index.encoding.Plain pair.1 ∧ index.encoding.Plain pair.2

instance (index : RuleIndex) (moment : Moment) : Decidable (moment.Plain index) :=
  inferInstanceAs (Decidable (∀ pair ∈ moment.lookups index,
    index.encoding.Plain pair.1 ∧ index.encoding.Plain pair.2))

/-- A request for the rules that cover a token is a walk over the candidates of the time. -/
theorem rulesFor_spec {created index : RuleIndex} {past : List Moment}
    (faithful : Faithful created past index) (snapshot : Snapshot) (token : String) (source : Path)
    (plain : Moment.Plain created ⟨snapshot, .rulesFor token source⟩) :
    (index.rulesFor snapshot token source).run.1.map StyleRule.forgetLine =
        (created.candidates snapshot source).run.paths.flatMap (fun style =>
          ((index.held? style source).getD (rulesOfReading style (snapshot.readText style))).filter
            fun rule => Selector.matchesToken rule.selector (Token.parse token)) ∧
      LookedUp snapshot (Moment.lookups created ⟨snapshot, .rulesFor token source⟩) index
        (index.rulesFor snapshot token source).run.2 := by
  have outcome : (index.rulesFor snapshot token source).run =
      (rulesAmong snapshot (Token.parse token) source index
        (created.candidates snapshot source).run.paths).run := by
    rw [← candidates_congr faithful.setup snapshot source]
    rfl
  rw [outcome]
  simp only [Moment.Plain, Moment.lookups, List.forall_mem_map, ← faithful.encoding] at plain
  rcases Decidable.em (index.encoding.Plain source) with sourcePlain | sourceOther
  · exact rulesAmong_spec snapshot (Token.parse token) _ index sourcePlain
      fun style member => (plain style member).1
  · -- Any other source has no candidates here, since each would be looked up for it.
    have none : (created.candidates snapshot source).run.paths = [] :=
      List.eq_nil_iff_forall_not_mem.mpr fun style member =>
        sourceOther (plain style member).2
    simp only [Moment.lookups, none, List.map_nil]
    exact ⟨rfl, LookedUp.refl snapshot index⟩

theorem Faithful.step {created : RuleIndex} {past : List Moment} {state : State}
    (faithful : Faithful created past state.index) {event : Event}
    (plain : Moment.Plain created ⟨state.snapshot, event⟩) :
    Faithful created (past ++ [⟨state.snapshot, event⟩]) (state.step event).index := by
  cases event with
  | rulesIn style source =>
      obtain ⟨stylePlain, sourcePlain⟩ := plain (style, source) List.mem_cons_self
      exact faithful.lookedUp rfl (rulesIn_spec state.index state.snapshot
        (faithful.encoding ▸ stylePlain) (faithful.encoding ▸ sourcePlain)).2
  | rulesFor token source =>
      exact faithful.lookedUp rfl (rulesFor_spec faithful state.snapshot token source plain).2
  | resolveCopy rule => exact faithful.lookedUp rfl (LookedUp.refl state.snapshot state.index)
  | resolveHeld style source position =>
      exact faithful.lookedUp rfl
        (lookedUp_resolveHeld state.index state.snapshot style source position)
  | invalidate => exact faithful.invalidated rfl
  | change next => exact faithful.lookedUp rfl (LookedUp.refl state.snapshot state.index)

/-- What is held, or else read now, comes from the first reading, which may be the one made now. -/
theorem Faithful.held_getD {created index : RuleIndex} {past : List Moment}
    (faithful : Faithful created past index) (moment : Moment)
    (keeps : moment.isInvalidation = false) {style source : Path}
    (stylePlain : created.encoding.Plain style) (sourcePlain : created.encoding.Plain source)
    (lookedUp : (style, source) ∈ moment.lookups created) :
    ∃ reading, firstReading? created (past ++ [moment]) style source = some reading ∧
      (index.held? style source).getD
          (rulesOfReading style (moment.snapshot.readText style)) =
        rulesOfReading style reading := by
  rw [firstReading?_concat created past keeps, if_pos lookedUp,
    faithful.held style source stylePlain sourcePlain]
  exact ⟨_, rfl, by cases firstReading? created past style source <;> rfl⟩

theorem Faithful.answer_rulesIn {created : RuleIndex} {past : List Moment} {state : State}
    (faithful : Faithful created past state.index) {style source : Path}
    (plain : Moment.Plain created ⟨state.snapshot, .rulesIn style source⟩) :
    ∃ reading,
      firstReading? created (past ++ [⟨state.snapshot, .rulesIn style source⟩]) style source =
          some reading ∧
        (state.rulesIn style source).map StyleRule.forgetLine = rulesOfReading style reading := by
  obtain ⟨stylePlain, sourcePlain⟩ := plain (style, source) List.mem_cons_self
  obtain ⟨reading, found, same⟩ := faithful.held_getD
    ⟨state.snapshot, .rulesIn style source⟩ rfl stylePlain sourcePlain List.mem_cons_self
  refine ⟨reading, found, ?_⟩
  rw [← same]
  rw [← faithful.encoding] at stylePlain sourcePlain
  exact (rulesIn_spec state.index state.snapshot stylePlain sourcePlain).1

theorem Faithful.answer_rulesFor {created : RuleIndex} {past : List Moment} {state : State}
    (faithful : Faithful created past state.index) {token : String} {source : Path}
    (plain : Moment.Plain created ⟨state.snapshot, .rulesFor token source⟩) :
    (∀ style ∈ (created.candidates state.snapshot source).run.paths,
      (firstReading? created (past ++ [⟨state.snapshot, .rulesFor token source⟩])
        style source).isSome = true) ∧
    (state.rulesFor token source).map StyleRule.forgetLine =
      (created.candidates state.snapshot source).run.paths.flatMap fun style =>
        (firstRules created (past ++ [⟨state.snapshot, .rulesFor token source⟩])
          style source).filter
            fun rule => Selector.matchesToken rule.selector (Token.parse token) := by
  have first : ∀ style ∈ (created.candidates state.snapshot source).run.paths,
      ∃ reading,
        firstReading? created (past ++ [⟨state.snapshot, .rulesFor token source⟩]) style source =
            some reading ∧
          (state.index.held? style source).getD
              (rulesOfReading style (state.snapshot.readText style)) =
            rulesOfReading style reading := by
    intro style member
    have lookedUp : (style, source) ∈
        Moment.lookups created ⟨state.snapshot, .rulesFor token source⟩ :=
      List.mem_map_of_mem member
    obtain ⟨stylePlain, sourcePlain⟩ := plain (style, source) lookedUp
    exact faithful.held_getD ⟨state.snapshot, .rulesFor token source⟩ rfl stylePlain sourcePlain
      lookedUp
  constructor
  · intro style member
    obtain ⟨reading, found, -⟩ := first style member
    rw [found]
    rfl
  · rw [State.rulesFor, (rulesFor_spec faithful state.snapshot token source plain).1]
    apply List.flatMap_congr
    intro style member
    obtain ⟨reading, found, same⟩ := first style member
    rw [firstRules, found, Option.elim_some, same]

def State.opened (workspace : Workspace) (scoping : Scoping) (snapshot : Snapshot)
    (encoding : Path.Encoding := .text) : State :=
  ⟨snapshot, fresh workspace scoping encoding⟩

theorem faithful_run (workspace : Workspace) (scoping : Scoping) (encoding : Path.Encoding)
    (start : Snapshot) (events : List Event)
    (plain : ∀ moment ∈ moments (.opened workspace scoping start encoding) events,
      moment.Plain (fresh workspace scoping encoding)) :
    Faithful (fresh workspace scoping encoding)
      (moments (.opened workspace scoping start encoding) events)
      ((State.opened workspace scoping start encoding).run events).index := by
  induction events using List.reverseRecOn with
  | nil => exact Faithful.created workspace scoping encoding
  | append_singleton events event ih =>
      rw [moments_concat] at plain ⊢
      rw [State.run_concat]
      have earlier := ih fun moment member => plain moment (List.mem_append_left _ member)
      exact earlier.step (plain _ (List.mem_append_right _ (List.mem_singleton_self _)))

/-- Every answer of an index is made of first readings, at any point of any series of events. The
rules of a sheet are those of its content at the first lookup of the sheet for the source file since
the last invalidation, or none if it could not be read then. The rules that cover a token are taken
from these, over the candidates that the files give now, in their order. The paths that are looked
up have to be text without backslashes. -/
theorem answers_from_first_readings (workspace : Workspace) (scoping : Scoping)
    (encoding : Path.Encoding) (start : Snapshot) (events : List Event)
    (plain : ∀ moment ∈ moments (.opened workspace scoping start encoding) events,
      moment.Plain (fresh workspace scoping encoding)) :
    let created := fresh workspace scoping encoding
    let opened := State.opened workspace scoping start encoding
    (∀ before style source after, events = before ++ .rulesIn style source :: after →
      let past := moments opened (before ++ [.rulesIn style source])
      ∃ reading,
        firstReading? created past style source = some reading ∧
          ((opened.run before).rulesIn style source).map StyleRule.forgetLine =
            rulesOfReading style reading) ∧
    (∀ before token source after, events = before ++ .rulesFor token source :: after →
      let now := opened.run before
      let past := moments opened (before ++ [.rulesFor token source])
      let sheets := (created.candidates now.snapshot source).run.paths
      (∀ style ∈ sheets, (firstReading? created past style source).isSome = true) ∧
      (now.rulesFor token source).map StyleRule.forgetLine =
        sheets.flatMap fun style =>
          (firstRules created past style source).filter
            fun rule => Selector.matchesToken rule.selector (Token.parse token)) := by
  intro created opened
  have split : ∀ before event after, events = before ++ event :: after →
      Faithful created (moments opened before) (opened.run before).index ∧
        Moment.Plain created ⟨(opened.run before).snapshot, event⟩ := by
    intro before event after whole
    rw [whole, moments_append, moments] at plain
    exact ⟨faithful_run workspace scoping encoding start before fun moment member =>
        plain moment (List.mem_append_left _ member),
      plain _ (List.mem_append_right _ List.mem_cons_self)⟩
  constructor
  · intro before style source after whole past
    obtain ⟨faithful, nowPlain⟩ := split before _ after whole
    simp only [past, moments_concat]
    exact faithful.answer_rulesIn nowPlain
  · intro before token source after whole now past sheets
    obtain ⟨faithful, nowPlain⟩ := split before _ after whole
    simp only [past, moments_concat]
    exact faithful.answer_rulesFor nowPlain

def singleSheet (content : String) : Snapshot :=
  (MemoryTree.ofList [(⟨"/w/a.css"⟩, .text content)]).snapshot fun _ entries => entries

/-- A sheet is found and read, then rewritten by someone else. A line is resolved where the cache
holds the old rules, the sheet is asked for, forgotten and asked for once more. -/
def rewriting : List Event := [
  .rulesFor "a" ⟨"/w/i.html"⟩,
  .change (singleSheet ".b { top: 0; }"),
  .resolveHeld ⟨"/w/a.css"⟩ ⟨"/w/i.html"⟩ 0,
  .rulesIn ⟨"/w/a.css"⟩ ⟨"/w/i.html"⟩,
  .invalidate,
  .rulesIn ⟨"/w/a.css"⟩ ⟨"/w/i.html"⟩]

theorem rewritten_sheet_answers :
    let opened := State.opened (.fixed ⟨"/w"⟩) folderScoping (singleSheet ".a { color: red; }")
    (∀ moment ∈ moments opened rewriting, moment.Plain (fresh (.fixed ⟨"/w"⟩) folderScoping)) ∧
    ((opened.run (rewriting.take 3)).rulesIn ⟨"/w/a.css"⟩ ⟨"/w/i.html"⟩).map
        StyleRule.forgetLine = Sheet.rules ".a { color: red; }" ⟨"/w/a.css"⟩ ∧
    ((opened.run (rewriting.take 5)).rulesIn ⟨"/w/a.css"⟩ ⟨"/w/i.html"⟩).map
        StyleRule.forgetLine = Sheet.rules ".b { top: 0; }" ⟨"/w/a.css"⟩ := by
  intro opened
  have plain : ∀ moment ∈ moments opened rewriting,
      moment.Plain (fresh (.fixed ⟨"/w"⟩) folderScoping) := by
    decide +kernel
  have answers := (answers_from_first_readings (.fixed ⟨"/w"⟩) folderScoping .text
    (singleSheet ".a { color: red; }") rewriting plain).1
  refine ⟨plain, ?_, ?_⟩
  · obtain ⟨reading, found, answer⟩ :=
      answers (rewriting.take 3) ⟨"/w/a.css"⟩ ⟨"/w/i.html"⟩ (rewriting.drop 4) rfl
    have first : firstReading? (fresh (.fixed ⟨"/w"⟩) folderScoping)
        (moments opened (rewriting.take 4)) ⟨"/w/a.css"⟩ ⟨"/w/i.html"⟩ =
          some (.ok ".a { color: red; }") := by
      decide +kernel
    rw [answer, Option.some.inj (found.symm.trans first)]
    rfl
  · obtain ⟨reading, found, answer⟩ :=
      answers (rewriting.take 5) ⟨"/w/a.css"⟩ ⟨"/w/i.html"⟩ (rewriting.drop 6) rfl
    have first : firstReading? (fresh (.fixed ⟨"/w"⟩) folderScoping)
        (moments opened rewriting) ⟨"/w/a.css"⟩ ⟨"/w/i.html"⟩ =
          some (.ok ".b { top: 0; }") := by
      decide +kernel
    rw [answer, Option.some.inj (found.symm.trans first)]
    rfl

/-- Sheets whose paths are no text may be taken for each other. The second one is answered with the
rules of the first, though it is looked up for the first time and its own content is at hand. -/
theorem garbled_sheet_mistaken :
    let created := fresh (.fixed ⟨"/w"⟩) folderScoping .bytes
    let opened := State.opened (.fixed ⟨"/w"⟩) folderScoping garbledSheets .bytes
    let earlier : Event := .rulesIn ⟨"/w/\xfe.css"⟩ ⟨"/w/i.html"⟩
    let past := moments opened [earlier, .rulesIn ⟨"/w/\xff.css"⟩ ⟨"/w/i.html"⟩]
    let answer := (opened.run [earlier]).rulesIn ⟨"/w/\xff.css"⟩ ⟨"/w/i.html"⟩
    (∀ moment ∈ past, ∀ pair ∈ moment.lookups created,
        pair.1.FreeOfBackslash ∧ pair.2.FreeOfBackslash) ∧
      firstReading? created past ⟨"/w/\xff.css"⟩ ⟨"/w/i.html"⟩ = some (.ok ".x { e: f; }") ∧
      answer = Sheet.rules ".x { c: d; }" ⟨"/w/\xfe.css"⟩ ∧
      answer.map StyleRule.forgetLine ≠ Sheet.rules ".x { e: f; }" ⟨"/w/\xff.css"⟩ := by
  decide +kernel

end StyleLookup.RuleIndex
