import Mathlib.Data.List.Nodup
import StyleLookup.FileSystem.Memory
import StyleLookup.Proofs.Discovery.Unread
import StyleLookup.Proofs.RuleIndex.Lookup

/-!
Lookups that share an index and take turns. A lookup finds its candidates first and then asks for
one sheet at a time, and between any two of its turns other lookups may ask for theirs and the index
may be told to forget. As long as the files stay as they are, none of this shows in the answers.
-/

set_option autoImplicit false

namespace StyleLookup.RuleIndex

/-! ## Lookups under way -/

/-- A lookup under way: what it is for, the candidates that it has not asked for yet, and the rules
found so far. -/
structure Search where
  token : String
  source : Path
  pending : List Path
  found : List StyleRule
deriving DecidableEq

namespace Search

variable {m : Type → Type} [Monad m]

def start (fs : FileSystem m) (index : RuleIndex) (token : String) (source : Path) : m Search := do
  let sheets ← index.candidates fs source
  pure ⟨token, source, sheets.paths, []⟩

def selects (token : String) (rule : StyleRule) : Bool :=
  Selector.matchesToken rule.selector (Token.parse token)

/-- One turn of a lookup: it asks for its next candidate and keeps the rules that it looks for. -/
def advance (fs : FileSystem m) (index : RuleIndex) (search : Search) : m (Search × RuleIndex) :=
  match search.pending with
  | [] => pure (search, index)
  | style :: rest => do
      let (rules, index) ← index.rulesIn fs style search.source
      let found := search.found ++ rules.filter (selects search.token)
      pure ({ search with pending := rest, found := found }, index)

def advanceTimes (fs : FileSystem m) (index : RuleIndex) (search : Search) :
    Nat → m (Search × RuleIndex)
  | 0 => pure (search, index)
  | times + 1 => do
      let (search, index) ← search.advance fs index
      advanceTimes fs index search times

end Search

theorem Search.advanceTimes_length {m : Type → Type} [Monad m] [LawfulMonad m]
    (fs : FileSystem m) (index : RuleIndex) (token : String) (source : Path) (styles : List Path)
    (found : List StyleRule) :
    (do
      let (search, index) ← advanceTimes fs index ⟨token, source, styles, found⟩ styles.length
      pure (search.found, index)) =
    (do
      let (rules, index) ← rulesAmong fs (Token.parse token) source index styles
      pure (found ++ rules, index)) := by
  induction styles generalizing index found with
  | nil => simp [rulesAmong, advanceTimes]
  | cons style rest ih =>
      simp only [rulesAmong, List.length_cons, advanceTimes, advance, bind_assoc, pure_bind, ih,
        List.append_assoc]
      rfl

/-- A lookup that nobody interrupts is its start and then a turn for each candidate. -/
theorem rulesFor_eq_advanceTimes {m : Type → Type} [Monad m] [LawfulMonad m] (index : RuleIndex)
    (fs : FileSystem m) (token : String) (source : Path) :
    index.rulesFor fs token source = (do
      let search ← Search.start fs index token source
      let (search, index) ← search.advanceTimes fs index search.pending.length
      pure (search.found, index)) := by
  simp only [rulesFor, Search.start, bind_assoc, pure_bind, Search.advanceTimes_length,
    List.nil_append]
  simp

/-- An index and the lookups that share it, in the order in which they were started. -/
structure Session where
  index : RuleIndex
  searches : List Search
deriving DecidableEq

inductive Turn where
  | start (token : String) (source : Path)
  | advance (position : Nat)
  | invalidate
deriving DecidableEq

def Turn.started? : Turn → Option (String × Path)
  | .start token source => some (token, source)
  | _ => none

namespace Session

variable {m : Type → Type} [Monad m]

def opened (workspace : Workspace) (scoping : Scoping) (encoding : Path.Encoding := .text) :
    Session :=
  ⟨fresh workspace scoping encoding, []⟩

def step (fs : FileSystem m) (session : Session) : Turn → m Session
  | .start token source => do
      let search ← Search.start fs session.index token source
      pure { session with searches := session.searches ++ [search] }
  | .advance position =>
      match session.searches[position]? with
      | none => pure session
      | some search => do
          let (search, index) ← search.advance fs session.index
          pure ⟨index, session.searches.set position search⟩
  | .invalidate => pure { session with index := session.index.invalidate }

def run (fs : FileSystem m) (session : Session) (turns : List Turn) : m Session :=
  turns.foldlM (step fs) session

/-- The source file for which something is read in a turn, if anything is. -/
def asking? (session : Session) : Turn → Option Path
  | .start _ source => some source
  | .advance position => session.searches[position]?.map Search.source
  | .invalidate => none

/-- What is read in a turn: style sheets, each with the source file for which it is read. -/
def readings (snapshot : Snapshot) (session : Session) (turn : Turn) : List (Path × Path) :=
  ((session.step snapshot.logged turn).run .empty).2.reads.filterMap fun style =>
    (session.asking? turn).map (style, ·)

def readingsAmong (snapshot : Snapshot) : Session → List Turn → List (Path × Path)
  | _, [] => []
  | session, turn :: later =>
      session.readings snapshot turn ++
        readingsAmong snapshot (session.step snapshot turn).run later

end Session

/-! ## What is read -/

section Readings

variable (snapshot : Snapshot)

theorem readRules_logged (style : Path) (log : AccessLog) :
    (readRules snapshot.logged style).run log =
      ((readRules snapshot style).run, { log with reads := log.reads ++ [style] }) := by
  have asked : (snapshot.logged.readText style).run log =
      (snapshot.readText style, { log with reads := log.reads ++ [style] }) := rfl
  rw [readRules, StateT.run_bind, asked, readRules_snapshot]
  simp only [bind]
  cases snapshot.readText style <;> rfl

/-- A record of a lookup in the cache shows a reading exactly if nothing was held. -/
theorem rulesIn_logged (index : RuleIndex) (style source : Path) (log : AccessLog) :
    (index.rulesIn snapshot.logged style source).run log =
      ((index.rulesIn snapshot style source).run,
        { log with
          reads := log.reads ++
            if index.cache.contains (index.key style source) then [] else [style] }) := by
  cases filed : index.cache.get? (index.key style source) with
  | some rules =>
      simp only [rulesIn, RuleCache.contains, filed, Option.isSome_some, if_true, List.append_nil]
      rfl
  | none =>
      simp only [rulesIn, RuleCache.contains, filed, Option.isSome_none, Bool.false_eq_true,
        if_false, StateT.run_bind, readRules_logged]
      rfl

/-- The sheet that a lookup has to read in its next turn, if there is one. -/
def Search.missed (index : RuleIndex) (search : Search) : List Path :=
  search.pending.head?.toList.filter fun style =>
    !index.cache.contains (index.key style search.source)

theorem Search.advance_logged (index : RuleIndex) (search : Search) (log : AccessLog) :
    (search.advance snapshot.logged index).run log =
      ((search.advance snapshot index).run,
        { log with reads := log.reads ++ search.missed index }) := by
  obtain ⟨token, source, pending, found⟩ := search
  cases pending with
  | nil =>
      simp only [advance, missed, List.head?_nil, Option.toList_none, List.filter_nil,
        List.append_nil]
      rfl
  | cons style rest =>
      cases held : index.cache.contains (index.key style source) <;>
        simp only [advance, missed, List.head?_cons, Option.toList_some, StateT.run_bind,
          rulesIn_logged, List.filter_singleton, held] <;> rfl

namespace Session

def missed (session : Session) : Turn → List Path
  | .advance position => session.searches[position]?.toList.flatMap (Search.missed session.index)
  | _ => []

theorem step_logged (session : Session) (turn : Turn) (log : AccessLog) :
    ∃ listings, (session.step snapshot.logged turn).run log =
      ((session.step snapshot turn).run, ⟨log.reads ++ session.missed turn, listings⟩) := by
  cases turn with
  | start token source =>
      have unread : ReadsNothing (session.step snapshot.logged (.start token source))
          (session.step snapshot (.start token source)) :=
        ((candidates_readsNothing snapshot session.index source).bind fun _ => .pure _).bind
          fun _ => .pure _
      simpa only [missed, List.append_nil] using unread log
  | advance position =>
      refine ⟨log.listings, ?_⟩
      cases underWay : session.searches[position]? with
      | none =>
          simp only [step, missed, underWay, Option.toList_none, List.flatMap_nil, List.append_nil]
          rfl
      | some search =>
          simp only [step, missed, underWay, Option.toList_some, List.flatMap_singleton,
            StateT.run_bind, Search.advance_logged]
          rfl
  | invalidate =>
      refine ⟨log.listings, ?_⟩
      simp only [step, missed, List.append_nil]
      rfl

theorem readings_eq (session : Session) (turn : Turn) :
    session.readings snapshot turn =
      (session.missed turn).filterMap fun style => (session.asking? turn).map (style, ·) := by
  obtain ⟨listings, ran⟩ := session.step_logged snapshot turn .empty
  rw [readings, ran]
  rfl

theorem map_fst_readings (session : Session) (turn : Turn) :
    (session.readings snapshot turn).map Prod.fst = session.missed turn := by
  rw [readings_eq]
  cases turn with
  | start token source => rfl
  | advance position =>
      cases underWay : session.searches[position]? with
      | none => simp [missed, underWay]
      | some search => simp [missed, asking?, underWay, Function.comp_def]
  | invalidate => rfl

/-- The readings of a run, taken turn by turn, are those in the record of the whole run. -/
theorem run_logged (session : Session) (turns : List Turn) (log : AccessLog) :
    ∃ listings, (session.run snapshot.logged turns).run log =
      ((session.run snapshot turns).run,
        ⟨log.reads ++ (session.readingsAmong snapshot turns).map Prod.fst, listings⟩) := by
  induction turns generalizing session log with
  | nil =>
      refine ⟨log.listings, ?_⟩
      rw [readingsAmong, List.map_nil, List.append_nil]
      rfl
  | cons turn later ih =>
      obtain ⟨listings, ran⟩ := session.step_logged snapshot turn log
      obtain ⟨final, ranOn⟩ :=
        ih (session.step snapshot turn).run ⟨log.reads ++ session.missed turn, listings⟩
      refine ⟨final, ?_⟩
      rw [run, List.foldlM_cons, StateT.run_bind, ran, readingsAmong, List.map_append,
        map_fst_readings, ← List.append_assoc]
      exact ranOn

end Session

theorem contains_rulesIn_iff (index : RuleIndex) (style source : Path) (key : CacheKey) :
    (index.rulesIn snapshot style source).run.2.cache.contains key = true ↔
      key = index.key style source ∨ index.cache.contains key = true := by
  cases filed : index.cache.get? (index.key style source) with
  | some rules =>
      have held : index.cache.contains (index.key style source) = true := by
        simp [RuleCache.contains, filed]
      rw [rulesIn_of_filed snapshot filed]
      refine ⟨.inr, ?_⟩
      rintro (rfl | earlier)
      · exact held
      · exact earlier
  | none =>
      rw [rulesIn_of_unfiled snapshot filed]
      by_cases same : key = index.key style source
      · simp [RuleCache.contains, same, RuleCache.get?_insert_same]
      · simp [RuleCache.contains, same, RuleCache.get?_insert_other _ same]

theorem Search.contains_advance_iff (index : RuleIndex) (search : Search) (key : CacheKey) :
    (search.advance snapshot index).run.2.cache.contains key = true ↔
      (∃ style ∈ search.pending.head?, key = index.key style search.source) ∨
        index.cache.contains key = true := by
  obtain ⟨token, source, pending, found⟩ := search
  cases pending with
  | nil => simp [advance]
  | cons style rest =>
      have outcome : (advance snapshot index ⟨token, source, style :: rest, found⟩).run.2 =
          (index.rulesIn snapshot style source).run.2 := rfl
      rw [outcome, contains_rulesIn_iff]
      simp

/-! ## No sheet is read twice -/

/-- What an entry for a sheet and a source file would be filed under. -/
def filedAs (encoding : Path.Encoding) (pair : Path × Path) : CacheKey :=
  .ofPaths pair.1 pair.2 encoding

theorem Search.setup_advance (index : RuleIndex) (search : Search) :
    (search.advance snapshot index).run.2.setup = index.setup := by
  obtain ⟨token, source, pending, found⟩ := search
  cases pending with
  | nil => rfl
  | cons style rest => exact setup_rulesIn index snapshot style source

namespace Session

theorem setup_step (session : Session) (turn : Turn) :
    (session.step snapshot turn).run.index.setup = session.index.setup := by
  cases turn with
  | start token source => rfl
  | advance position =>
      simp only [step]
      cases session.searches[position]? with
      | none => rfl
      | some search => exact search.setup_advance snapshot session.index
  | invalidate => rfl

theorem contains_step {session : Session} {turn : Turn} (keeps : turn ≠ .invalidate)
    {key : CacheKey} (held : session.index.cache.contains key = true) :
    (session.step snapshot turn).run.index.cache.contains key = true := by
  cases turn with
  | start token source => exact held
  | advance position =>
      cases underWay : session.searches[position]? with
      | none =>
          simp only [step, underWay]
          exact held
      | some search =>
          simp only [step, underWay]
          exact (search.contains_advance_iff snapshot session.index key).mpr (.inr held)
  | invalidate => exact absurd rfl keeps

/-- At most one sheet is read in a turn. It was not held before, and it is held afterwards. -/
theorem readings_cases (session : Session) (turn : Turn) :
    session.readings snapshot turn = [] ∨ ∃ pair, session.readings snapshot turn = [pair] ∧
      session.index.cache.contains (filedAs session.index.encoding pair) = false ∧
        (session.step snapshot turn).run.index.cache.contains
          (filedAs session.index.encoding pair) = true := by
  rw [readings_eq]
  cases turn with
  | start token source => exact .inl rfl
  | advance position =>
      cases underWay : session.searches[position]? with
      | none => simp [missed, underWay]
      | some search =>
          cases next : search.pending.head? with
          | none => simp [missed, underWay, Search.missed, next]
          | some style =>
              cases held : session.index.cache.contains (session.index.key style search.source) with
              | true => simp [missed, underWay, Search.missed, next, held]
              | false =>
                  refine .inr ⟨(style, search.source), ?_, held, ?_⟩
                  · simp [missed, asking?, underWay, Search.missed, next, held]
                  · simp only [step, underWay]
                    exact (search.contains_advance_iff snapshot session.index _).mpr
                      (.inl ⟨style, next, rfl⟩)
  | invalidate => exact .inl rfl

/-- Between invalidations nothing is read that is held already, and nothing is read twice. -/
theorem nodup_readingsAmong {turns : List Turn} (keeps : .invalidate ∉ turns) (session : Session) :
    ((session.readingsAmong snapshot turns).map (filedAs session.index.encoding)).Nodup ∧
      ∀ pair ∈ session.readingsAmong snapshot turns,
        session.index.cache.contains (filedAs session.index.encoding pair) = false := by
  induction turns generalizing session with
  | nil => simp [readingsAmong]
  | cons turn later ih =>
      obtain ⟨turnKeeps, laterKeep⟩ := not_or.mp (mt List.mem_cons.mpr keeps)
      obtain ⟨distinct, unheld⟩ := ih laterKeep (session.step snapshot turn).run
      rw [encoding_congr (session.setup_step snapshot turn)] at distinct unheld
      have stillUnheld : ∀ pair ∈ readingsAmong snapshot (session.step snapshot turn).run later,
          session.index.cache.contains (filedAs session.index.encoding pair) = false := by
        intro pair member
        by_contra held
        have := contains_step snapshot (Ne.symm turnKeeps) (Bool.of_not_eq_false held)
        simp [unheld pair member] at this
      rw [readingsAmong]
      rcases session.readings_cases snapshot turn with none | ⟨pair, one, missing, kept⟩
      · rw [none, List.nil_append]
        exact ⟨distinct, stillUnheld⟩
      · rw [one, List.singleton_append, List.map_cons, List.nodup_cons, List.forall_mem_cons]
        refine ⟨⟨?_, distinct⟩, missing, stillUnheld⟩
        intro again
        obtain ⟨other, member, same⟩ := List.mem_map.mp again
        have := unheld other member
        simp [same, kept] at this

end Session

end Readings

/-! ## Every lookup finds all that it would find alone -/

/-- The rules of some sheets that cover a token, the sheets being as they are in the files. -/
def selection (snapshot : Snapshot) (token : String) (styles : List Path) : List StyleRule :=
  styles.flatMap fun style =>
    (rulesOfReading style (snapshot.readText style)).filter (Search.selects token)

/-- An index is set up as it was made, and what it holds is what is in the files. -/
structure Current (created : RuleIndex) (snapshot : Snapshot) (index : RuleIndex) : Prop where
  setup : index.setup = created.setup
  held : ∀ (style source : Path) (rules : List StyleRule),
    index.encoding.Plain style → index.encoding.Plain source →
      index.cache.get? (index.key style source) = some rules →
        rules = rulesOfReading style (snapshot.readText style)

/-- The paths that a lookup for a source file brings into play are text and have no backslash. -/
def PlainRequest (created : RuleIndex) (snapshot : Snapshot) (source : Path) : Prop :=
  created.encoding.Plain source ∧
    ∀ style ∈ (created.candidates snapshot source).run.paths, created.encoding.Plain style

instance (created : RuleIndex) (snapshot : Snapshot) (source : Path) :
    Decidable (PlainRequest created snapshot source) :=
  inferInstanceAs (Decidable (_ ∧ _))

/-- A lookup has found all that its earlier candidates have to offer. -/
structure Search.OnTrack (created : RuleIndex) (snapshot : Snapshot) (search : Search) : Prop where
  plain : PlainRequest created snapshot search.source
  remaining : search.pending <:+ (created.candidates snapshot search.source).run.paths
  whole : search.found ++ selection snapshot search.token search.pending =
    selection snapshot search.token (created.candidates snapshot search.source).run.paths

section Answers

variable {created index : RuleIndex} {snapshot : Snapshot} {search : Search}

theorem Current.fresh (workspace : Workspace) (scoping : Scoping) (encoding : Path.Encoding)
    (snapshot : Snapshot) :
    Current (fresh workspace scoping encoding) snapshot (fresh workspace scoping encoding) :=
  ⟨rfl, fun _ _ _ _ _ held => nomatch held⟩

theorem Current.invalidate (current : Current created snapshot index) :
    Current created snapshot index.invalidate :=
  ⟨current.setup, fun _ _ _ _ _ held => nomatch held⟩

theorem Current.rulesIn (current : Current created snapshot index) {style source : Path}
    (stylePlain : index.encoding.Plain style) (sourcePlain : index.encoding.Plain source) :
    (index.rulesIn snapshot style source).run.1 =
        rulesOfReading style (snapshot.readText style) ∧
      Current created snapshot (index.rulesIn snapshot style source).run.2 := by
  cases filed : index.cache.get? (index.key style source) with
  | some rules =>
      rw [rulesIn_of_filed snapshot filed]
      exact ⟨current.held style source rules stylePlain sourcePlain filed, current⟩
  | none =>
      rw [rulesIn_of_unfiled snapshot filed]
      refine ⟨rfl, current.setup, ?_⟩
      intro otherStyle otherSource rules otherStylePlain otherSourcePlain held
      by_cases same : index.key otherStyle otherSource = index.key style source
      · obtain ⟨rfl, rfl⟩ := Prod.mk.inj
          ((CacheKey.ofPaths_inj otherStylePlain otherSourcePlain stylePlain sourcePlain).mp same)
        have found : some (rulesOfReading otherStyle (snapshot.readText otherStyle)) = some rules :=
          (RuleCache.get?_insert_same _ _ _).symm.trans held
        exact (Option.some.inj found).symm
      · have before : index.cache.get? (index.key otherStyle otherSource) = some rules :=
          (RuleCache.get?_insert_other _ same _).symm.trans held
        exact current.held otherStyle otherSource rules otherStylePlain otherSourcePlain before

namespace Search

theorem token_advance (index : RuleIndex) (snapshot : Snapshot) (search : Search) :
    (search.advance snapshot index).run.1.token = search.token := by
  obtain ⟨token, source, pending, found⟩ := search
  cases pending <;> rfl

theorem source_advance (index : RuleIndex) (snapshot : Snapshot) (search : Search) :
    (search.advance snapshot index).run.1.source = search.source := by
  obtain ⟨token, source, pending, found⟩ := search
  cases pending <;> rfl

theorem pending_advance (index : RuleIndex) (snapshot : Snapshot) (search : Search) :
    (search.advance snapshot index).run.1.pending = search.pending.tail := by
  obtain ⟨token, source, pending, found⟩ := search
  cases pending <;> rfl

theorem OnTrack.start (current : Current created snapshot index) {token : String} {source : Path}
    (plain : PlainRequest created snapshot source) :
    OnTrack created snapshot (start snapshot index token source).run := by
  have outcome : (Search.start snapshot index token source).run =
      ⟨token, source, (created.candidates snapshot source).run.paths, []⟩ := by
    rw [← candidates_congr current.setup snapshot source]
    rfl
  rw [outcome]
  exact ⟨plain, List.suffix_rfl, rfl⟩

theorem OnTrack.advance (track : OnTrack created snapshot search)
    (current : Current created snapshot index) :
    OnTrack created snapshot (search.advance snapshot index).run.1 ∧
      Current created snapshot (search.advance snapshot index).run.2 := by
  obtain ⟨token, source, pending, found⟩ := search
  cases pending with
  | nil => exact ⟨track, current⟩
  | cons style rest =>
      have same := encoding_congr current.setup
      have stylePlain : created.encoding.Plain style :=
        track.plain.2 style (track.remaining.subset List.mem_cons_self)
      obtain ⟨answer, stillCurrent⟩ := current.rulesIn (same ▸ stylePlain) (same ▸ track.plain.1)
      have outcome : (Search.advance snapshot index ⟨token, source, style :: rest, found⟩).run =
          let (rules, next) := (index.rulesIn snapshot style source).run
          (⟨token, source, rest, found ++ rules.filter (selects token)⟩, next) := rfl
      rw [outcome]
      refine ⟨⟨track.plain, (List.suffix_cons style rest).trans track.remaining, ?_⟩, stillCurrent⟩
      rw [← track.whole]
      simp only [answer, selection, List.flatMap_cons, List.append_assoc]

theorem OnTrack.advanceTimes (track : OnTrack created snapshot search)
    (current : Current created snapshot index) (times : Nat) :
    let last := (search.advanceTimes snapshot index times).run.1
    OnTrack created snapshot last ∧ last.token = search.token ∧ last.source = search.source ∧
      last.pending = search.pending.drop times := by
  induction times generalizing search index with
  | zero => exact ⟨track, rfl, rfl, rfl⟩
  | succ times ih =>
      obtain ⟨nextTrack, nextCurrent⟩ := track.advance current
      obtain ⟨lastTrack, token, source, pending⟩ := ih nextTrack nextCurrent
      refine ⟨lastTrack, token.trans (token_advance index snapshot search),
        source.trans (source_advance index snapshot search), pending.trans ?_⟩
      rw [pending_advance, List.drop_tail]

theorem OnTrack.found_of_finished (track : OnTrack created snapshot search)
    (finished : search.pending = []) :
    search.found =
      selection snapshot search.token (created.candidates snapshot search.source).run.paths := by
  have whole := track.whole
  rwa [finished, selection, List.flatMap_nil, List.append_nil] at whole

end Search

/-- What a lookup answers that nobody interrupts. -/
theorem Current.rulesFor (current : Current created snapshot index) (token : String) {source : Path}
    (plain : PlainRequest created snapshot source) :
    (index.rulesFor snapshot token source).run.1 =
      selection snapshot token (created.candidates snapshot source).run.paths := by
  let first := (Search.start snapshot index token source).run
  have track : first.OnTrack created snapshot := .start current plain
  obtain ⟨lastTrack, sameToken, sameSource, pending⟩ :=
    track.advanceTimes current first.pending.length
  rw [List.drop_length] at pending
  have found := lastTrack.found_of_finished pending
  rw [sameToken, sameSource] at found
  rw [rulesFor_eq_advanceTimes]
  exact found

end Answers

/-! ## Runs -/

namespace Session

variable {created : RuleIndex} {snapshot : Snapshot} {session : Session}

theorem filterMap_started?_cons (turn : Turn) (later : List Turn) :
    (turn :: later).filterMap Turn.started? =
      turn.started?.toList ++ later.filterMap Turn.started? := by
  cases started : turn.started? <;> simp [started]

/-- The index of a session is current, and every lookup in it is on track. -/
structure Sound (created : RuleIndex) (snapshot : Snapshot) (session : Session) : Prop where
  index : Current created snapshot session.index
  searches : ∀ search ∈ session.searches, search.OnTrack created snapshot

theorem Sound.step (sound : Sound created snapshot session) {turn : Turn}
    (plain : ∀ asked ∈ turn.started?, PlainRequest created snapshot asked.2) :
    Sound created snapshot (session.step snapshot turn).run := by
  cases turn with
  | start token source =>
      have track :
          (Search.start snapshot session.index token source).run.OnTrack created snapshot :=
        .start sound.index (plain (token, source) rfl)
      refine ⟨sound.index, ?_⟩
      intro search member
      rcases List.mem_append.mp member with earlier | new
      · exact sound.searches search earlier
      · rwa [List.mem_singleton.mp new]
  | advance position =>
      simp only [Session.step]
      cases underWay : session.searches[position]? with
      | none => exact sound
      | some search =>
          have track := sound.searches search (List.mem_of_getElem? underWay)
          obtain ⟨nextTrack, current⟩ := track.advance sound.index
          refine ⟨current, ?_⟩
          intro other member
          rcases List.mem_or_eq_of_mem_set member with earlier | rfl
          · exact sound.searches other earlier
          · exact nextTrack
  | invalidate => exact ⟨sound.index.invalidate, sound.searches⟩

theorem Sound.run (sound : Sound created snapshot session) {turns : List Turn}
    (plain : ∀ asked ∈ turns.filterMap Turn.started?, PlainRequest created snapshot asked.2) :
    Sound created snapshot (session.run snapshot turns).run := by
  induction turns generalizing session with
  | nil => exact sound
  | cons turn later ih =>
      rw [filterMap_started?_cons] at plain
      have next := sound.step fun asked now =>
        plain asked (List.mem_append_left _ (Option.mem_toList.mpr now))
      exact ih next fun asked member => plain asked (List.mem_append_right _ member)

/-- The lookups of a session are those that were started, and what they are for does not change. -/
def asked (session : Session) : List (String × Path) :=
  session.searches.map fun search => (search.token, search.source)

theorem asked_step (snapshot : Snapshot) (session : Session) (turn : Turn) :
    asked (session.step snapshot turn).run = session.asked ++ turn.started?.toList := by
  cases turn with
  | start token source => exact List.map_append
  | advance position =>
      change asked (session.step snapshot (.advance position)).run = session.asked ++ []
      rw [List.append_nil, asked, asked]
      simp only [step]
      cases underWay : session.searches[position]? with
      | none => rfl
      | some search =>
          obtain ⟨bound, stands⟩ := List.getElem?_eq_some_iff.mp underWay
          apply List.ext_getElem?
          intro other
          by_cases same : position = other
          · subst same
            simp [bound, stands, Search.token_advance, Search.source_advance]
          · simp [List.getElem?_set_ne same]
  | invalidate => exact (List.append_nil _).symm

theorem asked_run (snapshot : Snapshot) (session : Session) (turns : List Turn) :
    asked (session.run snapshot turns).run = session.asked ++ turns.filterMap Turn.started? := by
  induction turns generalizing session with
  | nil => exact (List.append_nil _).symm
  | cons turn later ih =>
      have rest := ih (session.step snapshot turn).run
      rw [asked_step, List.append_assoc] at rest
      rw [filterMap_started?_cons]
      exact rest

end Session

/-- Lookups that share an index do not get in each other's way. However their turns and
invalidations follow one another, a lookup that is finished has found what it would find alone on a
fresh index, provided that the paths are text without backslashes. And between invalidations no
sheet is read twice for a source file. -/
theorem interleaved_searches_whole (workspace : Workspace) (scoping : Scoping)
    (encoding : Path.Encoding) (snapshot : Snapshot) (turns : List Turn) :
    let created := fresh workspace scoping encoding
    let opened := Session.opened workspace scoping encoding
    let last := (opened.run snapshot turns).run
    last.asked = turns.filterMap Turn.started? ∧
      ((∀ asked ∈ turns.filterMap Turn.started?, PlainRequest created snapshot asked.2) →
        ∀ search ∈ last.searches, search.pending = [] →
          search.found = (created.rulesFor snapshot search.token search.source).run.1) ∧
      ∀ before between after, turns = before ++ between ++ after → .invalidate ∉ between →
        ((opened.run snapshot before).run.readingsAmong snapshot between).Nodup := by
  intro created opened last
  have start : Current created snapshot created := .fresh workspace scoping encoding snapshot
  refine ⟨Session.asked_run snapshot opened turns, ?_, ?_⟩
  · intro plain search member finished
    have sound : Session.Sound created snapshot opened := ⟨start, by simp [opened, Session.opened]⟩
    have track := (sound.run plain).searches search member
    rw [track.found_of_finished finished, start.rulesFor search.token track.plain]
  · intro before between after _ keeps
    exact (Session.nodup_readingsAmong snapshot keeps _).1.of_map _

def namesakes : Scoping :=
  { Scoping.standard with
    mode := .filename
    fileNamePatterns := [Scoping.placeholder]
    fileExtensions := ["css", "scss"] }

def twoSheets : Snapshot :=
  (MemoryTree.ofList [(⟨"/w/i.css"⟩, .text ".x { top: 0; }"),
    (⟨"/w/i.scss"⟩, .text ".x, .y { left: 0; }")]).snapshot fun _ entries => entries

/-- Two lookups of one source file. Each reads one sheet and takes the other one from the cache, and
the index forgets in between. -/
def contended : List Turn := [
  .start "x" ⟨"/w/i.html"⟩, .start "y" ⟨"/w/i.html"⟩, .advance 0, .advance 1, .invalidate,
  .advance 1, .advance 0]

theorem contended_searches_whole :
    let created := fresh (.fixed ⟨"/w"⟩) namesakes
    let opened := Session.opened (.fixed ⟨"/w"⟩) namesakes
    let last := (opened.run twoSheets contended).run
    (∀ asked ∈ contended.filterMap Turn.started?, PlainRequest created twoSheets asked.2) ∧
      last.searches.map (fun search => (search.pending, search.found.length)) = [([], 2), ([], 1)] ∧
      (∀ search ∈ last.searches,
        search.found = (created.rulesFor twoSheets search.token search.source).run.1) ∧
      (opened.readingsAmong twoSheets (contended.take 4)).Nodup := by
  intro created opened last
  have plain : ∀ asked ∈ contended.filterMap Turn.started?,
      PlainRequest created twoSheets asked.2 := by decide +kernel
  have outcome : last.searches.map (fun search => (search.pending, search.found.length)) =
      [([], 2), ([], 1)] := by decide +kernel
  have finished : ∀ search ∈ last.searches, search.pending = [] := by
    have pairs : ∀ pair ∈ last.searches.map (fun search => (search.pending, search.found.length)),
        pair.1 = [] := by
      rw [outcome]
      decide
    exact fun search member => pairs _ (List.mem_map_of_mem member)
  obtain ⟨-, whole, once⟩ :=
    interleaved_searches_whole (.fixed ⟨"/w"⟩) namesakes .text twoSheets contended
  refine ⟨plain, outcome, fun search member => whole plain search member (finished search member),
    ?_⟩
  exact once [] (contended.take 4) (contended.drop 4) rfl (by decide)

/-- A lookup that asks for the second of two sheets after an invalidation, and for the first one
before it. -/
def interrupted : List Turn := [.start "x" ⟨"/w/i.html"⟩, .advance 0, .invalidate, .advance 0]

/-- Where paths are no text an invalidation may show. Alone the lookup finds the rules of the first
sheet twice, since the second one is taken for it; interrupted it finds those of both. -/
theorem garbled_search_differs :
    let created := fresh (.fixed ⟨"/w"⟩) folderScoping .bytes
    let opened := Session.opened (.fixed ⟨"/w"⟩) folderScoping .bytes
    let last := (opened.run garbledSheets interrupted).run
    (∀ asked ∈ interrupted.filterMap Turn.started?, asked.2.FreeOfBackslash ∧
        ∀ style ∈ (created.candidates garbledSheets asked.2).run.paths, style.FreeOfBackslash) ∧
      last.searches.map Search.pending = [[]] ∧
      last.searches.map (fun search => search.found.map StyleRule.file) =
        [[⟨"/w/\xfe.css"⟩, ⟨"/w/\xff.css"⟩]] ∧
      last.searches.map (fun search =>
          (created.rulesFor garbledSheets search.token search.source).run.1.map StyleRule.file) =
        [[⟨"/w/\xfe.css"⟩, ⟨"/w/\xfe.css"⟩]] := by
  decide +kernel

end StyleLookup.RuleIndex
