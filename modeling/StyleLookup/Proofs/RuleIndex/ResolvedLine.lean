import StyleLookup.Proofs.RuleIndex.History

/-!
Lines of rules that callers have in hand. Callers copy rules and have their lines resolved, while
files change and the index is used and told to forget. Each copy searches for its line in the first
content that it comes by, and keeps what it finds there for good, even if that is no line at all.
-/

set_option autoImplicit false

namespace StyleLookup

/-! ## One resolution -/

namespace SourceLine

@[simp] theorem line?_ofSearch (found : Option Nat) : (ofSearch found).line? = found := by
  cases found <;> rfl

@[simp] theorem isResolved_ofSearch (found : Option Nat) : (ofSearch found).isResolved = true := by
  cases found <;> rfl

theorem isResolved_eq_false_iff {line : SourceLine} :
    line.isResolved = false ↔ line = .unresolved := by
  cases line <;> simp [isResolved]

end SourceLine

namespace StyleRule

variable {rule : StyleRule}

theorem resolveLine_of_unresolved (unresolved : rule.line = .unresolved) (content : String) :
    rule.resolveLine content =
      { rule with line := .ofSearch (Sheet.selectorLine? content rule.selector) } := by
  rw [resolveLine, unresolved]

theorem resolveLine_of_isResolved (resolved : rule.line.isResolved = true) (content : String) :
    rule.resolveLine content = rule := by
  unfold resolveLine
  cases known : rule.line with
  | unresolved => rw [known] at resolved; cases resolved
  | absent => rfl
  | found line => rfl

theorem elim_resolveLine_of_isResolved (resolved : rule.line.isResolved = true)
    (content? : Option String) : content?.elim rule rule.resolveLine = rule := by
  cases content? with
  | none => rfl
  | some content => exact resolveLine_of_isResolved resolved content

theorem isResolved_line_resolveLine (rule : StyleRule) (content : String) :
    (rule.resolveLine content).line.isResolved = true := by
  cases known : rule.line.isResolved with
  | true => rw [resolveLine_of_isResolved known, known]
  | false =>
      have unresolved := SourceLine.isResolved_eq_false_iff.mp known
      rw [resolveLine_of_unresolved unresolved, SourceLine.isResolved_ofSearch]

/-- Equality of rules leaves aside what they remember of their lines. -/
theorem sameAs_eq_of_forgetLine {left right copy other : StyleRule}
    (first : copy.forgetLine = left.forgetLine) (second : other.forgetLine = right.forgetLine) :
    copy.sameAs other = left.sameAs right := by
  have kept (one two : StyleRule) : one.sameAs two = one.forgetLine.sameAs two.forgetLine := rfl
  rw [kept copy, kept left, first, second]

end StyleRule

namespace RuleIndex

/-- The line that a caller is told for a rule, with the files as they are. -/
def toldLine? (snapshot : Snapshot) (rule : StyleRule) : Option Nat :=
  (resolveLine snapshot rule).run.line.line?

/-- The files that are read for that. -/
def readFor (snapshot : Snapshot) (rule : StyleRule) : List Path :=
  ((resolveLine snapshot.logged rule).run .empty).2.reads

section Resolution

variable (snapshot : Snapshot) (rule : StyleRule)

theorem resolveLine_snapshot :
    (resolveLine snapshot rule).run =
      (snapshot.readText rule.file).toOption.elim rule rule.resolveLine := by
  cases resolved : rule.line.isResolved with
  | true =>
      rw [StyleRule.elim_resolveLine_of_isResolved resolved, resolveLine, resolved]
      rfl
  | false =>
      simp only [resolveLine, resolved, bind]
      cases snapshot.readText rule.file <;> rfl

theorem readFor_eq :
    readFor snapshot rule = if rule.line.isResolved then [] else [rule.file] := by
  cases resolved : rule.line.isResolved with
  | true =>
      rw [readFor, resolveLine, resolved]
      rfl
  | false =>
      have asked : (snapshot.logged.readText rule.file).run .empty =
          (snapshot.readText rule.file, ⟨[rule.file], []⟩) := rfl
      rw [readFor, resolveLine, resolved, if_neg Bool.false_ne_true, StateT.run_bind, asked]
      simp only [bind]
      cases snapshot.readText rule.file <;> rfl

end Resolution

/-! ## Rules in the hands of callers -/

/-- An index in use, and the rules that its callers have in hand. Each of these is a copy of its
own. -/
structure Callers where
  state : State
  rules : List StyleRule

/-- The rules that callers are given. A lookup for a token gives copies of the rules as they are
held. -/
def State.handsOut (state : State) : Event → List StyleRule
  | .rulesFor token source => state.rulesFor token source
  | _ => []

/-- What callers do: they have the line of a rule resolved, copy a rule, or do anything else with the
index, while files may change. -/
inductive Move where
  | resolve (position : Nat)
  | clone (position : Nat)
  | meanwhile (event : Event)

def Move.resolves (position : Nat) : Move → Bool
  | .resolve other => other == position
  | _ => false

namespace Callers

def step (callers : Callers) : Move → Callers
  | .resolve position =>
      { callers with
        rules := callers.rules.modify position fun rule =>
          (resolveLine callers.state.snapshot rule).run }
  | .clone position =>
      { callers with rules := callers.rules ++ callers.rules[position]?.toList }
  | .meanwhile event =>
      ⟨callers.state.step event, callers.rules ++ callers.state.handsOut event⟩

def run (callers : Callers) (moves : List Move) : Callers := moves.foldl step callers

/-- The files as they are at each resolution of the rule at a position. -/
def calls (position : Nat) : Callers → List Move → List Snapshot
  | _, [] => []
  | callers, move :: later =>
      (if move.resolves position then [callers.state.snapshot] else []) ++
        calls position (callers.step move) later

end Callers

/-- The first content that a file is found to have. -/
def firstContent? (file : Path) (snapshots : List Snapshot) : Option String :=
  snapshots.findSome? fun snapshot => (snapshot.readText file).toOption

section Runs

variable {callers : Callers} {position : Nat} {rule : StyleRule}

/-- A move touches no rule but the one that it resolves. -/
theorem Callers.rules_step (held : callers.rules[position]? = some rule) (move : Move) :
    (callers.step move).rules[position]? =
      some (if move.resolves position then (resolveLine callers.state.snapshot rule).run
        else rule) := by
  obtain ⟨inside, -⟩ := List.getElem?_eq_some_iff.mp held
  cases move with
  | resolve other =>
      by_cases same : other = position <;>
        simp [step, Move.resolves, held, same]
  | clone other =>
      simp only [step, Move.resolves, List.getElem?_append_left inside, held]
      rfl
  | meanwhile event =>
      simp only [step, Move.resolves, List.getElem?_append_left inside, held]
      rfl

/-- After any run a rule is what one resolution makes of it, by the first content that its own calls
have found. -/
theorem Callers.rules_run (held : callers.rules[position]? = some rule) (moves : List Move) :
    (callers.run moves).rules[position]? =
      some ((firstContent? rule.file (callers.calls position moves)).elim rule
        rule.resolveLine) := by
  induction moves generalizing callers rule with
  | nil => exact held
  | cons move later ih =>
      have onward := Callers.rules_step held move
      rw [run, List.foldl_cons, ← run, calls]
      cases asked : move.resolves position with
      | false =>
          rw [asked, if_neg Bool.false_ne_true] at onward
          rw [ih onward, if_neg Bool.false_ne_true, List.nil_append]
      | true =>
          rw [asked, if_pos rfl, resolveLine_snapshot] at onward
          rw [ih onward, if_pos rfl, List.singleton_append, firstContent?, firstContent?,
            List.findSome?_cons]
          cases (callers.state.snapshot.readText rule.file).toOption with
          | none => rfl
          | some content =>
              -- Once resolved, the rule is the same whatever later calls would find.
              have resolved := rule.isResolved_line_resolveLine content
              simp only [Option.elim_some, StyleRule.elim_resolveLine_of_isResolved resolved]

theorem Callers.forgetLine_run (held : callers.rules[position]? = some rule) (moves : List Move)
    {copy : StyleRule} (after : (callers.run moves).rules[position]? = some copy) :
    copy.forgetLine = rule.forgetLine := by
  rw [rules_run held, Option.some.injEq] at after
  rw [← after]
  cases firstContent? rule.file (callers.calls position moves) with
  | none => rfl
  | some content => exact rule.forgetLine_resolveLine content

theorem Callers.calls_eq_nil {moves : List Move}
    (untouched : ∀ move ∈ moves, move.resolves position = false) :
    callers.calls position moves = [] := by
  induction moves generalizing callers with
  | nil => rfl
  | cons move later ih =>
      obtain ⟨now, onward⟩ := List.forall_mem_cons.mp untouched
      rw [calls, now, ih onward]
      rfl

/-- A rule that is not resolved itself stays as it is, whatever becomes of its copies. -/
theorem Callers.rules_run_of_untouched (held : callers.rules[position]? = some rule)
    {moves : List Move} (untouched : ∀ move ∈ moves, move.resolves position = false) :
    (callers.run moves).rules[position]? = some rule := by
  rw [rules_run held, calls_eq_nil untouched]
  rfl

/-- Whatever happens from now on, the rule at a position is resolved, and callers are told one and
the same for it without anything being read. -/
def Callers.KeepsTelling (callers : Callers) (position : Nat) (line? : Option Nat) : Prop :=
  ∀ moves, ∃ rule, (callers.run moves).rules[position]? = some rule ∧
    rule.line.isResolved = true ∧
    toldLine? (callers.run moves).state.snapshot rule = line? ∧
    readFor (callers.run moves).state.snapshot rule = []

theorem toldLine?_of_isResolved (resolved : rule.line.isResolved = true) (snapshot : Snapshot) :
    toldLine? snapshot rule = rule.line.line? := by
  rw [toldLine?, resolveLine, resolved]
  rfl

theorem Callers.keepsTelling_of_isResolved (held : callers.rules[position]? = some rule)
    (resolved : rule.line.isResolved = true) : callers.KeepsTelling position rule.line.line? := by
  intro moves
  have kept : (callers.run moves).rules[position]? = some rule := by
    rw [rules_run held, StyleRule.elim_resolveLine_of_isResolved resolved]
  refine ⟨rule, kept, resolved, toldLine?_of_isResolved resolved _, ?_⟩
  rw [readFor_eq, resolved]
  rfl

/-! ## Calls for a rule that is not resolved yet -/

theorem Callers.resolve_of_error (held : callers.rules[position]? = some rule)
    (unresolved : rule.line = .unresolved) {fault : FileFault}
    (unread : callers.state.snapshot.readText rule.file = .error fault) :
    toldLine? callers.state.snapshot rule = none ∧
      (callers.step (.resolve position)).rules[position]? = some rule := by
  have same : (resolveLine callers.state.snapshot rule).run = rule := by
    rw [resolveLine_snapshot, unread]
    rfl
  constructor
  · rw [toldLine?, same, unresolved]
    rfl
  · rw [rules_step held, same, ite_self]

theorem Callers.resolve_of_ok (held : callers.rules[position]? = some rule)
    (unresolved : rule.line = .unresolved) {content : String}
    (read : callers.state.snapshot.readText rule.file = .ok content) :
    toldLine? callers.state.snapshot rule = Sheet.selectorLine? content rule.selector ∧
      (callers.step (.resolve position)).KeepsTelling position
        (Sheet.selectorLine? content rule.selector) := by
  have outcome : (resolveLine callers.state.snapshot rule).run =
      { rule with line := .ofSearch (Sheet.selectorLine? content rule.selector) } := by
    rw [resolveLine_snapshot, read, ← StyleRule.resolveLine_of_unresolved unresolved]
    rfl
  generalize Sheet.selectorLine? content rule.selector = found at outcome ⊢
  constructor
  · rw [toldLine?, outcome, SourceLine.line?_ofSearch]
  · have onward := rules_step held (.resolve position)
    rw [Move.resolves, beq_self_eq_true, if_pos rfl, outcome] at onward
    have telling := keepsTelling_of_isResolved onward (SourceLine.isResolved_ofSearch found)
    rwa [SourceLine.line?_ofSearch] at telling

/-! ## Copies of a rule -/

theorem Callers.clone_held (held : callers.rules[position]? = some rule) :
    (callers.step (.clone position)).rules[position]? = some rule ∧
      (callers.step (.clone position)).rules[callers.rules.length]? = some rule := by
  refine ⟨rules_step held (.clone position), ?_⟩
  simp [step, held]

end Runs

/-- The line of a rule is settled by its first content. As long as no call for an unresolved rule
has found a content, each call reads the sheet again. One that fails gives no line and leaves the
rule as it was; the first one that finds a content gives the line of the selector in it, if there is
one, and so does every later call, which reads nothing. A rule that is resolved from the start is
never searched for. A copy is what the rule is when it is made, and from then on neither of the two
depends on what is done to the other. Whether two rules are equal does not depend on any of this. -/
theorem line_settled_by_first_content (start : Callers) {position : Nat} {rule : StyleRule}
    (held : start.rules[position]? = some rule) :
    (rule.line = .unresolved → ∀ before,
      firstContent? rule.file (start.calls position before) = none →
      let now := start.run before
      now.rules[position]? = some rule ∧ readFor now.state.snapshot rule = [rule.file] ∧
        (∀ fault, now.state.snapshot.readText rule.file = .error fault →
          toldLine? now.state.snapshot rule = none ∧
            (now.step (.resolve position)).rules[position]? = some rule) ∧
        ∀ content, now.state.snapshot.readText rule.file = .ok content →
          toldLine? now.state.snapshot rule = Sheet.selectorLine? content rule.selector ∧
            (now.step (.resolve position)).KeepsTelling position
              (Sheet.selectorLine? content rule.selector)) ∧
    (rule.line.isResolved = true → start.KeepsTelling position rule.line.line?) ∧
    (∀ before copy, (start.run before).rules[position]? = some copy →
      let made := (start.run before).rules.length
      let now := (start.run before).step (.clone position)
      now.rules[position]? = some copy ∧ now.rules[made]? = some copy ∧
        ∀ later,
          ((∀ move ∈ later, move.resolves made = false) →
            (now.run later).rules[made]? = some copy) ∧
          ((∀ move ∈ later, move.resolves position = false) →
            (now.run later).rules[position]? = some copy)) ∧
    (∀ (place : Nat) (other : StyleRule), start.rules[place]? = some other →
      ∀ moves otherMoves copy otherCopy, (start.run moves).rules[position]? = some copy →
        (start.run otherMoves).rules[place]? = some otherCopy →
          copy.sameAs otherCopy = rule.sameAs other) := by
  refine ⟨?_, Callers.keepsTelling_of_isResolved held, ?_, ?_⟩
  · intro unresolved before unread now
    have unchanged : now.rules[position]? = some rule := by
      rw [Callers.rules_run held, unread]
      rfl
    refine ⟨unchanged, ?_, fun fault => Callers.resolve_of_error unchanged unresolved,
      fun content => Callers.resolve_of_ok unchanged unresolved⟩
    rw [readFor_eq, unresolved]
    rfl
  · intro before copy present made now
    obtain ⟨original, cloned⟩ := Callers.clone_held present
    exact ⟨original, cloned, fun later => ⟨Callers.rules_run_of_untouched cloned,
      Callers.rules_run_of_untouched original⟩⟩
  · intro place other otherHeld moves otherMoves copy otherCopy after otherAfter
    exact StyleRule.sameAs_eq_of_forgetLine (Callers.forgetLine_run held moves after)
      (Callers.forgetLine_run otherHeld otherMoves otherAfter)

def hero : StyleRule := ⟨".hero", .empty, ⟨"/w/a.css"⟩, .unresolved⟩

/-- A caller with one rule in hand, whose sheet is not there yet. -/
def waiting : Callers :=
  ⟨.opened (.fixed ⟨"/w"⟩) folderScoping ((MemoryTree.ofList []).snapshot fun _ found => found),
    [hero]⟩

/-- The line is asked for in vain and the rule is copied. Then the sheet is written, as yet without
the rule. -/
def untilWritten : List Move := [
  .resolve 0,
  .clone 0,
  .meanwhile (.change (singleSheet "body { margin: 0; }"))]

/-- The sheet is written anew, the index forgets, and the copy is resolved. -/
def rewritten : List Move := [
  .meanwhile (.change (singleSheet "\n.hero { top: 0; }")),
  .meanwhile .invalidate,
  .resolve 1]

/-- The rule was looked for when it was not there, and so it stays without a line. Its copy, which
was made before and resolved later, has one. -/
theorem hero_without_line_for_good :
    let searched := (waiting.run untilWritten).step (.resolve 0)
    waiting.rules[0]? = some hero ∧ hero.line = .unresolved ∧
      firstContent? hero.file (waiting.calls 0 untilWritten) = none ∧
      toldLine? waiting.state.snapshot hero = none ∧
      toldLine? (waiting.run untilWritten).state.snapshot hero = none ∧
      searched.KeepsTelling 0 none ∧
      (searched.run rewritten).rules.map StyleRule.line = [.absent, .found 1] := by
  intro searched
  have held : waiting.rules[0]? = some hero := rfl
  have unread : firstContent? hero.file (waiting.calls 0 untilWritten) = none := by
    decide +kernel
  have missing : (waiting.state.snapshot.readText hero.file).run = .error .notFound := by
    decide +kernel
  have written : ((waiting.run untilWritten).state.snapshot.readText hero.file).run =
      .ok "body { margin: 0; }" := by decide +kernel
  have nowhere : Sheet.selectorLine? "body { margin: 0; }" hero.selector = none := by
    decide +kernel
  have settled := (line_settled_by_first_content waiting held).1 rfl
  obtain ⟨-, -, failing, -⟩ := settled [] rfl
  obtain ⟨-, -, -, finding⟩ := settled untilWritten unread
  obtain ⟨told, kept⟩ := finding _ written
  rw [nowhere] at told kept
  exact ⟨held, rfl, unread, (failing _ missing).1, told, kept, by decide +kernel⟩

end RuleIndex

end StyleLookup
