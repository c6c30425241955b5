import StyleLookup.Discovery.Candidates
import StyleLookup.RuleIndex.Cache
import StyleLookup.Selector.Matching
import StyleLookup.Sheet.Rules
import StyleLookup.Workspace

/-!
The rule index: it finds the candidate style sheets for a source file, reads each of them at most
once until it is told to forget them, and selects the rules that cover a token.
-/

set_option autoImplicit false

namespace StyleLookup

/-- How workspaces are found, which style sheets are searched, what has been read, and how the paths
are held. -/
structure RuleIndex where
  workspace : Workspace
  scoping : Scoping
  cache : RuleCache
  encoding : Path.Encoding
deriving DecidableEq

namespace RuleIndex

def fresh (workspace : Workspace) (scoping : Scoping) (encoding : Path.Encoding := .text) :
    RuleIndex :=
  ⟨workspace, scoping, .empty, encoding⟩

/-- What the rules of a style sheet are filed under for a source file. -/
def key (index : RuleIndex) (style source : Path) : CacheKey := .ofPaths style source index.encoding

/-- The number of style sheets kept, counted for each source file that asked. -/
def cachedEntries (index : RuleIndex) : Nat := index.cache.size

def invalidate (index : RuleIndex) : RuleIndex := { index with cache := .empty }

def applyChanges (index : RuleIndex) (changed : List Path) : Bool × RuleIndex :=
  if changed.isEmpty then (false, index) else (true, index.invalidate)

variable {m : Type → Type} [Monad m]

def root? (index : RuleIndex) (fs : FileSystem m) (source : Path) : m (Option Path) :=
  index.workspace.root? fs source

/-- The candidate style sheets for a source file. A source without a workspace has none. -/
def candidates (index : RuleIndex) (fs : FileSystem m) (source : Path) : m CandidateList := do
  match ← index.root? fs source with
  | none => pure .empty
  | some root => Discovery.candidates fs index.scoping root source index.encoding

/-- The rules of a style sheet as it stands; none if it cannot be read. -/
def readRules (fs : FileSystem m) (style : Path) : m (List StyleRule) := do
  match ← fs.readText style with
  | .ok content => pure (Sheet.rules content style)
  | .error _ => pure []

/-- The rules of a style sheet for a source file, from the cache or else from the file system. -/
def rulesIn (index : RuleIndex) (fs : FileSystem m) (style source : Path) :
    m (List StyleRule × RuleIndex) :=
  let key := index.key style source
  match index.cache.get? key with
  | some rules => pure (rules, index)
  | none => do
      let rules ← readRules fs style
      pure (rules, { index with cache := index.cache.insert key rules })

def rulesAmong (fs : FileSystem m) (token : Token) (source : Path) (index : RuleIndex) :
    List Path → m (List StyleRule × RuleIndex)
  | [] => pure ([], index)
  | style :: rest => do
      let (rules, index) ← index.rulesIn fs style source
      let (more, index) ← rulesAmong fs token source index rest
      pure (rules.filter (fun rule => Selector.matchesToken rule.selector token) ++ more, index)

/-- The rules that cover a token as referenced from a source file, in the order of the candidate
style sheets. -/
def rulesFor (index : RuleIndex) (fs : FileSystem m) (token : String) (source : Path) :
    m (List StyleRule × RuleIndex) := do
  let sheets ← index.candidates fs source
  rulesAmong fs (Token.parse token) source index sheets.paths

/-- The rule with the line of its selector resolved, unless that was done before. If the style sheet
cannot be read the rule stays as it is. -/
def resolveLine (fs : FileSystem m) (rule : StyleRule) : m StyleRule := do
  if rule.line.isResolved then pure rule
  else
    match ← fs.readText rule.file with
    | .ok content => pure (rule.resolveLine content)
    | .error _ => pure rule

end RuleIndex

end StyleLookup
