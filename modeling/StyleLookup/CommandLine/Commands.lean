import StyleLookup.CommandLine.Arguments
import StyleLookup.Json.Writer
import StyleLookup.RuleIndex.Basic
import StyleLookup.Scoping.Load
import StyleLookup.StyleRule.Group
import StyleLookup.StyleRule.Printer
import StyleLookup.Usage.Basic

/-!
The commands of the command line, on any file system.
-/

set_option autoImplicit false

namespace StyleLookup.CommandLine

/-- How a run of the program ends: its exit code, what it prints, and the error it reports. -/
structure Outcome where
  code : Nat
  output : String
  error? : Option String
deriving DecidableEq, Repr

def Outcome.success (output : String) : Outcome := ⟨0, output, none⟩

def Outcome.failure (fault : Fault) : Outcome := ⟨1, "", some ("Error: " ++ fault.message)⟩

def Outcome.wrongArguments : Outcome := ⟨2, "", none⟩

def settingsFileName : String := "stylepeek.toml"

def versionLine : String := "stylepeek 0.1.0\n"

structure Setup where
  root : Path
  scoping : Scoping
deriving DecidableEq, Repr

variable {m : Type → Type} [Monad m]

/-- The root for a command: the one that is asked for, the root of the workspace of the source, or
the working directory. -/
def chooseRoot (fs : FileSystem m) (workingDirectory : Path) (options : Options)
    (source? : Option Path) : m Path := do
  match options.root?, source? with
  | some root, _ => pure (root.absoluteFrom workingDirectory)
  | none, some source =>
      let marked? ← Workspace.firstMarked? fs Workspace.standardMarkers source.ancestors
      pure (marked?.getD workingDirectory)
  | none, none => pure workingDirectory

/-- The settings for a command: from the file that is asked for, or from the one in the root if it
is there. -/
def chooseScoping (fs : FileSystem m) (options : Options) (root : Path) :
    m (Except Fault Scoping) := do
  match options.config? with
  | some path => Scoping.load fs path
  | none =>
      let path := root.child settingsFileName
      if ← fs.isFile path then Scoping.load fs path else pure (.ok .standard)

/-- The root and the settings for a command. A mode that is asked for takes the place of the one in
the settings. -/
def setup (fs : FileSystem m) (workingDirectory : Path) (options : Options)
    (source? : Option Path) : m (Except Fault Setup) := do
  let root ← chooseRoot fs workingDirectory options source?
  let chosen ← chooseScoping fs options root
  pure <| chosen.map fun scoping =>
    ⟨root, { scoping with mode := options.mode?.getD scoping.mode }⟩

def Setup.index (setup : Setup) : RuleIndex := .fresh (.atRoot setup.root) setup.scoping

def showRule (rule : StyleRule) : String :=
  let line :=
    match rule.line.line? with
    | some line => ":" ++ String.ofList (Text.decimal (line + 1))
    | none => ""
  "/* " ++ rule.file.spelling ++ line ++ " */\n" ++ rule.render ++ "\n\n"

def showGroup (group : RuleGroup) : String :=
  "/* " ++ group.fileName ++ " */\n" ++ String.join (group.rules.map showRule)

def runRules (fs : FileSystem m) (setup : Setup) (token : String) (source : Path) (json : Bool) :
    m Outcome := do
  let (rules, _) ← setup.index.rulesFor fs token source
  let rules ← rules.mapM (RuleIndex.resolveLine fs)
  if json then
    let value := Json.Value.array (rules.map StyleRule.toJson)
    pure (.success (value.render .indented ++ "\n"))
  else if rules.isEmpty then pure (.success ("No rules found for '" ++ token ++ "'.\n"))
  else pure (.success (String.join ((StyleRule.groupByFile rules).map showGroup)))

def runFiles (fs : FileSystem m) (setup : Setup) (source : Path) : m Outcome := do
  let candidates ← setup.index.candidates fs source
  if candidates.isEmpty then pure (.success "No style sheets found.\n")
  else pure (.success (String.join (candidates.paths.map fun path => path.spelling ++ "\n")))

/-- The place of a use as it is printed, with line and column counted from one. -/
def showUsage (usage : Usage) : String :=
  usage.path.spelling ++ ":" ++ String.ofList (Text.decimal (usage.line + 1)) ++ ":" ++
    String.ofList (Text.decimal (usage.column + 1)) ++ "\n"

def runUsages (fs : FileSystem m) (setup : Setup) (token : String) : m Outcome := do
  let usages ← Usage.find fs setup.scoping Usage.markupExtensions token setup.root
  if usages.isEmpty then pure (.success ("No usages found for '" ++ token ++ "'.\n"))
  else pure (.success (String.join (usages.map showUsage)))

def runCommand (fs : FileSystem m) (workingDirectory : Path) (options : Options) :
    Command → m Outcome
  | .covers selector token =>
      pure (.success (if Selector.covers selector token then "true\n" else "false\n"))
  | .usages token => do
      match ← setup fs workingDirectory options none with
      | .error fault => pure (.failure fault)
      | .ok setup => runUsages fs setup token
  | .files source => do
      let source := source.absoluteFrom workingDirectory
      match ← setup fs workingDirectory options (some source) with
      | .error fault => pure (.failure fault)
      | .ok setup => runFiles fs setup source
  | .rules token source json => do
      let source := source.absoluteFrom workingDirectory
      match ← setup fs workingDirectory options (some source) with
      | .error fault => pure (.failure fault)
      | .ok setup => runRules fs setup token source json

def helpText : String :=
  "Find the CSS rules that apply to a class or id reference\n\n" ++
    "Commands:\n" ++
    "  rules <TOKEN> <SOURCE> [--json]\n" ++
    "  files <SOURCE>\n" ++
    "  usages <TOKEN>\n" ++
    "  match <SELECTOR> <TOKEN>\n\n" ++
    "Options:\n" ++
    "  -r, --root <ROOT>\n" ++
    "  -c, --config <CONFIG>\n" ++
    "  -m, --mode <MODE>\n" ++
    "  -v, --verbose\n" ++
    "  -h, --help\n" ++
    "  -V, --version\n"

def run (fs : FileSystem m) (workingDirectory : Path) (arguments : List String) : m Outcome :=
  match parse? arguments with
  | none => pure .wrongArguments
  | some .version => pure (.success versionLine)
  | some .help => pure (.success helpText)
  | some (.run options command) => runCommand fs workingDirectory options command

end StyleLookup.CommandLine
