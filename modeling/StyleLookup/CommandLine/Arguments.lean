import StyleLookup.Scoping.Mode

/-!
Reading the arguments of the command line. Options may stand before and after the name of the
command; where one is given in both places, the one after the name counts.
-/

set_option autoImplicit false

namespace StyleLookup.CommandLine

structure Options where
  root? : Option Path
  config? : Option Path
  mode? : Option Mode
deriving DecidableEq, Repr

inductive Command where
  | rules (token : String) (source : Path) (json : Bool)
  | files (source : Path)
  | usages (token : String)
  | covers (selector token : String)
deriving DecidableEq, Repr

inductive Request where
  | run (options : Options) (command : Command)
  | version
  | help
deriving DecidableEq, Repr

/-- Why the arguments are not read to their end: they are wrong, or the version or help is asked
for. -/
inductive Stop where
  | wrong
  | version
  | help
deriving DecidableEq, Repr

inductive CommandName where
  | rules
  | files
  | usages
  | covers
deriving DecidableEq, Repr

def CommandName.ofText? : String → Option CommandName
  | "rules" => some .rules
  | "files" => some .files
  | "usages" => some .usages
  | "match" => some .covers
  | _ => none

/-- The options that take a value, and those that take none. -/
inductive Valued where
  | root
  | config
  | mode
deriving DecidableEq, Repr

@[inherit_doc Valued] inductive Plain where
  | verbose
  | json
  | version
  | help
deriving DecidableEq, Repr

abbrev Switch := Valued ⊕ Plain

/-- The part of the arguments that is read: what stands before the name of the command, or what
follows it. -/
abbrev Part := Option CommandName

/-- Whether an option may be given in a part. The version is asked for before the name of the
command, and JSON only for rules. -/
def Plain.allowedIn (plain : Plain) (part : Part) : Bool :=
  match plain with
  | .verbose => true
  | .help => true
  | .version => part == none
  | .json => part == some .rules

def longSwitch? (part : Part) (name : String) : Option Switch :=
  let found : Option Switch :=
    match name with
    | "root" => some (.inl .root)
    | "config" => some (.inl .config)
    | "mode" => some (.inl .mode)
    | "verbose" => some (.inr .verbose)
    | "json" => some (.inr .json)
    | "version" => some (.inr .version)
    | "help" => some (.inr .help)
    | _ => none
  found.filter fun
    | .inl _ => true
    | .inr plain => plain.allowedIn part

def shortSwitch? (part : Part) (name : Char) : Option Switch :=
  let found : Option Switch :=
    match name with
    | 'r' => some (.inl .root)
    | 'c' => some (.inl .config)
    | 'm' => some (.inl .mode)
    | 'v' => some (.inr .verbose)
    | 'V' => some (.inr .version)
    | 'h' => some (.inr .help)
    | _ => none
  found.filter fun
    | .inl _ => true
    | .inr plain => plain.allowedIn part

structure Given where
  options : Options
  verbose : Bool
  json : Bool
  operands : List String
deriving DecidableEq, Repr

def Given.nothing : Given := ⟨⟨none, none, none⟩, false, false, []⟩

def operandPath (text : String) : Except Stop Path :=
  if text.isEmpty then .error .wrong else .ok ⟨text⟩

/-- Takes note of an option with a value. An option can be given once in each part. -/
def Given.setValue (given : Given) (option : Valued) (value : String) : Except Stop Given := do
  let options := given.options
  match option with
  | .root =>
      if options.root?.isSome then throw .wrong
      let path ← operandPath value
      pure { given with options := { options with root? := some path } }
  | .config =>
      if options.config?.isSome then throw .wrong
      let path ← operandPath value
      pure { given with options := { options with config? := some path } }
  | .mode =>
      if options.mode?.isSome then throw .wrong
      match Mode.parse value with
      | .ok mode => pure { given with options := { options with mode? := some mode } }
      | .error _ => throw .wrong

def Given.setPlain (given : Given) (option : Plain) : Except Stop Given :=
  match option with
  | .verbose => if given.verbose then .error .wrong else .ok { given with verbose := true }
  | .json => if given.json then .error .wrong else .ok { given with json := true }
  | .version => .error .version
  | .help => .error .help

/-- Takes note of options with short names that stand together. The last one may take a value: what
follows it, with or without an equals sign in between, or else the next argument, in which case the
option is given back. -/
def Given.readCluster (part : Part) (given : Given) :
    List Char → Except Stop (Given × Option Valued)
  | [] => .ok (given, none)
  | name :: rest =>
      match shortSwitch? part name with
      | none => .error .wrong
      | some (.inr option) => do (← given.setPlain option).readCluster part rest
      | some (.inl option) =>
          match rest with
          | [] => .ok (given, some option)
          | '=' :: value => do pure (← given.setValue option (String.ofList value), none)
          | value => do pure (← given.setValue option (String.ofList value), none)

/-- Takes note of an option with a long name, given without its hyphens. A value may follow an
equals sign; an option that still needs one is given back. -/
def Given.readLong (part : Part) (given : Given) (text : List Char) :
    Except Stop (Given × Option Valued) := do
  let name := String.ofList (text.takeWhile (· != '='))
  let value? :=
    match text.dropWhile (· != '=') with
    | _ :: value => some (String.ofList value)
    | [] => none
  match longSwitch? part name, value? with
  | some (.inl option), some value => pure (← given.setValue option value, none)
  | some (.inl option), none => pure (given, some option)
  | some (.inr option), none => pure (← given.setPlain option, none)
  | _, _ => throw .wrong

inductive Argument where
  | escape
  | long (text : List Char)
  | cluster (names : List Char)
  | operand
deriving DecidableEq, Repr

/-- What an argument is, by its hyphens. A lone hyphen is an operand. -/
def Argument.ofText (text : String) : Argument :=
  match text.toList with
  | ['-', '-'] => .escape
  | '-' :: '-' :: rest => .long rest
  | '-' :: c :: rest => .cluster (c :: rest)
  | _ => .operand

/-- Reads the arguments after the name of a command. An option that takes a value takes the next
argument, which has to be an operand. -/
def readAfter (name : CommandName) (given : Given) (pending? : Option Valued) :
    List String → Except Stop Given
  | [] => if pending?.isSome then .error .wrong else .ok given
  | argument :: rest =>
      match Argument.ofText argument, pending? with
      | .operand, some option => do readAfter name (← given.setValue option argument) none rest
      | _, some _ => .error .wrong
      | .escape, none => .ok { given with operands := given.operands ++ rest }
      | .long text, none => do
          let (given, pending?) ← given.readLong (some name) text
          readAfter name given pending? rest
      | .cluster names, none => do
          let (given, pending?) ← given.readCluster (some name) names
          readAfter name given pending? rest
      | .operand, none =>
          readAfter name { given with operands := given.operands ++ [argument] } none rest

/-- Whether help can be given on what follows the word `help`: on the whole program, or on one
command. -/
def isHelpTopic : List String → Bool
  | [] => true
  | [topic] => topic == "help" || (CommandName.ofText? topic).isSome
  | _ => false

/-- Reads the arguments up to the name of the command, and gives what follows it. -/
def readBefore (given : Given) (pending? : Option Valued) :
    List String → Except Stop (Given × CommandName × List String)
  | [] => .error .wrong
  | argument :: rest =>
      match Argument.ofText argument, pending? with
      | .operand, some option => do readBefore (← given.setValue option argument) none rest
      | _, some _ => .error .wrong
      | .escape, none => .error .wrong
      | .long text, none => do
          let (given, pending?) ← given.readLong none text
          readBefore given pending? rest
      | .cluster names, none => do
          let (given, pending?) ← given.readCluster none names
          readBefore given pending? rest
      | .operand, none =>
          match CommandName.ofText? argument with
          | some name => .ok (given, name, rest)
          | none => if argument = "help" && isHelpTopic rest then .error .help else .error .wrong

def command (name : CommandName) (given : Given) : Except Stop Command :=
  match name, given.operands with
  | .rules, [token, source] => do pure (.rules token (← operandPath source) given.json)
  | .files, [source] => do pure (.files (← operandPath source))
  | .usages, [token] => .ok (.usages token)
  | .covers, [selector, token] => .ok (.covers selector token)
  | _, _ => .error .wrong

def Options.orElse (first second : Options) : Options where
  root? := first.root? <|> second.root?
  config? := first.config? <|> second.config?
  mode? := first.mode? <|> second.mode?

def parse? (arguments : List String) : Option Request :=
  let read : Except Stop Request := do
    let (before, name, rest) ← readBefore .nothing none arguments
    let after ← readAfter name .nothing none rest
    pure (.run (after.options.orElse before.options) (← command name after))
  match read with
  | .ok request => some request
  | .error .version => some .version
  | .error .help => some .help
  | .error .wrong => none

end StyleLookup.CommandLine
