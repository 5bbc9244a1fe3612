/-!
# Arguments of the command line

Arguments are read from left to right, and the first that does not fit makes the whole line
invalid.  A request for help or for the version ends the reading.  Options may stand before or
after the command that they belong to; those that every command shares may also stand in front of
the command, and then one behind it wins.
-/

namespace ClientLoom

/-- A shell for which completions can be printed. -/
inductive Shell
  | bash
  | elvish
  | fish
  | powershell
  | zsh
deriving DecidableEq

/-- The shell of a name. -/
def Shell.ofName? (name : String) : Option Shell :=
  if name = "bash" then some .bash
  else if name = "elvish" then some .elvish
  else if name = "fish" then some .fish
  else if name = "powershell" then some .powershell
  else if name = "zsh" then some .zsh
  else none

/-- What the command line asks for. -/
inductive Command
  | build (config : Option String) (dryRun : Bool)
  | check (config : Option String)
  | completions (shell : Shell)
deriving DecidableEq

/-- A command and the options that all commands share. -/
structure Invocation where
  command : Command
  format : String
  verbose : Bool
deriving DecidableEq

/-- The meaning of a command line. -/
inductive CommandLine
  | run (invocation : Invocation)
  | help
  | version
  | invalid
deriving DecidableEq

namespace CommandLine

/-- The command whose arguments are being read. -/
inductive Level
  | top
  | build
  | check
  | completions
deriving DecidableEq

/-- The level of a command name. -/
def Level.ofName? (name : String) : Option Level :=
  if name = "build" then some .build
  else if name = "check" then some .check
  else if name = "completions" then some .completions
  else none

/-- An option. -/
inductive Flag
  | verbose
  | dryRun
  | help
  | version
  | format
  | config
deriving DecidableEq

/-- The option takes a value. -/
def Flag.takesValue : Flag → Bool
  | .format | .config => true
  | .verbose | .dryRun | .help | .version => false

/-- The option belongs to the level. -/
def Flag.belongsTo (flag : Flag) (level : Level) : Bool :=
  match flag, level with
  | .verbose, _ | .format, _ | .help, _ => true
  | .version, .top => true
  | .config, .build | .config, .check => true
  | .dryRun, .build => true
  | .version, _ | .config, _ | .dryRun, _ => false

/-- The option of a long name. -/
def Flag.ofName? (name : List Char) : Option Flag :=
  if name = "verbose".toList then some .verbose
  else if name = "dry-run".toList then some .dryRun
  else if name = "help".toList then some .help
  else if name = "version".toList then some .version
  else if name = "format".toList then some .format
  else if name = "config".toList then some .config
  else none

/-- The option of a letter. -/
def Flag.ofLetter? (letter : Char) : Option Flag :=
  if letter = 'v' then some .verbose
  else if letter = 'h' then some .help
  else if letter = 'V' then some .version
  else if letter = 'c' then some .config
  else none

/-- The options and the shell that were given at a level. -/
structure Given where
  verbose : Bool := false
  dryRun : Bool := false
  format : Option String := none
  config : Option String := none
  shell : Option Shell := none

/-- A command line under way. -/
structure Progress where
  level : Level := .top
  /-- What was given in front of the command. -/
  outer : Given := {}
  given : Given := {}
  /-- An option that still needs its value. -/
  pending : Option Flag := none
  /-- Nothing is an option any more. -/
  plainOnly : Bool := false

/-- Why the reading ends. -/
inductive Stop
  | help
  | version
  | invalid

/-- The meaning of a line whose reading ended. -/
def ofStop : Stop → CommandLine
  | .help => .help
  | .version => .version
  | .invalid => .invalid

namespace Progress

/-- Sets an option that takes no value.  It may be given once. -/
def switch (p : Progress) (flag : Flag) : Except Stop Progress :=
  match flag with
  | .help => .error .help
  | .version => .error .version
  | .verbose =>
    if p.given.verbose then .error .invalid
    else .ok { p with given := { p.given with verbose := true } }
  | .dryRun =>
    if p.given.dryRun then .error .invalid
    else .ok { p with given := { p.given with dryRun := true } }
  | .format | .config => .error .invalid

/-- Sets an option that takes a value.  It may be given once, and a path is not empty. -/
def assign (p : Progress) (flag : Flag) (value : String) : Except Stop Progress :=
  match flag with
  | .format =>
    if p.given.format.isSome then .error .invalid
    else .ok { p with given := { p.given with format := some value }, pending := none }
  | .config =>
    if p.given.config.isSome || value.isEmpty then .error .invalid
    else .ok { p with given := { p.given with config := some value }, pending := none }
  | .verbose | .dryRun | .help | .version => .error .invalid

/-- A known option of the level with the value attached to it, if any. -/
def take (p : Progress) (flag : Flag) (value : Option String) : Except Stop Progress :=
  match flag.takesValue, value with
  | true, some value => p.assign flag value
  | true, none => .ok { p with pending := some flag }
  | false, none => p.switch flag
  | false, some _ => .error .invalid

/-- An option of the level. -/
def known? (p : Progress) (flag : Option Flag) : Option Flag :=
  flag.filter (·.belongsTo p.level)

/-- An argument with two dashes, without them. -/
def long (p : Progress) (text : List Char) : Except Stop Progress :=
  let name := text.takeWhile (· ≠ '=')
  let value :=
    match text.drop name.length with
    | [] => none
    | _ :: rest => some (String.ofList rest)
  match p.known? (Flag.ofName? name) with
  | some flag => p.take flag value
  | none => .error .invalid

/-- The value attached to a letter. -/
def attached : List Char → Option String
  | [] => none
  | '=' :: rest => some (String.ofList rest)
  | rest => some (String.ofList rest)

/-- Letters behind one dash. -/
def short (p : Progress) : List Char → Except Stop Progress
  | [] => .ok p
  | letter :: rest =>
    match p.known? (Flag.ofLetter? letter) with
    | none => .error .invalid
    | some flag =>
      if flag.takesValue then p.take flag (attached rest)
      else
        match p.switch flag with
        | .ok p => p.short rest
        | .error stop => .error stop

/-- An argument that is no option. -/
def plain (p : Progress) (text : String) : Except Stop Progress :=
  match p.level, p.given.shell, Shell.ofName? text with
  | .completions, none, some shell => .ok { p with given := { p.given with shell := some shell } }
  | _, _, _ => .error .invalid

/-- The command of a name, if one is expected here. -/
def enter? (p : Progress) (text : String) : Option Progress :=
  if p.level = .top then
    (Level.ofName? text).map fun level => { level, outer := p.given }
  else none

/-- The argument looks like an option. -/
def isOption (text : List Char) : Bool :=
  text.head? == some '-' && text.length != 1

/-- One argument. -/
def step (p : Progress) (text : String) : Except Stop Progress :=
  match p.pending with
  | some flag => if isOption text.toList then .error .invalid else p.assign flag text
  | none =>
    if p.plainOnly then p.plain text
    else
      match p.enter? text, text.toList with
      | some next, _ => .ok next
      | none, ['-', '-'] => .ok { p with plainOnly := true }
      | none, '-' :: '-' :: rest => p.long rest
      | none, '-' :: c :: rest => p.short (c :: rest)
      | none, _ => p.plain text

/-- The path of the configuration: that of the command line, or that of the environment. -/
def config? (p : Progress) (environment : Option String) : Except Stop (Option String) :=
  match p.given.config, environment with
  | some path, _ => .ok (some path)
  | none, some path => if path.isEmpty then .error .invalid else .ok (some path)
  | none, none => .ok none

/-- The command at the end of the line. -/
def command (p : Progress) (environment : Option String) : Except Stop Command :=
  match p.level with
  | .top => .error .invalid
  | .build => do
    let config ← p.config? environment
    .ok (.build config p.given.dryRun)
  | .check => do
    let config ← p.config? environment
    .ok (.check config)
  | .completions =>
    match p.given.shell with
    | some shell => .ok (.completions shell)
    | none => .error .invalid

/-- The meaning of the line at its end. -/
def finish (p : Progress) (environment : Option String) : Except Stop Invocation := do
  if p.pending.isSome then .error .invalid
  let command ← p.command environment
  pure {
    command
    format := (p.given.format.or p.outer.format).getD "pretty"
    verbose := p.given.verbose || p.outer.verbose }

end Progress

/-- A request for help on commands. -/
def helpOn : List String → CommandLine
  | [] => .help
  | [name] => if name = "help" ∨ (Level.ofName? name).isSome then .help else .invalid
  | _ => .invalid

/-- Reads arguments one after the other. -/
def readFrom (environment : Option String) (p : Progress) : List String → CommandLine
  | [] =>
    match p.finish environment with
    | .ok invocation => .run invocation
    | .error stop => ofStop stop
  | text :: rest =>
    if text = "help" ∧ p.level = .top ∧ p.pending.isNone ∧ p.plainOnly = false then helpOn rest
    else
      match p.step text with
      | .ok p => readFrom environment p rest
      | .error stop => ofStop stop

/-- The meaning of a command line.  `environment` is the path of the configuration that the
environment names. -/
def read (environment : Option String) (arguments : List String) : CommandLine :=
  readFrom environment {} arguments

end CommandLine

end ClientLoom
