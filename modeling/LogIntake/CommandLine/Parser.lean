import LogIntake.CommandLine.Invocation

/-! Reading a command line. Its words are options with their values, names of commands and
places of files; a command may have commands of its own. What is wrong behind the name of a
command comes before what is wrong in front of it, as far as that shows at the end only.
-/

namespace LogIntake.CommandLine

/-- The commands, and those that only group others. -/
inductive CommandName where
  | root
  | format
  | relabel
  | checkRules
  | config
  | validateSettings
  | showSettings
  deriving Repr, DecidableEq, Inhabited

/-- What may be given to a command: options with a value, options that are switched on, and
places of files.
-/
inductive ArgumentName where
  | config
  | logLevel
  | output
  | push
  | relabelFile
  | label
  | useIncomingTimestamp
  | useFullLine
  | part
  | input
  | file
  | help
  | version
  deriving Repr, DecidableEq, Inhabited

namespace CommandName

/-- The commands of a command. -/
def commands : CommandName → List (String × CommandName)
  | .root => [("format", .format), ("relabel", .relabel), ("config", .config)]
  | .relabel => [("check", .checkRules)]
  | .config => [("validate", .validateSettings), ("show", .showSettings)]
  | _ => []

def isGroup (command : CommandName) : Bool :=
  !command.commands.isEmpty

/-- The place of a file that may be given to a command. -/
def positional? : CommandName → Option ArgumentName
  | .format => some .input
  | .checkRules => some .file
  | _ => none

def sharedOptions : List (String × ArgumentName) :=
  [("config", .config), ("log-level", .logLevel), ("output", .output), ("help", .help)]

/-- The options of a command by their long names. -/
def longOptions (command : CommandName) : List (String × ArgumentName) :=
  sharedOptions
    ++ match command with
      | .root => [("version", .version)]
      | .format =>
          [("push", .push), ("relabel-file", .relabelFile), ("label", .label),
           ("use-incoming-timestamp", .useIncomingTimestamp),
           ("use-full-line", .useFullLine)]
      | .showSettings => [("section", .part)]
      | _ => []

/-- The options of a command by their short names. -/
def shortOptions (command : CommandName) : List (Char × ArgumentName) :=
  [('c', .config), ('h', .help)]
    ++ match command with
      | .root => [('V', .version)]
      | .format => [('l', .label)]
      | _ => []

end CommandName

def ArgumentName.hasValue : ArgumentName → Bool
  | .push | .useIncomingTimestamp | .useFullLine | .help | .version => false
  | _ => true

/-! ### Arguments -/

/-- What is given to a command. -/
structure Arguments where
  config : Option String
  logLevel : Option String
  output : Option OutputFormat
  input : Option String
  push : Bool
  relabelFile : Option String
  labels : List (String × String)
  useIncomingTimestamp : Bool
  useFullLine : Bool
  part : Option String
  file : Option String
  deriving Repr, DecidableEq, Inhabited

def parseLabel (label : String) : Except UsageError (String × String) :=
  let chars := label.toList
  let name := chars.takeWhile (· ≠ '=')
  if name.length = chars.length then .error (.invalidLabel label .noEquals)
  else if name.isEmpty then .error (.invalidLabel label .emptyName)
  else .ok (String.ofList name, String.ofList (chars.drop (name.length + 1)))

/-- The place of a file, which must not be empty. -/
def parsePath (value : String) : Except UsageError String :=
  if value.isEmpty then .error .invalidValue else .ok value

def parseOutput (value : String) : Except UsageError OutputFormat :=
  match OutputFormat.ofName? value with
  | some format => .ok format
  | none => .error .invalidValue

/-- A value for what may be given once: nothing may be given before. -/
def once {α : Type} (old : Option α) (value : Except UsageError α)
    : Except UsageError (Option α) :=
  match old with
  | some _ => .error .repeatedArgument
  | none => value.map some

def onceOn (old : Bool) : Except UsageError Bool :=
  if old then .error .repeatedArgument else .ok true

namespace Arguments

/-- Nothing. -/
def none : Arguments :=
  ⟨.none, .none, .none, .none, false, .none, [], false, false, .none, .none⟩

/-- Adds an argument with its value. -/
def give (arguments : Arguments) (name : ArgumentName) (value : String)
    : Except UsageError Arguments := do
  match name with
  | .config =>
      return { arguments with config := ← once arguments.config (parsePath value) }
  | .logLevel =>
      return { arguments with logLevel := ← once arguments.logLevel (.ok value) }
  | .output =>
      return { arguments with output := ← once arguments.output (parseOutput value) }
  | .input => return { arguments with input := ← once arguments.input (parsePath value) }
  | .relabelFile =>
      return { arguments with relabelFile := ← once arguments.relabelFile (parsePath value) }
  | .part => return { arguments with part := ← once arguments.part (.ok value) }
  | .file => return { arguments with file := ← once arguments.file (parsePath value) }
  | .label => return { arguments with labels := arguments.labels ++ [← parseLabel value] }
  | .push => return { arguments with push := ← onceOn arguments.push }
  | .useIncomingTimestamp =>
      return { arguments with
        useIncomingTimestamp := ← onceOn arguments.useIncomingTimestamp }
  | .useFullLine => return { arguments with useFullLine := ← onceOn arguments.useFullLine }
  | .help => throw .help
  | .version => throw .version

/-- Whether an option that all commands share is given. -/
def hasShared (arguments : Arguments) : Bool :=
  arguments.config.isSome || arguments.logLevel.isSome || arguments.output.isSome

/-- The arguments of an inner command, with the shared options of the outer one unless the
inner one has them.
-/
def within (outer inner : Arguments) : Arguments :=
  { inner with
    config := inner.config.or outer.config, logLevel := inner.logLevel.or outer.logLevel,
    output := inner.output.or outer.output }

end Arguments

/-! ### Words -/

/-- How far the words behind the name of a command are read: the arguments so far, an argument
that is not added yet with its value if that is read, and whether options may no longer follow.
-/
structure Progress where
  arguments : Arguments
  pending : Option (ArgumentName × Option String)
  onlyPlaces : Bool
  deriving Repr, DecidableEq, Inhabited

namespace Progress

def start : Progress :=
  ⟨.none, none, false⟩

def awaitsValue (progress : Progress) : Bool :=
  match progress.pending with
  | some (_, none) => true
  | _ => false

/-- Adds the argument that is not added yet. -/
def settle (progress : Progress) : Except UsageError Progress :=
  match progress.pending with
  | none => .ok progress
  | some (_, none) => .error .invalidValue
  | some (name, some value) => do
      let arguments ← progress.arguments.give name value
      return { progress with arguments := arguments, pending := none }

/-- Adds an argument with the value that is attached to it. -/
def giveNow (progress : Progress) (name : ArgumentName) (value : String)
    : Except UsageError Progress := do
  let progress ← progress.settle
  let arguments ← progress.arguments.give name value
  return { progress with arguments := arguments }

/-- Adds an argument later on, when its value, if it is not there yet, is read. -/
def giveLater (progress : Progress) (name : ArgumentName) (value : Option String)
    : Except UsageError Progress := do
  let progress ← progress.settle
  return { progress with pending := some (name, value) }

/-- Takes an option with the value that is attached to it, if any. -/
def takeOption (progress : Progress) (name : ArgumentName) (attached : Option String)
    : Except UsageError Progress :=
  match name.hasValue, attached with
  | true, some value => progress.giveNow name value
  | true, none => progress.giveLater name none
  | false, some _ => .error .surplusValue
  | false, none => progress.giveNow name ""

/-- Takes a long option behind its two dashes; a value may follow an equals sign. -/
def takeLong (progress : Progress) (command : CommandName) (chars : List Char)
    : Except UsageError Progress :=
  let name := chars.takeWhile (· ≠ '=')
  let attached :=
    if name.length = chars.length then none
    else some (String.ofList (chars.drop (name.length + 1)))
  match command.longOptions.lookup (String.ofList name) with
  | some name => progress.takeOption name attached
  | none => .error .unknownArgument

/-- Takes a short option behind its dash; a value may follow it, with an equals sign or
without.
-/
def takeShort (progress : Progress) (command : CommandName) (option : Char)
    (chars : List Char)
    : Except UsageError Progress :=
  match command.shortOptions.lookup option with
  | none => .error .unknownArgument
  | some name =>
      if name.hasValue then
        match chars with
        | [] => progress.giveLater name none
        | '=' :: value => progress.giveNow name (String.ofList value)
        | value => progress.giveNow name (String.ofList value)
      else progress.giveNow name ""

/-- What is wrong with a word that no command and no argument accounts for. -/
def surplusWord (progress : Progress) (command : CommandName) (word : String) : UsageError :=
  let isCommand := word = "help" || (command.commands.lookup word).isSome
  if command.isGroup && !(progress.onlyPlaces && isCommand) then .unknownCommand
  else .unknownArgument

def takePlace (progress : Progress) (command : CommandName) (word : String)
    : Except UsageError Progress :=
  let isGiven := fun name =>
    match name with
    | .input => progress.arguments.input.isSome
    | .file => progress.arguments.file.isSome
    | _ => false
  let isPending := fun name => progress.pending.any fun pending => pending.1 = name
  match command.positional? with
  | some name =>
      if isGiven name || isPending name then .error .unknownArgument
      else progress.giveLater name (some word)
  | none => .error (progress.surplusWord command word)

def takeWord (progress : Progress) (command : CommandName) (word : String)
    : Except UsageError Progress :=
  if progress.onlyPlaces then progress.takePlace command word
  else
    match word.toList with
    | ['-', '-'] => .ok { progress with onlyPlaces := true }
    | '-' :: '-' :: chars => progress.takeLong command chars
    | '-' :: option :: chars => progress.takeShort command option chars
    | _ =>
        match progress.pending with
        | some (name, none) => .ok { progress with pending := some (name, some word) }
        | _ => progress.takePlace command word

/-- The arguments at the end of the words. A command that groups others is not enough, and a
command that needs the place of a file has to have it.
-/
def finish (progress : Progress) (command : CommandName) : Except UsageError Arguments := do
  let arguments := (← progress.settle).arguments
  if command.isGroup then
    throw (if arguments.hasShared then .missingCommand else .helpWithoutCommand)
  if command = .checkRules && arguments.file.isNone then throw .missingArgument
  return arguments

/-- The command that a word names, unless the word has to be something else. -/
def command? (progress : Progress) (command : CommandName) (word : String)
    : Option CommandName :=
  if progress.onlyPlaces || progress.awaitsValue then none else command.commands.lookup word

/-- Whether a word asks for help on the commands that follow. -/
def asksForHelp (progress : Progress) (command : CommandName) (word : String) : Bool :=
  word = "help" && command.isGroup && !progress.onlyPlaces && !progress.awaitsValue

end Progress

/-! ### Command lines -/

/-- What comes of a request for help on a command of a command. -/
def helpOn (command : CommandName) : List String → UsageError
  | [] => .help
  | word :: words =>
      match command.commands.lookup word with
      | some inner => helpOn inner words
      | none =>
          if word = "help" && command.isGroup && words.isEmpty then .help
          else .unknownCommand

/-- Reads the words behind the name of a command. The result is the innermost command with its
arguments.
-/
def readWords (command : CommandName) (progress : Progress)
    : List String → Except UsageError (CommandName × Arguments)
  | [] => do return (command, ← progress.finish command)
  | word :: words =>
      if progress.asksForHelp command word then .error (helpOn command words)
      else
        match progress.command? command word with
        | some inner => do
            let (innermost, arguments) ← readWords inner .start words
            let outer := (← progress.settle).arguments
            return (innermost, outer.within arguments)
        | none => do readWords command (← progress.takeWord command word) words

def toCommand (arguments : Arguments) : CommandName → Except UsageError Command
  | .format =>
      .ok (.format
        ⟨arguments.input, arguments.push, arguments.relabelFile, arguments.labels,
         arguments.useIncomingTimestamp, arguments.useFullLine⟩)
  | .checkRules =>
      match arguments.file with
      | some path => .ok (.checkRules path)
      | none => .error .missingArgument
  | .validateSettings => .ok .validateSettings
  | .showSettings => .ok (.showSettings arguments.part)
  | .root | .relabel | .config => .error .missingCommand

/-- The file of the settings, unless another is given. -/
def defaultSettingsPath : String :=
  "gcplog.toml"

/-- Reads a command line without the name of the program. -/
def parse (words : List String) : Except UsageError Invocation := do
  let (name, arguments) ← readWords .root .start words
  let command ← toCommand arguments name
  return ⟨arguments.config.getD defaultSettingsPath, arguments.logLevel,
    arguments.output.getD .text, command⟩

end LogIntake.CommandLine
