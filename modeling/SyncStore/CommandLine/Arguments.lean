import SyncStore.CommandLine.Command
import SyncStore.Settings.Config

/-! Arguments name options, then a command, then what the command takes; the
first mistake ends the reading. -/

namespace SyncStore

/-- The words that name a command. -/
inductive CommandWord where
  | get
  | set
  | dump
  | importObject
  | ping
  | harden
  deriving DecidableEq

/-- The options of the program and of its commands. -/
inductive ProgramOption where
  | backend
  | directory
  | file
  | redisUrl
  | default
  | cachedFallback
  | noWrite
  | mode
  | help
  | version
  deriving DecidableEq

/-- Arguments before the command word, and behind one, are read by rules of their own. -/
abbrev Context := Option CommandWord

/-- Why arguments do not lead to a command. -/
inductive ArgumentsEnd where
  | help (context : Context)
  | version
  | rejected
  | invalidMode (raw : String) (fault : IntegerFault)

namespace CommandWord

/-- All command words. -/
def all : List CommandWord := [.get, .set, .dump, .importObject, .ping, .harden]

/-- The spelling of a command word. -/
def name : CommandWord → String
  | .get => "get"
  | .set => "set"
  | .dump => "dump"
  | .importObject => "import"
  | .ping => "ping"
  | .harden => "harden"

/-- The command word with a spelling. -/
def ofName? (text : String) : Option CommandWord := all.find? (·.name = text)

/-- The values that stand behind a command word without an option. -/
def operands : CommandWord → List String
  | .get => ["KEY"]
  | .set => ["KEY", "VALUE"]
  | .importObject => ["JSON"]
  | .dump | .ping | .harden => []

/-- The options that stand behind a command word. -/
def options : CommandWord → List ProgramOption
  | .get => [.default, .cachedFallback, .help]
  | .set => [.noWrite, .help]
  | .harden => [.mode, .help]
  | .dump | .importObject | .ping => [.help]

end CommandWord

namespace ProgramOption

/-- The spelling of an option behind two dashes. -/
def name : ProgramOption → String
  | .backend => "backend"
  | .directory => "dir"
  | .file => "file"
  | .redisUrl => "redis-url"
  | .default => "default"
  | .cachedFallback => "cached-fallback"
  | .noWrite => "no-write"
  | .mode => "mode"
  | .help => "help"
  | .version => "version"

/-- The letter of an option behind one dash. -/
def letter? : ProgramOption → Option Char
  | .backend => some 'b'
  | .help => some 'h'
  | .version => some 'V'
  | _ => none

/-- The name for the value of an option that takes one. -/
def valueName? : ProgramOption → Option String
  | .backend => some "BACKEND"
  | .directory => some "DIR"
  | .file => some "FILE"
  | .redisUrl => some "REDIS_URL"
  | .default => some "DEFAULT"
  | .mode => some "MODE"
  | .cachedFallback | .noWrite | .help | .version => none

end ProgramOption

namespace Context

/-- The options before the command word stand for the configuration. -/
def options : Context → List ProgramOption
  | none => [.backend, .directory, .file, .redisUrl, .help, .version]
  | some word => word.options

/-- No value stands before the command word without an option. -/
def operands : Context → List String
  | none => []
  | some word => word.operands

end Context

/-- Octal digits may follow any number of marks for the base. -/
def dropOctalMarks : List Char → List Char
  | '0' :: 'o' :: rest => dropOctalMarks rest
  | digits => digits

/-- A mode is an unsigned word in octal digits. -/
def Mode.read (raw : String) : Except IntegerFault Mode :=
  (IntegerRange.unsigned32.read 8 (dropOctalMarks raw.toList)).map Int.toNat

/-- The backend of a name, which is spelled exactly. -/
def BackendKind.ofName? (text : String) : Option BackendKind :=
  [BackendKind.toml, .yaml, .redis].find? (·.name = text)

/-- Only a backend and a mode refuse some values. -/
def ProgramOption.check (option : ProgramOption) (value : String) : Except ArgumentsEnd Unit :=
  match option with
  | .backend => if (BackendKind.ofName? value).isSome then .ok () else .error .rejected
  | .mode =>
    match Mode.read value with
    | .ok _ => .ok ()
    | .error fault => .error (.invalidMode value fault)
  | _ => .ok ()

/--
What arguments have said so far.

- `given`: the options with the values they were given
- `pending`: the last option when its value was an argument of its own or is still to come
- `operands`: the values without an option
- `literal`: whether two dashes alone were read, after which every argument is such a value
-/
structure Reading where
  given : List (ProgramOption × String)
  pending : Option (ProgramOption × Option String)
  operands : List String
  literal : Bool

namespace Reading

/-- Nothing has been said yet. -/
def start : Reading := ⟨[], none, [], false⟩

/-- An option is given once, and its value is checked then. -/
def give (option : ProgramOption) (value : String) (reading : Reading) :
    Except ArgumentsEnd Reading :=
  if (reading.given.lookup option).isSome then .error .rejected
  else (option.check value).map fun _ =>
    { reading with given := reading.given ++ [(option, value)] }

/-- The pending option is given its value, and it is a mistake to have none. -/
def settle (reading : Reading) : Except ArgumentsEnd Reading :=
  match reading.pending with
  | none => .ok reading
  | some (_, none) => .error .rejected
  | some (option, some value) => give option value { reading with pending := none }

/-- Whether the next argument is the value of an option. -/
def awaitsValue (reading : Reading) : Bool :=
  match reading.pending with
  | some (_, none) => true
  | _ => false

/-- An option is met, with the value attached to it if there is one; the
option before it is settled. -/
def meet (context : Context) (option : ProgramOption) (attached : Option String)
    (reading : Reading) : Except ArgumentsEnd Reading := do
  match option.valueName?, attached with
  | some _, some value => give option value (← reading.settle)
  | some _, none => return { (← reading.settle) with pending := some (option, none) }
  | none, some _ => throw .rejected
  | none, none =>
    let settled ← reading.settle
    match option with
    | .help => throw (.help context)
    | .version => throw .version
    | option => give option "" settled

/-- An option that is spelled out is cut from its value at the first equals sign. -/
def meetSpelled (context : Context) (text : List Char) (reading : Reading) :
    Except ArgumentsEnd Reading :=
  let name := String.ofList (text.takeWhile (· ≠ '='))
  match context.options.find? (·.name = name) with
  | none => .error .rejected
  | some option =>
    match text.dropWhile (· ≠ '=') with
    | [] => reading.meet context option none
    | _ :: value => reading.meet context option (some (String.ofList value))

/-- Letters stand for options in turn, and behind one that takes a value the rest is that value. -/
def meetLetters (context : Context) : List Char → Reading → Except ArgumentsEnd Reading
  | [], reading => .ok reading
  | letter :: rest, reading =>
    match context.options.find? (·.letter? = some letter) with
    | none => .error .rejected
    | some option =>
      if option.valueName?.isSome then
        match rest with
        | [] => reading.meet context option none
        | '=' :: value => reading.meet context option (some (String.ofList value))
        | value => reading.meet context option (some (String.ofList value))
      else
        match reading.meet context option none with
        | .error ending => .error ending
        | .ok reading => meetLetters context rest reading

/-- A value without an option is taken as long as the context has a place for it. -/
def takeOperand (context : Context) (value : String) (reading : Reading) :
    Except ArgumentsEnd Reading :=
  if reading.operands.length < context.operands.length then
    reading.settle.map fun settled => { settled with operands := settled.operands ++ [value] }
  else .error .rejected

/-- One argument is an option, the value of the option before it, or a value without an option. -/
def take (context : Context) (argument : String) (reading : Reading) :
    Except ArgumentsEnd Reading :=
  if reading.literal then reading.takeOperand context argument
  else if argument = "--" then .ok { reading with literal := true }
  else
    match argument.toList, reading.pending with
    | '-' :: '-' :: text, _ => reading.meetSpelled context text
    | '-' :: letter :: rest, _ => reading.meetLetters context (letter :: rest)
    | _, some (option, none) => .ok { reading with pending := some (option, some argument) }
    | _, _ => reading.takeOperand context argument

/-- Several arguments are read in turn, and the last option is settled at their end. -/
def takeAll (context : Context) : List String → Reading → Except ArgumentsEnd Reading
  | [], reading => reading.settle
  | argument :: rest, reading =>
    match reading.take context argument with
    | .error ending => .error ending
    | .ok reading => takeAll context rest reading

/-- The value that an option was given. -/
def value? (option : ProgramOption) (reading : Reading) : Option String :=
  reading.given.lookup option

/-- Whether an option was given. -/
def has (option : ProgramOption) (reading : Reading) : Bool := (reading.value? option).isSome

/-- The mode of the owner's full access stands when none is given. -/
def mode (reading : Reading) : Mode :=
  match (reading.value? .mode).map Mode.read with
  | some (.ok mode) => mode
  | _ => FileDestination.defaultMode

end Reading

/-- A command word and what stands behind it make a command, unless a value is missing. -/
def Command.ofReading (word : CommandWord) (reading : Reading) : Except ArgumentsEnd Command :=
  match word, reading.operands with
  | .get, [key] => .ok (.get key (reading.value? .default)
      (if reading.has .cachedFallback then .cached else .propagate))
  | .set, [key, raw] => .ok (.set key raw (if reading.has .noWrite then .never else .default))
  | .dump, [] => .ok .dump
  | .importObject, [raw] => .ok (.importObject raw)
  | .ping, [] => .ok .ping
  | .harden, [] => .ok (.harden reading.mode)
  | _, _ => .error .rejected

/-- What the options before a command word replace in the configuration. -/
structure Overrides where
  backend : Option BackendKind
  storageDir : Option String
  filename : Option String
  redisUrl : Option String

/-- The options before a command word. -/
def Overrides.ofReading (reading : Reading) : Overrides :=
  ⟨(reading.value? .backend).bind BackendKind.ofName?, reading.value? .directory,
    reading.value? .file, reading.value? .redisUrl⟩

/-- Every option that is given replaces what the configuration says. -/
def Overrides.apply (overrides : Overrides) (config : Config) : Config :=
  { config with
    backend := overrides.backend.getD config.backend
    storageDir := overrides.storageDir.getD config.storageDir
    filename := overrides.filename.getD config.filename
    redisUrl := overrides.redisUrl.getD config.redisUrl }

/-- An invocation of the program is a command and what it overrides. -/
structure Invocation where
  overrides : Overrides
  command : Command

namespace Invocation

/-- The word that asks for help about the program or about one of its commands. -/
def helpWord : String := "help"

/-- Help is asked for about the program, about the help itself, or about one command. -/
def helpAbout : List String → ArgumentsEnd
  | [] => .help none
  | [topic] =>
    match CommandWord.ofName? topic with
    | some word => .help (some word)
    | none => if topic = helpWord then .help none else .rejected
  | _ => .rejected

/-- What stands behind the command word is read before the last option in front of it is settled. -/
def ofCommandWord (reading : Reading) (word : CommandWord) (arguments : List String) :
    Except ArgumentsEnd Invocation := do
  let behind ← Reading.start.takeAll (some word) arguments
  let command ← Command.ofReading word behind
  let front ← reading.settle
  return ⟨.ofReading front, command⟩

/-- Arguments are options until a command word stands where no value is awaited. -/
def ofReading (reading : Reading) : List String → Except ArgumentsEnd Invocation
  | [] => reading.settle.bind fun _ => .error .rejected
  | argument :: rest =>
    if reading.literal || reading.awaitsValue then next reading argument rest
    else if argument = helpWord then .error (helpAbout rest)
    else
      match CommandWord.ofName? argument with
      | some word => ofCommandWord reading word rest
      | none => next reading argument rest
where
  /-- An argument that is no command word is read as an option. -/
  next (reading : Reading) (argument : String) (rest : List String) :
      Except ArgumentsEnd Invocation :=
    match reading.take none argument with
    | .error ending => .error ending
    | .ok reading => ofReading reading rest

/-- The arguments of the program, without its own name, are read from the first to the last. -/
def ofArguments (arguments : List String) : Except ArgumentsEnd Invocation :=
  ofReading .start arguments

end Invocation

end SyncStore
