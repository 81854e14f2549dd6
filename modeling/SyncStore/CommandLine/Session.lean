import SyncStore.CommandLine.Usage
import SyncStore.Store.Opening

/-! A session of the program reads its arguments and variables, and carries out one command. -/

namespace SyncStore

/-- Why a session fails. -/
inductive SessionError where
  | arguments (ending : ArgumentsEnd)
  | logging (error : SettingError)
  | loading (error : ConfigError)
  | config (error : ConfigError)
  | command (error : CommandError)

/-- What a session printed, and how it ended. -/
structure SessionReport where
  output : String
  ending : Except SessionError Unit

/-- The words for arguments that are refused. -/
def ArgumentsEnd.message : ArgumentsEnd → String
  | .invalidMode raw fault =>
    s!"invalid value '{raw}' for '--mode <MODE>': invalid octal mode '{raw}': {fault.message}"
  | _ => "the arguments do not make a command"

/-- Every line of a text after its first is indented like the first. -/
def indentLines (text : String) : String :=
  String.ofList ("    ".toList ++ text.toList.flatMap fun c =>
    if c = '\n' then "\n    ".toList else [c])

namespace SessionError

/-- The words for a failed session, and for what is behind them. -/
def words : SessionError → String × Option String
  | .arguments ending => (ending.message, none)
  | .logging error => (error.message, none)
  | .loading error => ("Failed to load configuration", some error.message)
  | .config error => (error.message, none)
  | .command error => (error.message, error.cause?)

/-- What a failed session tells; the cause stands apart from the failure. -/
def text (error : SessionError) : String :=
  match error, error.words with
  | .arguments _, (message, _) =>
    s!"error: {message}\n\nFor more information, try '--help'.\n"
  | _, (message, none) => s!"Error: {message}\n"
  | _, (message, some cause) => s!"Error: {message}\n\nCaused by:\n{indentLines cause}\n"

/-- Arguments that are refused have an exit code of their own. -/
def exitCode : SessionError → UInt8
  | .arguments _ => 2
  | _ => 1

end SessionError

namespace SessionReport

/-- The report of a session that failed before it printed anything. -/
def failed (error : SessionError) : SessionReport := ⟨"", .error error⟩

/-- A session ends as its command does. -/
def ofReport (report : Report) : SessionReport :=
  ⟨report.output, report.ending.mapError .command⟩

/-- A session that only reads its arguments prints what they ask for. -/
def ofArgumentsEnd : ArgumentsEnd → SessionReport
  | .help context => ⟨context.help, .ok ()⟩
  | .version => ⟨versionLine ++ "\n", .ok ()⟩
  | ending => failed (.arguments ending)

/-- The exit code of a session without failure is zero. -/
def exitCode (report : SessionReport) : UInt8 :=
  match report.ending with
  | .ok () => 0
  | .error error => error.exitCode

/-- What a session tells beside what it prints. -/
def errorText (report : SessionReport) : String :=
  match report.ending with
  | .ok () => ""
  | .error error => error.text

end SessionReport

namespace Invocation

/-- The variable for the form of the log is checked before the variables of the configuration. -/
def config (invocation : Invocation) (environment : Environment) : Except SessionError Config := do
  let _ ← (environment.getBool "KVSYNC_LOG_JSON" false).mapError .logging
  let loaded ← (Config.fromEnvironment environment).mapError .loading
  let config := invocation.overrides.apply loaded
  config.validate.mapError .config
  return config

/-- A command is carried out over the backend of the configuration, and the
outside is given as it is then. -/
def perform (config : Config) (command : Command) (outside : Outside) : Report × Outside :=
  match config.file? outside.home with
  | some file =>
    match command.onFile file (config.newFileDatastore file outside.tree).state with
    | (report, store) => (report, { outside with tree := store.outside })
  | none =>
    match config.openService outside.network outside.service with
    | .error error => (.failed (.store error), outside)
    | .ok (size, datastore) =>
      match command.onService Redis.client size datastore.state with
      | (report, store) => (report, { outside with service := store.outside })

/-- An invocation carries out its command once its configuration is valid. -/
def run (invocation : Invocation) (environment : Environment) (outside : Outside) :
    SessionReport × Outside :=
  match invocation.config environment with
  | .error error => (.failed error, outside)
  | .ok config =>
    match perform config invocation.command outside with
    | (report, outside) => (.ofReport report, outside)

end Invocation

/-- The file that a session works on, if its arguments and variables lead to one. -/
def Session.file? (environment : Environment) (arguments : List String) (home : Option String) :
    Option FileDestination :=
  match Invocation.ofArguments arguments with
  | .error _ => none
  | .ok invocation =>
    match invocation.config environment with
    | .error _ => none
    | .ok config => config.file? home

/-- A session looks at its arguments first, and at nothing else when they are refused. -/
def Session.run (environment : Environment) (arguments : List String) (outside : Outside) :
    SessionReport × Outside :=
  match Invocation.ofArguments arguments with
  | .error ending => (.ofArgumentsEnd ending, outside)
  | .ok invocation => invocation.run environment outside

end SyncStore
