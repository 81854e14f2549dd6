import SyncStore.CommandLine.Arguments

/-! The help lists the commands, their values and their options in aligned columns. -/

namespace SyncStore

/-- What the program is for. -/
def programSummary : String := "Key-value datastore mirrored to TOML, YAML or Redis"

/-- The line that names the program and its version. -/
def versionLine : String := "kvsync 0.0.0"

/-- What a command is for. -/
def CommandWord.summary : CommandWord → String
  | .get => "Print the value stored at a key"
  | .set => "Store a value; input that is not valid JSON is stored as a string"
  | .dump => "Print the whole datastore as JSON"
  | .importObject => "Merge a JSON object into the datastore"
  | .ping => "Check the Redis connection"
  | .harden => "Restrict permissions on the datastore file"

/-- What an option is for. -/
def ProgramOption.summary : ProgramOption → String
  | .backend => "Backend to use [env: KVSYNC_BACKEND] [possible values: toml, yaml, redis]"
  | .directory => "Directory holding the datastore file [env: KVSYNC_STORAGE_DIR]"
  | .file => "Datastore file name [env: KVSYNC_FILENAME]"
  | .redisUrl => "Redis connection URL [env: REDIS_URL]"
  | .default => "Value printed when the key is absent (JSON)"
  | .cachedFallback => "Serve the cached value if the backend read fails"
  | .noWrite => "Only update the in-memory copy"
  | .mode => "File mode in octal [default: 700]"
  | .help => "Print help"
  | .version => "Print version"

/-- An option is listed with its letter, its spelling and the name for its value. -/
def ProgramOption.usage (option : ProgramOption) : String :=
  let letter := match option.letter? with
    | some letter => "-" ++ letter.toString ++ ", "
    | none => "    "
  let value := match option.valueName? with
    | some name => " <" ++ name ++ ">"
    | none => ""
  letter ++ "--" ++ option.name ++ value

/-- A table puts its second column behind the longest entry of the first. -/
def table (title : String) (rows : List (String × String)) : List String :=
  let width := rows.foldl (fun width row => max width row.1.length) 0
  "" :: (title ++ ":") :: rows.map fun (first, second) =>
    "  " ++ first ++ String.ofList (List.replicate (width - first.length) ' ') ++ "  " ++ second

/-- The form of an invocation. -/
def Context.usage (context : Context) : String :=
  match context with
  | none => "Usage: kvsync [OPTIONS] <COMMAND>"
  | some word =>
    let options := if word.options.length < 2 then "" else " [OPTIONS]"
    let operands := word.operands.map fun name => " <" ++ name ++ ">"
    "Usage: kvsync " ++ word.name ++ options ++ String.join operands

/-- The commands, or the values behind one. -/
def Context.entries (context : Context) : List String :=
  match context with
  | none => table "Commands" (CommandWord.all.map (fun word => (word.name, word.summary)) ++
      [(Invocation.helpWord, "Print this message or the help of the given subcommand(s)")])
  | some word =>
    if word.operands.isEmpty then []
    else table "Arguments" (word.operands.map fun name => ("<" ++ name ++ ">", ""))

/-- The help about the program or about one of its commands. -/
def Context.help (context : Context) : String :=
  let summary := match context with
    | none => programSummary
    | some word => word.summary
  let lines := [summary, "", context.usage] ++ context.entries ++
    table "Options" (context.options.map fun option => (option.usage, option.summary))
  String.join (lines.map (· ++ "\n"))

end SyncStore
