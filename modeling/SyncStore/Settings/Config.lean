import SyncStore.Settings.Environment
import SyncStore.Settings.Setting

/-! The configuration of a datastore comes from seven environment variables. -/

namespace SyncStore

/-- The kinds of backend that a datastore can have. -/
inductive BackendKind where
  | toml
  | yaml
  | redis
  deriving DecidableEq

namespace BackendKind

/-- The name of a kind. -/
def name : BackendKind → String
  | .toml => "toml"
  | .yaml => "yaml"
  | .redis => "redis"

/-- A kind is read from its name in any case, and blanks around it are ignored. -/
def read (raw : String) : Except String BackendKind :=
  let word := String.ofList (lowerCase (trimBlanks raw.toList))
  if word = "toml" then .ok .toml
  else if word = "yaml" ∨ word = "yml" then .ok .yaml
  else if word = "redis" then .ok .redis
  else .error word

end BackendKind

/-- Why a configuration is refused. -/
inductive ConfigError where
  | setting (error : SettingError)
  | unknownBackend (word : String)
  | backendDisabled (name : String)

/-- The words for a refused configuration. -/
def ConfigError.message : ConfigError → String
  | .setting error => error.message
  | .unknownBackend word => s!"Unknown backend '{word}', expected one of: toml, yaml, redis"
  | .backendDisabled name => s!"Backend '{name}' is not enabled in this build"

/-- A configuration names a backend and everything any backend needs. -/
structure Config where
  backend : BackendKind
  storageDir : String
  filename : String
  version : UInt32
  writeOnUpdate : Bool
  batchSize : UInt64
  redisUrl : String

namespace Config

/-- The configuration when no variable is set. -/
def default : Config :=
  ⟨.toml, "~/.config/kvsync", "datastore", 1, true, 1000, "redis://localhost:6379"⟩

/-- A variable whose integer lies outside a range is refused like one that is no integer. -/
def getIntIn (environment : Environment) (range : IntegerRange) (key : String) (default : Int) :
    Except SettingError Int :=
  match environment.getInt key default with
  | .error error => .error error
  | .ok n => (range.check n).mapError fun fault => .variable key (.notInteger fault)

/-- The first variable that is refused decides the error. -/
def fromEnvironment (environment : Environment) : Except ConfigError Config := do
  let version ← (getIntIn environment .unsigned32 "KVSYNC_CONFIG_VERSION" 1).mapError .setting
  let batchSize ← (getIntIn environment .unsigned64 "KVSYNC_BATCH_SIZE" 1000).mapError .setting
  let backend ← (environment.getStr "KVSYNC_BACKEND" "toml").mapError .setting
  let backend ← (BackendKind.read backend).mapError .unknownBackend
  let storageDir ←
    (environment.getStr "KVSYNC_STORAGE_DIR" default.storageDir).mapError .setting
  let filename ← (environment.getStr "KVSYNC_FILENAME" default.filename).mapError .setting
  let writeOnUpdate ← (environment.getBool "KVSYNC_WRITE_ON_UPDATE" true).mapError .setting
  let redisUrl ← (environment.getStr "REDIS_URL" default.redisUrl).mapError .setting
  return ⟨backend, storageDir, filename, .ofNat version.toNat, writeOnUpdate,
    .ofNat batchSize.toNat, redisUrl⟩

/-- The settings that are checked, in the order of their checks; a batch size
is read as a signed word. -/
def settings (config : Config) : List (String × SettingValue × SettingType × Validator) :=
  [("KVSYNC_BATCH_SIZE", .int config.batchSize.toInt64.toInt, .int, .numberNatural),
    ("KVSYNC_FILENAME", .str config.filename, .str, .stringNonEmpty),
    ("KVSYNC_STORAGE_DIR", .str config.storageDir, .str, .stringNonEmpty),
    ("REDIS_URL", .str config.redisUrl, .str, .stringNonEmpty)]

/-- A configuration is valid when each of its settings is. -/
def validate (config : Config) : Except ConfigError Unit :=
  config.settings.forM fun (name, value, type, validator) =>
    ((Setting.new name value type).bind fun setting =>
      (setting.addValidator validator).validate).mapError .setting

end Config

end SyncStore
