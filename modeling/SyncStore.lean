import SyncStore.Codec
import SyncStore.Settings.Config
import SyncStore.Store.Recorder
import SyncStore.Store.Datastore
import SyncStore.Remote.RemoteDestination
import SyncStore.Remote.Service
import SyncStore.Remote.Redis.Connection
import SyncStore.Toml.Conversion
import SyncStore.Toml.Printer
import SyncStore.Toml.Reader
import SyncStore.Files.FileFormat
import SyncStore.Yaml.Printer
import SyncStore.Yaml.Token
import SyncStore.Yaml.Node
import SyncStore.Yaml.Reader
import SyncStore.Files.FileDestination
import SyncStore.Store.Opening
import SyncStore.CommandLine.Arguments
import SyncStore.CommandLine.Session
import SyncStore.Main
import SyncStore.Proofs.OrderedMap
import SyncStore.Proofs.Remote.Texts
import SyncStore.Proofs.Remote.Service
import SyncStore.Proofs.Store.Coherence
import SyncStore.Proofs.Store.Run
import SyncStore.Proofs.Store.Restricted
import SyncStore.Proofs.Store.LastKnown
import SyncStore.Proofs.Store.Sharing
import SyncStore.Proofs.Store.Migration
import SyncStore.Proofs.Store.Event
import SyncStore.Proofs.Store.Sides
import SyncStore.Proofs.Store.Calls
import SyncStore.Proofs.Remote.Invariant
import SyncStore.Proofs.Remote.Listing
import SyncStore.Proofs.Decimal.Digits
import SyncStore.Proofs.Decimal.Integer
import SyncStore.Proofs.Json.Number
import SyncStore.Proofs.Json.Quoted
import SyncStore.Proofs.Json.RoundTrip
import SyncStore.Proofs.Json.NestingLimit
import SyncStore.Proofs.Codec
import SyncStore.Proofs.Reordering
import SyncStore.Proofs.Files.FileTree
import SyncStore.Proofs.Files.Directories
import SyncStore.Proofs.Toml.Reading
import SyncStore.Proofs.Remote.Batches
import SyncStore.Proofs.Toml.Quoted
import SyncStore.Proofs.Toml.Scalar
import SyncStore.Proofs.Toml.Document
import SyncStore.Proofs.Toml.Assembly
import SyncStore.Proofs.Toml.Inline
import SyncStore.Proofs.Toml.Statements
import SyncStore.Proofs.Toml.Conversion
import SyncStore.Proofs.Toml.RoundTrip
import SyncStore.Proofs.Toml.Representable
import SyncStore.Proofs.Remote.Merging
import SyncStore.Proofs.Files.FileFormat
import SyncStore.Proofs.Files.Reopening
import SyncStore.Proofs.Files.WholeWrites
import SyncStore.Proofs.Json.Indented
import SyncStore.Proofs.ReorderedData
import SyncStore.Proofs.Toml.Kept
import SyncStore.Proofs.Toml.DistinctKeys
import SyncStore.Proofs.Yaml.DistinctKeys
import SyncStore.Proofs.Yaml.Place
import SyncStore.Proofs.Yaml.Lexer
import SyncStore.Proofs.Yaml.Plain
import SyncStore.Proofs.Yaml.Quoted
import SyncStore.Proofs.Yaml.Literal
import SyncStore.Proofs.Yaml.Scalar
import SyncStore.Proofs.Yaml.Blocks
import SyncStore.Proofs.Yaml.Printed
import SyncStore.Proofs.Yaml.Nodes
import SyncStore.Proofs.Yaml.Resolution
import SyncStore.Proofs.Yaml.RoundTrip
import SyncStore.Proofs.Remote.Redis
import SyncStore.Proofs.Remote.Sides
import SyncStore.Proofs.Files.Kept
import SyncStore.Proofs.Files.Stored
import SyncStore.Proofs.Files.Path
import SyncStore.Proofs.Files.Reachable
import SyncStore.Proofs.Files.Enclosing
import SyncStore.Proofs.CommandLine.Answers
import SyncStore.Proofs.CommandLine.OnFile
import SyncStore.Proofs.CommandLine.OnService
import SyncStore.Proofs.CommandLine.PersistentMap
import SyncStore.Proofs.Settings.Config
import SyncStore.Proofs.Remote.Closing
import SyncStore.Proofs.CommandLine.Disconnecting
import SyncStore.Proofs.Toml.Rewriting
import SyncStore.Proofs.Settings.Setting
import SyncStore.Proofs.Store.OrderedLaws
import SyncStore.Proofs.Files.Naming
