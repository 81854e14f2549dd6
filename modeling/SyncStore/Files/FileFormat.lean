import SyncStore.Toml.Conversion
import SyncStore.Toml.Printer
import SyncStore.Toml.Reader
import SyncStore.Yaml.Printer
import SyncStore.Yaml.Reader

/-! A file format writes the whole data of a store as one text and reads it back. -/

namespace SyncStore

/--
A file format.

- `name`: the name of its destinations in failures
- `ending`: the extension of its files, without the point
-/
structure FileFormat where
  name : String
  ending : String
  write : Data → Except StoreError String
  read : String → Except StoreError Data

namespace FileFormat

/-- Text that is no TOML document is malformed. -/
def readToml (raw : String) : Except StoreError Data :=
  match Toml.read? raw with
  | none => .error (.serialization none .malformedText)
  | some document => Toml.toData document

/-- TOML files. -/
def toml : FileFormat where
  name := "toml file"
  ending := "toml"
  write data := (Toml.ofData data).map Toml.render
  read := readToml

/-- YAML files, which hold any data. -/
def yaml : FileFormat where
  name := "yaml file"
  ending := "yaml"
  write data := .ok (Yaml.render data)
  read := Yaml.read

end FileFormat

end SyncStore
