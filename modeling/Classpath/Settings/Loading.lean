import Classpath.Settings.Schema
import Classpath.Store.World
import Classpath.Failure
import Classpath.Toml.Document
import Classpath.Utf8

/-!
# Loading settings

Settings are written in TOML. They are loaded from a text, or from a file, whose directory is then the
base of relative paths.

* `Classpath.Settings.parse` – the settings that a text writes, and its keys without a meaning.
* `Classpath.Settings.load` – the settings in a file.
* `Classpath.SettingsError` – why settings cannot be used.
-/

namespace Classpath

/-- Why settings cannot be used. -/
inductive SettingsError where
  /-- The file cannot be read. -/
  | file (path : Path) (fault : FileFault)
  /-- The text is no TOML. -/
  | notToml
  /-- A value is not what its key asks for. -/
  | mismatch (fault : Mismatch)
  /-- The value at a place cannot be used. -/
  | invalid (place complaint : String)
  /-- The input at a place cannot be opened. -/
  | location (place : String) (error : LocationError)
  | project (error : ProjectError)
  deriving Repr

/-- The wording of an error. -/
def SettingsError.message : SettingsError → String
  | file path fault => "failed to read config file " ++ path.text ++ ": " ++ fault.message
  | notToml => "failed to parse toml config"
  | mismatch fault => "failed to parse toml config: " ++ fault.message
  | invalid place complaint => "invalid value for " ++ backQuoted place ++ ": " ++ complaint
  | location place error => "failed to open input " ++ backQuoted place ++ ": " ++ error.message
  | project error => error.message

/-- What a decoder takes a document for. -/
def Decoder.ofDocument {α : Type} (d : Decoder α) (text : String) :
    Except SettingsError (Decoded α) :=
  match Toml.parse? text with
  | none => .error .notToml
  | some table => (d (.table table)).mapError .mismatch

/-- Equal texts that follow each other, once each. -/
def dropRepeats : List String → List String
  | a :: b :: rest => if a = b then dropRepeats (b :: rest) else a :: dropRepeats (b :: rest)
  | short => short

namespace Settings

/-- The settings that a text writes, and the paths of the keys in it that mean nothing, in order and
each once. -/
def parse (text : String) : Except SettingsError (Settings × List String) := do
  let s ← decoder.ofDocument text
  let paths := (s.unknown.map keyPathText).mergeSort fun a b => (Ord.compare a b).isLE
  return (s.value, dropRepeats paths)

/-- The text in a file. -/
def readText (files : FileTree) (path : Path) : Except FileFault String := do
  let contents ← files.read path
  (Utf8.decode contents.bytes).mapError fun _ => .invalidText

/-- The settings in a file. -/
def load (files : FileTree) (path : Path) : Except SettingsError Settings := do
  let text ← (readText files path).mapError (.file path)
  let (s, _) ← parse text
  return { s with base := path.parent? }

end Settings

end Classpath
