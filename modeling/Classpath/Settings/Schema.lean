import Classpath.Settings.Basic
import Classpath.Settings.Decoder

/-!
# The schema of settings

Which keys the settings have and what may stand under them. All of them may be missing, except for
the kind of an input.

* `Classpath.Settings.decoder`, `Classpath.LogSettings.decoder` – the decoders.
* `Classpath.keyPathText` – the path of a key, as it is reported.
-/

namespace Classpath

open Decoder

/-- A path. -/
def Decoder.filePath : Decoder Path :=
  map Path.mk (textNamed "path string")

/-- The language. -/
def LanguageSettings.decoder : Decoder LanguageSettings :=
  record "LanguageConfig"
    [field "kind" (oneOf LanguageKind.label LanguageKind.all) fun s kind => { s with kind },
     field "version" (map UInt16.ofNat (natBelow UInt16.size "u16")) fun s version => { s with version },
     field "modules" bool fun s modules => { s with modules }]
    {}

/-- All source types. -/
def SourceType.all : List SourceType := [.application, .library, .phantom]

/-- An input whose kind may not be known yet. -/
structure InputDraft where
  kind : Option InputKind := none
  path : Option Path := none
  sourceType : Option SourceType := none

/-- The input of a draft. The kind must be known. -/
def InputDraft.finish (d : InputDraft) (missing : Mismatch) : Except Mismatch InputSettings :=
  match d.kind with
  | some kind => .ok { kind, path := d.path, sourceType := d.sourceType }
  | none => .error missing

/-- A draft of an input. -/
def InputDraft.decoder : Decoder InputDraft :=
  record "InputConfig"
    [field "kind" (oneOf InputKind.label InputKind.all) fun d kind => { d with kind },
     field "path" filePath fun d path => { d with path },
     field "source_type" (oneOf SourceType.label SourceType.all) fun d sourceType =>
       { d with sourceType }]
    {}

/-- An input. -/
def InputSettings.decoder : Decoder InputSettings := fun v => do
  let d ← InputDraft.decoder v
  let missing := match v with
    | .array _ => .malformed
    | _ => .missingField "kind"
  return ⟨← d.value.finish missing, d.unknown⟩

/-- The cache of a view. -/
def CacheSettings.decoder : Decoder CacheSettings :=
  record "CacheConfig"
    [field "policy" (oneOf PolicyKind.label PolicyKind.all) fun s policy => { s with policy },
     field "capacity" (natBelow UInt64.size "usize") fun s capacity => { s with capacity }]
    {}

/-- The log. -/
def LogSettings.decoder : Decoder LogSettings :=
  record "LoggingConfig"
    [field "level" (textNamed "a string") fun s level => { s with level },
     field "json" bool fun s json => { s with json },
     field "stderr" bool fun s stderr => { s with stderr },
     field "file" filePath fun s file => { s with file }]
    {}

/-- The settings of a project. -/
def Settings.decoder : Decoder Settings :=
  record "ProjectConfig"
    [field "language" LanguageSettings.decoder fun s language => { s with language },
     field "inputs" (list InputSettings.decoder) fun s inputs => { s with inputs },
     field "cache" CacheSettings.decoder fun s cache => { s with cache },
     field "logging" LogSettings.decoder fun s logging => { s with logging }]
    {}

/-! ### Paths of keys -/

/-- Whether a piece of a path is written as an index. -/
def isIndex (piece : List Char) : Bool :=
  !piece.isEmpty && piece.all Char.isDigit

/-- One more piece of a path. -/
def appendPiece (text piece : List Char) : List Char :=
  if isIndex piece then text ++ ['['] ++ piece ++ [']']
  else if text.isEmpty then piece
  else text ++ ['.'] ++ piece

/-- The path of a key as it is reported: `a.b[0].c`. A dot inside a key is no different from one
between keys, and leading dots are dropped. -/
def keyPathText (keys : List String) : String :=
  let joined := (".".intercalate keys).toList
  match (joined.dropWhile (· = '.')).splitOn '.' with
  | [] => ""
  | first :: rest => String.ofList (rest.foldl appendPiece first)

end Classpath
