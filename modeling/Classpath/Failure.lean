import Classpath.Language
import Classpath.Path

/-!
# Failures

What can go wrong when a class is looked up, listed, loaded or asked for its supertypes. Not having
a class is no failure of a store; a failure says that the store could not be read or that what it
holds is no class.

* `Classpath.LocationError` – failures of a store.
* `Classpath.BuildError` – failures to make a class of what a store holds.
* `Classpath.ResolveError`, `Classpath.HierarchyError` – failures of a view and of its hierarchy.
* `Classpath.ProjectError` – what makes a project impossible.
-/

namespace Classpath

/-- Why a file cannot be used. -/
inductive FileFault where
  | notFound
  | notADirectory
  | isADirectory
  | tooManyLinks
  | nameTooLong
  /-- A path holds the character that ends paths. -/
  | nulInPath
  /-- The contents are not text. -/
  | invalidText
  /-- The contents end where more should follow. -/
  | endsEarly
  /-- The contents were made shorter and cannot be restored. -/
  | corrupt
  /-- The contents do not have the checksum that is kept with them. -/
  | badChecksum
  /-- An archive no longer has an entry. -/
  | entryDisappeared
  /-- A walk over a directory could not go on at a path. -/
  | walk (path : Path) (fault : FileFault)
  deriving DecidableEq, Repr

/-- The wording of a fault. -/
def FileFault.message : FileFault → String
  | notFound => "No such file or directory (os error 2)"
  | notADirectory => "Not a directory (os error 20)"
  | isADirectory => "Is a directory (os error 21)"
  | tooManyLinks => "Too many levels of symbolic links (os error 40)"
  | nameTooLong => "File name too long (os error 36)"
  | nulInPath => "file name contained an unexpected NUL byte"
  | invalidText => "stream did not contain valid UTF-8"
  | endsEarly => "failed to fill whole buffer"
  | corrupt => "corrupt deflate stream"
  | badChecksum => "Invalid checksum"
  | entryDisappeared => "archive entry disappeared"
  | walk path fault => "IO error for operation on " ++ path.text ++ ": " ++ fault.message

/-- A failure of a store. -/
inductive LocationError where
  | file (path : Path) (fault : FileFault)
  | archive (path : Path) (complaint : String)
  | noModules (path : Path)
  | noSystemModules
  deriving DecidableEq, Repr

/-- The wording of a failure. -/
def LocationError.message : LocationError → String
  | file path fault => "io error at " ++ path.text ++ ": " ++ fault.message
  | archive path complaint => "archive error in " ++ path.text ++ ": " ++ complaint
  | noModules path =>
    path.text ++ " is not a module filesystem (expected `modules/` or `jmods/`)"
  | noSystemModules => "no JDK installation found for the system module filesystem"

/-- A failure to make a class of what a store holds. -/
inductive BuildError where
  | file (origin : String) (fault : FileFault)
  /-- The contents are not what their format asks for. -/
  | malformed (origin complaint : String)
  /-- The class declares another name than it is stored under. -/
  | typeMismatch (origin expected found : String)
  /-- The contents cannot be parsed. -/
  | frontend (origin complaint : String)
  | location (error : LocationError)
  deriving DecidableEq, Repr

/-- The wording of a failure. -/
def BuildError.message : BuildError → String
  | file origin fault => "io error reading " ++ origin ++ ": " ++ fault.message
  | malformed origin complaint => "malformed class data in " ++ origin ++ ": " ++ complaint
  | typeMismatch origin expected found =>
    origin ++ " declares `" ++ found ++ "` but was located as `" ++ expected ++ "`"
  | frontend origin complaint => "frontend error in " ++ origin ++ ": " ++ complaint
  | location error => error.message

/-- A refusal of a cache. -/
inductive CacheError where
  /-- A definition is held for a type, and it is another one. -/
  | duplicateInsertion (type : ClassType)
  deriving DecidableEq, Repr

/-- The wording of a refusal. -/
def CacheError.message : CacheError → String
  | duplicateInsertion type =>
    "class `" ++ type.display ++ "` is already cached with a different definition"

/-- A failure of a view. -/
inductive ResolveError where
  /-- A class was found and could not be loaded. -/
  | build (type : ClassType) (error : BuildError)
  /-- A location could not say whether it has a class. -/
  | lookup (type : ClassType) (location : String) (error : LocationError)
  /-- A location could not list its classes. -/
  | scan (location : String) (error : LocationError)
  | cache (error : CacheError)
  deriving DecidableEq, Repr

/-- The wording of a failure. -/
def ResolveError.message : ResolveError → String
  | build type error => "failed to build `" ++ type.display ++ "`: " ++ error.message
  | lookup type location error =>
    "lookup of `" ++ type.display ++ "` in " ++ location ++ " failed: " ++ error.message
  | scan location error => "scanning " ++ location ++ " failed: " ++ error.message
  | cache error => error.message

/-- A failure of a query on the hierarchy. -/
inductive HierarchyError where
  | resolve (error : ResolveError)
  | unknownType (type : ClassType)
  /-- A class is among its own supertypes. -/
  | cycle (type : ClassType)
  deriving DecidableEq, Repr

/-- The wording of a failure. -/
def HierarchyError.message : HierarchyError → String
  | resolve error => error.message
  | unknownType type => "`" ++ type.display ++ "` cannot be resolved in this view"
  | cycle type => "inheritance cycle through `" ++ type.display ++ "`"

/-- What makes a project impossible. -/
inductive ProjectError where
  /-- A location is organised in modules and the language has none. -/
  | modulesUnsupported (location : String) (language : Language)
  deriving DecidableEq, Repr

/-- The wording of an impossibility. -/
def ProjectError.message : ProjectError → String
  | modulesUnsupported location language =>
    "module input location `" ++ location ++ "` requires a language version of at least "
      ++ toString Language.firstModularVersion.toNat ++ ", but the project targets "
      ++ language.display

end Classpath
