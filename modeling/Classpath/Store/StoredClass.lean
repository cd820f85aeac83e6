import Classpath.Location
import Classpath.Store.World

/-!
# Stored classes

Where the contents of a stored class are: in a file or in an entry of an archive. Nothing is read
until the class is built.

* `Classpath.StoredClass.read` – the contents.
* `Classpath.StoredClass.source` – the class as a source that a frontend builds.
-/

namespace Classpath

/-- Where the contents of a class are. -/
inductive StoredClass where
  | file (path : Path)
  | entry (archive : Archive) (name : String)
  deriving DecidableEq, Repr

namespace StoredClass

/-- The origin of the class, by which it is shown. -/
def origin : StoredClass → String
  | file path => path.text
  | entry archive name => archive.path.text ++ "!/" ++ name

/-- The contents of the class. -/
def read (c : StoredClass) (w : World) : Except BuildError Bytes × World :=
  match c with
  | file path => ((w.files.read path).map Contents.bytes |>.mapError (.file c.origin), w)
  | entry archive name =>
    match archive.read name w with
    | (.ok (some bytes), w) => (.ok bytes, w)
    | (.ok none, w) => (.error (.file c.origin .entryDisappeared), w)
    | (.error e, w) => (.error (.location e), w)

/-- The source of a class that a frontend builds. -/
def source (frontend : Frontend) (sourceType : SourceType) (type : ClassType) (c : StoredClass) :
    Source World where
  type
  origin := c.origin
  sourceType
  load ctx w :=
    let (contents, w) := c.read w
    (contents.bind fun bytes => frontend.build type bytes c.origin ctx, w)

end StoredClass

end Classpath
