import Managed.Bytes
import Managed.Fault
import Managed.FileSystem.Path

namespace Managed

/-- What may be asked of the files at one moment. -/
structure FileSystem where
  /-- The path that names a file or directory without links or idle segments. -/
  canonicalize : Path → Except FileError Path
  read : Path → Except FileError Bytes
  isFile : Path → Bool

def FileSystem.IsIdempotent (files : FileSystem) : Prop :=
  ∀ path canonical, files.canonicalize path = .ok canonical →
    files.canonicalize canonical = .ok canonical

end Managed
