import Managed.Fault
import Managed.FileSystem.Path
import Managed.Identity.Request

namespace Managed

inductive Error where
  | load (path : Path) (source : Fault)
  | nameMismatch (path : Path) (expected actual : String)
  | notFound (request : Request)
  | incompatible (request : Request) (found : Identity)
  | ambiguous (request : Request) (candidates : List Path)
deriving DecidableEq, Repr

def Error.loadText (path : Path) : String := s!"Failed to load module '{path}' - "

def Error.message : Error → String
  | load path source => loadText path ++ source.message
  | nameMismatch path expected actual =>
    s!"Assembly name '{actual}' does not match expected name '{expected}' ({path})"
  | notFound request => s!"Assembly not found - {request.display}"
  | incompatible request found =>
    s!"Non-matching assembly found - requested '{request.display}', found '{found.display}'"
  | ambiguous request candidates =>
    s!"Ambiguous assembly reference '{request.display}' - {candidates.length} compatible candidates"

end Managed
