import Managed.Image.Headers
import Managed.Proofs.CatalogRuns
import Managed.Proofs.PreloadRuns
import Managed.Proofs.RegisteredNames
import Managed.Proofs.RenumberedStores

namespace Managed

namespace ModuleStore

section

variable [Image.Parser] {files : FileSystem} {listed : String → List Path}
  {start one two : ModuleStore} {names names' : List String}
  {failed failed' : List (String × Error)}
  (first : Preloaded files listed (lookupTrail files listed start) start.keeps start names
    (failed, one))
  (something : ∀ name ∈ names, listed name ≠ [])
  (distinct : (names.map fun name => (SimpleName.ofText name).key).Nodup)

include first

variable
  (second : Preloaded files listed (lookupTrail files listed start) start.keeps start names'
    (failed', two))
  (perm : names.Perm names')

include second perm

include something distinct

end

open scoped Image.Container

end ModuleStore

end Managed
