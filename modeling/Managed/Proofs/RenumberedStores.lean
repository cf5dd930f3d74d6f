import Mathlib.Data.List.Nodup
import Managed.Proofs.LookupProgress

namespace Managed

namespace ModuleStore

variable {files : FileSystem} {start one two : ModuleStore} {asked asked' reached reached' : List Path}
  {added added' : List Module}

section

variable [Image.Parser] (first : Progress files start one asked reached added)
  (second : Progress files start two asked' reached' added')

include first second

variable (same : ∀ path, path ∈ reached ↔ path ∈ reached')

include same

end

end ModuleStore

end Managed
