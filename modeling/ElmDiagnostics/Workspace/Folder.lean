import ElmDiagnostics.Source.Uri
import ElmDiagnostics.Workspace.Interface

/-!
Contract: one folder of the workspace.

Owns: the trees of a folder's files, the interfaces of its modules, and how the two change
together.

Interfaces are kept by module name. A file whose tree is replaced or removed takes the
interface of its module name with it.
-/

set_option autoImplicit false

namespace ElmDiagnostics

/-- The trees and interfaces of one folder. `root` is kept as it was written. -/
structure Folder where
  root : String
  trees : Table Uri Module
  interfaces : Table String Interface

namespace Folder

/-- A folder without files. -/
def new (root : String) : Folder := ⟨root, ∅, ∅⟩

/-- The path of the folder. -/
def path (folder : Folder) : FilePath := .ofString folder.root

/-- Whether a path lies in the folder. -/
def contains (folder : Folder) (path : FilePath) : Bool := path.startsWith folder.path

/-- The tree of a file. -/
def tree? (folder : Folder) (uri : Uri) : Option Module := folder.trees.get? uri

/-- The interface of a module. -/
def interface? (folder : Folder) (moduleName : String) : Option Interface :=
  folder.interfaces.get? moduleName

/-- The files with a tree, in order. -/
def files (folder : Folder) : List Uri := folder.trees.keys

/-- The interfaces without that of the module a file holds. -/
def interfacesWithout (folder : Folder) (uri : Uri) : Table String Interface :=
  match folder.tree? uri with
  | some previous => folder.interfaces.erase previous.name
  | none => folder.interfaces

/-- Sets the tree of a file. -/
def insert (folder : Folder) (uri : Uri) (tree : Module) : Folder :=
  { folder with
    trees := folder.trees.insert uri tree
    interfaces := (folder.interfacesWithout uri).insert tree.name (.ofModule tree) }

/-- Forgets the tree of a file. -/
def remove (folder : Folder) (uri : Uri) : Folder :=
  { folder with
    trees := folder.trees.erase uri
    interfaces := folder.interfacesWithout uri }

/-- Registers a module that has no tree in the folder, such as one of a package. -/
def insertInterface (folder : Folder) (interface : Interface) : Folder :=
  { folder with interfaces := folder.interfaces.insert interface.name interface }

end Folder

end ElmDiagnostics
