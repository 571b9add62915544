import ElmDiagnostics.Failure
import ElmDiagnostics.Workspace.Folder

/-!
Contract: the folders of a session.

Owns: which folder a file belongs to, and the trees set through it.

A file belongs to the innermost folder that contains it. Folders with the same path are one
folder. A folder taken out of the workspaces is a value: later changes do not touch it.
-/

set_option autoImplicit false

namespace ElmDiagnostics

/-- The folders of a session, in the order they were added. -/
structure Workspaces where
  folders : List Folder

namespace Workspaces

/-- No folders. -/
def empty : Workspaces := ⟨[]⟩

/-- Adds a folder unless one with the same path is there. -/
def addFolder (workspaces : Workspaces) (root : String) : Workspaces :=
  if workspaces.folders.any fun folder => folder.path = .ofString root then workspaces
  else ⟨workspaces.folders ++ [.new root]⟩

/-- The number of components of a folder's path. -/
def depth (folder : Folder) : Nat := folder.path.components.length

/-- The deeper of two candidates; the later one of equals. -/
def deeper (best : Option (Folder × Nat)) (candidate : Folder × Nat) : Option (Folder × Nat) :=
  match best with
  | some current => if depth candidate.1 < depth current.1 then some current else some candidate
  | none => some candidate

/-- The innermost folder that contains a path, with its place in the list. -/
def innermost? (folders : List Folder) (path : FilePath) : Option (Folder × Nat) :=
  (folders.zipIdx.filter fun candidate => candidate.1.contains path).foldl deeper none

/-- The folder a file belongs to, with its place in the list. -/
def owner? (workspaces : Workspaces) (uri : Uri) : Option (Folder × Nat) :=
  uri.filePath?.bind (innermost? workspaces.folders)

/-- The folder a file belongs to. -/
def folderOf (workspaces : Workspaces) (uri : Uri) : Except Failure Folder :=
  match workspaces.owner? uri with
  | some (folder, _) => .ok folder
  | none => .error (.noWorkspace uri)

/-- Sets the tree of a file. -/
def setTree (workspaces : Workspaces) (uri : Uri) (tree : Module) : Except Failure Workspaces :=
  match workspaces.owner? uri with
  | some (folder, place) => .ok ⟨workspaces.folders.set place (folder.insert uri tree)⟩
  | none => .error (.noWorkspace uri)

/-- Forgets the tree of a file. -/
def removeTree (workspaces : Workspaces) (uri : Uri) : Workspaces :=
  match workspaces.owner? uri with
  | some (folder, place) => ⟨workspaces.folders.set place (folder.remove uri)⟩
  | none => workspaces

/-- Every file of every folder. -/
def trackedFiles (workspaces : Workspaces) : List Uri := workspaces.folders.flatMap Folder.files

end Workspaces

end ElmDiagnostics
