import ElmDiagnostics.Proofs.Chronicle
import ElmDiagnostics.Proofs.Workspace.Ownership
import Mathlib.Data.List.Nodup

/-!
Contract: tracked files, while folders and trees come in any order.

Owns: runs of operations on workspaces; when an added folder takes a file over; that a file which no
folder takes over is tracked once, with its latest tree, until the tree is removed; and that a file
which was taken over stays tracked for good.

Does not own: which of several folders that contain a file is the innermost.

The folder of a file is looked up anew with each operation, and a tree stays where it was set. A
folder that is added inside another one gets the files below it, but not their trees.
-/

set_option autoImplicit false

namespace ElmDiagnostics.Workspaces

/-- What can be done to workspaces. -/
inductive Operation where
  | addFolder (root : String)
  | setTree (uri : Uri) (tree : Module)
  | removeTree (uri : Uri)

/-- Carries out an operation. Setting the tree of a file outside every folder changes nothing. -/
def perform (workspaces : Workspaces) : Operation → Workspaces
  | .addFolder root => workspaces.addFolder root
  | .setTree uri tree =>
      match workspaces.setTree uri tree with
      | .ok later => later
      | .error _ => workspaces
  | .removeTree uri => workspaces.removeTree uri

def performAll (workspaces : Workspaces) (operations : List Operation) : Workspaces :=
  operations.foldl perform workspaces

theorem performAll_concat (workspaces : Workspaces) (operations : List Operation)
    (operation : Operation) :
    workspaces.performAll (operations ++ [operation]) =
      (workspaces.performAll operations).perform operation := by
  unfold performAll
  rw [List.foldl_append]
  rfl

/-- The operation adds a folder, and a tracked file belongs to another folder from then on. -/
def TakesOver (workspaces : Workspaces) (uri : Uri) (operation : Operation) : Prop :=
  ∃ root, operation = .addFolder root ∧ uri ∈ workspaces.trackedFiles ∧
    (workspaces.addFolder root).ownerPath? uri ≠ workspaces.ownerPath? uri

/-- No folder that is added in the run takes the file over. -/
def Undisturbed (operations : List Operation) (uri : Uri) : Prop :=
  AtEach (fun before operation => ¬ (empty.performAll before).TakesOver uri operation) operations

/-- The tree was set for the file, with success, and no other has been set since. -/
def LastSet (operations : List Operation) (uri : Uri) (tree : Module) : Prop :=
  ∃ before since, operations = before ++ .setTree uri tree :: since ∧
    (∃ later, (empty.performAll before).setTree uri tree = .ok later) ∧
    ∀ other, .setTree uri other ∉ since

/-! ### Where trees are kept after an operation -/

theorem keepsAt_append_new_iff (workspaces : Workspaces) (root : String) (uri : Uri) (place : Nat) :
    (Workspaces.mk (workspaces.folders ++ [.new root])).KeepsAt uri place ↔
      workspaces.KeepsAt uri place := by
  unfold KeepsAt
  constructor
  · rintro ⟨folder, atPlace, hasTree⟩
    rw [List.getElem?_append] at atPlace
    split at atPlace
    next => exact ⟨folder, atPlace, hasTree⟩
    next =>
      -- The new folder is empty.
      obtain rfl := List.mem_singleton.mp (List.mem_of_getElem? atPlace)
      exact absurd hasTree (by simp [Folder.new, Folder.tree?])
  · rintro ⟨folder, atPlace, hasTree⟩
    refine ⟨folder, ?_, hasTree⟩
    rw [List.getElem?_append_left (List.getElem?_eq_some_iff.mp atPlace).1]
    exact atPlace

theorem homedAt_addFolder_iff (workspaces : Workspaces) (root : String) (uri : Uri) :
    (workspaces.addFolder root).HomedAt uri ↔
      workspaces.HomedAt uri ∧ ¬ workspaces.TakesOver uri (.addFolder root) := by
  have takesOver_iff : workspaces.TakesOver uri (.addFolder root) ↔ uri ∈ workspaces.trackedFiles ∧
      (workspaces.addFolder root).ownerPath? uri ≠ workspaces.ownerPath? uri := by
    simp [TakesOver]
  rw [takesOver_iff]
  rcases workspaces.addFolder_cases root with same | ⟨isNew, added⟩
  · simp [same]
  · rw [added, ownerPath?, ownerPath?]
    rcases workspaces.owner?_append_new root uri with sameOwner | newOwner
    · simp [HomedAt, keepsAt_append_new_iff, ownerPlace?, sameOwner]
    · by_cases tracked : uri ∈ workspaces.trackedFiles
      · obtain ⟨place, keeps⟩ := (workspaces.mem_trackedFiles_iff uri).mp tracked
        have awayFromHome : ¬ HomedAt ⟨workspaces.folders ++ [.new root]⟩ uri := by
          intro homed
          have atPlace := homed place ((workspaces.keepsAt_append_new_iff root uri place).mpr keeps)
          obtain ⟨folder, isFolder, _⟩ := keeps
          have below := (List.getElem?_eq_some_iff.mp isFolder).1
          simp only [ownerPlace?, newOwner, Option.map_some, Option.some.injEq] at atPlace
          omega
        have otherPath : some (Folder.new root).path ≠
            (workspaces.owner? uri).map fun owner => owner.1.path := by
          intro samePath
          obtain ⟨owner, owned, itsPath⟩ := Option.map_eq_some_iff.mp samePath.symm
          exact isNew owner.1 (List.mem_of_getElem? (getElem?_of_owner? owned)) itsPath
        simp [awayFromHome, tracked, newOwner, otherPath]
      · have keptNowhere (place : Nat) : ¬ workspaces.KeepsAt uri place := by
          intro keeps
          exact tracked ((workspaces.mem_trackedFiles_iff uri).mpr ⟨place, keeps⟩)
        simp [HomedAt, keepsAt_append_new_iff, keptNowhere, tracked]

/-- A file is at home after an operation if it was so before and the operation does not take it
over. Nothing brings a file home again. -/
theorem homedAt_perform_iff (workspaces : Workspaces) (operation : Operation) (uri : Uri) :
    (workspaces.perform operation).HomedAt uri ↔
      workspaces.HomedAt uri ∧ ¬ workspaces.TakesOver uri operation := by
  cases operation with
  | addFolder root => exact homedAt_addFolder_iff workspaces root uri
  | setTree changed tree =>
      simp only [perform, TakesOver, reduceCtorEq, false_and, exists_false, not_false_iff, and_true]
      split
      next later succeeds => exact homedAt_setTree_iff succeeds uri
      next => rfl
  | removeTree changed =>
      simp only [perform, TakesOver, reduceCtorEq, false_and, exists_false, not_false_iff, and_true]
      exact homedAt_removeTree_iff workspaces changed uri

/-- A change to the folder of a file cannot make another file tracked. -/
theorem owned_modify {workspaces : Workspaces} {uri changed : Uri}
    (owned : uri ∈ workspaces.trackedFiles → (workspaces.owner? uri).isSome)
    {change : Folder → Folder} {owner : Folder} {place : Nat}
    (isOwner : workspaces.owner? changed = some (owner, place))
    (keepsRoot : ∀ folder, (change folder).root = folder.root)
    (keepsOthers : uri ≠ changed → ∀ folder, (change folder).tree? uri = folder.tree? uri)
    (tracked : uri ∈ trackedFiles ⟨workspaces.folders.modify place change⟩) :
    (owner? ⟨workspaces.folders.modify place change⟩ uri).isSome := by
  rw [owner?_modify keepsRoot, Option.isSome_map]
  by_cases isChanged : uri = changed
  · rw [isChanged, isOwner]
    rfl
  · apply owned
    obtain ⟨other, keeps⟩ := (mem_trackedFiles_iff _ _).mp tracked
    refine (mem_trackedFiles_iff _ _).mpr ⟨other, ?_⟩
    refine (keepsAt_modify_iff workspaces ?_).mp keeps
    intro _ folder
    rw [keepsOthers isChanged]

/-- If a tracked file belongs to some folder, so does one that is tracked after an operation. -/
theorem owned_perform {workspaces : Workspaces} {uri : Uri}
    (owned : uri ∈ workspaces.trackedFiles → (workspaces.owner? uri).isSome) (operation : Operation)
    (tracked : uri ∈ (workspaces.perform operation).trackedFiles) :
    ((workspaces.perform operation).owner? uri).isSome := by
  cases operation with
  | addFolder root =>
      have wasOwned := owned (workspaces.trackedFiles_addFolder root ▸ tracked)
      show ((workspaces.addFolder root).owner? uri).isSome
      rcases workspaces.addFolder_cases root with same | ⟨_, added⟩
      · rw [same]
        exact wasOwned
      · rw [added]
        rcases workspaces.owner?_append_new root uri with sameOwner | newOwner
        · rw [sameOwner]
          exact wasOwned
        · rw [newOwner]
          rfl
  | setTree changed tree =>
      simp only [perform] at tracked ⊢
      split at tracked
      next later succeeds =>
        obtain ⟨folder, place, isOwner, rfl⟩ := setTree_eq_ok succeeds
        apply owned_modify owned isOwner (Folder.root_insert changed tree) _ tracked
        intro isOther folder
        rw [Folder.tree?_insert, if_neg isOther]
      next => exact owned tracked
  | removeTree changed =>
      simp only [perform] at tracked ⊢
      cases isOwner : workspaces.owner? changed with
      | none =>
          rw [removeTree_of_unowned isOwner] at tracked ⊢
          exact owned tracked
      | some owner =>
          rw [removeTree_eq isOwner] at tracked ⊢
          apply owned_modify owned isOwner (Folder.root_remove changed) _ tracked
          intro isOther folder
          rw [Folder.tree?_remove, if_neg isOther]

theorem LastSet.concat {operations : List Operation} {uri : Uri} {tree : Module}
    (lastSet : LastSet operations uri tree) {operation : Operation}
    (setsNone : ∀ other, operation ≠ .setTree uri other) :
    LastSet (operations ++ [operation]) uri tree := by
  obtain ⟨before, since, rfl, succeeds, notSince⟩ := lastSet
  refine ⟨before, since ++ [operation], by simp, succeeds, ?_⟩
  intro other isSince
  rcases List.mem_append.mp isSince with isEarlier | isLast
  · exact notSince other isEarlier
  · exact setsNone other (List.mem_singleton.mp isLast).symm

/-! ### Whole runs -/

theorem homedAt_performAll_iff (operations : List Operation) (uri : Uri) :
    (empty.performAll operations).HomedAt uri ↔ Undisturbed operations uri := by
  induction operations using List.reverseRecOn with
  | nil =>
      refine iff_of_true ?_ (atEach_nil _)
      rintro place ⟨folder, atPlace, _⟩
      exact absurd atPlace (by simp [performAll, empty])
  | append_singleton operations last inductionHypothesis =>
      rw [performAll_concat, homedAt_perform_iff, inductionHypothesis, Undisturbed, Undisturbed,
        atEach_concat_iff]

theorem owned_of_tracked (operations : List Operation) (uri : Uri) :
    uri ∈ (empty.performAll operations).trackedFiles →
      ((empty.performAll operations).owner? uri).isSome := by
  induction operations using List.reverseRecOn with
  | nil => exact fun tracked => absurd tracked (by simp [performAll, empty, trackedFiles])
  | append_singleton operations last inductionHypothesis =>
      rw [performAll_concat]
      exact owned_perform inductionHypothesis last

theorem tree?_empty (uri : Uri) : empty.tree? uri = none := by
  unfold tree? owner?
  cases uri.filePath? with
  | none => rfl
  | some path => rfl

/-- A tree that a file has in its own folder is the last one that was set for it. -/
theorem lastSet_of_tree? {operations : List Operation} {uri : Uri} {tree : Module}
    (hasTree : (empty.performAll operations).tree? uri = some tree) :
    LastSet operations uri tree := by
  induction operations using List.reverseRecOn with
  | nil => exact absurd (hasTree.symm.trans (tree?_empty uri)) (by simp)
  | append_singleton operations last inductionHypothesis =>
      rw [performAll_concat] at hasTree
      cases last with
      | addFolder root =>
          refine (inductionHypothesis ?_).concat (by simp)
          rcases (empty.performAll operations).tree?_addFolder root uri with same | hidden
          · exact same.symm.trans hasTree
          · exact absurd (hidden.symm.trans hasTree) (by simp)
      | removeTree changed =>
          simp only [perform, tree?_removeTree] at hasTree
          split at hasTree
          next => exact absurd hasTree (by simp)
          next => exact (inductionHypothesis hasTree).concat (by simp)
      | setTree changed latest =>
          simp only [perform] at hasTree
          split at hasTree
          next later succeeds =>
            rw [tree?_setTree succeeds] at hasTree
            split at hasTree
            next isChanged =>
              obtain rfl := Option.some.inj hasTree
              subst isChanged
              exact ⟨operations, [], rfl, ⟨later, succeeds⟩, by simp⟩
            next isOther =>
              refine (inductionHypothesis hasTree).concat ?_
              rintro other same
              cases same
              exact isOther rfl
          next failure fails =>
            refine (inductionHypothesis hasTree).concat ?_
            rintro other same
            cases same
            -- A file with a tree belongs to a folder, so setting its tree cannot fail.
            obtain ⟨owner, owned, _⟩ := Option.bind_eq_some_iff.mp hasTree
            exact absurd fails (by simp [setTree, owned])

/-! ### Tracked once -/

theorem count_files_eq_zero {folders : List Folder} {uri : Uri}
    (keptNowhere : ∀ folder ∈ folders, (folder.tree? uri).isSome = false) :
    (folders.flatMap Folder.files).count uri = 0 := by
  apply List.count_eq_zero.mpr
  intro isFile
  obtain ⟨folder, isFolder, isItsFile⟩ := List.mem_flatMap.mp isFile
  have isKept := (folder.mem_files_iff uri).mp isItsFile
  exact absurd isKept (by simp [keptNowhere folder isFolder])

theorem HomedAt.count_trackedFiles {workspaces : Workspaces} {uri : Uri}
    (homed : workspaces.HomedAt uri) (tracked : uri ∈ workspaces.trackedFiles) :
    workspaces.trackedFiles.count uri = 1 := by
  obtain ⟨place, keeps⟩ := (workspaces.mem_trackedFiles_iff uri).mp tracked
  have isHome := homed place keeps
  obtain ⟨folder, atPlace, hasTree⟩ := keeps
  obtain ⟨below, isFolder⟩ := List.getElem?_eq_some_iff.mp atPlace
  have elsewhere (index : Nat) (indexBelow : index < workspaces.folders.length)
      (different : index ≠ place) : (workspaces.folders[index].tree? uri).isSome = false := by
    rw [Bool.eq_false_iff]
    intro alsoKept
    have alsoHome := homed index ⟨_, List.getElem?_eq_getElem indexBelow, alsoKept⟩
    exact different (Option.some.inj (alsoHome.symm.trans isHome))
  have before : ((workspaces.folders.take place).flatMap Folder.files).count uri = 0 := by
    apply count_files_eq_zero
    intro other isOther
    obtain ⟨index, indexBelow, rfl⟩ := List.mem_take_iff_getElem.mp isOther
    exact elsewhere index (by omega) (by omega)
  have behind : ((workspaces.folders.drop (place + 1)).flatMap Folder.files).count uri = 0 := by
    apply count_files_eq_zero
    intro other isOther
    obtain ⟨index, indexBelow, rfl⟩ := List.mem_drop_iff_getElem.mp isOther
    exact elsewhere (place + 1 + index) (by omega) (by omega)
  have atHome : folder.files.count uri = 1 :=
    List.count_eq_one_of_mem folder.trees.keys_nodup ((folder.mem_files_iff uri).mpr hasTree)
  have parts : workspaces.folders =
      workspaces.folders.take place ++ folder :: workspaces.folders.drop (place + 1) := by
    rw [← isFolder, List.getElem_cons_drop, List.take_append_drop]
  unfold trackedFiles
  rw [parts, List.flatMap_append, List.flatMap_cons, List.count_append, List.count_append, before,
    atHome, behind]

theorem not_mem_trackedFiles_removeTree_iff (workspaces : Workspaces) (uri : Uri) :
    uri ∉ (workspaces.removeTree uri).trackedFiles ↔ workspaces.HomedAt uri := by
  constructor
  · intro untracked
    rw [← homedAt_removeTree_iff workspaces uri]
    intro place keeps
    exact absurd ((mem_trackedFiles_iff _ _).mpr ⟨place, keeps⟩) untracked
  · intro homed
    have stillHomed := (homedAt_removeTree_iff workspaces uri uri).mpr homed
    rw [stillHomed.mem_trackedFiles_iff, tree?_removeTree, if_pos rfl]
    simp

/-- Every tracked file belongs to a folder, and a tree that it has there is the last one that was
set for it. A file that no added folder took over is tracked once and has that tree. Removing the
tree of a file ends its tracking exactly if no added folder took it over. -/
theorem tracked_files_resolve_unless_taken_over (operations : List Operation) (uri : Uri) :
    let reached := empty.performAll operations
    (uri ∈ reached.trackedFiles → ∃ folder, reached.folderOf uri = .ok folder ∧
      ∀ tree, folder.tree? uri = some tree → LastSet operations uri tree) ∧
    (Undisturbed operations uri → uri ∈ reached.trackedFiles →
      reached.trackedFiles.count uri = 1 ∧
      ∃ folder tree, reached.folderOf uri = .ok folder ∧ folder.tree? uri = some tree ∧
        LastSet operations uri tree) ∧
    (uri ∉ (reached.removeTree uri).trackedFiles ↔ Undisturbed operations uri) := by
  intro reached
  have resolves (tracked : uri ∈ reached.trackedFiles) :
      ∃ folder, reached.folderOf uri = .ok folder ∧ reached.tree? uri = folder.tree? uri := by
    obtain ⟨owner, owned⟩ := Option.isSome_iff_exists.mp (owned_of_tracked operations uri tracked)
    refine ⟨owner.1, (reached.folderOf_eq_ok_iff uri owner.1).mpr ⟨owner.2, owned⟩, ?_⟩
    rw [tree?, owned]
    rfl
  refine ⟨?_, ?_, ?_⟩
  · intro tracked
    obtain ⟨folder, isFolder, sameTree⟩ := resolves tracked
    exact ⟨folder, isFolder, fun tree isTree => lastSet_of_tree? (sameTree.trans isTree)⟩
  · intro undisturbed tracked
    have homed := (homedAt_performAll_iff operations uri).mpr undisturbed
    obtain ⟨folder, isFolder, sameTree⟩ := resolves tracked
    obtain ⟨tree, isTree⟩ := Option.isSome_iff_exists.mp (homed.mem_trackedFiles_iff.mp tracked)
    exact ⟨homed.count_trackedFiles tracked, folder, tree, isFolder, sameTree.symm.trans isTree,
      lastSet_of_tree? isTree⟩
  · rw [not_mem_trackedFiles_removeTree_iff, homedAt_performAll_iff]

/-! ### A folder inside another one -/

def nestedFile : Uri := ⟨"file:///project/app/Main.elm"⟩

def emptyModule : Module := ⟨none, [], [], default⟩

def innerFirst : List Operation :=
  [.addFolder "/project", .addFolder "/project/app", .setTree nestedFile emptyModule]

theorem inner_folder_first_resolves :
    let reached := empty.performAll innerFirst
    Undisturbed innerFirst nestedFile ∧ nestedFile ∈ reached.trackedFiles ∧
      reached.trackedFiles.count nestedFile = 1 ∧
      (∃ folder tree, reached.folderOf nestedFile = .ok folder ∧
        folder.tree? nestedFile = some tree ∧ LastSet innerFirst nestedFile tree) ∧
      nestedFile ∉ (reached.removeTree nestedFile).trackedFiles := by
  intro reached
  have ends : nestedFile ∉ (reached.removeTree nestedFile).trackedFiles := by decide
  have undisturbed : Undisturbed innerFirst nestedFile :=
    (homedAt_performAll_iff _ _).mp ((not_mem_trackedFiles_removeTree_iff _ _).mp ends)
  have tracked : nestedFile ∈ reached.trackedFiles := by decide
  obtain ⟨_, resolves, endsIff⟩ := tracked_files_resolve_unless_taken_over innerFirst nestedFile
  obtain ⟨once, hasTree⟩ := resolves undisturbed tracked
  exact ⟨undisturbed, tracked, once, hasTree, endsIff.mpr undisturbed⟩

def innerLast : List Operation :=
  [.addFolder "/project", .setTree nestedFile emptyModule, .addFolder "/project/app"]

/-- The file is tracked but has no tree in its folder. Removing the tree does not end the tracking,
and setting it again makes the file tracked twice. -/
theorem inner_folder_last_hides_tree :
    let reached := empty.performAll innerLast
    nestedFile ∈ reached.trackedFiles ∧
      (∃ folder, reached.folderOf nestedFile = .ok folder ∧ folder.tree? nestedFile = none) ∧
      nestedFile ∈ (reached.removeTree nestedFile).trackedFiles ∧
      (reached.perform (.setTree nestedFile emptyModule)).trackedFiles.count nestedFile = 2 := by
  refine ⟨by decide, ⟨.new "/project/app", rfl, rfl⟩, by decide, by decide⟩

end ElmDiagnostics.Workspaces
