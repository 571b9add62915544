import Mathlib.Data.List.Basic
import ElmDiagnostics.Workspace.Workspaces

/-!
Contract: the trees of files, seen through the folders that the files belong to.

Owns: the owner of a file after a folder is changed in place or added; one equation for the tree
of every file after each operation on workspaces; and which folders keep a tree of a file. As long
as none but its own does, the file is tracked exactly when it has a tree there.

Does not own: interfaces, and which of several folders that contain a file is the innermost.
-/

set_option autoImplicit false

namespace ElmDiagnostics

theorem Folder.mem_files_iff (folder : Folder) (uri : Uri) :
    uri ∈ folder.files ↔ (folder.tree? uri).isSome := folder.trees.mem_keys_iff uri

theorem Folder.tree?_insert (folder : Folder) (uri wanted : Uri) (tree : Module) :
    (folder.insert uri tree).tree? wanted =
      if wanted = uri then some tree else folder.tree? wanted :=
  folder.trees.get?_insert uri wanted tree

theorem Folder.tree?_remove (folder : Folder) (uri wanted : Uri) :
    (folder.remove uri).tree? wanted = if wanted = uri then none else folder.tree? wanted :=
  folder.trees.get?_erase uri wanted

theorem Folder.root_insert (uri : Uri) (tree : Module) (folder : Folder) :
    (folder.insert uri tree).root = folder.root := rfl

theorem Folder.root_remove (uri : Uri) (folder : Folder) :
    (folder.remove uri).root = folder.root := rfl

namespace Workspaces

/-! ### The owner is one of the folders -/

theorem mem_of_foldl_deeper {candidates : List (Folder × Nat)} {best : Option (Folder × Nat)}
    {found : Folder × Nat} (isBest : candidates.foldl deeper best = some found) :
    best = some found ∨ found ∈ candidates := by
  induction candidates generalizing best with
  | nil => exact .inl isBest
  | cons candidate rest inductionHypothesis =>
      rcases inductionHypothesis isBest with isHead | isLater
      · have chosen : deeper best candidate = best ∨ deeper best candidate = some candidate := by
          unfold deeper
          split
          · split
            · exact .inl rfl
            · exact .inr rfl
          · exact .inr rfl
        rcases chosen with keeps | takes
        · exact .inl (keeps.symm.trans isHead)
        · have isCandidate := Option.some.inj (takes.symm.trans isHead)
          exact .inr (isCandidate ▸ List.mem_cons_self ..)
      · exact .inr (List.mem_cons_of_mem _ isLater)

theorem getElem?_of_owner? {workspaces : Workspaces} {uri : Uri} {folder : Folder} {place : Nat}
    (owned : workspaces.owner? uri = some (folder, place)) :
    workspaces.folders[place]? = some folder := by
  unfold owner? at owned
  obtain ⟨path, _, isInnermost⟩ := Option.bind_eq_some_iff.mp owned
  unfold innermost? at isInnermost
  rcases mem_of_foldl_deeper isInnermost with impossible | isCandidate
  · exact absurd impossible (by simp)
  · exact List.mem_zipIdx_iff_getElem?.mp (List.mem_filter.mp isCandidate).1

theorem folderOf_eq_ok_iff (workspaces : Workspaces) (uri : Uri) (folder : Folder) :
    workspaces.folderOf uri = .ok folder ↔
      ∃ place, workspaces.owner? uri = some (folder, place) := by
  unfold folderOf
  split
  next owner place found => simp [found]
  next none => simp [none]

/-! ### Changing a folder in place -/

/-- A candidate after the folder at a place is changed. -/
def changeAt (place : Nat) (change : Folder → Folder) (candidate : Folder × Nat) : Folder × Nat :=
  if candidate.2 = place then (change candidate.1, candidate.2) else candidate

theorem zipIdx_modify (folders : List Folder) (place : Nat) (change : Folder → Folder) :
    (folders.modify place change).zipIdx = folders.zipIdx.map (changeAt place change) := by
  apply List.ext_getElem?
  intro index
  rw [List.getElem?_zipIdx, List.getElem?_modify, List.getElem?_map, List.getElem?_zipIdx]
  cases folders[index]? with
  | none => rfl
  | some folder =>
      by_cases isPlace : index = place
      · simp [changeAt, isPlace]
      · simp [changeAt, isPlace, Ne.symm isPlace]

section Change

variable {change : Folder → Folder} (keepsRoot : ∀ folder, (change folder).root = folder.root)

include keepsRoot

theorem path_changeAt (place : Nat) (candidate : Folder × Nat) :
    (changeAt place change candidate).1.path = candidate.1.path := by
  unfold changeAt Folder.path
  split
  · rw [keepsRoot]
  · rfl

theorem deeper_changeAt (place : Nat) (best : Option (Folder × Nat)) (candidate : Folder × Nat) :
    deeper (best.map (changeAt place change)) (changeAt place change candidate) =
      (deeper best candidate).map (changeAt place change) := by
  have sameDepth : ∀ other, depth (changeAt place change other).1 = depth other.1 := by
    intro other
    unfold depth
    rw [path_changeAt keepsRoot]
  cases best with
  | none => rfl
  | some current =>
      simp only [deeper, Option.map_some, sameDepth]
      split <;> rfl

theorem foldl_deeper_changeAt (place : Nat) (candidates : List (Folder × Nat))
    (best : Option (Folder × Nat)) :
    (candidates.map (changeAt place change)).foldl deeper (best.map (changeAt place change)) =
      (candidates.foldl deeper best).map (changeAt place change) := by
  induction candidates generalizing best with
  | nil => rfl
  | cons candidate rest inductionHypothesis =>
      rw [List.map_cons, List.foldl_cons, deeper_changeAt keepsRoot, inductionHypothesis,
        List.foldl_cons]

/-- Only the path of a folder decides what belongs to it. -/
theorem owner?_modify (workspaces : Workspaces) (place : Nat) (uri : Uri) :
    (Workspaces.mk (workspaces.folders.modify place change)).owner? uri =
      (workspaces.owner? uri).map (changeAt place change) := by
  unfold owner?
  cases uri.filePath? with
  | none => rfl
  | some path =>
      have sameContains : (fun candidate : Folder × Nat => candidate.1.contains path) ∘
          changeAt place change = fun candidate => candidate.1.contains path := by
        funext candidate
        simp only [Function.comp, Folder.contains, path_changeAt keepsRoot]
      simp only [Option.bind_some, innermost?, zipIdx_modify, List.filter_map, sameContains]
      exact foldl_deeper_changeAt keepsRoot place _ none

end Change

/-! ### Setting and removing trees -/

theorem setTree_eq_ok {workspaces later : Workspaces} {uri : Uri} {tree : Module}
    (succeeds : workspaces.setTree uri tree = .ok later) :
    ∃ folder place, workspaces.owner? uri = some (folder, place) ∧
      later = ⟨workspaces.folders.modify place (·.insert uri tree)⟩ := by
  unfold setTree at succeeds
  split at succeeds
  next folder place owned =>
    refine ⟨folder, place, owned, ?_⟩
    rw [List.modify_eq_set_getElem?, getElem?_of_owner? owned]
    exact (Except.ok.inj succeeds).symm
  next => exact absurd succeeds (by simp)

theorem removeTree_eq {workspaces : Workspaces} {uri : Uri} {folder : Folder} {place : Nat}
    (owned : workspaces.owner? uri = some (folder, place)) :
    workspaces.removeTree uri = ⟨workspaces.folders.modify place (·.remove uri)⟩ := by
  unfold removeTree
  rw [owned, List.modify_eq_set_getElem?, getElem?_of_owner? owned]
  rfl

theorem removeTree_of_unowned {workspaces : Workspaces} {uri : Uri}
    (unowned : workspaces.owner? uri = none) : workspaces.removeTree uri = workspaces := by
  unfold removeTree
  rw [unowned]

theorem addFolder_cases (workspaces : Workspaces) (root : String) :
    workspaces.addFolder root = workspaces ∨
      (∀ folder ∈ workspaces.folders, folder.path ≠ .ofString root) ∧
        workspaces.addFolder root = ⟨workspaces.folders ++ [.new root]⟩ := by
  unfold addFolder
  split
  next => exact .inl rfl
  next isNew => exact .inr ⟨by simpa using isNew, rfl⟩

/-- A new folder may take a file over from the folder it belonged to. -/
theorem owner?_append_new (workspaces : Workspaces) (root : String) (uri : Uri) :
    (Workspaces.mk (workspaces.folders ++ [.new root])).owner? uri = workspaces.owner? uri ∨
      (Workspaces.mk (workspaces.folders ++ [.new root])).owner? uri =
        some (.new root, workspaces.folders.length) := by
  unfold owner?
  cases uri.filePath? with
  | none => exact .inl rfl
  | some path =>
      simp only [Option.bind_some, innermost?, List.zipIdx_append, List.filter_append,
        List.foldl_append, List.zipIdx_cons, List.zipIdx_nil, Nat.zero_add, List.filter_cons,
        List.filter_nil]
      split
      · simp only [List.foldl_cons, List.foldl_nil]
        unfold deeper
        split
        next current isCurrent =>
          split
          · exact .inl isCurrent.symm
          · exact .inr rfl
        next => exact .inr rfl
      · exact .inl rfl

/-! ### The tree of a file -/

/-- The tree that a file has in the folder it belongs to. -/
def tree? (workspaces : Workspaces) (uri : Uri) : Option Module :=
  (workspaces.owner? uri).bind fun owner => owner.1.tree? uri

theorem tree?_modify {change : Folder → Folder}
    (keepsRoot : ∀ folder, (change folder).root = folder.root) (workspaces : Workspaces)
    (place : Nat) {uri : Uri} (keepsTree : ∀ folder, (change folder).tree? uri = folder.tree? uri) :
    (Workspaces.mk (workspaces.folders.modify place change)).tree? uri = workspaces.tree? uri := by
  unfold tree?
  rw [owner?_modify keepsRoot]
  cases workspaces.owner? uri with
  | none => rfl
  | some owner =>
      simp only [Option.map_some, Option.bind_some, changeAt]
      split
      · exact keepsTree owner.1
      · rfl

theorem tree?_setTree {workspaces later : Workspaces} {uri : Uri} {tree : Module}
    (succeeds : workspaces.setTree uri tree = .ok later) (wanted : Uri) :
    later.tree? wanted = if wanted = uri then some tree else workspaces.tree? wanted := by
  obtain ⟨folder, place, owned, rfl⟩ := setTree_eq_ok succeeds
  split
  next isUri =>
    subst isUri
    unfold tree?
    rw [owner?_modify (Folder.root_insert wanted tree), owned]
    simp [changeAt, Folder.tree?_insert]
  next different =>
    apply tree?_modify (Folder.root_insert uri tree)
    intro folder
    rw [Folder.tree?_insert, if_neg different]

theorem tree?_removeTree (workspaces : Workspaces) (uri wanted : Uri) :
    (workspaces.removeTree uri).tree? wanted =
      if wanted = uri then none else workspaces.tree? wanted := by
  cases owned : workspaces.owner? uri with
  | none =>
      rw [removeTree_of_unowned owned]
      split
      next isUri =>
        subst isUri
        simp [tree?, owned]
      next => rfl
  | some owner =>
      rw [removeTree_eq owned]
      split
      next isUri =>
        subst isUri
        unfold tree?
        rw [owner?_modify (Folder.root_remove wanted), owned]
        simp [changeAt, Folder.tree?_remove]
      next different =>
        apply tree?_modify (Folder.root_remove uri)
        intro folder
        rw [Folder.tree?_remove, if_neg different]

/-- A new folder keeps the tree of a file or hides it, and gives no file a tree. -/
theorem tree?_addFolder (workspaces : Workspaces) (root : String) (uri : Uri) :
    (workspaces.addFolder root).tree? uri = workspaces.tree? uri ∨
      (workspaces.addFolder root).tree? uri = none := by
  rcases workspaces.addFolder_cases root with same | ⟨_, added⟩
  · exact .inl (congrArg (tree? · uri) same)
  · rw [added, tree?, tree?]
    rcases workspaces.owner?_append_new root uri with sameOwner | newOwner
    · exact .inl (by rw [sameOwner])
    · exact .inr (by rw [newOwner]; rfl)

theorem tree?_addFolder_of_none {workspaces : Workspaces} {uri : Uri}
    (treeless : workspaces.tree? uri = none) (root : String) :
    (workspaces.addFolder root).tree? uri = none :=
  (workspaces.tree?_addFolder root uri).elim (·.trans treeless) id

/-- The path of the folder that a file belongs to. -/
def ownerPath? (workspaces : Workspaces) (uri : Uri) : Option FilePath :=
  (workspaces.owner? uri).map fun owner => owner.1.path

theorem ownerPath?_modify {change : Folder → Folder}
    (keepsRoot : ∀ folder, (change folder).root = folder.root) (workspaces : Workspaces)
    (place : Nat) (uri : Uri) :
    (Workspaces.mk (workspaces.folders.modify place change)).ownerPath? uri =
      workspaces.ownerPath? uri := by
  unfold ownerPath?
  rw [owner?_modify keepsRoot]
  cases workspaces.owner? uri with
  | none => rfl
  | some owner => simp [path_changeAt keepsRoot]

theorem ownerPath?_setTree {workspaces later : Workspaces} {uri : Uri} {tree : Module}
    (succeeds : workspaces.setTree uri tree = .ok later) (wanted : Uri) :
    later.ownerPath? wanted = workspaces.ownerPath? wanted := by
  obtain ⟨folder, place, _, rfl⟩ := setTree_eq_ok succeeds
  exact ownerPath?_modify (Folder.root_insert uri tree) workspaces place wanted

theorem ownerPath?_removeTree (workspaces : Workspaces) (uri wanted : Uri) :
    (workspaces.removeTree uri).ownerPath? wanted = workspaces.ownerPath? wanted := by
  cases owned : workspaces.owner? uri with
  | none => rw [removeTree_of_unowned owned]
  | some owner =>
      rw [removeTree_eq owned]
      exact ownerPath?_modify (Folder.root_remove uri) workspaces owner.2 wanted

/-! ### Where the trees of a file are kept -/

/-- The place of the folder that a file belongs to. -/
def ownerPlace? (workspaces : Workspaces) (uri : Uri) : Option Nat :=
  (workspaces.owner? uri).map (·.2)

/-- The folder at a place keeps a tree of the file. -/
def KeepsAt (workspaces : Workspaces) (uri : Uri) (place : Nat) : Prop :=
  ∃ folder, workspaces.folders[place]? = some folder ∧ (folder.tree? uri).isSome

/-- No folder but the one that the file belongs to keeps a tree of it. -/
def HomedAt (workspaces : Workspaces) (uri : Uri) : Prop :=
  ∀ place, workspaces.KeepsAt uri place → workspaces.ownerPlace? uri = some place

theorem ownerPlace?_eq_some_iff (workspaces : Workspaces) (uri : Uri) (place : Nat) :
    workspaces.ownerPlace? uri = some place ↔
      ∃ folder, workspaces.owner? uri = some (folder, place) := by
  unfold ownerPlace?
  simp

theorem mem_trackedFiles_iff (workspaces : Workspaces) (uri : Uri) :
    uri ∈ workspaces.trackedFiles ↔ ∃ place, workspaces.KeepsAt uri place := by
  unfold trackedFiles
  rw [List.mem_flatMap]
  constructor
  · rintro ⟨folder, isFolder, isFile⟩
    obtain ⟨place, atPlace⟩ := List.mem_iff_getElem?.mp isFolder
    exact ⟨place, folder, atPlace, (folder.mem_files_iff uri).mp isFile⟩
  · rintro ⟨place, folder, atPlace, hasTree⟩
    exact ⟨folder, List.mem_of_getElem? atPlace, (folder.mem_files_iff uri).mpr hasTree⟩

theorem tree?_isSome_iff (workspaces : Workspaces) (uri : Uri) :
    (workspaces.tree? uri).isSome ↔
      ∃ place, workspaces.ownerPlace? uri = some place ∧ workspaces.KeepsAt uri place := by
  unfold tree? ownerPlace? KeepsAt
  cases owned : workspaces.owner? uri with
  | none => simp
  | some owner => simp [getElem?_of_owner? owned]

theorem HomedAt.mem_trackedFiles_iff {workspaces : Workspaces} {uri : Uri}
    (homed : workspaces.HomedAt uri) :
    uri ∈ workspaces.trackedFiles ↔ (workspaces.tree? uri).isSome := by
  rw [Workspaces.mem_trackedFiles_iff, tree?_isSome_iff]
  constructor
  · rintro ⟨place, keeps⟩
    exact ⟨place, homed place keeps, keeps⟩
  · rintro ⟨place, _, keeps⟩
    exact ⟨place, keeps⟩

theorem ownerPlace?_modify {change : Folder → Folder}
    (keepsRoot : ∀ folder, (change folder).root = folder.root) (workspaces : Workspaces)
    (place : Nat) (uri : Uri) :
    (Workspaces.mk (workspaces.folders.modify place change)).ownerPlace? uri =
      workspaces.ownerPlace? uri := by
  unfold ownerPlace?
  rw [owner?_modify keepsRoot, Option.map_map]
  congr 1
  funext candidate
  simp only [Function.comp, changeAt]
  split <;> rfl

theorem keepsAt_modify_iff {change : Folder → Folder} (workspaces : Workspaces)
    {place other : Nat} {uri : Uri} (keepsTree : other = place →
      ∀ folder, ((change folder).tree? uri).isSome ↔ (folder.tree? uri).isSome) :
    (Workspaces.mk (workspaces.folders.modify place change)).KeepsAt uri other ↔
      workspaces.KeepsAt uri other := by
  unfold KeepsAt
  simp only [List.getElem?_modify]
  by_cases isPlace : place = other
  · simp [isPlace, keepsTree isPlace.symm]
  · simp [isPlace]

/-- Changing the folder of one file leaves every file at home or away, unless it gives or takes the
tree of another file. -/
theorem homedAt_modify_iff {change : Folder → Folder}
    (keepsRoot : ∀ folder, (change folder).root = folder.root) (workspaces : Workspaces)
    {changed uri : Uri} {place : Nat} (owned : workspaces.ownerPlace? changed = some place)
    (keepsOthers : uri ≠ changed →
      ∀ folder, ((change folder).tree? uri).isSome ↔ (folder.tree? uri).isSome) :
    HomedAt ⟨workspaces.folders.modify place change⟩ uri ↔ workspaces.HomedAt uri := by
  unfold HomedAt
  rw [ownerPlace?_modify keepsRoot]
  apply forall_congr'
  intro other
  by_cases isChanged : uri = changed
  · -- The folder that changes is the one the file belongs to, where a tree is always at home.
    by_cases isPlace : other = place
    · simp [isChanged, isPlace, owned]
    · rw [keepsAt_modify_iff workspaces fun same => absurd same isPlace]
  · rw [keepsAt_modify_iff workspaces fun _ => keepsOthers isChanged]

theorem homedAt_setTree_iff {workspaces later : Workspaces} {changed : Uri} {tree : Module}
    (succeeds : workspaces.setTree changed tree = .ok later) (uri : Uri) :
    later.HomedAt uri ↔ workspaces.HomedAt uri := by
  obtain ⟨folder, place, owned, rfl⟩ := setTree_eq_ok succeeds
  apply homedAt_modify_iff (Folder.root_insert changed tree) workspaces
    ((ownerPlace?_eq_some_iff _ _ _).mpr ⟨folder, owned⟩)
  intro isOther folder
  rw [Folder.tree?_insert, if_neg isOther]

theorem homedAt_removeTree_iff (workspaces : Workspaces) (changed uri : Uri) :
    (workspaces.removeTree changed).HomedAt uri ↔ workspaces.HomedAt uri := by
  cases owned : workspaces.owner? changed with
  | none => rw [removeTree_of_unowned owned]
  | some owner =>
      rw [removeTree_eq owned]
      apply homedAt_modify_iff (Folder.root_remove changed) workspaces
        ((ownerPlace?_eq_some_iff _ _ _).mpr ⟨owner.1, owned⟩)
      intro isOther folder
      rw [Folder.tree?_remove, if_neg isOther]

/-! ### All trees at home -/

/-- Every tree is kept by the folder that its file belongs to. -/
def Homed (workspaces : Workspaces) : Prop :=
  ∀ folder place uri, workspaces.folders[place]? = some folder → (folder.tree? uri).isSome →
    workspaces.owner? uri = some (folder, place)

theorem homed_iff (workspaces : Workspaces) : workspaces.Homed ↔ ∀ uri, workspaces.HomedAt uri := by
  constructor
  · rintro homed uri place ⟨folder, atPlace, hasTree⟩
    exact (ownerPlace?_eq_some_iff _ _ _).mpr ⟨folder, homed folder place uri atPlace hasTree⟩
  · intro homedAt folder place uri atPlace hasTree
    obtain ⟨owner, owned⟩ :=
      (ownerPlace?_eq_some_iff _ _ _).mp (homedAt uri place ⟨folder, atPlace, hasTree⟩)
    have sameFolder := (getElem?_of_owner? owned).symm.trans atPlace
    rw [owned, Option.some.inj sameFolder]

theorem Homed.mem_trackedFiles_iff {workspaces : Workspaces} (homed : workspaces.Homed)
    (uri : Uri) : uri ∈ workspaces.trackedFiles ↔ (workspaces.tree? uri).isSome :=
  ((homed_iff _).mp homed uri).mem_trackedFiles_iff

theorem homed_of_trackedFiles_eq_nil {workspaces : Workspaces}
    (treeless : workspaces.trackedFiles = []) : workspaces.Homed := by
  apply (homed_iff _).mpr
  intro uri place keeps
  have tracked := (workspaces.mem_trackedFiles_iff uri).mpr ⟨place, keeps⟩
  rw [treeless] at tracked
  exact absurd tracked (by simp)

theorem trackedFiles_addFolder (workspaces : Workspaces) (root : String) :
    (workspaces.addFolder root).trackedFiles = workspaces.trackedFiles := by
  rcases workspaces.addFolder_cases root with same | ⟨_, added⟩
  · rw [same]
  · rw [added, trackedFiles, List.flatMap_append]
    exact List.append_nil _

theorem Homed.setTree {workspaces later : Workspaces} (homed : workspaces.Homed) {uri : Uri}
    {tree : Module} (succeeds : workspaces.setTree uri tree = .ok later) : later.Homed :=
  (homed_iff _).mpr fun other =>
    (homedAt_setTree_iff succeeds other).mpr ((homed_iff _).mp homed other)

theorem Homed.removeTree {workspaces : Workspaces} (homed : workspaces.Homed) (uri : Uri) :
    (workspaces.removeTree uri).Homed :=
  (homed_iff _).mpr fun other =>
    (homedAt_removeTree_iff workspaces uri other).mpr ((homed_iff _).mp homed other)

end Workspaces

end ElmDiagnostics
