import ElmDiagnostics.Proofs.Workspace.Ownership
import Mathlib.Data.List.Induction
import Mathlib.Data.List.Nodup

/-!
Contract: a file belongs to the innermost folder, in whatever order the folders were added.

Owns: leading parts of a path; that the search for the owner of a file finds a folder which leads
to the file, and none that leads there lies deeper; the folders after a sequence of additions; and
that there is exactly one such folder, whose path does not depend on the order of the additions.

Does not own: the trees of a folder, and what a later addition does to them.

The search prefers the later of two folders that lie equally deep. It never has the choice: two
leading parts of one path that are equally long are the same path, and a path is added only once,
however it is written.
-/

set_option autoImplicit false

namespace ElmDiagnostics

/-! ### Leading parts of a path -/

theorem FilePath.remainder_isSome_iff (path base : List PathComponent) :
    (remainder path base).isSome = true ↔ base <+: path := by
  fun_induction remainder path base with
  | case1 path => simp
  | case2 expected base => simp
  | case3 path expected base inductionHypothesis =>
      rw [inductionHypothesis, List.cons_prefix_cons, and_iff_right rfl]
  | case4 component path expected base different =>
      simp [List.cons_prefix_cons, Ne.symm different]

theorem FilePath.startsWith_iff (path base : FilePath) :
    path.startsWith base = true ↔ base.components <+: path.components := by
  rw [startsWith, relativeTo?, Option.isSome_map, remainder_isSome_iff]

theorem FilePath.ext_components {path other : FilePath}
    (same : path.components = other.components) : path = other := by
  cases path
  cases other
  exact congrArg FilePath.mk same

theorem Folder.contains_iff (folder : Folder) (path : FilePath) :
    folder.contains path = true ↔ folder.path.components <+: path.components :=
  path.startsWith_iff folder.path

namespace Workspaces

/-! ### The search -/

/-- Of two candidates one is taken, and neither lies deeper. -/
theorem exists_deeper (best : Option (Folder × Nat)) (candidate : Folder × Nat) :
    ∃ found, deeper best candidate = some found ∧ depth candidate.1 ≤ depth found.1 ∧
      ∀ current, best = some current → depth current.1 ≤ depth found.1 := by
  cases best with
  | none => exact ⟨candidate, rfl, Nat.le_refl _, by simp⟩
  | some current =>
      by_cases below : depth candidate.1 < depth current.1
      · refine ⟨current, if_pos below, Nat.le_of_lt below, ?_⟩
        rintro _ ⟨⟩
        exact Nat.le_refl _
      · refine ⟨candidate, if_neg below, Nat.le_refl _, ?_⟩
        rintro _ ⟨⟩
        exact Nat.not_lt.mp below

theorem exists_foldl_deeper_some (candidates : List (Folder × Nat)) (current : Folder × Nat) :
    ∃ found, candidates.foldl deeper (some current) = some found ∧
      depth current.1 ≤ depth found.1 := by
  induction candidates generalizing current with
  | nil => exact ⟨current, rfl, Nat.le_refl _⟩
  | cons candidate rest inductionHypothesis =>
      obtain ⟨next, isNext, _, notBelow⟩ := exists_deeper (some current) candidate
      obtain ⟨found, isFound, keepsDepth⟩ := inductionHypothesis next
      refine ⟨found, ?_, Nat.le_trans (notBelow current rfl) keepsDepth⟩
      rw [List.foldl_cons, isNext, isFound]

/-- The search ends with a candidate that no candidate lies deeper than. -/
theorem exists_foldl_deeper {candidates : List (Folder × Nat)} {candidate : Folder × Nat}
    (isCandidate : candidate ∈ candidates) (best : Option (Folder × Nat)) :
    ∃ found, candidates.foldl deeper best = some found ∧ depth candidate.1 ≤ depth found.1 := by
  induction candidates generalizing best with
  | nil => exact absurd isCandidate List.not_mem_nil
  | cons head rest inductionHypothesis =>
      rw [List.foldl_cons]
      rcases List.mem_cons.mp isCandidate with rfl | isLater
      · obtain ⟨next, isNext, notBelow, _⟩ := exists_deeper best candidate
        obtain ⟨found, isFound, keepsDepth⟩ := exists_foldl_deeper_some rest next
        exact ⟨found, isNext ▸ isFound, Nat.le_trans notBelow keepsDepth⟩
      · exact inductionHypothesis isLater (deeper best head)

theorem contains_of_innermost? {folders : List Folder} {path : FilePath} {found : Folder × Nat}
    (chosen : innermost? folders path = some found) :
    folders[found.2]? = some found.1 ∧ found.1.contains path = true := by
  rcases mem_of_foldl_deeper chosen with impossible | isCandidate
  · exact absurd impossible (by simp)
  · obtain ⟨isFolder, contains⟩ := List.mem_filter.mp isCandidate
    exact ⟨List.mem_zipIdx_iff_getElem?.mp isFolder, contains⟩

/-- A folder that contains the path lets the search succeed, and does not lie deeper than what it
finds. -/
theorem exists_innermost? {folders : List Folder} {path : FilePath} {folder : Folder}
    (isFolder : folder ∈ folders) (contains : folder.contains path = true) :
    ∃ found, innermost? folders path = some found ∧ depth folder ≤ depth found.1 := by
  obtain ⟨place, atPlace⟩ := List.mem_iff_getElem?.mp isFolder
  have isPlaced : (folder, place) ∈ folders.zipIdx := List.mem_zipIdx_iff_getElem?.mpr atPlace
  exact exists_foldl_deeper (List.mem_filter.mpr ⟨isPlaced, contains⟩) none

/-! ### Adding folders -/

/-- The workspaces after folders are added, one after the other. -/
def ofRoots (roots : List String) : Workspaces := roots.foldl addFolder empty

/-- The paths of the folders, in their order. -/
def paths (workspaces : Workspaces) : List FilePath := workspaces.folders.map Folder.path

theorem ofRoots_concat (roots : List String) (root : String) :
    ofRoots (roots ++ [root]) = (ofRoots roots).addFolder root := by
  rw [ofRoots, List.foldl_append]
  rfl

theorem mem_paths_addFolder_iff (workspaces : Workspaces) (root : String) (path : FilePath) :
    path ∈ (workspaces.addFolder root).paths ↔ path ∈ workspaces.paths ∨ path = .ofString root := by
  unfold addFolder
  split
  next known =>
    obtain ⟨folder, isFolder, samePath⟩ := List.any_eq_true.mp known
    refine ⟨.inl, ?_⟩
    rintro (isPath | rfl)
    · exact isPath
    · exact List.mem_map.mpr ⟨folder, isFolder, of_decide_eq_true samePath⟩
  next => simp [paths, Folder.new, Folder.path]

theorem paths_addFolder_nodup {workspaces : Workspaces} (distinct : workspaces.paths.Nodup)
    (root : String) : (workspaces.addFolder root).paths.Nodup := by
  rcases workspaces.addFolder_cases root with same | ⟨isNew, added⟩
  · rw [same]
    exact distinct
  · rw [added, paths, List.map_append, List.nodup_append]
    refine ⟨distinct, List.nodup_singleton _, ?_⟩
    intro path isPath other isOther
    obtain ⟨folder, isFolder, rfl⟩ := List.mem_map.mp isPath
    rw [List.mem_singleton.mp isOther]
    exact isNew folder isFolder

theorem mem_paths_ofRoots_iff (roots : List String) (path : FilePath) :
    path ∈ (ofRoots roots).paths ↔ ∃ root ∈ roots, path = .ofString root := by
  induction roots using List.reverseRecOn with
  | nil => simp [ofRoots, paths, empty]
  | append_singleton roots last inductionHypothesis =>
      rw [ofRoots_concat, mem_paths_addFolder_iff, inductionHypothesis]
      simp [or_and_right, exists_or]

theorem paths_ofRoots_nodup (roots : List String) : (ofRoots roots).paths.Nodup := by
  induction roots using List.reverseRecOn with
  | nil => exact List.nodup_nil
  | append_singleton roots last inductionHypothesis =>
      rw [ofRoots_concat]
      exact paths_addFolder_nodup inductionHypothesis last

/-! ### The innermost folder -/

/-- The folder leads to the path, and no root that leads there has more components. -/
structure IsInnermost (roots : List String) (path : FilePath) (folder : Folder) : Prop where
  leads : folder.path.components <+: path.components
  deepest : ∀ root ∈ roots, (FilePath.ofString root).components <+: path.components →
    (FilePath.ofString root).components.length ≤ folder.path.components.length

variable {roots : List String} {uri : Uri} {path : FilePath}

theorem IsInnermost.depth_le {folder other : Folder} (innermost : IsInnermost roots path folder)
    (isAdded : other.path ∈ (ofRoots roots).paths)
    (leads : other.path.components <+: path.components) :
    other.path.components.length ≤ folder.path.components.length := by
  obtain ⟨root, isRoot, itsPath⟩ := (mem_paths_ofRoots_iff roots _).mp isAdded
  rw [itsPath] at leads ⊢
  exact innermost.deepest root isRoot leads

/-- Leading parts of a path that are equally long are the same. -/
theorem IsInnermost.path_eq {folder other : Folder} (innermost : IsInnermost roots path folder)
    (isAdded : folder.path ∈ (ofRoots roots).paths) (alsoInnermost : IsInnermost roots path other)
    (alsoAdded : other.path ∈ (ofRoots roots).paths) : folder.path = other.path := by
  have notDeeper := alsoInnermost.depth_le isAdded innermost.leads
  have notShallower := innermost.depth_le alsoAdded alsoInnermost.leads
  have leads : folder.path.components <+: other.path.components :=
    List.prefix_of_prefix_length_le innermost.leads alsoInnermost.leads notDeeper
  exact FilePath.ext_components (leads.eq_of_length (Nat.le_antisymm notDeeper notShallower))

theorem mem_paths_of_getElem? {workspaces : Workspaces} {place : Nat} {folder : Folder}
    (atPlace : workspaces.folders[place]? = some folder) : folder.path ∈ workspaces.paths :=
  List.mem_map_of_mem (List.mem_of_getElem? atPlace)

/-- Folders are at the same place if their paths are the same. -/
theorem place_eq_of_path_eq {folder other : Folder} {place otherPlace : Nat}
    (atPlace : (ofRoots roots).folders[place]? = some folder)
    (atOther : (ofRoots roots).folders[otherPlace]? = some other)
    (samePath : folder.path = other.path) : place = otherPlace := by
  have inList : (ofRoots roots).paths[place]? = some folder.path := by
    rw [paths, List.getElem?_map, atPlace]
    rfl
  have alsoInList : (ofRoots roots).paths[otherPlace]? = some other.path := by
    rw [paths, List.getElem?_map, atOther]
    rfl
  have bound := (List.getElem?_eq_some_iff.mp inList).1
  apply (List.getElem?_inj bound (paths_ofRoots_nodup roots)).mp
  rw [inList, alsoInList, samePath]

theorem exists_folderOf_iff (roots : List String) (uri : Uri) :
    (∃ folder, (ofRoots roots).folderOf uri = .ok folder) ↔
      ∃ path, uri.filePath? = some path ∧
        ∃ root ∈ roots, (FilePath.ofString root).components <+: path.components := by
  simp only [folderOf_eq_ok_iff, owner?, Option.bind_eq_some_iff]
  constructor
  · rintro ⟨folder, place, path, isPath, chosen⟩
    obtain ⟨atPlace, contains⟩ := contains_of_innermost? chosen
    obtain ⟨root, isRoot, itsPath⟩ :=
      (mem_paths_ofRoots_iff roots _).mp (mem_paths_of_getElem? atPlace)
    exact ⟨path, isPath, root, isRoot, itsPath ▸ (folder.contains_iff path).mp contains⟩
  · rintro ⟨path, isPath, root, isRoot, leads⟩
    have isAdded := (mem_paths_ofRoots_iff roots _).mpr ⟨root, isRoot, rfl⟩
    obtain ⟨folder, isFolder, itsPath⟩ := List.mem_map.mp isAdded
    have contains := (folder.contains_iff path).mpr (itsPath ▸ leads)
    obtain ⟨found, chosen, _⟩ := exists_innermost? isFolder contains
    exact ⟨found.1, found.2, path, isPath, chosen⟩

/-- The folder that a file belongs to is one of the folders, and the innermost. -/
theorem isInnermost_of_folderOf {folder : Folder}
    (found : (ofRoots roots).folderOf uri = .ok folder) :
    ∃ (path : FilePath) (place : Nat), uri.filePath? = some path ∧
      (ofRoots roots).folders[place]? = some folder ∧ IsInnermost roots path folder := by
  obtain ⟨place, owned⟩ := (folderOf_eq_ok_iff _ _ _).mp found
  obtain ⟨path, isPath, chosen⟩ := Option.bind_eq_some_iff.mp owned
  obtain ⟨atPlace, contains⟩ := contains_of_innermost? chosen
  refine ⟨path, place, isPath, atPlace, (folder.contains_iff path).mp contains, ?_⟩
  intro root isRoot leads
  have isAdded := (mem_paths_ofRoots_iff roots _).mpr ⟨root, isRoot, rfl⟩
  obtain ⟨other, isFolder, itsPath⟩ := List.mem_map.mp isAdded
  have alsoContains := (other.contains_iff path).mpr (itsPath ▸ leads)
  obtain ⟨deepest, isDeepest, notDeeper⟩ := exists_innermost? isFolder alsoContains
  obtain rfl := Option.some.inj (chosen.symm.trans isDeepest)
  rw [← itsPath]
  exact notDeeper

/-! ### Another order -/

theorem IsInnermost.of_perm {reordered : List String} {folder : Folder}
    (permuted : reordered.Perm roots) (innermost : IsInnermost reordered path folder) :
    IsInnermost roots path folder where
  leads := innermost.leads
  deepest root isRoot := innermost.deepest root (permuted.mem_iff.mpr isRoot)

theorem mem_paths_of_perm {reordered : List String} (permuted : reordered.Perm roots)
    (isAdded : path ∈ (ofRoots reordered).paths) : path ∈ (ofRoots roots).paths := by
  obtain ⟨root, isRoot, itsPath⟩ := (mem_paths_ofRoots_iff reordered path).mp isAdded
  exact (mem_paths_ofRoots_iff roots path).mpr ⟨root, permuted.mem_iff.mp isRoot, itsPath⟩

theorem exists_folderOf_of_perm {reordered : List String} (permuted : reordered.Perm roots)
    (succeeds : ∃ folder, (ofRoots reordered).folderOf uri = .ok folder) :
    ∃ folder, (ofRoots roots).folderOf uri = .ok folder := by
  obtain ⟨path, isPath, root, isRoot, leads⟩ := (exists_folderOf_iff reordered uri).mp succeeds
  exact (exists_folderOf_iff roots uri).mpr
    ⟨path, isPath, root, permuted.mem_iff.mp isRoot, leads⟩

theorem folderOf_eq_error {workspaces : Workspaces}
    (fails : ¬ ∃ folder, workspaces.folderOf uri = .ok folder) :
    workspaces.folderOf uri = .error (.noWorkspace uri) := by
  unfold folderOf at fails ⊢
  split
  next folder place owned => exact absurd ⟨folder, by rw [owned]⟩ fails
  next => rfl

theorem path_folderOf_of_perm {reordered : List String} (permuted : reordered.Perm roots)
    (uri : Uri) : ((ofRoots reordered).folderOf uri).map Folder.path =
      ((ofRoots roots).folderOf uri).map Folder.path := by
  by_cases succeeds : ∃ folder, (ofRoots roots).folderOf uri = .ok folder
  · obtain ⟨other, otherFound⟩ := exists_folderOf_of_perm permuted.symm succeeds
    obtain ⟨folder, found⟩ := succeeds
    obtain ⟨path, place, isPath, atPlace, innermost⟩ := isInnermost_of_folderOf found
    obtain ⟨otherPath, otherPlace, isOtherPath, atOther, otherInnermost⟩ :=
      isInnermost_of_folderOf otherFound
    obtain rfl := Option.some.inj (isPath.symm.trans isOtherPath)
    have otherAdded := mem_paths_of_perm permuted (mem_paths_of_getElem? atOther)
    have samePath := (otherInnermost.of_perm permuted).path_eq otherAdded innermost
      (mem_paths_of_getElem? atPlace)
    rw [found, otherFound]
    exact congrArg Except.ok samePath
  · have alsoFails := mt (exists_folderOf_of_perm permuted) succeeds
    rw [folderOf_eq_error succeeds, folderOf_eq_error alsoFails]

/-- A file belongs to a folder exactly if it has a path to which an added root leads. The folder is
then the innermost, and no other place holds an innermost one. Adding the same roots in another
order gives every file a folder of the same path, or none again. -/
theorem innermost_folder_wins (roots : List String) (uri : Uri) :
    let reached := ofRoots roots
    ((∃ folder, reached.folderOf uri = .ok folder) ↔
      ∃ path, uri.filePath? = some path ∧
        ∃ root ∈ roots, (FilePath.ofString root).components <+: path.components) ∧
    (∀ folder, reached.folderOf uri = .ok folder →
      ∃ (path : FilePath) (place : Nat), uri.filePath? = some path ∧
        reached.folders[place]? = some folder ∧ IsInnermost roots path folder ∧
        ∀ (other : Folder) (otherPlace : Nat), reached.folders[otherPlace]? = some other →
          IsInnermost roots path other → otherPlace = place) ∧
    ∀ reordered, reordered.Perm roots →
      ((ofRoots reordered).folderOf uri).map Folder.path =
        (reached.folderOf uri).map Folder.path := by
  intro reached
  refine ⟨exists_folderOf_iff roots uri, ?_, fun _ permuted => path_folderOf_of_perm permuted uri⟩
  intro folder found
  obtain ⟨path, place, isPath, atPlace, innermost⟩ := isInnermost_of_folderOf found
  refine ⟨path, place, isPath, atPlace, innermost, ?_⟩
  intro other otherPlace atOther otherInnermost
  have samePath := otherInnermost.path_eq (mem_paths_of_getElem? atOther) innermost
    (mem_paths_of_getElem? atPlace)
  exact place_eq_of_path_eq atOther atPlace samePath

-- One path in two spellings: the order decides which of them is kept, and nothing else.
example :
    let file : Uri := ⟨"file:///p/a/M.elm"⟩
    ((ofRoots ["/p", "/p/./a/", "/p/a"]).folderOf file).map Folder.root = .ok "/p/./a/" ∧
    ((ofRoots ["/p/a", "/p", "/p/./a/"]).folderOf file).map Folder.root = .ok "/p/a" := ⟨rfl, rfl⟩

end Workspaces

end ElmDiagnostics
