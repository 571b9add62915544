import ElmDiagnostics.Proofs.Chronicle
import ElmDiagnostics.Proofs.Workspace.Ownership

/-!
Contract: the interface of a module while other files of its folder come and go.

Owns: runs of insertions and removals on a folder; what one of them does to the interface under a
module name; when a file that is held has lost the interface of its module; and which tree an
interface that is known was read off.

Does not own: what an interface says.

Trees are kept by file and interfaces by module name. Files of one module name share one interface,
and the first of them to leave takes it along. It is back with the next tree of that name.
-/

set_option autoImplicit false

namespace ElmDiagnostics.Folder

/-- What can be done to the trees of a folder. -/
inductive Operation where
  | insert (uri : Uri) (tree : Module)
  | remove (uri : Uri)

/-- The file whose tree is set or forgotten. -/
def Operation.uri : Operation → Uri
  | .insert uri _ | .remove uri => uri

/-- The operation sets a tree of that module name. -/
def Operation.Brings (operation : Operation) (name : String) : Prop :=
  ∃ uri tree, operation = .insert uri tree ∧ tree.name = name

def perform (folder : Folder) : Operation → Folder
  | .insert uri tree => folder.insert uri tree
  | .remove uri => folder.remove uri

def performAll (folder : Folder) (operations : List Operation) : Folder :=
  operations.foldl perform folder

theorem performAll_concat (folder : Folder) (operations : List Operation) (operation : Operation) :
    folder.performAll (operations ++ [operation]) =
      (folder.performAll operations).perform operation := by
  unfold performAll
  rw [List.foldl_append]
  rfl

/-- A tree of that module name has to leave: the operation sets or forgets the tree of the file that
holds it. -/
def Ousts (folder : Folder) (operation : Operation) (name : String) : Prop :=
  ∃ tree, folder.tree? operation.uri = some tree ∧ tree.name = name

/-! ### One operation -/

theorem tree?_perform_of_ne {operation : Operation} {uri : Uri} (isOther : uri ≠ operation.uri)
    (folder : Folder) : (folder.perform operation).tree? uri = folder.tree? uri := by
  cases operation with
  | insert file tree => exact (folder.tree?_insert file uri tree).trans (if_neg isOther)
  | remove file => exact (folder.tree?_remove file uri).trans (if_neg isOther)

theorem interface?_insert (folder : Folder) (uri : Uri) (tree : Module) (name : String) :
    (folder.insert uri tree).interface? name =
      if name = tree.name then some (.ofModule tree)
      else (folder.interfacesWithout uri).get? name :=
  (folder.interfacesWithout uri).get?_insert tree.name name (.ofModule tree)

theorem interfacesWithout_eq_some_iff (folder : Folder) (operation : Operation) (name : String)
    (interface : Interface) :
    (folder.interfacesWithout operation.uri).get? name = some interface ↔
      folder.interface? name = some interface ∧ ¬ folder.Ousts operation name := by
  unfold interfacesWithout Ousts
  cases folder.tree? operation.uri with
  | none => simp [interface?]
  | some previous =>
      simp only [Table.get?_erase, Option.some.injEq, exists_eq_left']
      by_cases isPrevious : name = previous.name
      · simp [isPrevious]
      · simp [isPrevious, Ne.symm isPrevious, interface?]

/-- After an operation a name has the interface of the tree that the operation brings under it, or
else the interface it had, unless that had to leave. -/
theorem interface?_perform_eq_some_iff (folder : Folder) (operation : Operation) (name : String)
    (interface : Interface) :
    (folder.perform operation).interface? name = some interface ↔
      (∃ uri tree, operation = .insert uri tree ∧ tree.name = name ∧ interface = .ofModule tree) ∨
        ¬ operation.Brings name ∧ folder.interface? name = some interface ∧
          ¬ folder.Ousts operation name := by
  rw [← interfacesWithout_eq_some_iff]
  cases operation with
  | insert uri tree =>
      show (folder.insert uri tree).interface? name = some interface ↔ _
      rw [interface?_insert]
      by_cases isName : name = tree.name
      · have brings : (Operation.insert uri tree).Brings name := ⟨uri, tree, rfl, isName.symm⟩
        simp [isName, isName ▸ brings, eq_comm]
      · have bringsNot : ¬ (Operation.insert uri tree).Brings name := by
          rintro ⟨file, other, same, itsName⟩
          cases same
          exact isName itsName.symm
        simp [isName, Ne.symm isName, bringsNot, Operation.uri]
  | remove uri =>
      have bringsNot : ¬ (Operation.remove uri).Brings name := by simp [Operation.Brings]
      simp only [reduceCtorEq, false_and, exists_false, false_or, bringsNot, not_false_iff,
        true_and]
      rfl

/-- After an operation a name has an interface if the operation brings one, or if there was one and
it did not have to leave. -/
theorem interface?_perform_isSome_iff (folder : Folder) (operation : Operation) (name : String) :
    ((folder.perform operation).interface? name).isSome ↔
      operation.Brings name ∨ (folder.interface? name).isSome ∧ ¬ folder.Ousts operation name := by
  simp only [Option.isSome_iff_exists, interface?_perform_eq_some_iff]
  constructor
  · rintro ⟨interface, ⟨uri, tree, isInsert, itsName, _⟩ | ⟨_, known, stays⟩⟩
    · exact .inl ⟨uri, tree, isInsert, itsName⟩
    · exact .inr ⟨⟨interface, known⟩, stays⟩
  · intro bringsOrKeeps
    by_cases brings : operation.Brings name
    · obtain ⟨uri, tree, isInsert, itsName⟩ := brings
      exact ⟨.ofModule tree, .inl ⟨uri, tree, isInsert, itsName, rfl⟩⟩
    · obtain ⟨⟨interface, known⟩, stays⟩ := bringsOrKeeps.resolve_left brings
      exact ⟨interface, .inr ⟨brings, known, stays⟩⟩

/-- A tree that a file has after some operations, none of which brings its name, was there before
them, and none of them is about the file. -/
theorem held_before {folder : Folder} {operations : List Operation} {uri : Uri} {tree : Module}
    (held : (folder.performAll operations).tree? uri = some tree)
    (broughtNone : ∀ operation ∈ operations, ¬ operation.Brings tree.name) :
    folder.tree? uri = some tree ∧ ∀ operation ∈ operations, operation.uri ≠ uri := by
  induction operations generalizing folder with
  | nil => exact ⟨held, by simp⟩
  | cons operation rest inductionHypothesis =>
      obtain ⟨heldAfter, othersLater⟩ := inductionHypothesis held fun later isLater =>
        broughtNone later (List.mem_cons_of_mem _ isLater)
      have bringsNot := broughtNone operation (List.mem_cons_self ..)
      have notOf : operation.uri ≠ uri ∧ folder.tree? uri = some tree := by
        cases operation with
        | insert file other =>
            rw [perform, tree?_insert] at heldAfter
            split at heldAfter
            next isFile =>
              obtain rfl := Option.some.inj heldAfter
              exact absurd ⟨file, other, rfl, rfl⟩ bringsNot
            next isOther => exact ⟨Ne.symm isOther, heldAfter⟩
        | remove file =>
            rw [perform, tree?_remove] at heldAfter
            split at heldAfter
            next => exact absurd heldAfter (by simp)
            next isOther => exact ⟨Ne.symm isOther, heldAfter⟩
      exact ⟨notOf.2, List.forall_mem_cons.mpr ⟨notOf.1, othersLater⟩⟩

/-! ### Whole runs -/

/-- At some place of the run a tree of that module name had to leave, and since then none came. -/
def Loses (folder : Folder) (operations : List Operation) (name : String) : Prop :=
  ∃ before operation since, operations = before ++ operation :: since ∧
    (folder.performAll before).Ousts operation name ∧
    ∀ later ∈ operation :: since, ¬ later.Brings name

theorem loses_concat_iff (folder : Folder) (operations : List Operation) (last : Operation)
    (name : String) :
    folder.Loses (operations ++ [last]) name ↔
      ¬ last.Brings name ∧
        (folder.Loses operations name ∨ (folder.performAll operations).Ousts last name) := by
  constructor
  · rintro ⟨before, operation, since, split, ousts, bringsNone⟩
    rcases concat_eq_append_cons split with ⟨rfl, rfl, _⟩ | ⟨earlier, sameRun, rfl⟩
    · exact ⟨bringsNone last (by simp), .inr ousts⟩
    · rw [← List.cons_append, List.forall_mem_append, List.forall_mem_singleton] at bringsNone
      exact ⟨bringsNone.2, .inl ⟨before, operation, earlier, sameRun, ousts, bringsNone.1⟩⟩
  · rintro ⟨bringsNot, ⟨before, operation, since, rfl, ousts, bringsNone⟩ | ousts⟩
    · refine ⟨before, operation, since ++ [last], by simp, ousts, ?_⟩
      exact List.forall_mem_append.mpr ⟨bringsNone, List.forall_mem_singleton.mpr bringsNot⟩
    · exact ⟨operations, last, [], rfl, ousts, List.forall_mem_singleton.mpr bringsNot⟩

theorem interface?_performAll_isSome_iff (root : String) (operations : List Operation)
    (name : String) :
    (((new root).performAll operations).interface? name).isSome ↔
      (∃ operation ∈ operations, operation.Brings name) ∧ ¬ (new root).Loses operations name := by
  induction operations using List.reverseRecOn with
  | nil => simp [performAll, new, interface?]
  | append_singleton operations last inductionHypothesis =>
      rw [performAll_concat, interface?_perform_isSome_iff, inductionHypothesis, loses_concat_iff]
      have bringers : (∃ operation ∈ operations ++ [last], operation.Brings name) ↔
          (∃ operation ∈ operations, operation.Brings name) ∨ last.Brings name := by
        simp [or_and_right, exists_or]
      rw [bringers]
      by_cases bringsLast : last.Brings name
      · simp [bringsLast]
      · simp only [bringsLast, false_or, or_false, not_false_iff, true_and, not_or, and_assoc]

/-- A file that is held lacks the interface of its module exactly when another file of that module
name was replaced or removed and no tree of the name has come with that operation or later. -/
theorem interface_missing_iff_namesake_left (root : String) (operations : List Operation)
    {uri : Uri} {tree : Module} (held : ((new root).performAll operations).tree? uri = some tree) :
    ((new root).performAll operations).interface? tree.name = none ↔
      ∃ before operation since, operations = before ++ operation :: since ∧
        operation.uri ≠ uri ∧ ((new root).performAll before).Ousts operation tree.name ∧
        ∀ later ∈ operation :: since, ¬ later.Brings tree.name := by
  have brought : ∃ operation ∈ operations, operation.Brings tree.name := by
    by_contra broughtNone
    have heldAtStart := (held_before held (by simpa using broughtNone)).1
    exact absurd heldAtStart (by simp [new, tree?])
  rw [← Option.not_isSome_iff_eq_none, interface?_performAll_isSome_iff, not_and, not_not]
  constructor
  · intro loses
    obtain ⟨before, operation, since, rfl, ousts, bringsNone⟩ := loses brought
    refine ⟨before, operation, since, rfl, ?_, ousts, bringsNone⟩
    unfold performAll at held
    rw [List.foldl_append] at held
    exact (held_before held bringsNone).2 operation (List.mem_cons_self ..)
  · rintro ⟨before, operation, since, split, _, ousts, bringsNone⟩ _
    exact ⟨before, operation, since, split, ousts, bringsNone⟩

/-! ### The tree behind an interface -/

/-- Of all trees of its module name, this one came last in the run, with this file. Since then none
of the name had to leave, so that its interface was not dropped either. -/
def IsNewest (folder : Folder) (operations : List Operation) (uri : Uri) (tree : Module) : Prop :=
  ∃ before since, operations = before ++ .insert uri tree :: since ∧
    AtEach (fun earlier later => ¬ later.Brings tree.name ∧
      ¬ (folder.performAll (before ++ .insert uri tree :: earlier)).Ousts later tree.name) since

theorem isNewest_concat_iff (folder : Folder) (operations : List Operation) (last : Operation)
    (uri : Uri) (tree : Module) :
    folder.IsNewest (operations ++ [last]) uri tree ↔
      last = .insert uri tree ∨
        folder.IsNewest operations uri tree ∧ ¬ last.Brings tree.name ∧
          ¬ (folder.performAll operations).Ousts last tree.name := by
  constructor
  · rintro ⟨before, since, split, keptSince⟩
    rcases concat_eq_append_cons split with ⟨_, isInsert, _⟩ | ⟨earlier, sameRun, rfl⟩
    · exact .inl isInsert
    · have keptAtLast := (atEach_concat_iff _ earlier last).mp keptSince
      rw [← sameRun] at keptAtLast
      exact .inr ⟨⟨before, earlier, sameRun, keptAtLast.1⟩, keptAtLast.2⟩
  · rintro (rfl | ⟨⟨before, since, rfl, keptSince⟩, keptAtLast⟩)
    · exact ⟨operations, [], rfl, atEach_nil _⟩
    · refine ⟨before, since ++ [last], by simp, ?_⟩
      exact (atEach_concat_iff _ since last).mpr ⟨keptSince, keptAtLast⟩

/-- The newest tree of a name is still held by its file: whatever replaces or removes it there makes
a tree of the name leave. -/
theorem IsNewest.held {folder : Folder} {operations : List Operation} {uri : Uri} {tree : Module}
    (newest : folder.IsNewest operations uri tree) :
    (folder.performAll operations).tree? uri = some tree := by
  induction operations using List.reverseRecOn with
  | nil =>
      obtain ⟨before, since, split, _⟩ := newest
      exact absurd split (by simp)
  | append_singleton operations last inductionHypothesis =>
      rw [performAll_concat]
      rcases (isNewest_concat_iff folder operations last uri tree).mp newest with
        rfl | ⟨newestBefore, _, stays⟩
      · rw [perform, tree?_insert, if_pos rfl]
      · have held := inductionHypothesis newestBefore
        have isOther : uri ≠ last.uri := by
          rintro rfl
          exact stays ⟨tree, held, rfl⟩
        rw [tree?_perform_of_ne isOther]
        exact held

theorem interface?_performAll_eq_some_iff (root : String) (operations : List Operation)
    (name : String) (interface : Interface) :
    ((new root).performAll operations).interface? name = some interface ↔
      ∃ uri tree, (new root).IsNewest operations uri tree ∧ tree.name = name ∧
        interface = .ofModule tree := by
  induction operations using List.reverseRecOn with
  | nil => simp [performAll, new, interface?, IsNewest]
  | append_singleton operations last inductionHypothesis =>
      rw [performAll_concat, interface?_perform_eq_some_iff, inductionHypothesis]
      simp only [isNewest_concat_iff]
      constructor
      · rintro (⟨uri, tree, isInsert, itsName, itsInterface⟩ |
          ⟨bringsNot, ⟨uri, tree, newest, rfl, itsInterface⟩, stays⟩)
        · exact ⟨uri, tree, .inl isInsert, itsName, itsInterface⟩
        · exact ⟨uri, tree, .inr ⟨newest, bringsNot, stays⟩, rfl, itsInterface⟩
      · rintro ⟨uri, tree, isInsert | ⟨newest, bringsNot, stays⟩, rfl, itsInterface⟩
        · exact .inl ⟨uri, tree, isInsert, rfl, itsInterface⟩
        · exact .inr ⟨bringsNot, ⟨uri, tree, newest, rfl, itsInterface⟩, stays⟩

/-- An interface is known under a name exactly when it is that of the newest tree of the name, which
some file then holds. -/
theorem interface_is_of_newest_tree_held (root : String) (operations : List Operation)
    (name : String) (interface : Interface) :
    ((new root).performAll operations).interface? name = some interface ↔
      ∃ uri tree, ((new root).performAll operations).tree? uri = some tree ∧ tree.name = name ∧
        interface = .ofModule tree ∧ (new root).IsNewest operations uri tree := by
  rw [interface?_performAll_eq_some_iff]
  constructor
  · rintro ⟨uri, tree, newest, itsName, itsInterface⟩
    exact ⟨uri, tree, newest.held, itsName, itsInterface, newest⟩
  · rintro ⟨uri, tree, _, itsName, itsInterface, newest⟩
    exact ⟨uri, tree, newest, itsName, itsInterface⟩

/-! ### Two files of one name -/

def firstMain : Uri := ⟨"file:///project/A.elm"⟩

def secondMain : Uri := ⟨"file:///project/B.elm"⟩

/-- A module without a header, so that its name is `Main`. -/
def headless : Module := ⟨none, [], [], default⟩

/-- Both files hold a module of the same name, and the second one is removed. -/
def secondRemoved : List Operation :=
  [.insert firstMain headless, .insert secondMain headless, .remove secondMain]

theorem first_lacks_interface_after_second_left :
    ((new "/project").performAll secondRemoved).tree? firstMain = some headless ∧
      ∃ before operation since, secondRemoved = before ++ operation :: since ∧
        operation.uri ≠ firstMain ∧ ((new "/project").performAll before).Ousts operation "Main" ∧
        ∀ later ∈ operation :: since, ¬ later.Brings "Main" := by
  have held : ((new "/project").performAll secondRemoved).tree? firstMain = some headless := rfl
  exact ⟨held, (interface_missing_iff_namesake_left "/project" secondRemoved held).mp rfl⟩

/-- A file that is held and was never touched again is without the interface of its module. -/
theorem removed_namesake_takes_interface :
    ((new "/project").performAll secondRemoved).tree? firstMain = some headless ∧
      ((new "/project").performAll secondRemoved).interface? headless.name = none :=
  ⟨rfl, rfl⟩

end ElmDiagnostics.Folder
