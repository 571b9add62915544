import ElmDiagnostics.Proofs.QuickFix
import Mathlib.Data.List.Forall2

/-!
Contract: which payloads hold which fix.

Owns: the spellings of a fix, level by level; that the reader takes these and nothing else; the
stored form, said without the writer; and that every payload with a fix is brought to the stored
form of that fix by reading and storing it once.

Does not own: what a fix does to a file.

A position, a range, an edit and a fix may each be spelled as an object, among other members, or as
the array of its parts, independently of the levels above and below. The stored form leaves no such
choice.
-/

set_option autoImplicit false

namespace ElmDiagnostics.QuickFix

/-! ### Spellings -/

/-- The value spells a structure of two parts: as the array of them, or as an object that has them
under their names. -/
inductive SpellsPair (first second : String) (firstPart secondPart : Json) : Json → Prop where
  | array : SpellsPair first second firstPart secondPart (.array [firstPart, secondPart])
  | object {members : List (String × Json)} (hasFirst : members.lookup first = some firstPart)
      (hasSecond : members.lookup second = some secondPart) :
      SpellsPair first second firstPart secondPart (.object members)

/-- The value spells the position. -/
def SpellsPosition (value : Json) (position : Position) : Prop :=
  SpellsPair "line" "character" (.integer position.line.toNat) (.integer position.column.toNat)
    value

/-- The value spells the range. -/
def SpellsRange (value : Json) (range : Span) : Prop :=
  ∃ start stop, SpellsPair "start" "end" start stop value ∧
    SpellsPosition start range.start ∧ SpellsPosition stop range.stop

/-- The value spells the edit. -/
def SpellsEdit (value : Json) (edit : TextEdit) : Prop :=
  ∃ range, SpellsPair "range" "newText" range (.string edit.newText) value ∧
    SpellsRange range edit.range

/-- The value spells the fix. An object may leave the preference out, an array may not. -/
inductive SpellsFix : Json → QuickFix → Prop where
  | array {title : String} {isPreferred : Bool} {items : List Json} {edits : List TextEdit}
      (spellsEdits : List.Forall₂ SpellsEdit items edits) :
      SpellsFix (.array [.string title, .bool isPreferred, .array items])
        ⟨title, isPreferred, edits⟩
  | object {members : List (String × Json)} {title : String} {isPreferred : Bool}
      {items : List Json} {edits : List TextEdit}
      (hasTitle : members.lookup "title" = some (.string title))
      (hasPreference : members.lookup "isPreferred" = some (.bool isPreferred))
      (hasEdits : members.lookup "edits" = some (.array items))
      (spellsEdits : List.Forall₂ SpellsEdit items edits) :
      SpellsFix (.object members) ⟨title, isPreferred, edits⟩
  | withoutPreference {members : List (String × Json)} {title : String} {items : List Json}
      {edits : List TextEdit} (hasTitle : members.lookup "title" = some (.string title))
      (noPreference : members.lookup "isPreferred" = none)
      (hasEdits : members.lookup "edits" = some (.array items))
      (spellsEdits : List.Forall₂ SpellsEdit items edits) :
      SpellsFix (.object members) ⟨title, false, edits⟩

/-- The payload has a spelling of the fix under the key. -/
def Spells (payload : Json) (fix : QuickFix) : Prop :=
  ∃ members value, payload = .object members ∧ members.lookup payloadKey = some value ∧
    SpellsFix value fix

/-! ### The reader takes the spellings -/

theorem pair?_eq_some_iff {first second : String} {value : Json} {parts : Json × Json} :
    pair? first second value = some parts ↔
      SpellsPair first second parts.1 parts.2 value := by
  constructor
  · intro read
    unfold pair? at read
    split at read
    next firstPart secondPart =>
      cases read
      exact .array
    next members =>
      obtain ⟨firstPart, hasFirst, rest⟩ := Option.bind_eq_some_iff.mp read
      obtain ⟨secondPart, hasSecond, returned⟩ := Option.bind_eq_some_iff.mp rest
      cases returned
      exact .object hasFirst hasSecond
    next => exact absurd read (by simp)
  · rintro (_ | ⟨hasFirst, hasSecond⟩)
    · rfl
    · simp [pair?, hasFirst, hasSecond]

theorem string?_eq_some_iff {value : Json} {text : String} :
    string? value = some text ↔ value = .string text := by
  cases value <;> simp [string?]

theorem bool?_eq_some_iff {value : Json} {truth : Bool} :
    bool? value = some truth ↔ value = .bool truth := by
  cases value <;> simp [bool?]

theorem coordinate?_eq_some_iff {value : Json} {coordinate : UInt32} :
    coordinate? value = some coordinate ↔ value = .integer coordinate.toNat := by
  constructor
  · intro read
    unfold coordinate? at read
    split at read
    next number =>
      split at read
      next fits =>
        cases read
        rw [UInt32.toNat_ofNat_of_lt' fits]
        rfl
      next => exact absurd read (by simp)
    next => exact absurd read (by simp)
  · rintro rfl
    exact coordinate?_integer coordinate

theorem position?_eq_some_iff {value : Json} {position : Position} :
    position? value = some position ↔ SpellsPosition value position := by
  obtain ⟨line, column⟩ := position
  simp [position?, SpellsPosition, Option.bind_eq_some_iff, pair?_eq_some_iff,
    coordinate?_eq_some_iff]

theorem range?_eq_some_iff {value : Json} {range : Span} :
    range? value = some range ↔ SpellsRange value range := by
  obtain ⟨start, stop⟩ := range
  simp [range?, SpellsRange, Option.bind_eq_some_iff, pair?_eq_some_iff, position?_eq_some_iff]

theorem edit?_eq_some_iff {value : Json} {edit : TextEdit} :
    edit? value = some edit ↔ SpellsEdit value edit := by
  obtain ⟨range, newText⟩ := edit
  simp [edit?, SpellsEdit, Option.bind_eq_some_iff, pair?_eq_some_iff, range?_eq_some_iff,
    string?_eq_some_iff]

theorem mapM_edit?_eq_some_iff {items : List Json} {edits : List TextEdit} :
    items.mapM edit? = some edits ↔ List.Forall₂ SpellsEdit items edits := by
  induction items generalizing edits with
  | nil => simp [eq_comm]
  | cons item rest inductionHypothesis =>
      rw [List.mapM_cons, List.forall₂_cons_left_iff]
      simp only [bind, pure, Option.bind_eq_some_iff, Option.some.injEq, edit?_eq_some_iff,
        inductionHypothesis]
      constructor
      · rintro ⟨edit, spellsEdit, others, spellOthers, rfl⟩
        exact ⟨edit, others, spellsEdit, spellOthers, rfl⟩
      · rintro ⟨edit, others, spellsEdit, spellOthers, rfl⟩
        exact ⟨edit, spellsEdit, others, spellOthers, rfl⟩

theorem edits?_eq_some_iff {value : Json} {edits : List TextEdit} :
    edits? value = some edits ↔
      ∃ items, value = .array items ∧ List.Forall₂ SpellsEdit items edits := by
  cases value <;> simp [edits?, mapM_edit?_eq_some_iff]

theorem ofParts?_eq_some_iff {title isPreferred edits : Json} {fix : QuickFix} :
    ofParts? title isPreferred edits = some fix ↔
      title = .string fix.title ∧ isPreferred = .bool fix.isPreferred ∧
        ∃ items, edits = .array items ∧ List.Forall₂ SpellsEdit items fix.edits := by
  simp only [ofParts?, bind, pure, Option.bind_eq_some_iff, Option.some.injEq,
    string?_eq_some_iff, bool?_eq_some_iff, edits?_eq_some_iff]
  constructor
  · rintro ⟨_, rfl, _, rfl, _, spellsEdits, rfl⟩
    exact ⟨rfl, rfl, spellsEdits⟩
  · rintro ⟨rfl, rfl, spellsEdits⟩
    exact ⟨_, rfl, _, rfl, _, spellsEdits, rfl⟩

theorem spellsFix_of_ofJson? {value : Json} {fix : QuickFix} (read : ofJson? value = some fix) :
    SpellsFix value fix := by
  unfold ofJson? at read
  split at read
  next title isPreferred edits =>
    obtain ⟨rfl, rfl, items, rfl, spellsEdits⟩ := ofParts?_eq_some_iff.mp read
    exact .array spellsEdits
  next members =>
    obtain ⟨title, hasTitle, rest⟩ := Option.bind_eq_some_iff.mp read
    obtain ⟨edits, hasEdits, readParts⟩ := Option.bind_eq_some_iff.mp rest
    obtain ⟨rfl, preference, items, rfl, spellsEdits⟩ := ofParts?_eq_some_iff.mp readParts
    obtain ⟨itsTitle, itsPreference, itsEdits⟩ := fix
    cases stated : members.lookup "isPreferred" with
    | none =>
        rw [stated] at preference
        cases preference
        exact .withoutPreference hasTitle stated hasEdits spellsEdits
    | some written =>
        rw [stated] at preference
        cases preference
        exact .object hasTitle stated hasEdits spellsEdits
  next => exact absurd read (by simp)

theorem ofJson?_eq_some_iff {value : Json} {fix : QuickFix} :
    ofJson? value = some fix ↔ SpellsFix value fix := by
  refine ⟨spellsFix_of_ofJson?, ?_⟩
  rintro (spellsEdits | ⟨hasTitle, stated, hasEdits, spellsEdits⟩ |
    ⟨hasTitle, stated, hasEdits, spellsEdits⟩)
  · exact ofParts?_eq_some_iff.mpr ⟨rfl, rfl, _, rfl, spellsEdits⟩
  · simp only [ofJson?, hasTitle, stated, hasEdits, bind, Option.bind_some, Option.getD_some]
    exact ofParts?_eq_some_iff.mpr ⟨rfl, rfl, _, rfl, spellsEdits⟩
  · simp only [ofJson?, hasTitle, stated, hasEdits, bind, Option.bind_some, Option.getD_none]
    exact ofParts?_eq_some_iff.mpr ⟨rfl, rfl, _, rfl, spellsEdits⟩

theorem ofPayload?_eq_some_iff {payload : Json} {fix : QuickFix} :
    ofPayload? payload = some fix ↔ Spells payload fix := by
  simp only [ofPayload?, Spells, Option.bind_eq_some_iff, ofJson?_eq_some_iff]
  constructor
  · rintro ⟨value, isMember, spellsFix⟩
    cases payload with
    | object members => exact ⟨members, value, rfl, isMember, spellsFix⟩
    | _ => exact absurd isMember (by simp [Json.member?])
  · rintro ⟨members, value, rfl, isMember, spellsFix⟩
    exact ⟨value, isMember, spellsFix⟩

/-! ### The stored form -/

/-- The value is an object of exactly these members, in this order, each in the form that goes with
its name. -/
def IsObjectOf (forms : List (String × (Json → Prop))) (value : Json) : Prop :=
  ∃ members, value = .object members ∧
    List.Forall₂ (fun form member => member.1 = form.1 ∧ form.2 member.2) forms members

def IsCoordinate (value : Json) : Prop :=
  ∃ number : Nat, number < UInt32.size ∧ value = .integer number

def IsText (value : Json) : Prop := ∃ text, value = .string text

def IsTruthValue (value : Json) : Prop := ∃ truth, value = .bool truth

def IsListOf (form : Json → Prop) (value : Json) : Prop :=
  ∃ items, value = .array items ∧ ∀ item ∈ items, form item

def IsStoredPosition : Json → Prop :=
  IsObjectOf [("character", IsCoordinate), ("line", IsCoordinate)]

def IsStoredRange : Json → Prop :=
  IsObjectOf [("end", IsStoredPosition), ("start", IsStoredPosition)]

def IsStoredEdit : Json → Prop := IsObjectOf [("newText", IsText), ("range", IsStoredRange)]

def IsStoredFix : Json → Prop :=
  IsObjectOf [("edits", IsListOf IsStoredEdit), ("isPreferred", IsTruthValue), ("title", IsText)]

/-- The payload is in stored form: an object at every level, with every member in the order of names
and no others. -/
def IsStored : Json → Prop := IsObjectOf [(payloadKey, IsStoredFix)]

theorem isObjectOf_pair_iff {first second : String} {firstForm secondForm : Json → Prop}
    {value : Json} :
    IsObjectOf [(first, firstForm), (second, secondForm)] value ↔
      ∃ firstPart secondPart, value = .object [(first, firstPart), (second, secondPart)] ∧
        firstForm firstPart ∧ secondForm secondPart := by
  simp only [IsObjectOf, List.forall₂_cons_left_iff, List.forall₂_nil_left_iff, Prod.exists]
  constructor
  · rintro ⟨_, rfl, _, firstPart, _, ⟨rfl, isFirst⟩, ⟨_, secondPart, _, ⟨rfl, isSecond⟩, rfl, rfl⟩,
      rfl⟩
    exact ⟨firstPart, secondPart, rfl, isFirst, isSecond⟩
  · rintro ⟨firstPart, secondPart, rfl, isFirst, isSecond⟩
    exact ⟨_, rfl, first, firstPart, _, ⟨rfl, isFirst⟩, ⟨second, secondPart, _, ⟨rfl, isSecond⟩,
      rfl, rfl⟩, rfl⟩

/-- A structure of two parts in stored form has them under their names, the second one first. -/
theorem eq_of_spellsPair {first second : String} {firstForm secondForm : Json → Prop}
    (different : first ≠ second) {value firstPart secondPart : Json}
    (isStored : IsObjectOf [(second, secondForm), (first, firstForm)] value)
    (spells : SpellsPair first second firstPart secondPart value) :
    value = .object [(second, secondPart), (first, firstPart)] ∧ firstForm firstPart ∧
      secondForm secondPart := by
  obtain ⟨storedSecond, storedFirst, rfl, isSecond, isFirst⟩ := isObjectOf_pair_iff.mp isStored
  cases spells with
  | object hasFirst hasSecond =>
      have notSecond : (first == second) = false := beq_false_of_ne different
      simp only [List.lookup_cons, notSecond, beq_self_eq_true, Option.some.injEq]
        at hasFirst hasSecond
      subst hasFirst hasSecond
      exact ⟨rfl, isFirst, isSecond⟩

theorem eq_positionJson {value : Json} {position : Position} (isStored : IsStoredPosition value)
    (spells : SpellsPosition value position) : value = positionJson position :=
  (eq_of_spellsPair (by decide) isStored spells).1

theorem eq_rangeJson {value : Json} {range : Span} (isStored : IsStoredRange value)
    (spells : SpellsRange value range) : value = rangeJson range := by
  obtain ⟨start, stop, spellsPair, spellsStart, spellsStop⟩ := spells
  obtain ⟨rfl, startStored, stopStored⟩ := eq_of_spellsPair (by decide) isStored spellsPair
  rw [eq_positionJson startStored spellsStart, eq_positionJson stopStored spellsStop]
  rfl

theorem eq_editJson {value : Json} {edit : TextEdit} (isStored : IsStoredEdit value)
    (spells : SpellsEdit value edit) : value = editJson edit := by
  obtain ⟨range, spellsPair, spellsRange⟩ := spells
  obtain ⟨rfl, rangeStored, _⟩ := eq_of_spellsPair (by decide) isStored spellsPair
  rw [eq_rangeJson rangeStored spellsRange]
  rfl

theorem eq_map_editJson {items : List Json} {edits : List TextEdit}
    (areStored : ∀ item ∈ items, IsStoredEdit item)
    (spellsEdits : List.Forall₂ SpellsEdit items edits) : items = edits.map editJson := by
  induction spellsEdits with
  | nil => rfl
  | cons spellsEdit _ inductionHypothesis =>
      obtain ⟨isStored, restStored⟩ := List.forall_mem_cons.mp areStored
      rw [List.map_cons, eq_editJson isStored spellsEdit, inductionHypothesis restStored]

theorem eq_toJson {value : Json} {fix : QuickFix} (isStored : IsStoredFix value)
    (spells : SpellsFix value fix) : value = fix.toJson := by
  obtain ⟨members, rfl, haveForms⟩ := isStored
  simp only [List.forall₂_cons_left_iff, List.forall₂_nil_left_iff, Prod.exists] at haveForms
  obtain ⟨_, _, _, ⟨rfl, storedItems, rfl, areStored⟩, ⟨_, _, _, ⟨rfl, storedPreference, rfl⟩,
    ⟨_, _, _, ⟨rfl, storedTitle, rfl⟩, rfl, rfl⟩, rfl⟩, rfl⟩ := haveForms
  cases spells with
  | object hasTitle hasPreference hasEdits spellsEdits =>
      cases hasTitle
      cases hasPreference
      cases hasEdits
      rw [eq_map_editJson areStored spellsEdits]
      rfl
  | withoutPreference _ noPreference => cases noPreference

theorem eq_toPayload {payload : Json} {fix : QuickFix} (isStored : IsStored payload)
    (spells : Spells payload fix) : payload = fix.toPayload := by
  obtain ⟨members, rfl, haveForms⟩ := isStored
  simp only [List.forall₂_cons_left_iff, List.forall₂_nil_left_iff, Prod.exists] at haveForms
  obtain ⟨_, value, _, ⟨rfl, valueStored⟩, rfl, rfl⟩ := haveForms
  obtain ⟨_, _, samePayload, isMember, spellsFix⟩ := spells
  cases samePayload
  cases isMember
  rw [eq_toJson valueStored spellsFix]
  rfl

theorem isCoordinate_integer (coordinate : UInt32) : IsCoordinate (.integer coordinate.toNat) :=
  ⟨coordinate.toNat, coordinate.toNat_lt, rfl⟩

theorem isStoredPosition_positionJson (position : Position) :
    IsStoredPosition (positionJson position) :=
  isObjectOf_pair_iff.mpr ⟨_, _, rfl, isCoordinate_integer _, isCoordinate_integer _⟩

theorem isStoredEdit_editJson (edit : TextEdit) : IsStoredEdit (editJson edit) := by
  have rangeStored : IsStoredRange (rangeJson edit.range) :=
    isObjectOf_pair_iff.mpr
      ⟨_, _, rfl, isStoredPosition_positionJson _, isStoredPosition_positionJson _⟩
  exact isObjectOf_pair_iff.mpr ⟨_, _, rfl, ⟨_, rfl⟩, rangeStored⟩

theorem isStored_toPayload (fix : QuickFix) : IsStored fix.toPayload := by
  have editsStored : IsListOf IsStoredEdit (.array (fix.edits.map editJson)) := by
    refine ⟨_, rfl, ?_⟩
    intro item isItem
    obtain ⟨edit, _, rfl⟩ := List.mem_map.mp isItem
    exact isStoredEdit_editJson edit
  have fixStored : IsStoredFix fix.toJson :=
    ⟨_, rfl, .cons ⟨rfl, editsStored⟩ (.cons ⟨rfl, _, rfl⟩ (.cons ⟨rfl, _, rfl⟩ .nil))⟩
  exact ⟨_, rfl, .cons ⟨rfl, fixStored⟩ .nil⟩

/-! ### Reading and storing again -/

/-- The payload of the fix that was read, stored anew. -/
def restored? (payload : Json) : Option Json := (ofPayload? payload).map toPayload

/-- A stored fix reads back as it was. The payloads with a fix are the spellings of it, and
whichever spelling a payload has, storing the fix anew gives the only one in stored form: it holds
the same fix, and it does not change when it is read and stored again. -/
theorem storing_is_canonical :
    (∀ fix, ofPayload? fix.toPayload = some fix) ∧
    (∀ payload fix, ofPayload? payload = some fix ↔ Spells payload fix) ∧
    ∀ payload fix, ofPayload? payload = some fix →
      ∃ stored, restored? payload = some stored ∧ ofPayload? stored = some fix ∧
        restored? stored = some stored ∧ IsStored stored ∧
        ∀ other, IsStored other → Spells other fix → other = stored := by
  refine ⟨ofPayload?_toPayload, fun _ _ => ofPayload?_eq_some_iff, ?_⟩
  intro payload fix read
  have readBack := ofPayload?_toPayload fix
  refine ⟨fix.toPayload, ?_, readBack, ?_, isStored_toPayload fix, ?_⟩
  · rw [restored?, read, Option.map_some]
  · rw [restored?, readBack, Option.map_some]
  · exact fun other isStored spells => eq_toPayload isStored spells

/-- Arrays and objects may be mixed, and members that mean nothing are passed over. -/
example :
    ofPayload? (.object [(payloadKey, .object [
      ("edits", .array [.array [
        .array [.array [.integer 4294967295, .integer 3],
          .object [("character", .integer 0), ("line", .integer 1), ("note", .null)]],
        .string ""]]),
      ("title", .string "Tidy")])]) =
      some ⟨"Tidy", false, [.delete ⟨⟨4294967295, 3⟩, ⟨1, 0⟩⟩]⟩ := by
  rfl

end ElmDiagnostics.QuickFix
