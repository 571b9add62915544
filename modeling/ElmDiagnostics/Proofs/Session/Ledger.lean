import Mathlib.Data.List.Basic

/-!
Contract: questions that are answered once each, in any order.

Owns: the ledger of what was asked and what came back, which questions wait, how a ledger grows, the
results it holds in the order they came, and when the result that came last is that of the question
asked last.

Does not own: what is asked, and what an answer does.
-/

set_option autoImplicit false

namespace ElmDiagnostics

/-- An answered question. -/
structure Completion (Question Answer : Type) where
  ticket : Nat
  question : Question
  answer : Answer

/-- What was asked, in order, each question known by its place in that order; and what came back,
in the order it came. -/
structure Ledger (Question Answer : Type) where
  asked : List Question
  completed : List (Completion Question Answer)
  genuine : ∀ completion ∈ completed, asked[completion.ticket]? = some completion.question
  once : (completed.map (·.ticket)).Nodup

/-- The result of an answer to a question that `about` picks, unless the answer is a failure. -/
def Completion.result? {Question Error Result : Type} (about : Question → Bool)
    (completion : Completion Question (Except Error Result)) : Option (Nat × Result) :=
  match completion.answer with
  | .ok result => if about completion.question then some (completion.ticket, result) else none
  | .error _ => none

theorem Completion.result?_eq_some_iff {Question Error Result : Type} (about : Question → Bool)
    (completion : Completion Question (Except Error Result)) (ticket : Nat) (result : Result) :
    completion.result? about = some (ticket, result) ↔
      completion.ticket = ticket ∧ completion.answer = .ok result ∧
        about completion.question = true := by
  obtain ⟨itsTicket, question, answer⟩ := completion
  cases answer with
  | ok itsResult => by_cases isAbout : about question <;> simp [result?, isAbout]
  | error cause => simp [result?]

namespace Ledger

variable {Question Answer : Type}

def empty : Ledger Question Answer := ⟨[], [], by simp, by simp⟩

def ask (ledger : Ledger Question Answer) (question : Question) : Ledger Question Answer where
  asked := ledger.asked ++ [question]
  completed := ledger.completed
  genuine := by
    intro completion isCompleted
    have known := ledger.genuine completion isCompleted
    rw [List.getElem?_append_left (List.getElem?_eq_some_iff.mp known).1]
    exact known
  once := ledger.once

/-- Takes the answer to a question that has none yet, and says which question it was. -/
def answer? (ledger : Ledger Question Answer) (ticket : Nat) (answer : Answer) :
    Option (Question × Ledger Question Answer) :=
  if answered : ticket ∈ ledger.completed.map (·.ticket) then none
  else
    match found : ledger.asked[ticket]? with
    | none => none
    | some question =>
        some (question, {
          asked := ledger.asked
          completed := ledger.completed ++ [⟨ticket, question, answer⟩]
          genuine := by
            intro completion isCompleted
            rcases List.mem_append.mp isCompleted with before | new
            · exact ledger.genuine completion before
            · rw [List.mem_singleton.mp new]
              exact found
          once := by
            rw [List.map_append, List.map_singleton, List.nodup_append]
            refine ⟨ledger.once, by simp, ?_⟩
            rintro earlier isEarlier _ isNew rfl
            rw [List.mem_singleton.mp isNew] at isEarlier
            exact answered isEarlier })

theorem answer?_eq_some {ledger later : Ledger Question Answer} {ticket : Nat} {answer : Answer}
    {question : Question} (accepted : ledger.answer? ticket answer = some (question, later)) :
    later.asked = ledger.asked ∧
      later.completed = ledger.completed ++ [⟨ticket, question, answer⟩] := by
  unfold answer? at accepted
  split at accepted
  · exact absurd accepted (by simp)
  · split at accepted
    · exact absurd accepted (by simp)
    · obtain ⟨rfl, rfl⟩ := Prod.mk.inj (Option.some.inj accepted)
      exact ⟨rfl, rfl⟩

/-! ### Questions that wait -/

/-- The question was asked under this ticket and has no answer yet. -/
def Waits (ledger : Ledger Question Answer) (ticket : Nat) (question : Question) : Prop :=
  ledger.asked[ticket]? = some question ∧ ticket ∉ ledger.completed.map (·.ticket)

theorem waits_of_answer {ledger later : Ledger Question Answer} {ticket : Nat} {answer : Answer}
    {question : Question} (accepted : ledger.answer? ticket answer = some (question, later)) :
    ledger.Waits ticket question := by
  unfold answer? at accepted
  split at accepted
  · exact absurd accepted (by simp)
  next unanswered =>
    split at accepted
    · exact absurd accepted (by simp)
    next found =>
      rw [(Prod.mk.inj (Option.some.inj accepted)).1] at found
      exact ⟨found, unanswered⟩

theorem Waits.exists_answer {ledger : Ledger Question Answer} {ticket : Nat} {question : Question}
    (waits : ledger.Waits ticket question) (answer : Answer) :
    ∃ later, ledger.answer? ticket answer = some (question, later) := by
  unfold answer?
  rw [dif_neg waits.2]
  split
  next missing => exact absurd (missing.symm.trans waits.1) (by simp)
  next found =>
    obtain rfl := Option.some.inj (found.symm.trans waits.1)
    exact ⟨_, rfl⟩

theorem mem_asked_of_answer {ledger later : Ledger Question Answer} {ticket : Nat}
    {answer : Answer} {question : Question}
    (accepted : ledger.answer? ticket answer = some (question, later)) :
    question ∈ ledger.asked :=
  List.mem_of_getElem? (waits_of_answer accepted).1

theorem mem_completed_of_answer {ledger later : Ledger Question Answer} {ticket : Nat}
    {answer : Answer} {question : Question}
    (accepted : ledger.answer? ticket answer = some (question, later)) :
    ⟨ticket, question, answer⟩ ∈ later.completed := by
  rw [(answer?_eq_some accepted).2]
  exact List.mem_append_right _ (List.mem_singleton_self _)

/-! ### Growth -/

theorem asked_foldl_ask (ledger : Ledger Question Answer) (questions : List Question) :
    (questions.foldl ask ledger).asked = ledger.asked ++ questions := by
  induction questions generalizing ledger with
  | nil => simp
  | cons question rest inductionHypothesis => simp [inductionHypothesis, ask]

theorem completed_foldl_ask (ledger : Ledger Question Answer) (questions : List Question) :
    (questions.foldl ask ledger).completed = ledger.completed := by
  induction questions generalizing ledger with
  | nil => rfl
  | cons question rest inductionHypothesis => exact inductionHypothesis (ledger.ask question)

/-- The later ledger goes on from the earlier one, and all that was asked since is `new`. -/
structure Grew (new : Question → Prop) (earlier later : Ledger Question Answer) : Prop where
  asked : ∃ since, later.asked = earlier.asked ++ since ∧ ∀ question ∈ since, new question
  completed : earlier.completed <+: later.completed

section Growth

variable {new : Question → Prop} {earlier middle later : Ledger Question Answer}

theorem Grew.refl (ledger : Ledger Question Answer) : Grew new ledger ledger :=
  ⟨⟨[], by simp⟩, List.prefix_rfl⟩

theorem Grew.trans (first : Grew new earlier middle) (second : Grew new middle later) :
    Grew new earlier later := by
  obtain ⟨sinceEarlier, askedFirst, newFirst⟩ := first.asked
  obtain ⟨sinceMiddle, askedSecond, newSecond⟩ := second.asked
  refine ⟨⟨sinceEarlier ++ sinceMiddle, ?_, ?_⟩, first.completed.trans second.completed⟩
  · rw [askedSecond, askedFirst, List.append_assoc]
  · intro question isNew
    rcases List.mem_append.mp isNew with isFirst | isSecond
    · exact newFirst question isFirst
    · exact newSecond question isSecond

theorem grew_foldl_ask (ledger : Ledger Question Answer) {questions : List Question}
    (allNew : ∀ question ∈ questions, new question) :
    Grew new ledger (questions.foldl ask ledger) := by
  refine ⟨⟨questions, asked_foldl_ask ledger questions, allNew⟩, [], ?_⟩
  rw [completed_foldl_ask, List.append_nil]

theorem grew_ask (ledger : Ledger Question Answer) {question : Question} (isNew : new question) :
    Grew new ledger (ledger.ask question) :=
  ⟨⟨[question], rfl, by simpa using isNew⟩, List.prefix_rfl⟩

theorem grew_of_answer {ticket : Nat} {answer : Answer} {question : Question}
    (accepted : earlier.answer? ticket answer = some (question, later)) :
    Grew new earlier later := by
  obtain ⟨sameAsked, completed⟩ := answer?_eq_some accepted
  refine ⟨⟨[], by simpa using sameAsked⟩, ?_⟩
  rw [completed]
  exact List.prefix_append _ _

/-- If nothing was asked until the later point, nothing was asked until the middle one. -/
theorem Grew.nothing_asked (first : Grew new earlier middle) (second : Grew new middle later)
    (sameAsked : later.asked = earlier.asked) : Grew (fun _ => False) earlier middle := by
  obtain ⟨sinceEarlier, askedFirst, _⟩ := first.asked
  obtain ⟨sinceMiddle, askedSecond, _⟩ := second.asked
  have nothing : sinceEarlier ++ sinceMiddle = [] := by
    rw [askedSecond, askedFirst, List.append_assoc] at sameAsked
    exact List.append_right_eq_self.mp sameAsked
  refine ⟨⟨[], ?_, by simp⟩, first.completed⟩
  rw [askedFirst, (List.append_eq_nil_iff.mp nothing).1]

/-- A question that waits and is not new has waited all along. -/
theorem Grew.waits (grew : Grew new earlier later) {ticket : Nat} {question : Question}
    (waits : later.Waits ticket question) (notNew : ¬ new question) :
    earlier.Waits ticket question := by
  obtain ⟨since, asked, allNew⟩ := grew.asked
  obtain ⟨isAsked, unanswered⟩ := waits
  constructor
  · rw [asked, List.getElem?_append] at isAsked
    split at isAsked
    · exact isAsked
    · exact absurd (allNew question (List.mem_of_getElem? isAsked)) notNew
  · intro answered
    exact unanswered ((grew.completed.map _).subset answered)

end Growth

/-- Nothing waits for an answer. -/
def Settled (ledger : Ledger Question Answer) : Prop :=
  ∀ ticket < ledger.asked.length, ticket ∈ ledger.completed.map (·.ticket)

/-- Of the questions that `about` picks, the one with this ticket was asked last. -/
def IsLatest (ledger : Ledger Question Answer) (about : Question → Bool) (ticket : Nat) : Prop :=
  (∃ question, ledger.asked[ticket]? = some question ∧ about question = true) ∧
    ∀ later question, ledger.asked[later]? = some question → about question = true →
      later ≤ ticket

/-! ### Results -/

section Results

variable {Error Result : Type}

/-- The results of the questions that `about` picks, each with its ticket, in the order they
came. Failures have none. -/
def results (ledger : Ledger Question (Except Error Result)) (about : Question → Bool) :
    List (Nat × Result) :=
  ledger.completed.filterMap (Completion.result? about)

theorem results_answer {ledger later : Ledger Question (Except Error Result)} {ticket : Nat}
    {answer : Except Error Result} {question : Question}
    (accepted : ledger.answer? ticket answer = some (question, later)) (about : Question → Bool) :
    later.results about =
      ledger.results about ++ (Completion.result? about ⟨ticket, question, answer⟩).toList := by
  rw [results, (answer?_eq_some accepted).2, List.filterMap_append, results]
  cases itsResult : Completion.result? about ⟨ticket, question, answer⟩ <;> simp [itsResult]

/-- If the results came in the order of the questions, the last one is that of the question that
was asked last. -/
theorem getLast?_results_of_inOrder {ledger : Ledger Question (Except Error Result)}
    {about : Question → Bool} {ticket : Nat} {result : Result}
    (inOrder : (ledger.results about).Pairwise fun earlier later => earlier.1 < later.1)
    (latest : ledger.IsLatest about ticket) (completed : (ticket, result) ∈ ledger.results about) :
    (ledger.results about).getLast? = some (ticket, result) := by
  have noneLater : ∀ entry ∈ ledger.results about, entry.1 ≤ ticket := by
    rintro ⟨other, otherResult⟩ isResult
    obtain ⟨completion, isCompleted, isIts⟩ := List.mem_filterMap.mp isResult
    obtain ⟨rfl, _, isAbout⟩ := (Completion.result?_eq_some_iff _ _ _ _).mp isIts
    exact latest.2 _ _ (ledger.genuine completion isCompleted) isAbout
  obtain ⟨before, after, split⟩ := List.append_of_mem completed
  rw [split] at inOrder noneLater ⊢
  cases after with
  | nil => simp
  | cons next rest =>
      have later := List.rel_of_pairwise_cons (List.pairwise_append.mp inOrder).2.1
        (List.mem_cons_self (a := next) (l := rest))
      have notLater := noneLater next (by simp)
      omega

end Results

end Ledger

end ElmDiagnostics
