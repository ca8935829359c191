import VersionStamp.Inquiry

namespace VersionStamp

/-!
# Rehearsals

A rehearsed repository answers from facts set beforehand and keeps a log of the queries. At most
one query is set to fail; it is logged all the same. A rehearsal is a run of steps on one such
repository, the files around it and the declaration in force.
-/

structure RehearsedRepository where
  topLevel : Text := "top"
  tags : List Text := []
  date : Text := "2020-07-02"
  hash : Text := "4f336a2"
  /-- The query that fails, with the status and the error text of its failure. -/
  failing : Option (Query × Int × Text) := none
  deriving DecidableEq

namespace RehearsedRepository

/-- The answer to a query, unless it is set to fail. -/
def reply {α : Type} (r : RehearsedRepository) (q : Query) (answer : α) : Except Failure α :=
  match r.failing with
  | some (failing, status, stderr) =>
      if failing = q then .error (.tool q.name status stderr) else .ok answer
  | none => .ok answer

def repository (r : RehearsedRepository) : Repository where
  topLevel := r.reply .topLevel r.topLevel
  tagsAtHead := r.reply .tagsAtHead ⟨r.tags⟩
  commitDate := r.reply .commitDate r.date
  shortHash := r.reply .shortHash r.hash

end RehearsedRepository

namespace Rehearsal

structure State where
  repository : RehearsedRepository := {}
  files : Files := {}
  declaration : Declaration := {}
  /-- The queries so far, in order. -/
  log : List Query := []

inductive Step where
  | inquire (i : Inquiry)
  /-- Read the base version from the file that a path names. -/
  | read (path : Text)
  /-- Tell the queries so far. -/
  | queries
  | addTag (name : Text)
  | setHead (date hash : Text)
  | failOn (q : Query) (status : Int) (stderr : Text)
  | setDeclaration (d : Declaration)
  | write (path : Text) (content : Bytes)
  | makeDirectory (path : Text)
  | remove (path : Text)

def step (s : State) : Step → State × Answer
  | .inquire i =>
      let (asked, answer) := i.answer s.repository.repository s.files s.declaration
      ({ s with log := s.log ++ asked }, answer)
  | .read path =>
      (s, .ofResult .baseVersion (Repository.readDeclaration s.files s.declaration path))
  | .queries => (s, .queries s.log)
  | .addTag name =>
      ({ s with repository := { s.repository with tags := s.repository.tags ++ [name] } }, .done)
  | .setHead date hash =>
      ({ s with repository := { s.repository with date := date, hash := hash } }, .done)
  | .failOn q status stderr =>
      ({ s with repository := { s.repository with failing := some (q, status, stderr) } }, .done)
  | .setDeclaration d => ({ s with declaration := d }, .done)
  | .write path content => ({ s with files := s.files.writePath path content }, .done)
  | .makeDirectory path => ({ s with files := s.files.makePath path }, .done)
  | .remove path => ({ s with files := s.files.remove (s.files.locate path) }, .done)

def run (s : State) : List Step → State × List Answer
  | [] => (s, [])
  | first :: rest =>
      let (next, answer) := step s first
      let (last, answers) := run next rest
      (last, answer :: answers)

theorem run_append (s : State) (front back : List Step) :
    run s (front ++ back) =
      ((run (run s front).1 back).1, (run s front).2 ++ (run (run s front).1 back).2) := by
  induction front generalizing s with
  | nil => rfl
  | cons first front ih => simp only [List.cons_append, run, ih]

@[simp] theorem length_answers (s : State) (steps : List Step) :
    (run s steps).2.length = steps.length := by
  induction steps generalizing s with
  | nil => rfl
  | cons first steps ih => simp only [run, List.length_cons, ih]

/-- A step is answered from the state that the steps in front of it lead to. -/
theorem getElem?_answers (s : State) (before : List Step) (x : Step) (after : List Step) :
    (run s (before ++ x :: after)).2[before.length]? = some (step (run s before).1 x).2 := by
  have hlength := length_answers s before
  rw [run_append, List.getElem?_append_right (Nat.le_of_eq hlength), hlength, Nat.sub_self]
  rfl

end Rehearsal

end VersionStamp
