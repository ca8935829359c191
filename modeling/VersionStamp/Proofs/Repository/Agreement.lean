import VersionStamp.Proofs.Repository.Printed
import VersionStamp.Proofs.Repository.Runs
import VersionStamp.Proofs.Resolution.Outcome

namespace VersionStamp

/-!
# Agreement of repositories

What is printed of a version depends on the answers alone, and on the top level only through the
path of the declaration. So a git program that prints some facts, a repository that is told them,
and one that closes the top level with a separator come to the same text or the same failure. A
failing run of the program differs from a failing query only in the command that is named.
-/

/-- The failure with another command, if it is that of a program that ended without success. -/
def Failure.withCommand (command : Text) : Failure → Failure
  | .tool _ status stderr => .tool command status stderr
  | why => why

namespace Repository

open Resolution

variable {r : Repository} {files : Files} {d : Declaration} {options : PrintOptions}

theorem result_printedVersion (r : Repository) (files : Files) (d : Declaration)
    (options : PrintOptions) :
    (r.printedVersion files d options).result =
      ((if options.project then (r.baseVersion files d).result.map BaseVersion.text
        else (r.version files d).result.map Version.render).map
          (Version.printed options.newline)) := by
  rw [printedVersion]
  split
  next =>
    rw [bind_eq, result_andThen, result_map]
    cases (r.baseVersion files d).result <;> rfl
  next =>
    rw [bind_eq, result_andThen, result_map]
    cases (r.version files d).result <;> rfl

/-- The same answers with another spelling of the top level that leads to the same file. -/
theorem result_printedVersion_of_join_eq {top top' : Text} (htop : r.topLevel = .ok top)
    (hjoin : Path.join top' d.file = Path.join top d.file) :
    ({ r with topLevel := .ok top' }.printedVersion files d options).result =
      (r.printedVersion files d options).result := by
  have hbase : ({ r with topLevel := .ok top' }.baseVersion files d).result =
      (r.baseVersion files d).result := by
    rw [result_baseVersion, result_baseVersion, htop]
    exact congrArg (readDeclaration files d) hjoin
  simp only [result_printedVersion, result_version, hbase]

end Repository

/-- A separator at the end of a folder makes no difference to the path of a file in it. -/
theorem Path.join_closed {base : Text} (hbase : base ≠ []) (file : Text) :
    join (closed base) file = join base file := by
  rw [closed]
  split
  next => rfl
  next hlast => exact join_append_separator file hbase (by simpa using hlast)

/-! ## Failures of a program -/

section Command

variable {α β : Type} (command : Text)

theorem mapError_ok (f : Failure → Failure) (a : α) :
    (Except.ok a : Except Failure α).mapError f = .ok a := rfl

theorem mapError_error (f : Failure → Failure) (why : Failure) :
    (Except.error why : Except Failure α).mapError f = .error (f why) := rfl

theorem mapError_bind (f : Failure → Failure) (x : Except Failure α)
    (g : α → Except Failure β) :
    (x >>= g).mapError f = x.mapError f >>= fun a => (g a).mapError f := by
  cases x <;> rfl

theorem mapError_map (f : Failure → Failure) (x : Except Failure α) (g : α → β) :
    (x.map g).mapError f = (x.mapError f).map g := by
  cases x <;> rfl

theorem mapError_readDeclaration (files : Files) (d : Declaration) (path : Text) :
    (Repository.readDeclaration files d path).mapError (Failure.withCommand command) =
      Repository.readDeclaration files d path := by
  rw [Repository.readDeclaration]
  split
  next text _ =>
    rw [Declaration.read]
    split
    next value _ =>
      rw [BaseVersion.ofText]
      split <;> rfl
    next => rfl
  next => rfl

end Command

namespace Repository

def withCommand (r : Repository) (command : Text) : Repository where
  topLevel := r.topLevel.mapError (Failure.withCommand command)
  tagsAtHead := r.tagsAtHead.mapError (Failure.withCommand command)
  commitDate := r.commitDate.mapError (Failure.withCommand command)
  shortHash := r.shortHash.mapError (Failure.withCommand command)

variable {r : Repository} {files : Files} {d : Declaration} {options : PrintOptions}
  {command : Text}

theorem result_baseVersion_withCommand :
    ((r.withCommand command).baseVersion files d).result =
      (r.baseVersion files d).result.mapError (Failure.withCommand command) := by
  simp only [result_baseVersion, mapError_bind, mapError_readDeclaration]
  rfl

theorem result_version_withCommand :
    ((r.withCommand command).version files d).result =
      (r.version files d).result.mapError (Failure.withCommand command) := by
  simp only [result_version, result_baseVersion_withCommand, Version.ofAnswers, mapError_bind]
  refine bind_congr fun tags => ?_
  obtain ⟨names⟩ := tags
  rcases names with _ | ⟨tag, _ | ⟨second, more⟩⟩
  · change _ = Except.mapError _ (_ >>= _)
    simp only [mapError_bind]
    rfl
  · rfl
  · rfl

/-- Answers that tell another command in their failures give the same version, or the same failure
with that command. -/
theorem result_printedVersion_withCommand :
    ((r.withCommand command).printedVersion files d options).result =
      (r.printedVersion files d options).result.mapError (Failure.withCommand command) := by
  rw [result_printedVersion, result_printedVersion, result_baseVersion_withCommand,
    result_version_withCommand]
  split <;> simp only [mapError_map]

end Repository

/-! ## Runs of a program -/

def Outcome.Prints (o : Outcome) (lines : List Text) : Prop :=
  ∃ run output, o = .ended run ∧ run.ending = .exited 0 ∧ run.stdout = Utf8.encode output ∧
    Text.IsPrinted lines output

/-- A run that ends with another status than 0, whatever it has printed. -/
structure Outcome.Fails (o : Outcome) (status : Nat) (stderr : Bytes) : Prop where
  ended : ∃ stdout, o = .ended ⟨stdout, stderr, .exited status⟩
  status_ne_zero : status ≠ 0

namespace GitProgram

variable {α : Type} {command : Text} {o : Outcome}

/-- What a program prints as lines is decoded to what the lines say. -/
theorem map_output_of_prints {lines : List Text} {decode : Text → α} {a : α}
    (h : o.Prints lines) (hdecode : ∀ output, Text.IsPrinted lines output → decode output = a) :
    (output command o).map decode = .ok a := by
  obtain ⟨run, printed, rfl, hending, hstdout, hprinted⟩ := h
  have houtput : output command (.ended run) = .ok printed := by
    simp [output, hending, hstdout, Utf8.decode?_encode]
  rw [houtput, Except.map, hdecode printed hprinted]

theorem output_of_fails {status : Nat} {stderr : Bytes} (h : o.Fails status stderr) :
    output command o = .error (.tool command status (Text.trim (Utf8.decodeLossy stderr))) := by
  obtain ⟨⟨stdout, rfl⟩, hstatus⟩ := h
  exact output_of_ending_ne (by simpa using hstatus)

end GitProgram

namespace RehearsedRepository

def lines (r : RehearsedRepository) : Query → List Text
  | .topLevel => [r.topLevel]
  | .tagsAtHead => r.tags
  | .commitDate => [r.date]
  | .shortHash => [r.hash]

/-- Facts that can be read back from the lines on which they are printed. -/
structure IsPrintable (r : RehearsedRepository) : Prop where
  topLevel_ne_nil : r.topLevel ≠ []
  isLine_topLevel : Text.IsLine r.topLevel
  isName_of_mem_tags : ∀ name ∈ r.tags, TagSet.IsName name
  trim_date : Text.trim r.date = r.date
  trim_hash : Text.trim r.hash = r.hash

variable {r : RehearsedRepository} {program : Text} {outcome : Query → Outcome}

theorem IsPrintable.ofOutput (hr : r.IsPrintable) {output : Text}
    (h : Text.IsPrinted r.tags output) : TagSet.ofOutput output = ⟨r.tags⟩ := by
  rw [← TagSet.names_ofOutput_of_isPrinted hr.isName_of_mem_tags h]

/-- A program that prints the facts answers as one that is told them. -/
theorem repository_of_prints (hr : r.IsPrintable) (h : ∀ q, (outcome q).Prints (r.lines q)) :
    GitProgram.repository program outcome = { r with failing := none }.repository := by
  rw [GitProgram.repository, repository, Repository.mk.injEq]
  refine ⟨?_, ?_, ?_, ?_⟩
  · exact GitProgram.map_output_of_prints (h .topLevel) fun _ =>
      Text.joinLines_of_isPrinted hr.isLine_topLevel
  · exact GitProgram.map_output_of_prints (h .tagsAtHead) fun _ => hr.ofOutput
  · exact GitProgram.map_output_of_prints (h .commitDate) fun _ =>
      Text.trim_of_isPrinted hr.trim_date
  · exact GitProgram.map_output_of_prints (h .shortHash) fun _ =>
      Text.trim_of_isPrinted hr.trim_hash

section Failing

variable {failing : Query} {status : Nat} {stderr : Bytes}

/-- The repository in which one query fails as a run of a program does. -/
def failingAt (r : RehearsedRepository) (failing : Query) (status : Nat) (stderr : Bytes) :
    RehearsedRepository :=
  { r with failing := some (failing, status, Text.trim (Utf8.decodeLossy stderr)) }

theorem map_output {α : Type} {q : Query} {decode : Text → α} {a : α}
    (hfails : (outcome failing).Fails status stderr)
    (hprints : q ≠ failing → (outcome q).Prints (r.lines q))
    (hdecode : ∀ output, Text.IsPrinted (r.lines q) output → decode output = a) :
    (GitProgram.output (GitProgram.command program q) (outcome q)).map decode =
      ((r.failingAt failing status stderr).reply q a).mapError
        (Failure.withCommand (GitProgram.command program failing)) := by
  by_cases hq : q = failing
  · subst hq
    rw [GitProgram.output_of_fails hfails]
    simp [reply, failingAt, Except.map, mapError_error, Failure.withCommand]
  · rw [GitProgram.map_output_of_prints (hprints hq) hdecode]
    simp [reply, failingAt, Ne.symm hq, mapError_ok]

/-- A program of which one run fails answers as a repository in which that query fails, but for the
command. -/
theorem repository_of_fails (hr : r.IsPrintable) (hfails : (outcome failing).Fails status stderr)
    (hprints : ∀ q, q ≠ failing → (outcome q).Prints (r.lines q)) :
    GitProgram.repository program outcome =
      (r.failingAt failing status stderr).repository.withCommand
        (GitProgram.command program failing) := by
  rw [GitProgram.repository, Repository.withCommand, Repository.mk.injEq]
  refine ⟨?_, ?_, ?_, ?_⟩
  · exact map_output hfails (hprints .topLevel) fun _ =>
      Text.joinLines_of_isPrinted hr.isLine_topLevel
  · exact map_output hfails (hprints .tagsAtHead) fun _ => hr.ofOutput
  · exact map_output hfails (hprints .commitDate) fun _ => Text.trim_of_isPrinted hr.trim_date
  · exact map_output hfails (hprints .shortHash) fun _ => Text.trim_of_isPrinted hr.trim_hash

end Failing

/-- A program that prints the facts leads to the same text or failure as a repository that is told
them, also if that closes the top level. A program of which one run fails leads to what follows
from the failure of that query, but for the command that is named. -/
theorem printedVersion_agrees (program : Text) (r : RehearsedRepository) (hr : r.IsPrintable)
    (files : Files) (d : Declaration) (options : PrintOptions) :
    (∀ outcome : Query → Outcome, (∀ q, (outcome q).Prints (r.lines q)) →
      ((GitProgram.repository program outcome).printedVersion files d options).result =
          ({ r with failing := none }.repository.printedVersion files d options).result ∧
        ((GitProgram.repository program outcome).printedVersion files d options).result =
          ({ { r with failing := none }.repository with
              topLevel := .ok (Path.closed r.topLevel) }.printedVersion files d options).result) ∧
    (∀ (outcome : Query → Outcome) (failing : Query) (status : Nat) (stderr : Bytes),
      (outcome failing).Fails status stderr →
      (∀ q, q ≠ failing → (outcome q).Prints (r.lines q)) →
        ((GitProgram.repository program outcome).printedVersion files d options).result =
          ((r.failingAt failing status stderr).repository.printedVersion files d
            options).result.mapError
              (Failure.withCommand (GitProgram.command program failing))) := by
  refine ⟨fun outcome hprints => ?_, fun outcome failing status stderr hfails hprints => ?_⟩
  · have htop : { r with failing := none }.repository.topLevel = .ok r.topLevel := rfl
    rw [repository_of_prints hr hprints]
    exact ⟨rfl, (Repository.result_printedVersion_of_join_eq htop
      (Path.join_closed hr.topLevel_ne_nil d.file)).symm⟩
  · rw [repository_of_fails hr hfails hprints, Repository.result_printedVersion_withCommand]

def printing (r : RehearsedRepository) (q : Query) : Outcome :=
  .ended { stdout := Utf8.encode (Text.ofLines ((r.lines q).map fun line => (line, .crlf))) }

theorem printing_prints (r : RehearsedRepository) (q : Query) :
    (r.printing q).Prints (r.lines q) := by
  refine ⟨_, _, rfl, rfl, rfl, (r.lines q).map fun line => (line, .crlf), ?_, ?_, rfl⟩
  · rw [List.map_map]
    exact List.map_id _
  · intro l hl
    obtain ⟨line, -, rfl⟩ := List.mem_map.mp hl
    rfl

def dateless (q : Query) : Outcome :=
  if q = .commitDate then
    .ended { stderr := Utf8.encode "fatal: bad revision\r\n", ending := .exited 128 }
  else printing {} q

def declaring : Files :=
  ({} : Files).write ["top", "CMakeLists.txt"] (Utf8.encode "VERSION \"1.3.0.${BUILD_NUMBER}\"\n")

def tagged : RehearsedRepository where
  topLevel := "/top"
  tags := ["v1.3.0"]

/-- The tag is read from its line and printed. The base version alone is read below the top level,
whether or not this is closed by a separator. Without a tag both sides fail for want of the date,
each naming its own command. -/
theorem printedVersion_agrees_tagged :
    ((GitProgram.repository "git" tagged.printing).printedVersion declaring {}
        { newline := true }).result = .ok "v1.3.0\n" ∧
      ((GitProgram.repository "git" tagged.printing).printedVersion declaring {}
        { project := true }).result = .ok "1.3.0" ∧
      ({ tagged.repository with topLevel := .ok "/top/" }.printedVersion declaring {}
        { project := true }).result = .ok "1.3.0" ∧
      ((GitProgram.repository "git" dateless).printedVersion declaring {} {}).result =
        .error (.tool "git log -1 --format=%cd --date=short" 128 "fatal: bad revision") := by
  have htagged : tagged.IsPrintable :=
    ⟨by decide, by decide, List.forall_mem_singleton.mpr (by decide), by decide, by decide⟩
  have huntagged : IsPrintable {} :=
    ⟨by decide, by decide, by simp, by decide, by decide⟩
  refine ⟨?_, ?_, ?_, ?_⟩
  · have hagree := printedVersion_agrees "git" tagged htagged declaring {} { newline := true }
    exact (hagree.1 _ tagged.printing_prints).1.trans rfl
  · have hagree := printedVersion_agrees "git" tagged htagged declaring {} { project := true }
    exact (hagree.1 _ tagged.printing_prints).1.trans rfl
  · have hagree := printedVersion_agrees "git" tagged htagged declaring {} { project := true }
    obtain ⟨htold, hclosed⟩ := hagree.1 _ tagged.printing_prints
    exact hclosed.symm.trans (htold.trans rfl)
  · have hagree := printedVersion_agrees "git" {} huntagged declaring {} {}
    have hprints : ∀ q, q ≠ .commitDate → (dateless q).Prints (lines {} q) := by
      intro q hq
      rw [dateless, if_neg hq]
      exact printing_prints {} q
    exact (hagree.2 dateless .commitDate 128 _ ⟨⟨[], rfl⟩, by decide⟩ hprints).trans rfl

end RehearsedRepository

end VersionStamp
