import VersionStamp.Proofs.Failure
import VersionStamp.Proofs.Text.IllFormed
import VersionStamp.Proofs.Text.Trim
import VersionStamp.Repository.Program

namespace VersionStamp

/-!
# What becomes of a run

A program is not started, or it does not end with status 0, or its output is not UTF-8, or the
output answers the query. Only the first of these that is the case counts, so what a failed program
has printed need not be UTF-8. Every failure names the command.
-/

def Query.Answer : Query → Type
  | .topLevel | .commitDate | .shortHash => Text
  | .tagsAtHead => TagSet

/-- The answer that the output of the run for a query gives. -/
def Query.read : (q : Query) → Text → q.Answer
  | .topLevel => Text.joinLines
  | .tagsAtHead => TagSet.ofOutput
  | .commitDate | .shortHash => Text.trim

def Repository.answer (r : Repository) : (q : Query) → Except Failure q.Answer
  | .topLevel => r.topLevel
  | .tagsAtHead => r.tagsAtHead
  | .commitDate => r.commitDate
  | .shortHash => r.shortHash

def Ending.status : Ending → Int
  | .exited status => status
  | .killed _ => -1

theorem Ending.status_ne_zero {ending : Ending} (h : ending ≠ .exited 0) : ending.status ≠ 0 := by
  cases ending with
  | exited status =>
      intro hstatus
      exact h (by rw [Int.natCast_eq_zero.mp hstatus])
  | killed => exact (by decide : (-1 : Int) ≠ 0)

namespace Failure

/-- The command that failed, if the failure is that of a program. -/
def command? : Failure → Option Text
  | .tool command _ _ | .launch command _ | .encoding command => some command
  | _ => none

theorem quoted_isInfix (front command back : Text) :
    ("`" ++ command ++ "`" : Text) <:+: front ++ "`" ++ command ++ ("`" ++ back) :=
  ⟨front, back, by simp only [List.append_assoc]⟩

/-- The message shows the command between backquotes. -/
theorem isInfix_message {why : Failure} {command : Text} (h : why.command? = some command) :
    ("`" ++ command ++ "`" : Text) <:+: why.message := by
  cases why with
  | tool c status stderr =>
      obtain rfl := Option.some.inj h
      have hquoted := quoted_isInfix "External tool error: " c " failed with status "
      have hstatus := hquoted.trans (List.prefix_append _ (Text.ofInt status)).isInfix
      have hcolon := hstatus.trans (List.prefix_append _ (": " : Text)).isInfix
      exact hcolon.trans (List.prefix_append _ stderr).isInfix
  | launch c cause =>
      obtain rfl := Option.some.inj h
      have hquoted := quoted_isInfix "External tool error: cannot run " c ": "
      exact hquoted.trans (List.prefix_append _ cause.message).isInfix
  | encoding c =>
      obtain rfl := Option.some.inj h
      exact quoted_isInfix "External tool error: output of " c " is not valid UTF-8"
  | _ => simp [command?] at h

end Failure

namespace GitProgram

section

variable {command : Text} {o : Outcome} {run : ProgramRun}

/-- A program that does not end with status 0 fails, whatever it has printed. -/
theorem output_of_ending_ne (h : run.ending ≠ .exited 0) :
    output command (.ended run) =
      .error (.tool command run.ending.status (Text.trim (Utf8.decodeLossy run.stderr))) := by
  obtain ⟨stdout, stderr, ending⟩ := run
  match ending, h with
  | .exited 0, h => exact absurd rfl h
  | .exited (status + 1), _ => rfl
  | .killed signal, _ => rfl

theorem output_of_encode {t : Text} (hending : run.ending = .exited 0)
    (hstdout : run.stdout = Utf8.encode t) : output command (.ended run) = .ok t := by
  simp [output, hending, Utf8.decode?_eq_some_iff.mpr hstdout]

theorem output_of_ne_encode (hending : run.ending = .exited 0)
    (hstdout : ∀ t, run.stdout ≠ Utf8.encode t) :
    output command (.ended run) = .error (.encoding command) := by
  have hnone : Utf8.decode? run.stdout = none := by
    refine Option.eq_none_iff_forall_ne_some.mpr fun t ht => ?_
    exact hstdout t (Utf8.decode?_eq_some_iff.mp ht)
  simp [output, hending, hnone]

/-- The three failures, each with its command, and the output. -/
theorem output_cases (command : Text) (o : Outcome) :
    (∃ cause, o = .notStarted cause ∧ output command o = .error (.launch command cause)) ∨
      (∃ run, o = .ended run ∧ run.ending ≠ .exited 0 ∧ output command o =
        .error (.tool command run.ending.status (Text.trim (Utf8.decodeLossy run.stderr)))) ∨
      (∃ run, o = .ended run ∧ run.ending = .exited 0 ∧
        output command o = .error (.encoding command)) ∨
      ∃ run t, o = .ended run ∧ run.ending = .exited 0 ∧ run.stdout = Utf8.encode t ∧
        output command o = .ok t := by
  cases o with
  | notStarted cause => exact .inl ⟨cause, rfl, rfl⟩
  | ended run =>
      by_cases hending : run.ending = .exited 0
      · by_cases hstdout : ∃ t, run.stdout = Utf8.encode t
        · obtain ⟨t, ht⟩ := hstdout
          exact .inr (.inr (.inr ⟨run, t, rfl, hending, ht, output_of_encode hending ht⟩))
        · refine .inr (.inr (.inl ⟨run, rfl, hending, output_of_ne_encode hending fun t ht => ?_⟩))
          exact hstdout ⟨t, ht⟩
      · exact .inr (.inl ⟨run, rfl, hending, output_of_ending_ne hending⟩)

/-- A run gives an output just if it has exited with zero and printed UTF-8. -/
theorem output_eq_ok_iff {t : Text} : output command o = .ok t ↔
    ∃ run, o = .ended run ∧ run.ending = .exited 0 ∧ run.stdout = Utf8.encode t := by
  constructor
  · intro h
    rcases output_cases command o with ⟨cause, -, houtput⟩ | ⟨run, -, -, houtput⟩ |
      ⟨run, -, -, houtput⟩ | ⟨run, t', ho, hending, hstdout, houtput⟩
    · cases houtput.symm.trans h
    · cases houtput.symm.trans h
    · cases houtput.symm.trans h
    · obtain rfl := Except.ok.inj (houtput.symm.trans h)
      exact ⟨run, ho, hending, hstdout⟩
  · rintro ⟨run, rfl, hending, hstdout⟩
    exact output_of_encode hending hstdout

/-- Every failure of a run tells its command. -/
theorem command?_of_output {why : Failure} (h : output command o = .error why) :
    why.command? = some command := by
  rcases output_cases command o with ⟨cause, -, houtput⟩ | ⟨run, -, -, houtput⟩ |
    ⟨run, -, -, houtput⟩ | ⟨run, t, -, -, -, houtput⟩
  all_goals cases houtput.symm.trans h
  all_goals rfl

end

theorem command_eq (program : Text) (q : Query) :
    command program q = program ++ q.arguments.flatMap fun argument => ' ' :: argument := by
  cases q <;> simp [command, Text.join, Query.arguments, List.intercalate]

theorem answer_repository (program : Text) (outcome : Query → Outcome) (q : Query) :
    (repository program outcome).answer q =
      (output (command program q) (outcome q)).map q.read := by
  cases q <;> rfl

/-- The answer to a query for every outcome of its run: what the program has printed on either
stream counts only where the run has got that far. A standard error that is not UTF-8 is shown with
U+FFFD for each ill-formed piece, and an output that is not is refused. -/
theorem answer_of_outcome (program : Text) (outcome : Query → Outcome) (q : Query) :
    (∀ cause, outcome q = .notStarted cause →
      (repository program outcome).answer q = .error (.launch (command program q) cause)) ∧
    (∀ run, outcome q = .ended run → run.ending ≠ .exited 0 →
      ∃ stderr cs, (repository program outcome).answer q =
          .error (.tool (command program q) run.ending.status stderr) ∧
        run.ending.status ≠ 0 ∧ Text.IsTrimmed stderr ∧ Utf8.Reads run.stderr cs ∧
        stderr = Text.trim (cs.map fun c => c.getD '\uFFFD') ∧
        ∀ t, run.stderr = Utf8.encode t → stderr = Text.trim t) ∧
    (∀ run, outcome q = .ended run → run.ending = .exited 0 →
      (∀ t, run.stdout ≠ Utf8.encode t) →
        (repository program outcome).answer q = .error (.encoding (command program q))) ∧
    (∀ a, (repository program outcome).answer q = .ok a ↔
      ∃ run t, outcome q = .ended run ∧ run.ending = .exited 0 ∧ run.stdout = Utf8.encode t ∧
        a = q.read t) ∧
    command program q = (program ++ q.arguments.flatMap fun argument => ' ' :: argument) ∧
    ∀ why, (repository program outcome).answer q = .error why →
      why.command? = some (command program q) ∧
        ("`" ++ command program q ++ "`" : Text) <:+: why.message := by
  rw [answer_repository]
  refine ⟨?_, ?_, ?_, ?_, command_eq program q, ?_⟩
  · intro cause ho
    rw [ho]
    rfl
  · intro run ho hending
    refine ⟨_, Utf8.scan run.stderr, ?_, Ending.status_ne_zero hending, Text.isTrimmed_trim _,
      Utf8.reads_scan run.stderr, rfl, ?_⟩
    · rw [ho, output_of_ending_ne hending]
      rfl
    · rintro t ht
      rw [← Utf8.decodeLossy_of_reads (Utf8.reads_scan run.stderr),
        Utf8.decodeLossy_of_decode? (Utf8.decode?_eq_some_iff.mpr ht)]
  · intro run ho hending hstdout
    rw [ho, output_of_ne_encode hending hstdout]
    rfl
  · intro a
    have hmap : (output (command program q) (outcome q)).map q.read = .ok a ↔
        ∃ t, output (command program q) (outcome q) = .ok t ∧ q.read t = a := map_eq_ok_iff
    rw [hmap]
    constructor
    · rintro ⟨t, ht, rfl⟩
      obtain ⟨run, ho, hending, hstdout⟩ := output_eq_ok_iff.mp ht
      exact ⟨run, t, ho, hending, hstdout, rfl⟩
    · rintro ⟨run, t, ho, hending, hstdout, rfl⟩
      exact ⟨t, output_eq_ok_iff.mpr ⟨run, ho, hending, hstdout⟩, rfl⟩
  · intro why hwhy
    have hcommand : why.command? = some (command program q) := by
      cases houtput : output (command program q) (outcome q) with
      | ok t => simp [houtput, Except.map] at hwhy
      | error cause =>
          rw [houtput] at hwhy
          rw [← Except.error.inj hwhy, command?_of_output houtput]
    exact ⟨hcommand, Failure.isInfix_message hcommand⟩

/-- A killed program fails with status -1, whatever is on its two streams. -/
theorem answer_of_outcome_killed :
    (repository "git" fun _ => .ended ⟨[0xFF], [0x20, 0xE2, 0x82, 0x0A], .killed 9⟩).answer
      .shortHash = .error (.tool "git rev-parse --short HEAD" (-1) ['\uFFFD']) := by
  obtain ⟨stderr, cs, hanswer, -, -, hreads, rfl, -⟩ :=
    (answer_of_outcome "git" (fun _ => .ended ⟨[0xFF], [0x20, 0xE2, 0x82, 0x0A], .killed 9⟩)
      .shortHash).2.1 _ rfl (by decide)
  have hcs : cs = [some ' ', none, some '\n'] := (Utf8.reads_iff.mp hreads).symm.trans (by decide)
  rw [hanswer, hcs]
  rfl

end GitProgram

end VersionStamp
