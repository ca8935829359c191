import VersionStamp.Host
import VersionStamp.Text.Lines

namespace VersionStamp

/-!
# Recorded sessions

A session is a text in which each command stands on a line of its own behind `$ `, with its output
below. A host can be made of a session: it has the programs that the session names, and they print
what is recorded.
-/

structure RecordedRun where
  command : Text
  output : Text
  deriving DecidableEq

namespace RecordedRun

def program (r : RecordedRun) : Text :=
  r.command.takeWhile (· != ' ')

def arguments (r : RecordedRun) : Text :=
  r.command.drop (r.program.length + 1)

end RecordedRun

abbrev Session := List RecordedRun

namespace Session

def prompt : Text := "$ "

/-- The runs with one more line, the last run first. Lines in front of the first command are left
out. -/
def addLine (runs : List RecordedRun) (line : Text) : List RecordedRun :=
  if prompt.isPrefixOf line then ⟨line.drop prompt.length, []⟩ :: runs
  else
    match runs with
    | [] => []
    | run :: runs => { run with output := run.output ++ line ++ "\n" } :: runs

def ofText (t : Text) : Session :=
  let lines := Text.split (· == '\n') t
  let complete := if lines.getLast? == some [] then lines.dropLast else lines
  (complete.foldl addLine []).reverse

/-- What a program does with arguments that no command has. -/
def unrecorded : ProgramRun :=
  { stderr := Utf8.encode "not recorded", ending := .exited 127 }

def behaviour (s : Session) (arguments : List Text) : ProgramRun :=
  match s.find? fun r => r.arguments == Text.join " " arguments with
  | some r => { stdout := Utf8.encode r.output }
  | none => unrecorded

def programPlace : Location := ["programs"]

def host (s : Session) (files : Files) : Host where
  files := s.foldl (fun files r => files.write (programPlace ++ [r.program]) [] true) files
  searchPath := [programPlace]
  behaviour := s.behaviour

example : ofText "$ git a\n1\n2\n$ git b\n" = [⟨"git a", "1\n2\n"⟩, ⟨"git b", []⟩] := by
  decide

end Session

end VersionStamp
