import VersionStamp.Execution
import VersionStamp.Host.Session

/-!
# The program

The program reads the settings and the file that declares the version where it is started. It starts
no other programs: what they would print is read from the standard input, as a recorded session.
-/

namespace VersionStamp.Start

def withFile (files : Files) (path : Text) : IO Files := do
  try
    let content ← IO.FS.readBinFile (String.ofList path)
    return files.writePath path content.toList
  catch
    | .inappropriateType .. => return files.makePath path
    | _ => return files

def workPlace : Location := ["work"]

def hostOfRequest (session : Session) (request : Request) : IO Host := do
  let start : Files := { Files.makeDirectory {} workPlace with workDir := workPlace }
  let files ←
    match request.config with
    | some path => withFile start path
    | none => pure start
  match Execution.declarationPath? (session.host files) request with
  | some path => return session.host (← withFile files path)
  | none => return session.host files

/-- The host that the arguments need. Arguments that make no request need nothing of it. -/
def hostOfArguments (arguments : List Text) : IO Host := do
  match CommandLine.read arguments with
  | .ok request =>
      let session ← (← IO.getStdin).readToEnd
      hostOfRequest (Session.ofText session.toList) request
  | .error _ => return {}

def report (run : Execution) : IO UInt32 := do
  (← IO.getStdout).putStr (String.ofList run.stdout)
  (← IO.getStdout).flush
  (← IO.getStderr).putStr (String.ofList run.stderr)
  return UInt32.ofNat run.status

end VersionStamp.Start

open VersionStamp Start in
def main (arguments : List String) : IO UInt32 := do
  let arguments := arguments.map String.toList
  let host ← hostOfArguments arguments
  try
    report (Execution.ofArguments host none arguments)
  catch _ =>
    report (Execution.ofArguments host (some .noSpaceLeft) arguments)
