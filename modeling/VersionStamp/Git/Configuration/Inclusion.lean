import VersionStamp.Git.Configuration.File
import VersionStamp.Git.Directory
import VersionStamp.Text.Wildcard

namespace VersionStamp.Git.Configuration

/-!
# Files that include others

The setting `include.path` puts the settings of another file behind itself. The setting
`includeif.CONDITION.path` does so if the condition holds of the repository. A file that is not
there is passed over, and files cannot be nested without end.
-/

inductive Guard where
  | always
  | onlyIf (condition : Octets)
  deriving DecidableEq

def between? (first last name : Octets) : Option Octets := do
  let rest ← Octets.after? first name
  if last.isSuffixOf rest then some (rest.take (rest.length - last.length)) else none

def Guard.ofName? (name : Octets) : Option Guard :=
  if name = "include.path" then some .always
  else (between? "includeif." ".path" name).map .onlyIf

/-- The pattern with what it leaves out at its end: all that is below a directory. -/
def completed (pattern : Octets) : Octets :=
  if pattern.getLast? == some Path.separator then pattern ++ "**" else pattern

def fitsDirectory (folding : Bool) (d : Directory) (file pattern : Octets) : Bool :=
  let whole? :=
    match pattern with
    | '.' :: '/' :: rest =>
        some (Path.join (Path.parent file) (rest.dropWhile (· == Path.separator)))
    | '~' :: '/' :: _ => none
    | '/' :: _ => some pattern
    | _ => some ("**/" ++ pattern)
  match whole? with
  | some whole => Text.fits folding (completed whole) (Octets.ofText (Location.path d.own))
  | none => false

def branch? (files : Files) (d : Directory) : Option Octets := do
  let content ← files.content? (d.own ++ [("HEAD" : Text)])
  Octets.after? "ref: refs/heads/" (Octets.trimEnd (Octets.ofBytes content))

def fitsBranch (files : Files) (d : Directory) (pattern : Octets) : Bool :=
  match branch? files d with
  | some branch => Text.fits false (completed pattern) (Octets.untilNul branch)
  | none => false

/-- Whether a condition holds, as seen from a file. Conditions of other kinds do not. -/
def holds (files : Files) (d : Directory) (file condition : Octets) : Bool :=
  match Octets.after? "gitdir:" condition, Octets.after? "gitdir/i:" condition,
    Octets.after? "onbranch:" condition with
  | some pattern, _, _ => fitsDirectory false d file pattern
  | none, some pattern, _ => fitsDirectory true d file pattern
  | none, none, some pattern => fitsBranch files d pattern
  | none, none, none => false

def included? (files : Files) (d : Directory) (file : Octets) (s : Setting) : Option Octets := do
  let guard ← Guard.ofName? s.name
  let path ← s.value
  let applies :=
    match guard with
    | .always => true
    | .onlyIf condition => holds files d file condition
  if applies && !List.isPrefixOf ("~/" : Text) path then
    some (Path.join (Path.parent file) path)
  else none

def nestingLimit : Nat := 10

/-- The settings of a file with those of the files that it includes, nested in no more than `depth`
others. An error in an included file comes before one behind the inclusion. -/
def readFile (files : Files) (d : Directory) : Nat → Octets → Except Problem Configuration
  | depth, file =>
      match files.octets? file with
      | .error (.system number) => .error (.invalidPath (Octets.shown file) number)
      | .error (.reason reason) => .error (.other reason)
      | .ok none => .ok []
      | .ok (some content) =>
          match depth with
          | 0 => .error .inclusionTooDeep
          | depth + 1 => do
              let reading := read content
              let parts ← reading.settings.mapM fun setting =>
                match included? files d file setting with
                | some path => (setting :: ·) <$> readFile files d depth path
                | none => .ok [setting]
              match reading.disorder? with
              | some (disorder, line) =>
                  .error (.configuration disorder (Octets.shown file) line)
              | none => .ok parts.flatten

def ofDirectory (files : Files) (d : Directory) : Except Problem Configuration :=
  readFile files d nestingLimit
    (Octets.ofText (Location.path (d.common ++ [("config" : Text)])))

example : Guard.ofName? "includeif.onbranch:main.path" = some (.onlyIf "onbranch:main") := by
  decide +kernel

end VersionStamp.Git.Configuration
