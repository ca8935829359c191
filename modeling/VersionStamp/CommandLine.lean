import VersionStamp.Resolution
import VersionStamp.Text.Terminal

namespace VersionStamp

/-!
# The command line

Arguments are read from left to right, and the first one that cannot be read, or that asks for the
help or the version of the program, ends the reading. The value of `--config` that is an argument of
its own is looked at only when the next option is read, so an unknown argument is reported in front
of a bad value.
-/

structure Request where
  print : PrintOptions := {}
  /-- The path of the settings file. -/
  config : Option Text := none
  deriving DecidableEq

inductive UsageError where
  | unexpectedArgument (argument : Text)
  | unexpectedValue (value option : Text)
  | missingValue (option : Text)
  | repeated (option : Text)
  deriving DecidableEq

/-- The text for the user. What is quoted from the arguments cannot control a terminal. -/
def UsageError.message : UsageError → Text
  | .unexpectedArgument argument =>
      "unexpected argument '" ++ Text.Terminal.visible argument ++ "' found"
  | .unexpectedValue value option =>
      "unexpected value '" ++ Text.Terminal.visible value ++ "' for '" ++ option ++
        "' found; no more were expected"
  | .missingValue option =>
      "a value is required for '" ++ option ++ "' but none was supplied"
  | .repeated option => "the argument '" ++ option ++ "' cannot be used multiple times"

inductive Interruption where
  | help
  | version
  | misuse (why : UsageError)
  deriving DecidableEq

namespace CommandLine

inductive Switch where
  | newline
  | project
  | help
  | version
  deriving DecidableEq

namespace Switch

def all : List Switch :=
  [.newline, .project, .help, .version]

def letter : Switch → Char
  | .newline => 'n'
  | .project => 'p'
  | .help => 'h'
  | .version => 'V'

def word : Switch → Text
  | .newline => "newline"
  | .project => "project"
  | .help => "help"
  | .version => "version"

def title (s : Switch) : Text :=
  "--" ++ s.word

def ofLetter? (c : Char) : Option Switch :=
  all.find? fun s => s.letter == c

def ofWord? (name : Text) : Option Switch :=
  all.find? fun s => s.word == name

end Switch

def configLetter : Char := 'c'

def configWord : Text := "config"

def configTitle : Text := "--config <CONFIG>"

/-- What has been read: the request so far, and the option `--config` if its value has not been
looked at, with the value if there is one. -/
structure Progress where
  request : Request := {}
  pending : Option (Option Text) := none
  deriving DecidableEq

namespace Progress

def misuse {α : Type} (why : UsageError) : Except Interruption α :=
  .error (.misuse why)

/-- Take up the value of `--config`. It must be there, not be given twice, and not be empty, in this
order. -/
def setConfig (p : Progress) (value : Option Text) : Except Interruption Progress :=
  match value with
  | none => misuse (.missingValue configTitle)
  | some value =>
      if p.request.config.isSome then misuse (.repeated configTitle)
      else if value.isEmpty then misuse (.missingValue configTitle)
      else .ok { request := { p.request with config := some value } }

/-- Look at the value of `--config` that has been left until now. -/
def settle (p : Progress) : Except Interruption Progress :=
  match p.pending with
  | none => .ok p
  | some value => setConfig { p with pending := none } value

def readConfig (p : Progress) (attached : Option Text) : Except Interruption Progress := do
  let p ← p.settle
  match attached with
  | some value => p.setConfig (some value)
  | none => .ok { p with pending := some none }

/-- The print options with a switch that is not set before, or `none` if it is. -/
def setOnce? (options : PrintOptions) : Switch → Option PrintOptions
  | .newline => if options.newline then none else some { options with newline := true }
  | .project => if options.project then none else some { options with project := true }
  | .help | .version => some options

def readSwitch (p : Progress) (s : Switch) : Except Interruption Progress := do
  let p ← p.settle
  match s with
  | .help => .error .help
  | .version => .error .version
  | s =>
      match setOnce? p.request.print s with
      | some options => .ok { p with request := { p.request with print := options } }
      | none => misuse (.repeated s.title)

/-- Read the letters of an argument with a single dash. What follows `c` is its value, with or
without an equals sign in front. -/
def readLetters (p : Progress) : List Char → Except Interruption Progress
  | [] => .ok p
  | c :: rest =>
      if c == configLetter then
        match rest with
        | [] => p.readConfig none
        | '=' :: value => p.readConfig (some value)
        | value => p.readConfig (some value)
      else
        match Switch.ofLetter? c with
        | some s => do
            let p ← p.readSwitch s
            p.readLetters rest
        | none => misuse (.unexpectedArgument ['-', c])

def readWord (p : Progress) (name : Text) (attached : Option Text) :
    Except Interruption Progress :=
  if name == configWord then p.readConfig attached
  else
    match Switch.ofWord? name, attached with
    | some s, none => p.readSwitch s
    | some s, some value => misuse (.unexpectedValue value s.title)
    | none, _ => misuse (.unexpectedArgument ("--" ++ name))

def readPlain (p : Progress) (argument : Text) : Except Interruption Progress :=
  if p.pending = some none then .ok { p with pending := some (some argument) }
  else misuse (.unexpectedArgument argument)

def readBehindDashes (p : Progress) : List Text → Except Interruption Progress
  | [] => .ok p
  | argument :: _ => misuse (.unexpectedArgument argument)

def readAll (p : Progress) : List Text → Except Interruption Progress
  | [] => .ok p
  | argument :: rest =>
      match argument with
      | ['-', '-'] => p.readBehindDashes rest
      | '-' :: '-' :: word => do
          let name := word.takeWhile (· != '=')
          let attached := if word.contains '=' then some (word.drop (name.length + 1)) else none
          let p ← p.readWord name attached
          p.readAll rest
      | '-' :: c :: letters => do
          let p ← p.readLetters (c :: letters)
          p.readAll rest
      | argument => do
          let p ← p.readPlain argument
          p.readAll rest

end Progress

def read (arguments : List Text) : Except Interruption Request := do
  let p ← Progress.readAll {} arguments
  let p ← p.settle
  return p.request

def helpText : Text :=
  "Print the build version string derived from git tags and the project declaration\n\n" ++
  "Usage: build-version [OPTIONS]\n\n" ++
  "Options:\n" ++
  "  -n, --newline          Break line after printing version\n" ++
  "  -p, --project          Print the declared project version only\n" ++
  "  -c, --config <CONFIG>  Custom settings file path\n" ++
  "  -h, --help             Print help\n" ++
  "  -V, --version          Print version\n"

def versionText : Text :=
  "build-version 0.1.0\n"

example : (read ["-pnc", "a"]).toOption = some ⟨⟨true, true⟩, some "a"⟩ := by decide

example : (read ["--config=a=b"]).toOption = some ⟨{}, some "a=b"⟩ := by decide

end CommandLine

end VersionStamp
