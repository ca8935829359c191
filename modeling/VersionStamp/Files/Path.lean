import VersionStamp.Text.Blank
import VersionStamp.Text.Lines

namespace VersionStamp

/-!
# Paths

A path is a text of names between separators. It is joined, split and shortened as it is written,
without a look at the files.
-/

namespace Path

def separator : Char := '/'

def isAbsolute (path : Text) : Bool :=
  path.head? == some separator

/-- The path of `file` as seen from `base`. An absolute `file` stays as it is. -/
def join (base file : Text) : Text :=
  if isAbsolute file then file
  else if base.isEmpty || base.getLast? == some separator then base ++ file
  else base ++ separator :: file

/-- The names of a path, with empty ones around doubled and outer separators. -/
def names (path : Text) : List Text :=
  path.split (· == separator)

def beginsWithDots (path : Text) : Bool :=
  List.isPrefixOf ("./" : Text) path || List.isPrefixOf ("../" : Text) path

def parent (path : Text) : Text :=
  let named := Text.dropEndWhile (· == separator) path
  let around := Text.dropEndWhile (· != separator) named
  if path.isEmpty || (around.isEmpty && !named.isEmpty) then "."
  else if around.all (· == separator) then [separator]
  else Text.dropEndWhile (· == separator) around

def closed (path : Text) : Text :=
  if path.getLast? == some separator then path else path ++ [separator]

/-! ## Dots -/

/-- Take the dots out of the rest of a path below the root. `kept` is what is left of the names so
far, and `written` the whole path with what has been kept written over its beginning. Where the
dots lead above the root, the path stays as it is written. -/
def collapseNames (kept written : Text) : List Text → Text
  | [] => kept
  | name :: more =>
      if name == [] || name == "." then collapseNames kept written more
      else if name == ".." then
        if kept.isEmpty then written
        else
          let around := Text.dropEndWhile (· == separator) kept
          collapseNames (Text.dropEndWhile (· != separator) around) written more
      else
        let kept := kept ++ name ++ if more.isEmpty then [] else [separator]
        collapseNames kept (kept ++ written.drop kept.length) more

def collapse (path : Text) : Text :=
  let rest := path.drop 1
  separator :: collapseNames [] rest (names rest)

example : join "top" "" = "top/" := by decide

example : collapse "/a/./b//../c/" = "/a/c/" := by decide

example : collapse "/a/../b/../../c" = "/b/../b/../../c" := by decide

example : ["/a/b//", "/a", "a", ""].map (fun p => parent p.toList) =
    ["/a", "/", ".", "."].map String.toList := by decide

example : join "top/" "/dev/null" = "/dev/null" := by decide

/-- A separator at the end of a non-empty base makes no difference. -/
theorem join_append_separator {base : Text} (file : Text) (hne : base ≠ [])
    (hlast : base.getLast? ≠ some separator) :
    join (base ++ [separator]) file = join base file := by
  simp [join, hne, hlast]

end Path

end VersionStamp
