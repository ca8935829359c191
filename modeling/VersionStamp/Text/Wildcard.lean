import VersionStamp.Text

namespace VersionStamp.Text

/-!
# Wildcards

A pattern for paths is a text in which `?` stands for any character, `*` for any run of them, and
brackets for a choice, all within one name. Two stars that are a whole name stand for any number of
names. A backslash takes the next character as it is.

A pattern is compared with all end parts of a text at once, from its last part to its first, so the
time is bounded by the product of the two lengths.
-/

inductive Wildcard where
  | literal (c : Char)
  /-- A character within a name that lies, or does not lie, in one of some ranges. -/
  | oneOf (inside : Bool) (ranges : List (Char × Char))
  /-- Any characters; they include separators if the run `crosses` from name to name. -/
  | run (crosses : Bool)
  /-- Any number of whole names, each with the separator behind it. -/
  | names
  deriving DecidableEq

namespace Wildcard

/-! ## Reading a choice -/

def classes : List (String × List (Char × Char)) :=
  [("alnum", [('0', '9'), ('A', 'Z'), ('a', 'z')]), ("alpha", [('A', 'Z'), ('a', 'z')]),
    ("blank", [(' ', ' '), ('\t', '\t')]), ("cntrl", [('\x00', '\x1f'), ('\x7f', '\x7f')]),
    ("digit", [('0', '9')]), ("graph", [('!', '~')]), ("lower", [('a', 'z')]),
    ("print", [(' ', '~')]), ("punct", [('!', '/'), (':', '@'), ('[', '\x60'), ('\x7b', '~')]),
    ("space", [('\t', '\r'), (' ', ' ')]), ("upper", [('A', 'Z')]),
    ("xdigit", [('0', '9'), ('A', 'F'), ('a', 'f')])]

/-- The ranges of a class. Without regard to case the upper letters are all letters. -/
def classRanges? (folding : Bool) (name : Text) : Option (List (Char × Char)) :=
  classes.findSome? fun (title, ranges) =>
    if title.toList == name then
      some (if folding && title == "upper" then ('a', 'z') :: ranges else ranges)
    else none

def rangeOf (folding : Bool) (low high : Char) : List (Char × Char) :=
  let upperLow := if low < 'A' then 'A' else low
  let upperHigh := if 'Z' < high then 'Z' else high
  if folding && upperLow ≤ upperHigh then [(low, high), (upperLow.toLower, upperHigh.toLower)]
  else [(low, high)]

def rangeEnd? : Text → Option (Char × Text)
  | '\\' :: c :: rest => some (c, rest)
  | ['\\'] | [] => none
  | c :: rest => some (c, rest)

/-- The name of a class up to `:]`, and what stands behind that. There is none if the next closing
bracket does not follow a colon. -/
def className? (t : Text) : Option (Text × Text) :=
  let inside := t.takeWhile (· != ']')
  match t.drop inside.length with
  | _ :: rest => if inside.getLast? == some ':' then some (inside.dropLast, rest) else none
  | [] => none

/-- The ranges of a choice up to its closing bracket, and what stands behind it. A bracket that
comes first does not close, and a dash makes a range only behind a single character, the one
`before` it. -/
def readRanges? (folding : Bool) (before : Option Char) (found : List (Char × Char))
    (first : Bool) : Nat → Text → Option (List (Char × Char) × Text)
  | 0, _ | _, [] => none
  | fuel + 1, c :: rest =>
      let single (c : Char) := readRanges? folding (some c) ((c, c) :: found) false fuel
      match c, rest with
      | '\\', [] => none
      | '\\', c :: rest => single c rest
      | '-', c :: more =>
          match before with
          | some low =>
              if c == ']' then single '-' rest
              else do
                let (high, rest) ← rangeEnd? (c :: more)
                readRanges? folding none (rangeOf folding low high ++ found) false fuel rest
          | none => single '-' rest
      | '[', ':' :: more =>
          match className? more with
          | some (name, rest) => do
              let ranges ← classRanges? folding name
              readRanges? folding none (ranges ++ found) false fuel rest
          | none => single '[' rest
      | ']', rest => if first then single ']' rest else some (found, rest)
      | c, rest => single c rest

def readChoice? (folding : Bool) (t : Text) : Option (Wildcard × Text) :=
  match t with
  | '!' :: rest | '^' :: rest =>
      (readRanges? folding none [] true rest.length rest).map fun (ranges, rest) =>
        (.oneOf false ranges, rest)
  | rest =>
      (readRanges? folding none [] true rest.length rest).map fun (ranges, rest) =>
        (.oneOf true ranges, rest)

/-! ## Reading a pattern -/

def ofStars (whole : Bool) (stars : Nat) (rest : Text) : Wildcard × Text :=
  if stars < 2 || !whole then (.run false, rest)
  else
    match rest with
    | [] => (.run true, [])
    | '/' :: rest => (.names, rest)
    | '\\' :: '/' :: rest => (.run true, '\\' :: '/' :: rest)
    | rest => (.run false, rest)

/-- The parts of a pattern, or `none` if nothing can match it. `initial` is true where a name
begins. Without regard to case a letter is read in lower case, unless a backslash stands in front of
it. -/
def read? (folding initial : Bool) : Nat → Text → Option (List Wildcard)
  | _, [] => some []
  | 0, _ => none
  | fuel + 1, c :: rest =>
      if c == '*' then
        let stars := rest.takeWhile (· == '*')
        let (part, rest) := ofStars initial (stars.length + 1) (rest.drop stars.length)
        (part :: ·) <$> read? folding (part == .names) fuel rest
      else if c == '?' then (oneOf false [] :: ·) <$> read? folding false fuel rest
      else if c == '[' then do
        let (choice, rest) ← readChoice? folding rest
        (choice :: ·) <$> read? folding false fuel rest
      else
        match c, rest with
        | '\\', [] => none
        | '\\', c :: rest => (literal c :: ·) <$> read? folding (c == '/') fuel rest
        | c, rest =>
            (literal (if folding then c.toLower else c) :: ·) <$> read? folding (c == '/') fuel rest

/-! ## Matching -/

def inRanges (ranges : List (Char × Char)) (c : Char) : Bool :=
  ranges.any fun (low, high) => low ≤ c && c ≤ high

/-- For each end part of a text, whether its first character `fits` and `later` has the part behind
that. -/
def single (fits : Char → Bool) (t : Text) (later : List Bool) : List Bool :=
  List.zipWith (fun c b => fits c && b) t (later.drop 1) ++ [false]

/-- For each end part of a text, whether `later` has it or one behind characters that may be passed
over. -/
def skipping (passes : Char → Bool) : Text → List Bool → List Bool
  | [], later => later
  | _ :: _, [] => []
  | c :: t, b :: later =>
      let rest := skipping passes t later
      (b || (passes c && rest.headD false)) :: rest

/-- For each end part of a text, whether a part of a pattern matches a beginning of it and `later`
has what is behind that. -/
def before (part : Wildcard) (t : Text) (later : List Bool) : List Bool :=
  match part with
  | .literal d => single (· == d) t later
  | .oneOf inside ranges => single (fun c => c != '/' && inRanges ranges c == inside) t later
  | .run crosses => skipping (fun c => crosses || c != '/') t later
  | .names => List.zipWith or later (skipping (fun _ => true) t (single (· == '/') t later))

def matching : List Wildcard → Text → List Bool
  | [], t => List.replicate t.length false ++ [true]
  | part :: parts, t => part.before t (matching parts t)

end Wildcard

def fits (folding : Bool) (pattern t : Text) : Bool :=
  match Wildcard.read? folding true pattern.length pattern with
  | some parts =>
      (Wildcard.matching parts (if folding then t.map Char.toLower else t)).headD false
  | none => false

example : fits false "**/repo/.git" "/srv/repo/.git" = true := by decide +kernel

example : fits false "release/*" "release/1/2" = false := by decide +kernel

example : fits false "[a-c]?**" "bx/y" = false := by decide +kernel

example : fits true "**/Repo/**" "/srv/rEPO/.git/x" = true := by decide +kernel

example : fits true "[[:upper:]_]\\O" "go" = false := by decide +kernel

example : fits false "*a*a*a*a*a*a*a*b" (List.replicate 40 'a') = false := by decide +kernel

end VersionStamp.Text
