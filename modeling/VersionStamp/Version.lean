import VersionStamp.Failure

namespace VersionStamp

/-!
# Versions

A base version is the version that the project declares for its next release. A version is either
the tag of a released commit, or a snapshot of a base version with the date and the abbreviated
hash of the commit. The parts of a snapshot are separated by `~`, so that a comparison in the
manner of Debian packages puts it before its base version.
-/

def IsBase (value : Text) : Prop :=
  value ≠ [] ∧ '.' ∈ value

instance (value : Text) : Decidable (IsBase value) :=
  inferInstanceAs (Decidable (_ ∧ _))

/-- The version declared for the next release: a text with a dot in it. -/
structure BaseVersion where
  text : Text
  isBase : IsBase text
  deriving DecidableEq

namespace BaseVersion

def ofText (value : Text) : Except Failure BaseVersion :=
  if h : IsBase value then .ok ⟨value, h⟩ else .error (.badVersion value)

theorem ofText_text (b : BaseVersion) : ofText b.text = .ok b := by
  simp [ofText, b.isBase]

theorem ofText_eq_ok_iff {value : Text} {b : BaseVersion} :
    ofText value = .ok b ↔ b.text = value := by
  constructor
  · intro h
    unfold ofText at h
    split at h
    · obtain rfl := Except.ok.inj h
      rfl
    · cases h
  · rintro rfl
    exact ofText_text b

end BaseVersion

inductive Version where
  /-- The commit has one tag, which is the version. -/
  | release (tag : Text)
  /-- The commit has no tag. -/
  | snapshot (base : BaseVersion) (date hash : Text)
  deriving DecidableEq

namespace Version

def isSnapshot : Version → Bool
  | .release _ => false
  | .snapshot .. => true

def render : Version → Text
  | .release tag => tag
  | .snapshot base date hash =>
      base.text ++ "~" ++ date ++ "~g" ++ hash ++ "~snapshot"

def printed (newline : Bool) (text : Text) : Text :=
  if newline then text ++ "\n" else text

end Version

end VersionStamp
