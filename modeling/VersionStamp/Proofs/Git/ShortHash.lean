import VersionStamp.Proofs.Git.Abbreviation
import VersionStamp.Proofs.Git.Peeling

namespace VersionStamp.Git

/-!
# The abbreviated id of HEAD

The abbreviation of the commit at HEAD begins its id and has the digits that the number of objects
asks for. It begins no other id in the database exactly where the search for unique digits has been
made and has ended with a length, or the number of objects asks for enough digits.
-/

namespace Checkout

/-- A hash is that of the commit at HEAD, which the database lists. -/
theorem shortHash_eq_ok {c : Checkout} {short : Text} (h : c.shortHash = .ok short) :
    ∃ head, c.headCommit = .ok head ∧ c.database.Lists head.id ∧
      Abbreviation.shorten c.configuration c.database head.id = .ok short := by
  rw [shortHash] at h
  obtain ⟨head, hhead, hshort⟩ := bind_eq_ok_iff.mp h
  exact ⟨head, hhead, Database.lists_of_lookup (lookup_of_headCommit hhead), hshort⟩

/-- The abbreviation begins the id of HEAD, with as many digits as the number of objects asks for. It
begins no other id exactly where the search has found a length or these digits are enough. The
search made without a setting finds one unless another id has all digits but the last. -/
theorem shortHash_identifies_iff {c : Checkout} {short : Text}
    (hset : Abbreviation.IsImplicit c.configuration) (h : c.shortHash = .ok short) :
    ∃ head count, c.headCommit = .ok head ∧ c.database.count = .ok count ∧
      short <+: head.id.digits ∧
      (count < Nat.pow 2 64 → Abbreviation.automaticLength count ≤ short.length) ∧
      (c.database.Identifies short head.id ↔
        (∃ found, Abbreviation.Finds c.configuration c.database head.id found) ∨
          c.database.Identifies
            (head.id.digits.take (Abbreviation.automaticLength count)) head.id) ∧
      (c.database.IsOrderly → c.configuration.value? Abbreviation.settingName = none →
        ((∃ found, Abbreviation.Finds c.configuration c.database head.id found) ↔
          c.database.Identifies
            (head.id.digits.take (ObjectId.length - 1)) head.id)) := by
  obtain ⟨head, hhead, hlists, hshort⟩ := shortHash_eq_ok h
  obtain ⟨count, hcount, hlength⟩ := Abbreviation.shorten_eq_ok hset hshort
  refine ⟨head, count, hhead, hcount, ?_, ?_, ?_, ?_⟩
  · rcases hlength with ⟨found, -, rfl⟩ | ⟨-, rfl⟩
    · exact List.take_prefix _ head.id.digits
    · exact List.take_prefix _ head.id.digits
  · intro hlt
    rcases hlength with ⟨found, -, rfl⟩ | ⟨-, rfl⟩
    · exact Abbreviation.automaticLength_le_take hlt (Nat.le_max_left _ found)
    · exact Abbreviation.automaticLength_le_take hlt (Nat.le_refl _)
  · rcases hlength with ⟨found, hfound, rfl⟩ | ⟨hnone, rfl⟩
    · have hunique := Abbreviation.identifies_of_lengthFrom hlists (by decide) hfound.2
      have hlonger : head.id.digits.take found <+:
          head.id.digits.take (max (Abbreviation.automaticLength count) found) :=
        List.take_prefix_take_left (Nat.le_max_right _ found)
      exact iff_of_true (hunique.of_prefix hlonger) (Or.inl ⟨found, hfound⟩)
    · rw [or_iff_right hnone]
  · intro hordered hunset
    rw [← Abbreviation.exists_lengthFrom_iff hordered hlists]
    simp [Abbreviation.Finds, hunset]

/-! ## Two ids with the same first digits -/

def colliding.release : Object :=
  ⟨.commit, Utf8.encode ("tree 4b825dc642cb6eb9a060e54bf8d69288fbee4904\n" ++
    "author A <a@b> 0 +0000\ncommitter A <a@b> 0 +0000\n\nnonce 531\n")⟩

def colliding.note : Object :=
  ⟨.blob, Utf8.encode "blob 41008\n"⟩

def colliding.releaseDigits : Text := "f2d72f8d2ee29e078765d04eb7e49fd399209c32"

def colliding.noteDigits : Text := "f2d72f8c47bf5e4d38009f7caf4f67f7e8b91da2"

/-- A repository with a commit and a blob whose ids have seven digits in common. -/
def colliding : Checkout where
  files := { entries := [(".git", .directory [
    ("HEAD", .file (Utf8.encode (colliding.releaseDigits ++ "\n")) false),
    ("config", .file (Utf8.encode "[core]\n\tabbrev = auto\n") false),
    ("objects", .directory [("f2", .directory [
      (colliding.releaseDigits.drop 2, .file (ObjectFile.write colliding.release) false),
      (colliding.noteDigits.drop 2, .file (ObjectFile.write colliding.note) false)])]),
    ("refs", .directory [])])] }
  directory := ⟨[".git"], [".git"]⟩
  configuration := [⟨Abbreviation.settingName, some "auto"⟩]
  workTree := some "/"

theorem isImplicit_colliding : Abbreviation.IsImplicit colliding.configuration := by
  intro value hvalue
  have hauto : colliding.configuration.value? Abbreviation.settingName =
      some (some ("auto" : Octets)) := by
    decide
  obtain rfl : some ("auto" : Octets) = value := Option.some.inj (hauto.symm.trans hvalue)
  exact ⟨"auto", by decide, by decide⟩

theorem answers_colliding :
    colliding.shortHash.toOption = some ("f2d72f8" : Text) ∧
      colliding.headCommit.toOption.map (·.id.digits) = some colliding.releaseDigits ∧
      colliding.note.id.digits = colliding.noteDigits := by
  decide +kernel

theorem shortHash_identifies_iff_colliding :
    ∃ head count, colliding.headCommit = .ok head ∧ colliding.database.count = .ok count ∧
      ("f2d72f8" : Text) <+: head.id.digits ∧
      (colliding.database.Identifies "f2d72f8" head.id ↔
        colliding.database.Identifies
          (head.id.digits.take (Abbreviation.automaticLength count)) head.id) := by
  have hshort := toOption_eq_some_iff.mp answers_colliding.1
  obtain ⟨head, count, hhead, hcount, hbegin, -, hidentifies, -⟩ :=
    shortHash_identifies_iff isImplicit_colliding hshort
  refine ⟨head, count, hhead, hcount, hbegin, hidentifies.trans (or_iff_right ?_)⟩
  rintro ⟨found, hunset, -⟩
  exact absurd hunset (by decide)

/-- The abbreviation has the seven digits that so few objects ask for, and they begin another id. -/
theorem shortHash_colliding :
    Abbreviation.IsImplicit colliding.configuration ∧ colliding.shortHash = .ok "f2d72f8" ∧
      ∃ head, colliding.headCommit = .ok head ∧ colliding.database.Lists colliding.note.id ∧
        ("f2d72f8" : Text) <+: colliding.note.id.digits ∧ colliding.note.id ≠ head.id := by
  obtain ⟨hshort, hhead, hnote⟩ := answers_colliding
  obtain ⟨head, hhead, hdigits⟩ := Option.map_eq_some_iff.mp hhead
  refine ⟨isImplicit_colliding, toOption_eq_some_iff.mp hshort, head,
    toOption_eq_some_iff.mp hhead, ?_, ?_, ?_⟩
  · have hnames : ∃ s ∈ colliding.database.sources.getD [], colliding.noteDigits ∈ s.names := by
      decide +kernel
    rwa [Database.Lists, hnote]
  · rw [hnote]
    decide
  · intro hsame
    rw [hsame, hdigits] at hnote
    exact absurd hnote (by decide)

end Checkout

end VersionStamp.Git
