import VersionStamp.Proofs.Repository.Runs
import VersionStamp.Proofs.Resolution.Outcome
import VersionStamp.Proofs.Text.Separator

namespace VersionStamp

/-!
# Several tags

A commit with several tags has no version, and the failure tells the tags. Their names are joined
with a comma and a blank. A name may have commas, also at its end, but the separator begins with
nothing that it ends in, so the names are found again by cutting at it, and other tags are told in
another way.
-/

/-- Several tags, in none of whose names a blank stands behind a comma. -/
structure TagSet.IsTellable (tags : TagSet) : Prop where
  several : 2 ≤ tags.size
  separable : ∀ name ∈ tags.names, ¬ (", " : Text) <:+: name

theorem TagSet.IsTellable.splitOn_join {tags : TagSet} (h : tags.IsTellable) :
    Text.splitOn ", " (Text.join ", " tags.names) = tags.names := by
  have hne : tags.names ≠ [] := by
    intro hnil
    have hseveral := h.several
    simp [TagSet.size, hnil] at hseveral
  exact Text.splitOn_join (by decide) hne h.separable

theorem Failure.ambiguousTags_inj_of_message {tags others : TagSet} (htags : tags.IsTellable)
    (hothers : others.IsTellable)
    (h : (ambiguousTags tags.names).message = (ambiguousTags others.names).message) :
    tags.names = others.names := by
  have hjoined : Text.join ", " tags.names = Text.join ", " others.names :=
    List.append_cancel_left h
  calc
    tags.names = Text.splitOn ", " (Text.join ", " tags.names) := htags.splitOn_join.symm
    _ = Text.splitOn ", " (Text.join ", " others.names) := by rw [hjoined]
    _ = others.names := hothers.splitOn_join

namespace GitProgram

/-- The program prints an output that names several tags, in none a blank behind a comma. -/
structure PrintsSeveral (program : Text) (outcome : Query → Outcome) (text : Text) : Prop where
  output_eq : output (command program .tagsAtHead) (outcome .tagsAtHead) = .ok text
  isTellable : (TagSet.ofOutput text).IsTellable

variable {program : Text} {outcome : Query → Outcome} {text : Text}

theorem PrintsSeveral.result_version (h : PrintsSeveral program outcome text) (files : Files)
    (d : Declaration) : ((repository program outcome).version files d).result =
      .error (.ambiguousTags (TagSet.ofOutput text).names) := by
  have htags : (repository program outcome).tagsAtHead = .ok (TagSet.ofOutput text) :=
    congrArg (Except.map TagSet.ofOutput) h.output_eq
  exact Repository.result_version_of_several htags h.isTellable.several

/-- The failure tells all tags that the output names, in their order, and where its message is the
same for another output, so are the names. -/
theorem message_of_several_tags (h : PrintsSeveral program outcome text) (files : Files)
    (d : Declaration) :
    ∃ why told, ((repository program outcome).version files d).result = .error why ∧
      why.message = ("Encountered commit with multiple tags: " : Text) ++ told ∧
      Text.splitOn ", " told = (TagSet.ofOutput text).names ∧
      ∀ program' outcome' text' files' d' why', PrintsSeveral program' outcome' text' →
        ((repository program' outcome').version files' d').result = .error why' →
          why'.message = why.message →
            (TagSet.ofOutput text').names = (TagSet.ofOutput text).names := by
  refine ⟨_, _, h.result_version files d, rfl, h.isTellable.splitOn_join, ?_⟩
  intro program' outcome' text' files' d' why' h' hwhy' hmessage
  rw [h'.result_version] at hwhy'
  obtain rfl := Except.error.inj hwhy'
  exact Failure.ambiguousTags_inj_of_message h'.isTellable h.isTellable hmessage

def printingCommas (q : Query) : Outcome :=
  if q = .tagsAtHead then .ended { stdout := Utf8.encode "a,\nb,,c\n" } else .ended {}

theorem message_of_several_tags_with_commas :
    PrintsSeveral "git" printingCommas "a,\nb,,c\n" ∧
      ∃ why told, ((repository "git" printingCommas).version {} {}).result = .error why ∧
        why.message = ("Encountered commit with multiple tags: " : Text) ++ told ∧
        Text.splitOn ", " told = (["a,", "b,,c"] : List Text) := by
  have htellable : (TagSet.ofOutput "a,\nb,,c\n").IsTellable :=
    ⟨by decide, by decide⟩
  have hprints : PrintsSeveral "git" printingCommas "a,\nb,,c\n" := ⟨rfl, htellable⟩
  obtain ⟨why, told, hwhy, hmessage, htold, -⟩ := message_of_several_tags hprints {} {}
  exact ⟨hprints, why, told, hwhy, hmessage, htold.trans (by decide)⟩

end GitProgram

end VersionStamp
