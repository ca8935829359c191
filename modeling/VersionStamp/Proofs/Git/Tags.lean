import Mathlib.Data.List.Nodup
import VersionStamp.Proofs.Git.Peeling
import VersionStamp.Proofs.Text.Order

namespace VersionStamp.Git

/-!
# The tags at HEAD

The answer is the one list of names in strictly increasing order that has the names of the tags
which peel to the commit at HEAD. So it depends on nothing else: neither on the order in which the
tags are listed nor on tags that do not peel to the commit.
-/

/-! ## Names in order -/

namespace Reference

theorem nameLe_trans (s t u : Text) (hst : nameLe s t) (htu : nameLe t u) : nameLe s u :=
  Std.TransCmp.isLE_trans hst htu

theorem nameLe_total (s t : Text) : nameLe s t || nameLe t s := by
  have hswap : compare t s = (compare s t).swap := Std.OrientedCmp.eq_swap
  rw [nameLe, nameLe, hswap]
  cases compare s t <;> rfl

theorem lt_of_nameLe {s t : Text} (h : nameLe s t) (hne : s ≠ t) : s < t := by
  rw [← Text.compare_eq_lt_iff]
  rw [nameLe, Ordering.isLE_iff_ne_gt] at h
  cases hcompare : compare s t with
  | lt => rfl
  | eq => exact absurd (Std.compare_eq_iff_eq.mp hcompare) hne
  | gt => exact absurd hcompare h

/-- Sorted names that are all different are in strictly increasing order. -/
theorem pairwise_lt_mergeSort {names : List Text} (h : names.Nodup) :
    (names.mergeSort nameLe).Pairwise (· < ·) := by
  have hsorted := List.pairwise_mergeSort nameLe_trans nameLe_total names
  have hnodup := (List.mergeSort_perm names nameLe).nodup_iff.mpr h
  exact hsorted.imp₂ (fun _ _ => lt_of_nameLe) hnodup

end Reference

/-- There is only one list of names in strictly increasing order with some names in it. -/
theorem eq_of_pairwise_lt {names others : List Text} (hnames : names.Pairwise (· < ·))
    (hothers : others.Pairwise (· < ·)) (h : ∀ name, name ∈ names ↔ name ∈ others) :
    names = others := by
  have hperm := (List.perm_ext_iff_of_nodup hnames.nodup hothers.nodup).mpr h
  exact hperm.eq_of_pairwise (fun s t _ _ hst hts => absurd hst (List.lt_asymm hts)) hnames hothers

/-! ## Listed names -/

-- By induction on the length: what is left is a filtered list.
theorem nodup_eraseDups {α : Type} [BEq α] [LawfulBEq α] (l : List α) : l.eraseDups.Nodup := by
  generalize hlength : l.length = n
  induction n using Nat.strongRecOn generalizing l with
  | ind n ih =>
      cases l with
      | nil => simp
      | cons a l =>
          rw [List.eraseDups_cons, List.nodup_cons]
          refine ⟨by simp, ih _ ?_ _ rfl⟩
          rw [← hlength, List.length_cons]
          exact Nat.lt_succ_of_le (List.length_filter_le _ l)

namespace References

/-- A tag that is both loose and packed is listed once. -/
theorem nodup_listedTagNames (r : References) : r.listedTagNames.Nodup := by
  rw [listedTagNames]
  split
  next => exact List.nodup_nil
  next lines _ =>
    simp only
    split
    next => exact nodup_eraseDups _
    next => exact List.nodup_nil

theorem nodup_tags (r : References) : (r.tags.map Prod.fst).Nodup := by
  refine r.nodup_listedTagNames.sublist ?_
  rw [tags]
  induction r.listedTagNames with
  | nil => exact List.Sublist.slnil
  | cons name names ih =>
      rw [List.filterMap_cons]
      cases r.anchor (tagPlace ++ name) with
      | ok reference => exact ih.cons_cons name
      | error why => exact ih.cons name

end References

/-! ## Tags with names in UTF-8 -/

def named (tags : List (Text × Reference)) : List (Octets × Reference) :=
  tags.map fun (name, r) => (Octets.ofText name, r)

/-- Whether one of some tags has a name and peels to a commit. -/
def IsTagOf (d : Database) (tags : List (Text × Reference)) (c : Commit) (name : Text) : Prop :=
  ∃ r, (name, r) ∈ tags ∧ d.PeelsTo r.start c

theorem text?_ofText (t : Text) : Octets.text? (Octets.ofText t) = some t := by
  calc
    Octets.text? (Octets.ofText t) = Utf8.decode? (Utf8.encode t) := by
      rw [Octets.text?, Octets.ofText, Octets.bytes_ofBytes]
    _ = some t := Utf8.decode?_encode t

section

variable {d : Database} {c : Commit} {tags : List (Text × Reference)}
  {listed : List (Octets × Reference)}

/-- The tags of a commit are those that lead to it, in some order. -/
theorem tagsOf_perm (id : ObjectId) (h : listed.Perm (named tags)) :
    (tagsOf d id listed).Perm ((tags.filter fun t => t.2.leadsTo d id).map Prod.fst) := by
  have hnames : ((named tags).filter fun t => t.2.leadsTo d id).filterMap
      (fun t => Octets.text? t.1) = (tags.filter fun t => t.2.leadsTo d id).map Prod.fst := by
    calc
      ((named tags).filter fun t => t.2.leadsTo d id).filterMap (fun t => Octets.text? t.1) =
          (tags.filter fun t => t.2.leadsTo d id).filterMap
            (fun t => Octets.text? (Octets.ofText t.1)) := by
        rw [named, List.filter_map, List.filterMap_map]
        rfl
      _ = (tags.filter fun t => t.2.leadsTo d id).filterMap (fun t => some t.1) := by
        simp only [text?_ofText]
      _ = (tags.filter fun t => t.2.leadsTo d id).map Prod.fst := by
        rw [List.filterMap_eq_map']
  rw [← hnames]
  exact (List.mergeSort_perm _ _).trans ((h.filter _).filterMap _)

theorem mem_leading_iff (hc : d.lookup c.id = .commit c) {name : Text} :
    name ∈ (tags.filter fun t => t.2.leadsTo d c.id).map Prod.fst ↔ IsTagOf d tags c name := by
  simp [IsTagOf, Reference.leadsTo_iff hc]

/-- The names of the tags of a commit are those that peel to it. -/
theorem mem_tagsOf_iff (hc : d.lookup c.id = .commit c) (h : listed.Perm (named tags))
    (name : Text) : name ∈ tagsOf d c.id listed ↔ IsTagOf d tags c name := by
  rw [(tagsOf_perm c.id h).mem_iff, mem_leading_iff hc]

/-- The names of the tags of a commit ascend strictly. -/
theorem pairwise_lt_tagsOf (id : ObjectId) (hnodup : (tags.map Prod.fst).Nodup)
    (h : listed.Perm (named tags)) : (tagsOf d id listed).Pairwise (· < ·) := by
  have hdistinct : (tagsOf d id listed).Nodup := by
    rw [(tagsOf_perm id h).nodup_iff]
    exact hnodup.sublist (List.filter_sublist.map Prod.fst)
  rw [tagsOf] at hdistinct ⊢
  exact Reference.pairwise_lt_mergeSort ((List.mergeSort_perm _ _).nodup_iff.mp hdistinct)

end

namespace Checkout

theorem tagsAtHead_eq {c : Checkout} {head : Commit} (hhead : c.headCommit = .ok head) :
    c.repository.tagsAtHead = .ok ⟨tagsOf c.database head.id c.references.tags⟩ := by
  change c.tagsAtHead.mapError Failure.git = _
  rw [tagsAtHead, hhead]
  rfl

theorem pairwise_lt_tags {c : Checkout} {tags : List (Text × Reference)} (id : ObjectId)
    (htags : c.references.tags.Perm (named tags)) :
    (tagsOf c.database id c.references.tags).Pairwise (· < ·) := by
  have hnodup := (htags.map Prod.fst).nodup_iff.mp c.references.nodup_tags
  have hnames : (named tags).map Prod.fst = (tags.map Prod.fst).map Octets.ofText := by
    rw [named, List.map_map, List.map_map]
    rfl
  rw [hnames] at hnodup
  exact pairwise_lt_tagsOf id hnodup.of_map htags

/-- If there is a commit at HEAD and all tags have names in UTF-8, the answer consists of the names
of the tags that peel to the commit, each once and in the order of their bytes. It is the same for
other tags in any order if they differ from these only in tags that do not peel to the commit, and
in any other repository in which the tags of the commit at HEAD have the same names. -/
theorem tagsAtHead_of_headCommit {c : Checkout} {head : Commit} {tags : List (Text × Reference)}
    (hhead : c.headCommit = .ok head) (htags : c.references.tags.Perm (named tags)) :
    ∃ names, c.repository.tagsAtHead = .ok ⟨names⟩ ∧
      (∀ name, name ∈ names ↔ IsTagOf c.database tags head name) ∧
      ((∀ t ∈ tags, t.2.IsKnownRightly c.database) →
        ∀ name, name ∈ names ↔ ∃ r, (name, r) ∈ tags ∧ c.database.PeelsTo r.id head) ∧
      names.Pairwise (fun s t => Utf8.encode s < Utf8.encode t) ∧
      (∀ others listed, (others.map Prod.fst).Nodup → listed.Perm (named others) →
        (∀ name r, c.database.PeelsTo r.start head → ((name, r) ∈ others ↔ (name, r) ∈ tags)) →
          tagsOf c.database head.id listed = names) ∧
      ∀ (other : Checkout) (top : Commit) (others : List (Text × Reference)),
        other.headCommit = .ok top → other.references.tags.Perm (named others) →
          (∀ name, IsTagOf other.database others top name ↔
            IsTagOf c.database tags head name) →
          other.repository.tagsAtHead = .ok ⟨names⟩ := by
  have hlookup := lookup_of_headCommit hhead
  have hsorted := pairwise_lt_tags head.id htags
  have hmem := mem_tagsOf_iff hlookup htags
  refine ⟨tagsOf c.database head.id c.references.tags, tagsAtHead_eq hhead, hmem, ?_,
    hsorted.imp Utf8.encode_lt_encode, ?_, ?_⟩
  · intro hknown name
    rw [hmem, IsTagOf]
    refine exists_congr fun r => and_congr_right fun hr => ?_
    obtain ⟨chain, hchain⟩ := hknown (name, r) hr
    exact hchain.peelsTo_iff.symm
  -- Either way both answers are in order, so it is enough that they have the same names.
  · intro others listed hnodup hlisted hsame
    apply eq_of_pairwise_lt (pairwise_lt_tagsOf head.id hnodup hlisted) hsorted
    intro name
    rw [mem_tagsOf_iff hlookup hlisted, hmem]
    refine exists_congr fun r => and_congr_left fun hr => hsame name r hr
  · intro other top others htop hothers hsame
    rw [tagsAtHead_eq htop]
    congr 2
    apply eq_of_pairwise_lt (pairwise_lt_tags top.id hothers) hsorted
    intro name
    rw [mem_tagsOf_iff (lookup_of_headCommit htop) hothers, hmem, hsame]

/-! ## Tags of a commit, of a tag and of a blob -/

def layered.releaseDigits : Text := "fe6eed17e2d2a61efbf96077e419a9fee078226d"

def layered.annotationDigits : Text := "f125d03f15102e50972bf48b48cde9993c61635f"

def layered.noteDigits : Text := "519dd581e50e5b45d3b3c76c3172e9c3ec293488"

def layered.objects : List (Text × Object) :=
  [(layered.releaseDigits,
      ⟨.commit, Utf8.encode ("tree 4b825dc642cb6eb9a060e54bf8d69288fbee4904\n" ++
        "author A <a@b> 0 +0000\ncommitter A <a@b> 0 +0000\n\n")⟩),
    (layered.annotationDigits,
      ⟨.tag, Utf8.encode ("object " ++ layered.releaseDigits ++ "\ntype commit\ntag v1\n")⟩),
    (layered.noteDigits, ⟨.blob, Utf8.encode "note\n"⟩)]

/-- A repository with a tag of the commit at HEAD, one of the tag of it, and one of the blob. -/
def layered : Checkout where
  files := { entries := [(".git", .directory [
    ("HEAD", .file (Utf8.encode (layered.releaseDigits ++ "\n")) false),
    ("objects", .directory (layered.objects.map fun (digits, o) =>
      (digits.take 2, .directory [(digits.drop 2, .file (ObjectFile.write o) false)]))),
    ("refs", .directory [("tags", .directory [
      ("aside", .file (Utf8.encode layered.noteDigits) false),
      ("v1", .file (Utf8.encode layered.releaseDigits) false),
      ("\u00e9", .file (Utf8.encode layered.annotationDigits) false)])])])] }
  directory := ⟨[".git"], [".git"]⟩
  configuration := []
  workTree := some "/"

def layered.idOf (digits : Text) : ObjectId :=
  (ObjectId.ofDigits? digits).getD .zero

def layered.tags : List (Text × Reference) :=
  [("\u00e9", ⟨Octets.ofText "refs/tags/\u00e9", layered.idOf layered.annotationDigits, none⟩),
    ("aside", ⟨"refs/tags/aside", layered.idOf layered.noteDigits, none⟩),
    ("v1", ⟨"refs/tags/v1", layered.idOf layered.releaseDigits, none⟩)]

theorem listedTagNames_layered :
    layered.references.listedTagNames = [("aside" : Text), "v1", Octets.ofText "\u00e9"] := by
  have hlines : layered.references.packed.lines = .ok [] := rfl
  have hnames : layered.references.looseTagNames ++ References.tagNames [] =
      [("aside" : Text), "v1", Octets.ofText "\u00e9"] := by
    decide +kernel
  have hsorted : List.Pairwise (fun s t => Reference.nameLe s t)
      [("aside" : Text), "v1", Octets.ofText "\u00e9"] := by
    decide
  rw [References.listedTagNames, hlines]
  simp only [hnames, List.mergeSort_of_pairwise hsorted]
  decide +kernel

theorem tags_layered : layered.references.tags.Perm (named layered.tags) := by
  rw [References.tags, listedTagNames_layered]
  decide +kernel

theorem leadsTo_layered :
    layered.headCommit.toOption.map (·.id) = some (layered.idOf layered.releaseDigits) ∧
      (layered.tags.filter fun t => t.2.leadsTo layered.database
        (layered.idOf layered.releaseDigits)).map Prod.fst = [("\u00e9" : Text), "v1"] := by
  decide +kernel

/-- The tag of the tag is among the tags of the commit, and the one of the blob is not. -/
theorem tagsAtHead_of_headCommit_layered :
    ∃ head names, layered.headCommit = .ok head ∧
      layered.references.tags.Perm (named layered.tags) ∧
      layered.repository.tagsAtHead = .ok ⟨names⟩ ∧
      (∀ name, name ∈ names ↔ name = "\u00e9" ∨ name = "v1") ∧
      names.Pairwise (fun s t => Utf8.encode s < Utf8.encode t) := by
  obtain ⟨hhead, hleads⟩ := leadsTo_layered
  obtain ⟨head, hhead, hid⟩ := Option.map_eq_some_iff.mp hhead
  have hhead := toOption_eq_some_iff.mp hhead
  obtain ⟨names, hnames, hmem, -, hsorted, -⟩ := tagsAtHead_of_headCommit hhead tags_layered
  refine ⟨head, names, hhead, tags_layered, hnames, fun name => ?_, hsorted⟩
  rw [hmem, ← mem_leading_iff (lookup_of_headCommit hhead), hid, hleads]
  simp

end Checkout

end VersionStamp.Git
