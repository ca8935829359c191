import VersionStamp.Proofs.Git.Tags

namespace VersionStamp.Git

/-!
# Tags and their references

A tag is a file below the place of the tags that can be read, or a line among the packed references.
If all tags resolve, the listed ones are just these, so the answer can be told from the references
themselves. If one of them does not, no tag is listed and the answer is empty.
-/

namespace References

/-- A tag of a name: a file below the place of the tags that can be read, or a packed reference. A
file whose name ends as those of locks do is none. -/
inductive HasTag (r : References) (name : Octets) : Prop where
  | loose {names : Location} {content : Bytes} {target : Target}
      (hfile : (names, content) ∈
        r.files.below (r.directory.common ++ (["refs", "tags"] : Location)))
      (hname : Octets.ofText (Text.join [Path.separator] names) = name)
      (hlock : ¬ (".lock" : Text) <:+ name)
      (hread : Reference.readTarget name (Octets.ofBytes content) = .ok target) : HasTag r name
  | packed {lines : List Reference} {packed : Reference} (hlines : r.packed.lines = .ok lines)
      (hpacked : packed ∈ lines) (hname : packed.name = tagPlace ++ name) : HasTag r name

variable {r : References} {lines : List Reference} {name : Octets}

/-- A loose tag is a file below the folder of tags that holds a target and is no lock. -/
theorem mem_looseTagNames_iff :
    name ∈ r.looseTagNames ↔
      ∃ names content, (names, content) ∈ r.files.below
          (r.directory.common ++ (["refs", "tags"] : Location)) ∧
        Octets.ofText (Text.join [Path.separator] names) = name ∧
        ¬ (".lock" : Text) <:+ name ∧
        ∃ target, Reference.readTarget name (Octets.ofBytes content) = .ok target := by
  rw [looseTagNames, List.mem_filterMap, Prod.exists]
  refine exists_congr fun names => exists_congr fun content => and_congr_right fun _ => ?_
  simp only [Option.ite_none_left_eq_some, List.isSuffixOf_iff_suffix]
  cases hread : Reference.readTarget (Octets.ofText (Text.join [Path.separator] names))
      (Octets.ofBytes content) with
  | ok target =>
      simp only [Option.some.injEq]
      constructor
      · rintro ⟨hlock, rfl⟩
        exact ⟨rfl, hlock, target, hread⟩
      · rintro ⟨rfl, hlock, -⟩
        exact ⟨hlock, rfl⟩
  | error problem =>
      simp only [reduceCtorEq, and_false, false_iff]
      rintro ⟨rfl, -, target, htarget⟩
      cases hread.symm.trans htarget

theorem mem_tagNames_iff :
    name ∈ tagNames lines ↔ ∃ packed ∈ lines, packed.name = tagPlace ++ name := by
  simp only [tagNames, List.mem_filterMap, Octets.after?_eq_some_iff]

theorem hasTag_iff (hlines : r.packed.lines = .ok lines) :
    r.HasTag name ↔ name ∈ r.looseTagNames ∨ name ∈ tagNames lines := by
  rw [mem_looseTagNames_iff, mem_tagNames_iff]
  constructor
  · rintro (⟨hfile, hname, hlock, hread⟩ | ⟨hlines', hpacked, hname⟩)
    · exact .inl ⟨_, _, hfile, hname, hlock, _, hread⟩
    · obtain rfl := Except.ok.inj (hlines.symm.trans hlines')
      exact .inr ⟨_, hpacked, hname⟩
  · rintro (⟨names, content, hfile, hname, hlock, target, hread⟩ | ⟨packed, hpacked, hname⟩)
    · exact .loose hfile hname hlock hread
    · exact .packed hlines hpacked hname

/-- The names of all tags, each once and in order. -/
theorem mem_sortedNames_iff (hlines : r.packed.lines = .ok lines) :
    name ∈ ((r.looseTagNames ++ tagNames lines).mergeSort Reference.nameLe).eraseDups ↔
      r.HasTag name := by
  rw [List.mem_eraseDups, List.mem_mergeSort, List.mem_append, hasTag_iff hlines]

/-- If all tags resolve, all of them are listed. -/
theorem mem_listedTagNames_iff (hlines : r.packed.lines = .ok lines)
    (hall : ∀ name, r.HasTag name → (r.resolve (tagPlace ++ name)).isOk) :
    name ∈ r.listedTagNames ↔ r.HasTag name := by
  have hresolve : (((r.looseTagNames ++ tagNames lines).mergeSort Reference.nameLe).eraseDups.all
      fun name => (r.resolve (tagPlace ++ name)).isOk) = true :=
    List.all_eq_true.mpr fun name hname => hall name ((mem_sortedNames_iff hlines).mp hname)
  simp only [listedTagNames, hlines, hresolve, if_true]
  exact mem_sortedNames_iff hlines

/-- A single tag that does not resolve keeps all of them from being listed. -/
theorem listedTagNames_eq_nil (hname : r.HasTag name)
    (hunresolved : (r.resolve (tagPlace ++ name)).isOk = false) : r.listedTagNames = [] := by
  rw [listedTagNames]
  cases hlines : r.packed.lines with
  | error problem => rfl
  | ok lines =>
      apply if_neg
      intro hall
      have hresolve := List.all_eq_true.mp hall name ((mem_sortedNames_iff hlines).mpr hname)
      exact Bool.false_ne_true (hunresolved.symm.trans hresolve)

/-- If all tags resolve, they are listed, and each with the reference from which its name resolves.
-/
theorem mem_tags_iff (hlines : r.packed.lines = .ok lines)
    (hall : ∀ name, r.HasTag name → (r.resolve (tagPlace ++ name)).isOk) {reference : Reference} :
    (name, reference) ∈ r.tags ↔
      r.HasTag name ∧ r.anchor (tagPlace ++ name) = .ok reference := by
  rw [tags, List.mem_filterMap, ← mem_listedTagNames_iff hlines hall]
  constructor
  · rintro ⟨listed, hlisted, hanchor⟩
    cases hreference : r.anchor (tagPlace ++ listed) with
    | error problem => simp [hreference] at hanchor
    | ok found =>
        obtain ⟨rfl, rfl⟩ : listed = name ∧ found = reference := by
          simpa [hreference] using hanchor
        exact ⟨hlisted, hreference⟩
  · rintro ⟨hlisted, hanchor⟩
    exact ⟨name, hlisted, by simp [hanchor]⟩

/-! ## References to objects -/

/-- What a reference gives: the target in its file, or else the one among the packed references. -/
inductive Gives (r : References) (name : Octets) : Target → Prop where
  | loose {target : Target} (h : r.loose? name = .ok (some target)) : Gives r name target
  | packed {packed : Reference} (hloose : r.loose? name = .ok none)
      (h : r.packed.find? name = .ok (some packed)) :
      Gives r name (.object packed.id packed.behind)

/-- A loose reference hides a packed one of the same name. -/
theorem lookup_eq_ok_iff {target : Target} : r.lookup name = .ok target ↔ r.Gives name target := by
  constructor
  · intro h
    obtain ⟨loose, hloose, h⟩ := bind_eq_ok_iff.mp h
    cases loose with
    | some found =>
        obtain rfl := Except.ok.inj h
        exact .loose hloose
    | none =>
        obtain ⟨packed, hpacked, h⟩ := bind_eq_ok_iff.mp h
        cases packed with
        | some found =>
            obtain rfl := Except.ok.inj h
            exact .packed hloose hpacked
        | none => cases h
  · rintro (h | ⟨hloose, h⟩)
    · exact bind_eq_ok_iff.mpr ⟨_, h, rfl⟩
    · exact bind_eq_ok_iff.mpr ⟨_, hloose, bind_eq_ok_iff.mpr ⟨_, h, rfl⟩⟩

/-- A reference that names an object is resolved to itself, and its object is reached from it. -/
theorem resolve_of_gives {id : ObjectId} {behind : Option ObjectId}
    (hname : Reference.normalize name = .ok name) (h : r.Gives name (.object id behind)) :
    r.resolve name = .ok ⟨name, id, behind⟩ ∧ r.anchor name = .ok ⟨name, id, behind⟩ := by
  simp only [resolve, anchor, hname, bind, Except.bind, lookup_eq_ok_iff.mpr h, follow, and_self]

theorem anchor_eq_ok_iff_of_gives {id : ObjectId} {behind : Option ObjectId}
    {reference : Reference} (hname : Reference.normalize name = .ok name)
    (h : r.Gives name (.object id behind)) :
    r.anchor name = .ok reference ↔ reference.name = name ∧
      r.Gives name (.object reference.id reference.behind) := by
  rw [(resolve_of_gives hname h).2]
  constructor
  · intro heq
    obtain rfl := Except.ok.inj heq
    exact ⟨rfl, h⟩
  · rintro ⟨rfl, hgives⟩
    have htarget := (lookup_eq_ok_iff.mpr h).symm.trans (lookup_eq_ok_iff.mpr hgives)
    obtain ⟨rfl, rfl⟩ := Target.object.inj (Except.ok.inj htarget)
    rfl

end References

/-! ## The answer -/

/-- Tags with names in UTF-8 are listed with these names. -/
theorem exists_named {listed : List (Octets × Reference)}
    (h : ∀ t ∈ listed, ∃ name, t.1 = Octets.ofText name) :
    ∃ tags : List (Text × Reference), listed = named tags := by
  induction listed with
  | nil => exact ⟨[], rfl⟩
  | cons t listed ih =>
      obtain ⟨name, hname⟩ := h t List.mem_cons_self
      obtain ⟨tags, rfl⟩ := ih fun t ht => h t (List.mem_cons_of_mem _ ht)
      exact ⟨(name, t.2) :: tags, congrArg (· :: named tags) (Prod.ext hname rfl)⟩

theorem mem_named_iff {tags : List (Text × Reference)} {name : Text} {reference : Reference} :
    (Octets.ofText name, reference) ∈ named tags ↔ (name, reference) ∈ tags := by
  have hinj : ∀ other, Octets.ofText other = Octets.ofText name → other = name := by
    intro other hother
    apply Option.some.inj
    calc
      some other = Octets.text? (Octets.ofText other) := (text?_ofText other).symm
      _ = Octets.text? (Octets.ofText name) := by rw [hother]
      _ = some name := text?_ofText name
  rw [named, List.mem_map]
  constructor
  · rintro ⟨⟨other, found⟩, hmem, heq⟩
    obtain ⟨hname, rfl⟩ := Prod.mk.inj heq
    rwa [← hinj other hname]
  · intro hmem
    exact ⟨(name, reference), hmem, rfl⟩

/-- If all tags resolve and have names in UTF-8, they are listed, each with the reference from which
its object is reached. -/
theorem References.exists_tags_eq {r : References} {lines : List Reference}
    (hlines : r.packed.lines = .ok lines)
    (hall : ∀ name, r.HasTag name → (r.resolve (tagPlace ++ name)).isOk)
    (hutf8 : ∀ name, r.HasTag name → ∃ text, name = Octets.ofText text) :
    ∃ tags : List (Text × Reference), r.tags = named tags ∧
      ∀ name reference, (name, reference) ∈ tags ↔
        r.HasTag (Octets.ofText name) ∧
          r.anchor (tagPlace ++ Octets.ofText name) = .ok reference := by
  obtain ⟨tags, htags⟩ : ∃ tags : List (Text × Reference), r.tags = named tags := by
    apply exists_named
    rintro ⟨name, reference⟩ ht
    exact hutf8 name ((mem_tags_iff hlines hall).mp ht).1
  refine ⟨tags, htags, fun name reference => ?_⟩
  rw [← mem_named_iff, ← htags]
  exact mem_tags_iff hlines hall

namespace Checkout

variable {c : Checkout} {head : Commit} {lines : List Reference}

/-- If all tags resolve and have names in UTF-8, the answer has the names of those that are reached
from the commit at HEAD, in the order of their bytes. -/
theorem tagsAtHead_of_references (hhead : c.headCommit = .ok head)
    (hlines : c.references.packed.lines = .ok lines)
    (hall : ∀ name, c.references.HasTag name →
      (c.references.resolve (References.tagPlace ++ name)).isOk)
    (hutf8 : ∀ name, c.references.HasTag name → ∃ text, name = Octets.ofText text) :
    ∃ names, c.repository.tagsAtHead = .ok ⟨names⟩ ∧
      names.Pairwise (fun s t => Utf8.encode s < Utf8.encode t) ∧
      ∀ name, name ∈ names ↔ c.references.HasTag (Octets.ofText name) ∧
        ∃ reference, c.references.anchor (References.tagPlace ++ Octets.ofText name) =
          .ok reference ∧ c.database.PeelsTo reference.start head := by
  obtain ⟨tags, htags, hmem⟩ := References.exists_tags_eq hlines hall hutf8
  have hperm : c.references.tags.Perm (named tags) := .of_eq htags
  refine ⟨_, tagsAtHead_eq hhead, (pairwise_lt_tags head.id hperm).imp Utf8.encode_lt_encode,
    fun name => ?_⟩
  rw [mem_tagsOf_iff (lookup_of_headCommit hhead) hperm, IsTagOf]
  simp only [hmem, and_assoc, exists_and_left]

/-- If all tags name objects, the answer has the names of those whose object peels to the commit at
HEAD. -/
theorem tagsAtHead_of_objects (hhead : c.headCommit = .ok head)
    (hlines : c.references.packed.lines = .ok lines)
    (hall : ∀ name, c.references.HasTag name →
      Reference.normalize (References.tagPlace ++ name) = .ok (References.tagPlace ++ name) ∧
        ∃ id behind, c.references.Gives (References.tagPlace ++ name) (.object id behind))
    (hutf8 : ∀ name, c.references.HasTag name → ∃ text, name = Octets.ofText text) :
    ∃ names, c.repository.tagsAtHead = .ok ⟨names⟩ ∧
      names.Pairwise (fun s t => Utf8.encode s < Utf8.encode t) ∧
      ∀ name, name ∈ names ↔ c.references.HasTag (Octets.ofText name) ∧
        ∃ reference : Reference, reference.name = References.tagPlace ++ Octets.ofText name ∧
          c.references.Gives reference.name (.object reference.id reference.behind) ∧
          c.database.PeelsTo reference.start head := by
  have hresolve : ∀ name, c.references.HasTag name →
      (c.references.resolve (References.tagPlace ++ name)).isOk := by
    intro name hname
    obtain ⟨hnormal, id, behind, hgives⟩ := hall name hname
    rw [(References.resolve_of_gives hnormal hgives).1]
    rfl
  obtain ⟨names, hnames, hsorted, hmem⟩ := tagsAtHead_of_references hhead hlines hresolve hutf8
  refine ⟨names, hnames, hsorted, fun name => (hmem name).trans ?_⟩
  refine and_congr_right fun hname => exists_congr fun reference => ?_
  obtain ⟨hnormal, id, behind, hgives⟩ := hall _ hname
  rw [References.anchor_eq_ok_iff_of_gives hnormal hgives, and_assoc]
  refine and_congr_right fun heq => ?_
  rw [heq]

/-- A single tag that does not resolve makes the answer empty, whatever tags the commit has. -/
theorem tagsAtHead_of_unresolved {name : Octets} (hhead : c.headCommit = .ok head)
    (hname : c.references.HasTag name)
    (hunresolved : (c.references.resolve (References.tagPlace ++ name)).isOk = false) :
    c.repository.tagsAtHead = .ok ⟨[]⟩ := by
  have htags : c.references.tags = [] := by
    rw [References.tags, References.listedTagNames_eq_nil hname hunresolved]
    rfl
  rw [tagsAtHead_eq hhead, htags]
  simp [tagsOf]

end Checkout

end VersionStamp.Git
