import Mathlib.Data.List.Nodup
import Mathlib.Data.List.Perm.Subperm
import VersionStamp.Git.Checkout
import VersionStamp.Proofs.Failure
import VersionStamp.Proofs.Git.Database

namespace VersionStamp.Git

/-!
# The commit at the end of a chain of tags

An object peels to a commit if it is the commit, or a tag that names, with its kind, an object that
does. No tag comes twice in such a chain, and all of them are listed in the database. So a search
that follows as many tags as the database has names misses no commit.
-/

theorem Finding.ofObject_eq_tag {id target : ObjectId} {kind : Kind} {o : Object}
    (h : Finding.ofObject id o = .tag target kind) : o.kind = .tag := by
  rw [Finding.ofObject] at h
  cases hkind : o.kind with
  | tag => rfl
  | commit =>
      simp only [hkind] at h
      split at h <;> simp at h
  | tree =>
      simp only [hkind] at h
      split at h <;> simp at h
  | blob => simp [hkind] at h

namespace Database

def Holds (d : Database) (id : ObjectId) (kind : Kind) : Prop :=
  ∃ o, d.read id = .found o ∧ o.kind = kind

/-- The tags through which one object is reached from another. -/
inductive Chain (d : Database) : ObjectId → List ObjectId → ObjectId → Prop
  | here (id : ObjectId) : Chain d id [] id
  | tag {id target last : ObjectId} {kind : Kind} {tags : List ObjectId}
      (hid : d.lookup id = .tag target kind) (htarget : d.Holds target kind)
      (hrest : Chain d target tags last) : Chain d id (id :: tags) last

/-- Whether tags lead from an object to a commit, or it is the commit itself. -/
def PeelsTo (d : Database) (id : ObjectId) (c : Commit) : Prop :=
  ∃ tags last, d.Chain id tags last ∧ d.lookup last = .commit c

variable {d : Database} {id target mid last : ObjectId} {kind : Kind} {tags : List ObjectId}
  {c : Commit} {fuel : Nat}

/-! ## Looking for an object of a kind -/

theorem lookup_of_holds (h : d.Holds id kind) : d.lookup id (some kind) = d.lookup id := by
  obtain ⟨o, ho, hkind⟩ := h
  simp [lookup, ho, hkind]

theorem holds_of_lookup (h : ∀ why, d.lookup id (some kind) ≠ .nothing why) :
    d.Holds id kind := by
  simp only [lookup] at h
  split at h
  next why _ => exact absurd rfl (h why)
  next o ho =>
    split at h
    next hkind => exact ⟨o, ho, by simpa using hkind⟩
    next => exact absurd rfl (h .missing)

theorem lists_of_lookup_eq_tag (h : d.lookup id = .tag target kind) : d.Lists id := by
  simp only [lookup] at h
  split at h
  next => simp at h
  next o ho =>
    have hkind := Finding.ofObject_eq_tag (by simpa using h)
    exact lists_of_read ho (by simp [hkind])

/-! ## Chains -/

theorem Chain.append {front back : List ObjectId} (hfront : d.Chain id front mid)
    (hback : d.Chain mid back last) : d.Chain id (front ++ back) last := by
  induction hfront with
  | here => exact hback
  | tag hid htarget _ ih => exact .tag hid htarget (ih hback)

theorem Chain.eq_nil (h : d.Chain id tags last) (hid : d.lookup id = .commit c) :
    tags = [] ∧ id = last := by
  cases h with
  | here => exact ⟨rfl, rfl⟩
  | tag htag => simp [hid] at htag

/-- A chain to a commit passes through all that tags lead to from its beginning. -/
theorem Chain.exists_rest {front : List ObjectId} (hfront : d.Chain id front mid)
    (h : d.Chain id tags last) (hlast : d.lookup last = .commit c) :
    ∃ rest, tags = front ++ rest ∧ d.Chain mid rest last := by
  -- A tag names one object only, so both chains take the same steps as long as there are two.
  induction hfront generalizing tags with
  | here => exact ⟨tags, rfl, h⟩
  | tag hid _ _ ih =>
      cases h with
      | here => simp [hid] at hlast
      | tag hid' _ hrest =>
          obtain ⟨rfl, rfl⟩ := Finding.tag.inj (hid.symm.trans hid')
          obtain ⟨rest, rfl, hmid⟩ := ih hrest
          exact ⟨rest, rfl, hmid⟩

/-- There is one way only to a commit. -/
theorem Chain.tags_unique {tags' : List ObjectId} (h : d.Chain id tags last)
    (h' : d.Chain id tags' last) (hlast : d.lookup last = .commit c) : tags = tags' := by
  obtain ⟨rest, rfl, hrest⟩ := h.exists_rest h' hlast
  rw [(hrest.eq_nil hlast).1, List.append_nil]

theorem Chain.exists_of_mem (h : d.Chain id tags last) {t : ObjectId} (ht : t ∈ tags) :
    ∃ front back, tags = front ++ t :: back ∧ d.Chain t (t :: back) last := by
  induction h with
  | here => simp at ht
  | @tag id _ _ _ tags hid htarget hrest ih =>
      rcases List.mem_cons.mp ht with rfl | ht
      · exact ⟨[], tags, rfl, .tag hid htarget hrest⟩
      · obtain ⟨front, back, rfl, hback⟩ := ih ht
        exact ⟨id :: front, back, rfl, hback⟩

-- A tag that came again would have two chains to the commit, of different lengths.
theorem Chain.nodup (h : d.Chain id tags last) (hlast : d.lookup last = .commit c) :
    tags.Nodup := by
  induction h with
  | here => exact List.nodup_nil
  | @tag id _ _ _ tags hid htarget hrest ih =>
      refine List.nodup_cons.mpr ⟨fun hmem => ?_, ih hlast⟩
      obtain ⟨front, back, hsplit, hback⟩ := hrest.exists_of_mem hmem
      have hsame := (Chain.tag hid htarget hrest).tags_unique hback hlast
      have hlength := congrArg List.length ((List.cons.inj hsame).2.symm.trans hsplit)
      rw [List.length_append, List.length_cons] at hlength
      omega

theorem Chain.lists_of_mem (h : d.Chain id tags last) {t : ObjectId} (ht : t ∈ tags) :
    d.Lists t := by
  induction h with
  | here => simp at ht
  | tag hid _ _ ih =>
      rcases List.mem_cons.mp ht with rfl | ht
      · exact lists_of_lookup_eq_tag hid
      · exact ih ht

theorem size_eq (d : Database) :
    d.size = ((d.sources.getD []).flatMap Source.names).length := by
  have hfold : ∀ (sources : List Source) (n : Nat),
      sources.foldl (fun n s => n + s.names.length) n =
        n + (sources.flatMap Source.names).length := by
    intro sources
    induction sources with
    | nil => intro n; rfl
    | cons s sources ih =>
        intro n
        calc
          (s :: sources).foldl (fun n s => n + s.names.length) n =
              n + s.names.length + (sources.flatMap Source.names).length := ih _
          _ = n + ((s :: sources).flatMap Source.names).length := by
            rw [List.flatMap_cons, List.length_append, Nat.add_assoc]
  rw [size, hfold, Nat.zero_add]

/-- The tags of a chain are different objects of the database, so that no chain is longer than it.
-/
theorem Chain.length_le_size (h : d.Chain id tags last) (hlast : d.lookup last = .commit c) :
    tags.length ≤ d.size := by
  have hinjective : Function.Injective ObjectId.digits := by
    rintro ⟨digits, -, -⟩ ⟨digits', -, -⟩ rfl
    rfl
  have hsubset : tags.map ObjectId.digits ⊆ (d.sources.getD []).flatMap Source.names := by
    intro digits hdigits
    obtain ⟨t, ht, rfl⟩ := List.mem_map.mp hdigits
    obtain ⟨s, hs, hnames⟩ := h.lists_of_mem ht
    exact List.mem_flatMap.mpr ⟨s, hs, hnames⟩
  -- The digits of the tags are all different, and all of them are names in the sources.
  have hsubperm := List.subperm_of_subset ((h.nodup hlast).map hinjective) hsubset
  rw [size_eq, ← List.length_map ObjectId.digits]
  exact hsubperm.length_le

/-! ## The search for the commit -/

theorem holds_of_commitBehind (h : d.commitBehind fuel id kind = .ok c) : d.Holds id kind := by
  apply holds_of_lookup
  intro why hnothing
  cases fuel <;> simp [commitBehind, hnothing] at h

/-- A commit that is found lies behind a chain of tags. -/
theorem peelsTo_of_commitBehind (h : d.commitBehind fuel id kind = .ok c) : d.PeelsTo id c := by
  have hholds := holds_of_commitBehind h
  induction fuel generalizing id kind with
  | zero =>
      rw [commitBehind, lookup_of_holds hholds] at h
      split at h
      next found hfound =>
        obtain rfl : found = c := by simpa using h
        exact ⟨[], id, .here id, hfound⟩
      all_goals simp at h
  | succ fuel ih =>
      rw [commitBehind, lookup_of_holds hholds] at h
      split at h
      next found hfound =>
        obtain rfl : found = c := by simpa using h
        exact ⟨[], id, .here id, hfound⟩
      next => simp at h
      next => simp at h
      next target kind' htag =>
        have htarget := holds_of_commitBehind h
        obtain ⟨tags, last, hchain, hlast⟩ := ih h htarget
        exact ⟨id :: tags, last, .tag htag htarget hchain, hlast⟩

/-- With as many steps as there are tags on the way, the commit behind them is found. -/
theorem commitBehind_of_chain (h : d.Chain id tags last) (hlast : d.lookup last = .commit c)
    (hholds : d.Holds id kind) (hfuel : tags.length ≤ fuel) :
    d.commitBehind fuel id kind = .ok c := by
  induction h generalizing fuel kind with
  | here => rw [commitBehind, lookup_of_holds hholds, hlast]
  | tag hid htarget _ ih =>
      cases fuel with
      | zero => simp at hfuel
      | succ fuel =>
          rw [commitBehind, lookup_of_holds hholds, hid]
          exact ih hlast htarget (Nat.le_of_succ_le_succ hfuel)

/-! ## What an object peels to -/

theorem PeelsTo.lookup_id (h : d.PeelsTo id c) : d.lookup c.id = .commit c := by
  obtain ⟨tags, last, -, hlast⟩ := h
  obtain rfl : c.id = last := by
    have hfound := hlast
    simp only [lookup] at hfound
    split at hfound
    next => simp at hfound
    next o _ => exact (Finding.ofObject_eq_commit (by simpa using hfound)).1
  exact hlast

/-- An object peels to what any object peels to that it leads to. -/
theorem Chain.peelsTo_iff (h : d.Chain id tags mid) : d.PeelsTo id c ↔ d.PeelsTo mid c := by
  constructor
  · rintro ⟨all, last, hall, hlast⟩
    obtain ⟨rest, -, hrest⟩ := h.exists_rest hall hlast
    exact ⟨rest, last, hrest, hlast⟩
  · rintro ⟨rest, last, hrest, hlast⟩
    exact ⟨tags ++ rest, last, h.append hrest, hlast⟩

end Database

namespace Reference

variable {d : Database} {r : Reference} {c : Commit}

/-- Whether tags lead to the object that is known to be behind the reference, if there is one. -/
def IsKnownRightly (d : Database) (r : Reference) : Prop :=
  ∃ tags, d.Chain r.id tags r.start

/-- The search for the commit of a reference finds it through any number of tags. -/
theorem commit_eq_ok_iff : r.commit d = .ok c ↔ d.PeelsTo r.start c := by
  rw [Reference.commit]
  constructor
  · intro h
    split at h
    next found hfound =>
      obtain rfl : found = c := by simpa using h
      exact ⟨[], r.start, .here r.start, hfound⟩
    next => simp at h
    next => simp at h
    next target kind htag =>
      split at h
      next found hfound =>
        obtain rfl : found = c := by simpa using h
        have htarget := Database.holds_of_commitBehind hfound
        obtain ⟨tags, last, hchain, hlast⟩ := Database.peelsTo_of_commitBehind hfound
        exact ⟨r.start :: tags, last, .tag htag htarget hchain, hlast⟩
      next => simp at h
  · rintro ⟨tags, last, hchain, hlast⟩
    generalize r.start = start at hchain
    cases hchain with
    | here => simp [hlast]
    | tag hid htarget hrest =>
        have hsearch := Database.commitBehind_of_chain hrest hlast htarget
          (hrest.length_le_size hlast)
        simp [hid, hsearch]

/-- A reference leads to a commit just if its object peels to it. -/
theorem leadsTo_iff (h : d.lookup c.id = .commit c) :
    r.leadsTo d c.id ↔ d.PeelsTo r.start c := by
  rw [← commit_eq_ok_iff, leadsTo]
  constructor
  · intro hleads
    split at hleads
    next found hfound =>
      have hid : found.id = c.id := by simpa using hleads
      have hlookup := (commit_eq_ok_iff.mp hfound).lookup_id
      rw [hid, h] at hlookup
      rw [hfound, Finding.commit.inj hlookup]
    next => simp at hleads
  · intro hcommit
    simp [hcommit]

end Reference

theorem Checkout.lookup_of_headCommit {c : Checkout} {head : Commit}
    (hhead : c.headCommit = .ok head) : c.database.lookup head.id = .commit head := by
  obtain ⟨r, -, hr⟩ := bind_eq_ok_iff.mp hhead
  exact (Reference.commit_eq_ok_iff.mp hr).lookup_id

end VersionStamp.Git
