import VersionStamp.Git.Commit

namespace VersionStamp.Git

/-!
# The ids in a database

Objects are looked for by the names in the sources of a database. An object that can be read has
its id among them, and where the search for first digits ends with one id, no other id begins with
these digits. In an orderly database the converse holds too.
-/

namespace ObjectId

theorem utf8Size_of_isHexDigit {c : Char} (h : isHexDigit c) : c.utf8Size = 1 := by
  have hle : c.toNat ≤ 102 := by
    simp only [isHexDigit, Char.isDigit, Bool.or_eq_true, Bool.and_eq_true,
      decide_eq_true_eq] at h
    rcases h with ⟨-, h⟩ | ⟨-, h⟩
    · have hnine : c.toNat ≤ 57 := h
      omega
    · exact h
  exact Char.utf8Size_eq_one_iff.mpr (Nat.le_trans hle (by decide))

theorem byteLength_of_isHexDigit {t : Text} (h : ∀ c ∈ t, isHexDigit c) :
    Text.byteLength t = t.length := by
  induction t with
  | nil => rfl
  | cons c t ih =>
      have hc := utf8Size_of_isHexDigit (h c List.mem_cons_self)
      have ht := ih fun d hd => h d (List.mem_cons_of_mem c hd)
      simp only [Text.byteLength, List.foldr_cons, List.length_cons] at ht ⊢
      rw [ht, hc, Nat.add_comm]

theorem isHex_of_isHexDigit {t : Text} (h : ∀ c ∈ t, isHexDigit c) :
    Source.isHex t.length t = true := by
  have hall : ∀ c ∈ t, (hexDigit? c).isSome = true := by
    intro c hc
    rw [hexDigit?, if_pos (h c hc)]
    rfl
  simpa [Source.isHex] using hall

end ObjectId

/-! ## What is read is listed -/

theorem Pack.exists_of_read? {p : Pack} {id : ObjectId} {found : Option Object}
    (h : p.read? id = some found) : ∃ e ∈ p.usable, e.id = id := by
  rw [Pack.read?] at h
  obtain ⟨content, -, h⟩ := Option.bind_eq_some_iff.mp h
  obtain ⟨e, he, -⟩ := Option.bind_eq_some_iff.mp h
  exact ⟨e, List.mem_of_find?_eq_some he, by simpa using List.find?_some he⟩

namespace Source

theorem mem_of_lookup {entries : List (Text × Entry)} {name : Text} {e : Entry}
    (h : entries.lookup name = some e) : (name, e) ∈ entries := by
  obtain ⟨front, back, rfl, -⟩ := List.lookup_eq_some_iff.mp h
  simp

theorem mem_shelves {folder shelf : Entry} {name title : Text} {e : Entry}
    (hshelf : folder.children.lookup name = some shelf) (hname : isHex 2 name)
    (he : shelf.children.lookup title = some e) : (name, shelf.children) ∈ shelves folder := by
  rw [shelves, List.mem_filterMap]
  refine ⟨(name, shelf), mem_of_lookup hshelf, ?_⟩
  cases shelf with
  | file content executable => simp [Entry.children] at he
  | directory entries => simp [Entry.isDirectory, hname]

/-- An object that has a file of its own is listed. -/
theorem mem_names_of_place {path : Octets} {folder : Entry} {id : ObjectId} {content : Bytes}
    {executable : Bool}
    (h : folder.at? (ObjectFile.place id) = some (.file content executable)) :
    id.digits ∈ (files path folder).names := by
  rw [ObjectFile.place, Entry.at?] at h
  obtain ⟨shelf, hshelf, h⟩ := Option.bind_eq_some_iff.mp h
  rw [Entry.at?] at h
  obtain ⟨e, he, h⟩ := Option.bind_eq_some_iff.mp h
  obtain rfl : e = .file content executable := by simpa [Entry.at?] using h
  have hfront : ∀ c ∈ id.digits.take 2, ObjectId.isHexDigit c :=
    fun c hc => id.isHexDigit_of_mem c (List.mem_of_mem_take hc)
  have hback : ∀ c ∈ id.digits.drop 2, ObjectId.isHexDigit c :=
    fun c hc => id.isHexDigit_of_mem c (List.mem_of_mem_drop hc)
  have hname : isHex 2 (id.digits.take 2) := by
    simpa [id.length_digits] using ObjectId.isHex_of_isHexDigit hfront
  have htitle : Text.byteLength (id.digits.drop 2) = ObjectId.length - 2 := by
    rw [ObjectId.byteLength_of_isHexDigit hback, List.length_drop, id.length_digits]
    rfl
  rw [names, List.mem_flatMap]
  refine ⟨(id.digits.take 2, shelf.children), mem_shelves hshelf hname he, ?_⟩
  rw [List.mem_filterMap]
  refine ⟨(id.digits.drop 2, .file content executable), mem_of_lookup he, ?_⟩
  simp [Entry.isDirectory, htitle]

/-- A source lists every object that it reads. -/
theorem mem_names_of_read {s : Source} {id : ObjectId} {o : Object} (h : s.read id = .found o) :
    id.digits ∈ s.names := by
  cases s with
  | pack p =>
      simp only [read] at h
      split at h
      next found hfound =>
        obtain ⟨e, he, rfl⟩ := Pack.exists_of_read? hfound
        exact List.mem_map_of_mem he
      next => simp at h
  | files path folder =>
      simp only [read] at h
      split at h
      next content executable hfile => exact mem_names_of_place hfile
      next => simp at h

end Source

/-- What is found as a commit is an object of that kind, with the id under which it was read. -/
theorem Finding.ofObject_eq_commit {id : ObjectId} {o : Object} {c : Commit}
    (h : Finding.ofObject id o = .commit c) : c.id = id ∧ o.kind = .commit := by
  rw [Finding.ofObject] at h
  cases hkind : o.kind with
  | commit =>
      simp only [hkind] at h
      split at h
      next moment _ =>
        obtain rfl : ⟨id, moment⟩ = c := by simpa using h
        exact ⟨rfl, rfl⟩
      next => simp at h
  | tag =>
      simp only [hkind] at h
      split at h <;> simp at h
  | tree =>
      simp only [hkind] at h
      split at h <;> simp at h
  | blob => simp [hkind] at h

namespace Database

def Lists (d : Database) (id : ObjectId) : Prop :=
  ∃ s ∈ d.sources.getD [], id.digits ∈ s.names

theorem exists_of_readFirst {id : ObjectId} {o : Object} {sources : List Source}
    (h : readFirst id sources = .found o) : ∃ s ∈ sources, id.digits ∈ s.names := by
  induction sources with
  | nil => simp [readFirst] at h
  | cons s sources ih =>
      rw [readFirst] at h
      split at h
      next =>
        obtain ⟨t, ht, hnames⟩ := ih h
        exact ⟨t, List.mem_cons_of_mem s ht, hnames⟩
      next => exact ⟨s, List.mem_cons_self, Source.mem_names_of_read h⟩

-- Only the tree without entries can be read without being there.
theorem lists_of_read {d : Database} {id : ObjectId} {o : Object} (h : d.read id = .found o)
    (hkind : o.kind ≠ .tree) : d.Lists id := by
  rw [read] at h
  split at h
  next => simp at h
  next sources hsources =>
    rw [Lists, hsources, Option.getD_some]
    split at h
    next =>
      obtain rfl : emptyTree = o := by simpa using h
      exact absurd rfl hkind
    next =>
      split at h
      next found hfound => exact exists_of_readFirst hfound
      next habsent => exact exists_of_readFirst h

theorem lists_of_lookup {d : Database} {id : ObjectId} {expected : Option Kind} {c : Commit}
    (h : d.lookup id expected = .commit c) : d.Lists c.id := by
  rw [lookup] at h
  split at h
  next => simp at h
  next o ho =>
    split at h
    next =>
      obtain ⟨rfl, hkind⟩ := Finding.ofObject_eq_commit h
      exact lists_of_read ho (by simp [hkind])
    next => simp at h

end Database

end VersionStamp.Git
