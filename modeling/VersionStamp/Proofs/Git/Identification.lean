import VersionStamp.Proofs.Git.Database

namespace VersionStamp.Git

/-!
# First digits that stand for one id

A search for first digits ends with one id only if every name that begins with them is that id, so
no other id in the database does. In an orderly database, where each source has ids for its names
and none of them twice, these digits are also found to stand for that id.
-/

namespace Match

def Within (m : Match) (id : ObjectId) : Prop :=
  m = .nothing ∨ m = .one id

theorem and_eq_nothing_iff {m n : Match} : m.and n = .nothing ↔ m = .nothing ∧ n = .nothing := by
  cases m with
  | nothing => simp [Match.and]
  | one a =>
      cases n with
      | one b =>
          rw [Match.and]
          split <;> simp
      | nothing | several | malformed => simp [Match.and]
  | several | malformed => simp [Match.and]

theorem within_and_iff {m n : Match} {id : ObjectId} :
    (m.and n).Within id ↔ m.Within id ∧ n.Within id := by
  cases m with
  | nothing => simp [Match.and, Within]
  | one a =>
      cases n with
      | one b =>
          rw [Match.and]
          split
          next h => simp [Within, h]
          next h =>
            simp only [Within, reduceCtorEq, one.injEq, false_or, false_iff, not_and]
            rintro rfl hb
            exact h hb.symm
      | nothing | several | malformed => simp [Match.and, Within]
  | several | malformed => simp [Match.and, Within]

theorem and_ne_malformed {m n : Match} (hm : m ≠ .malformed) (hn : n ≠ .malformed) :
    m.and n ≠ .malformed := by
  cases m with
  | nothing => exact hn
  | one a =>
      cases n with
      | one b =>
          rw [Match.and]
          split <;> simp
      | malformed => exact absurd rfl hn
      | nothing | several => simp [Match.and]
  | several => simp [Match.and]
  | malformed => exact absurd rfl hm

end Match

/-! ## One source -/

namespace Source

/-- A source finds nothing just if none of its names begins with the digits. -/
theorem find_eq_nothing_iff {s : Source} {digits : Text} :
    s.find digits = .nothing ↔ ∀ name ∈ s.names, ¬ digits <+: name := by
  have hfilter : s.find digits = .nothing ↔
      s.names.filter (fun name => digits.isPrefixOf name) = [] := by
    rw [find]
    split
    next h => simp [h]
    next name h =>
      rw [h]
      cases ObjectId.ofDigits? name <;> simp
    next h _ => simpa using h
  rw [hfilter, List.filter_eq_nil_iff]
  simp

/-- Where a search finds one id at most, every name it comes upon is that id. -/
theorem ofDigits?_of_find {s : Source} {digits name : Text} {id : ObjectId}
    (h : (s.find digits).Within id) (hname : name ∈ s.names) (hbegin : digits <+: name) :
    ObjectId.ofDigits? name = some id := by
  have hmem : name ∈ s.names.filter fun name => digits.isPrefixOf name :=
    List.mem_filter.mpr ⟨hname, by simpa using hbegin⟩
  rcases h with h | h
  · exact absurd hbegin (find_eq_nothing_iff.mp h name hname)
  · rw [find] at h
    split at h
    next => simp at h
    next only honly =>
      obtain rfl : name = only := by simpa [honly] using hmem
      cases hid : ObjectId.ofDigits? name with
      | none => simp [hid] at h
      | some a => simpa [hid] using h
    next => simp at h

/-- Whether the names of a source are ids, none of them twice. -/
def IsOrderly (s : Source) : Prop :=
  s.names.Nodup ∧ ∀ name ∈ s.names, ∃ id : ObjectId, id.digits = name

theorem find_ne_malformed {s : Source} (h : s.IsOrderly) (digits : Text) :
    s.find digits ≠ .malformed := by
  rw [find]
  split
  next => simp
  next name hname =>
    have hmem : name ∈ s.names.filter fun name => digits.isPrefixOf name := by simp [hname]
    obtain ⟨id, rfl⟩ := h.2 name (List.mem_filter.mp hmem).1
    simp [ObjectId.ofDigits?_digits]
  next => simp

/-- Where only one id begins with the digits, a source in order finds this one or nothing. -/
theorem find_within {s : Source} {digits : Text} {id : ObjectId} (h : s.IsOrderly)
    (honly : ∀ name ∈ s.names, digits <+: name → name = id.digits) :
    (s.find digits).Within id := by
  have hall : ∀ name ∈ s.names.filter fun name => digits.isPrefixOf name, name = id.digits := by
    intro name hname
    obtain ⟨hmem, hbegin⟩ := List.mem_filter.mp hname
    exact honly name hmem (by simpa using hbegin)
  have hnodup : (s.names.filter fun name => digits.isPrefixOf name).Nodup := h.1.filter _
  rw [find]
  rcases hfound : s.names.filter fun name => digits.isPrefixOf name with
    _ | ⟨first, _ | ⟨second, more⟩⟩
  · exact Or.inl rfl
  · obtain rfl : first = id.digits := hall first (by simp [hfound])
    simp [ObjectId.ofDigits?_digits, Match.Within]
  · -- Two names would both be the digits of the id.
    rw [hfound] at hall hnodup
    have hsame : first = second := by
      rw [hall first List.mem_cons_self,
        hall second (List.mem_cons_of_mem first List.mem_cons_self)]
    exact absurd (hsame ▸ List.mem_cons_self) (List.nodup_cons.mp hnodup).1

end Source

/-! ## All sources -/

section Sources

variable {sources : List Source} {digits : Text} {m : Match}

/-- All sources together find nothing just if none of them finds anything. -/
theorem foldl_and_eq_nothing_iff :
    sources.foldl (fun m s => m.and (s.find digits)) m = .nothing ↔
      m = .nothing ∧ ∀ s ∈ sources, s.find digits = .nothing := by
  induction sources generalizing m with
  | nil => simp
  | cons s sources ih =>
      calc
        (s :: sources).foldl (fun m s => m.and (s.find digits)) m = .nothing ↔
            m.and (s.find digits) = .nothing ∧ ∀ t ∈ sources, t.find digits = .nothing := ih
        _ ↔ m = .nothing ∧ ∀ t ∈ s :: sources, t.find digits = .nothing := by
          rw [Match.and_eq_nothing_iff, List.forall_mem_cons, and_assoc]

theorem within_foldl_and_iff {id : ObjectId} :
    (sources.foldl (fun m s => m.and (s.find digits)) m).Within id ↔
      m.Within id ∧ ∀ s ∈ sources, (s.find digits).Within id := by
  induction sources generalizing m with
  | nil => simp
  | cons s sources ih =>
      calc
        ((s :: sources).foldl (fun m s => m.and (s.find digits)) m).Within id ↔
            (m.and (s.find digits)).Within id ∧ ∀ t ∈ sources, (t.find digits).Within id := ih
        _ ↔ m.Within id ∧ ∀ t ∈ s :: sources, (t.find digits).Within id := by
          rw [Match.within_and_iff, List.forall_mem_cons, and_assoc]

theorem foldl_and_ne_malformed (hm : m ≠ .malformed)
    (h : ∀ s ∈ sources, s.find digits ≠ .malformed) :
    sources.foldl (fun m s => m.and (s.find digits)) m ≠ .malformed := by
  induction sources generalizing m with
  | nil => exact hm
  | cons s sources ih =>
      obtain ⟨hs, hsources⟩ := List.forall_mem_cons.mp h
      exact ih (Match.and_ne_malformed hm hs) hsources

end Sources

namespace Database

/-- Whether some digits begin no id in a database but perhaps the given one. -/
def Identifies (d : Database) (digits : Text) (id : ObjectId) : Prop :=
  ∀ other, d.Lists other → digits <+: other.digits → other = id

def IsOrderly (d : Database) : Prop :=
  ∀ s ∈ d.sources.getD [], s.IsOrderly

variable {d : Database} {id : ObjectId} {digits : Text}

theorem Identifies.of_prefix {longer : Text} (h : d.Identifies digits id)
    (hbegin : digits <+: longer) : d.Identifies longer id :=
  fun other hother hlonger => h other hother (hbegin.trans hlonger)

theorem find_ne_nothing (hid : d.Lists id) (hbegin : digits <+: id.digits) :
    d.find digits ≠ .nothing := by
  obtain ⟨s, hs, hname⟩ := hid
  intro h
  have hsource := (foldl_and_eq_nothing_iff.mp h).2 s hs
  exact Source.find_eq_nothing_iff.mp hsource id.digits hname hbegin

/-- Digits that find a single object are those of no other one. -/
theorem identifies_of_find {found : ObjectId} (hid : d.Lists id) (hbegin : digits <+: id.digits)
    (h : d.find digits = .one found) : d.Identifies digits id := by
  have hwithin := (within_foldl_and_iff.mp (Or.inr h)).2
  have hfound : ∀ other, d.Lists other → digits <+: other.digits → other = found := by
    intro other hother hother'
    obtain ⟨s, hs, hname⟩ := hother
    have hread := Source.ofDigits?_of_find (hwithin s hs) hname hother'
    rw [ObjectId.ofDigits?_digits] at hread
    exact Option.some.inj hread
  intro other hother hother'
  rw [hfound other hother hother', hfound id hid hbegin]

theorem find_ne_malformed (h : d.IsOrderly) : d.find digits ≠ .malformed :=
  foldl_and_ne_malformed (by simp) fun s hs => Source.find_ne_malformed (h s hs) digits

/-- Digits of a listed object and no other find it, in an orderly database. -/
theorem find_of_identifies (ho : d.IsOrderly) (hid : d.Lists id) (hbegin : digits <+: id.digits)
    (h : d.Identifies digits id) : d.find digits = .one id := by
  have hwithin : (d.find digits).Within id := by
    refine within_foldl_and_iff.mpr ⟨Or.inl rfl, fun s hs => ?_⟩
    apply Source.find_within (ho s hs)
    intro name hname hname'
    obtain ⟨other, rfl⟩ := (ho s hs).2 name hname
    rw [h other ⟨s, hs, hname⟩ hname']
  rcases hwithin with hnothing | hone
  · exact absurd hnothing (find_ne_nothing hid hbegin)
  · exact hone

end Database

end VersionStamp.Git
