import VersionStamp.Proofs.Git.CommitDate
import VersionStamp.Proofs.Git.Number
import VersionStamp.Proofs.Git.Peeling

namespace VersionStamp.Git

/-!
# The header of a commit

A commit begins with a line for its tree, one for each of its parents, one or more for its authors
and one for its committer. Whatever follows these lines, the time of the committer is read back from
them, and it is the time of which the date of the commit is told.
-/

/-! ## The time of a signature -/

/-- An offset in minutes as a zone such as `+0530`. -/
def zoneText (offset : Int) : Octets :=
  (if offset < 0 then '-' else '+') ::
    Text.zeroPadded 4 (Text.ofNat (offset.natAbs / 60 * 100 + offset.natAbs % 60))

def Moment.text (m : Moment) : Octets :=
  ' ' :: (Text.ofInt m.seconds ++ ' ' :: zoneText m.offset)

theorem isDigit_of_mem_ofNat {n : Nat} {c : Char} (h : c ∈ Text.ofNat n) : c.isDigit :=
  Nat.isDigit_of_mem_toDigits (by decide) (by decide) h

theorem isDigit_of_mem_zeroPadded {width n : Nat} {c : Char}
    (h : c ∈ Text.zeroPadded width (Text.ofNat n)) : c.isDigit := by
  rcases List.mem_append.mp h with hzero | hdigit
  · rw [List.eq_of_mem_replicate hzero]
    rfl
  · exact isDigit_of_mem_ofNat hdigit

theorem zoneNumber_cons {sign : Char} {n : Nat} (hsign : sign = '-' ∨ sign = '+')
    (hlt : n < 10000) : zoneNumber (sign :: Text.zeroPadded 4 (Text.ofNat n)) = n := by
  have hvalue : digitsValue 10 (Text.zeroPadded 4 (Text.ofNat n)) = n := by
    rw [digitsValue_zeroPadded, digitsValue_ofNat]
  have hne : Text.zeroPadded 4 (Text.ofNat n) ≠ [] :=
    List.append_ne_nil_of_right_ne_nil _ Nat.toDigits_ne_nil
  have hfits : fitsSigned 32 (digitsValue 10 (Text.zeroPadded 4 (Text.ofNat n))) := by
    rw [hvalue, fitsSigned]
    simp only [Bool.and_eq_true, decide_eq_true_eq]
    change (n : Int) < 2147483648 ∧ -2147483648 ≤ (n : Int)
    omega
  have hread : readNumber? 32 (some 10) (Text.zeroPadded 4 (Text.ofNat n) ++ []) =
      some ((digitsValue 10 (Text.zeroPadded 4 (Text.ofNat n)) : Int), []) :=
    readNumber?_digits hne (fun _ => isDigit_of_mem_zeroPadded) nofun hfits
  rw [List.append_nil, hvalue] at hread
  rcases hsign with rfl | rfl <;> simp [zoneNumber, hread]

/-- A zone of less than fifteen hours is read back. -/
theorem zoneOffset_zoneText {offset : Int} (h : offset.natAbs < 900) :
    zoneOffset (zoneText offset) = offset := by
  have hsign : (if offset < 0 then '-' else '+') = '-' ∨ (if offset < 0 then '-' else '+') = '+' :=
    (ite_eq_or_eq _ _ _)
  have hnumber : zoneNumber (zoneText offset) =
      (offset.natAbs / 60 * 100 + offset.natAbs % 60 : Nat) :=
    zoneNumber_cons hsign (by omega)
  have hhours : (zoneNumber (zoneText offset)).tdiv 100 = (offset.natAbs / 60 : Nat) := by
    rw [hnumber]
    change ((offset.natAbs / 60 * 100 + offset.natAbs % 60) / 100 : Nat) = (_ : Int)
    congr 1
    omega
  have hminutes : (zoneNumber (zoneText offset)).tmod 100 = (offset.natAbs % 60 : Nat) := by
    rw [hnumber]
    change ((offset.natAbs / 60 * 100 + offset.natAbs % 60) % 100 : Nat) = (_ : Int)
    congr 1
    omega
  have hhead : (zoneText offset).head? = some '-' ↔ offset < 0 := by
    rw [zoneText, List.head?_cons]
    split <;> simp [*]
  rw [zoneOffset, hhours, hminutes, if_pos (by omega)]
  simp only [hhead]
  split <;> omega

/-- What is not in a time: every character but digits, signs and blanks. -/
theorem not_mem_text {m : Moment} {c : Char} (hdigit : c.isDigit = false)
    (hc : c ∉ [' ', '-', '+']) : c ∉ m.text := by
  have hdigits : ∀ n, c ∉ Text.ofNat n := fun n hmem =>
    Bool.false_ne_true (hdigit.symm.trans (isDigit_of_mem_ofNat hmem))
  have hzone : c ∉ zoneText m.offset := by
    rw [zoneText, List.mem_cons]
    rintro (rfl | hmem)
    · split at hc <;> simp at hc
    · exact Bool.false_ne_true (hdigit.symm.trans (isDigit_of_mem_zeroPadded hmem))
  have hseconds : c ∉ Text.ofInt m.seconds := by
    cases m.seconds with
    | ofNat n => exact hdigits n
    | negSucc n =>
        rw [Text.ofInt, List.mem_cons]
        rintro (rfl | hmem)
        · simp at hc
        · exact hdigits (n + 1) hmem
  simp only [List.mem_cons, List.not_mem_nil, or_false, not_or] at hc
  simp [Moment.text, hc.1, hseconds, hzone]

/-! ## Signatures -/

/-- Who has signed a commit, and when. The name and the address stand on one line, the address within
angle brackets; the time fits the words in which it is read. -/
structure Signature where
  name : Octets
  address : Octets
  moment : Moment
  lf_not_mem_name : '\n' ∉ name
  lf_not_mem_address : '\n' ∉ address
  opening_not_mem_address : '<' ∉ address
  closing_not_mem_address : '>' ∉ address
  fits_seconds : fitsSigned 64 moment.seconds
  offset_lt : moment.offset.natAbs < 900

theorem afterLast?_append {c : Char} (front : Octets) {back : Octets} (h : c ∉ back) :
    afterLast? c (front ++ c :: back) = some back := by
  have hcontains : (front ++ c :: back).contains c := by simp
  have hback : ∀ d ∈ back.reverse, (d != c) = true := by
    intro d hd
    have hne : d ≠ c := fun heq => h (heq ▸ List.mem_reverse.mp hd)
    simpa using hne
  have htake : (front ++ c :: back).reverse.takeWhile (· != c) = back.reverse := by
    calc
      (front ++ c :: back).reverse.takeWhile (· != c) =
          (back.reverse ++ c :: front.reverse).takeWhile (· != c) := by simp
      _ = back.reverse ++ (c :: front.reverse).takeWhile (· != c) :=
        List.takeWhile_append_of_pos hback
      _ = back.reverse := by rw [List.takeWhile_cons_of_neg (by simp), List.append_nil]
  rw [afterLast?, if_pos hcontains, htake, List.reverse_reverse]

namespace Signature

variable (s : Signature)

def content : Octets :=
  s.name ++ ' ' :: '<' :: (s.address ++ '>' :: s.moment.text)

def line (label : Text) : Octets :=
  label ++ (s.content ++ ['\n'])

/-- The time is read back from behind a name and an address. -/
theorem ofLine?_content : Moment.ofLine? s.content = some s.moment := by
  have hopening : '<' ∉ s.address ++ '>' :: s.moment.text := by
    simp [s.opening_not_mem_address, not_mem_text (m := s.moment) (c := '<') rfl (by decide)]
  have hfirst : afterLast? '<' s.content = some (s.address ++ '>' :: s.moment.text) := by
    have hsplit : s.content = (s.name ++ [' ']) ++ '<' :: (s.address ++ '>' :: s.moment.text) := by
      simp [content]
    rw [hsplit, afterLast?_append _ hopening]
  have hsecond : afterLast? '>' s.content = some s.moment.text := by
    have hsplit : s.content = (s.name ++ ' ' :: '<' :: s.address) ++ '>' :: s.moment.text := by
      simp [content]
    rw [hsplit, afterLast?_append _ (not_mem_text rfl (by decide))]
  have hshorter : s.moment.text.length < (s.address ++ '>' :: s.moment.text).length := by
    simp
    omega
  have hread : readNumber? 64 (some 10) (Text.ofInt s.moment.seconds ++ ' ' ::
      zoneText s.moment.offset) =
        some (s.moment.seconds, ' ' :: zoneText s.moment.offset) := by
    apply readNumber?_ofInt _ s.fits_seconds
    intro c hc
    obtain rfl := Option.some.inj hc
    rfl
  obtain ⟨first, more, hseconds⟩ := List.exists_cons_of_ne_nil (Text.ofInt_ne_nil s.moment.seconds)
  have hoffset := zoneOffset_zoneText s.offset_lt
  rw [Moment.ofLine?, hfirst, hsecond]
  simp only [Option.bind_eq_bind, Option.bind_some, if_pos hshorter]
  rw [hseconds] at hread
  rw [zoneText] at hread hoffset
  simp only [Moment.text, hseconds, List.cons_append, zoneText] at hread ⊢
  simp only [hread, Option.bind_some, hoffset]

theorem lf_not_mem_content : '\n' ∉ s.content := by
  have htime : '\n' ∉ s.moment.text := not_mem_text rfl (by decide)
  simp [content, s.lf_not_mem_name, s.lf_not_mem_address, htime]

/-- The time of a signature is read back from its line. -/
theorem momentLine?_line {label : Text} (hlabel : '\n' ∉ label) (rest : Octets) :
    momentLine? label (s.line label ++ rest) = some (s.moment, rest) := by
  have hline : Octets.line? (s.line label ++ rest) = some (label ++ s.content, rest) := by
    have hlf : '\n' ∉ label ++ s.content := by simp [hlabel, s.lf_not_mem_content]
    have hsplit : s.line label ++ rest = (label ++ s.content) ++ '\n' :: rest := by simp [line]
    rw [hsplit, Octets.line?_append _ _ hlf]
  have hcontent : s.content ≠ [] := by simp [content]
  simp [momentLine?, hline, Octets.after?_append, hcontent, s.ofLine?_content]

end Signature

/-! ## Headers -/

/-- The header of a commit. -/
structure CommitHeader where
  tree : ObjectId
  parents : List ObjectId
  author : Signature
  /-- Further authors. -/
  others : List Signature
  committer : Signature

def idLine (label : Text) (id : ObjectId) : Octets :=
  label ++ (id.digits ++ ['\n'])

/-- The id of a line is read back, and what stands behind the line is left. -/
theorem idLine?_idLine (label : Text) (id : ObjectId) (rest : Octets) :
    idLine? label (idLine label id ++ rest) = some (id, rest) := by
  have hread : ObjectId.read? (id.digits ++ '\n' :: rest) = some (id, '\n' :: rest) := by
    rw [ObjectId.read?, List.take_left' id.length_digits, List.drop_left' id.length_digits,
      ObjectId.ofDigits?_digits]
    rfl
  have hsplit : idLine label id ++ rest = label ++ (id.digits ++ '\n' :: rest) := by
    simp [idLine]
  rw [idLine?, hsplit, Octets.after?_append]
  simp [hread]

theorem length_le_length_flatMap {α β : Type} {f : α → List β} (h : ∀ a, f a ≠ []) (l : List α) :
    l.length ≤ (l.flatMap f).length := by
  induction l with
  | nil => exact Nat.le_refl 0
  | cons a l ih =>
      have hpos := List.length_pos_of_ne_nil (h a)
      rw [List.flatMap_cons, List.length_append, List.length_cons]
      omega

-- By induction on the lines, with at least as many tries as there are lines.
theorem skipIdLines_flatMap {label : Text} {rest : Octets} (hrest : idLine? label rest = none)
    {ids : List ObjectId} {fuel : Nat} (hfuel : ids.length ≤ fuel) :
    skipIdLines label fuel (ids.flatMap (idLine label) ++ rest) = rest := by
  induction ids generalizing fuel with
  | nil => cases fuel <;> simp [skipIdLines, hrest]
  | cons id ids ih =>
      obtain ⟨tries, rfl⟩ := Nat.exists_eq_add_of_lt (Nat.lt_of_succ_le hfuel)
      calc
        skipIdLines label (ids.length + tries + 1) ((id :: ids).flatMap (idLine label) ++ rest) =
            skipIdLines label (ids.length + tries + 1)
              (idLine label id ++ (ids.flatMap (idLine label) ++ rest)) := by
          rw [List.flatMap_cons, List.append_assoc]
        _ = skipIdLines label (ids.length + tries) (ids.flatMap (idLine label) ++ rest) := by
          rw [skipIdLines, idLine?_idLine]
        _ = rest := ih (Nat.le_add_right _ _)

/-- Lines of further authors are passed over up to the first other line. -/
theorem skipAuthors?_flatMap {rest : Octets} (hrest : Octets.after? "author " rest = none)
    {authors : List Signature} {fuel : Nat} (hfuel : authors.length ≤ fuel) :
    skipAuthors? fuel (authors.flatMap (·.line "author ") ++ rest) = some rest := by
  induction authors generalizing fuel with
  | nil =>
      rw [List.flatMap_nil, List.nil_append]
      cases fuel with
      | zero => rfl
      | succ fuel =>
          rw [skipAuthors?, hrest]
          rfl
  | cons s authors ih =>
      obtain ⟨tries, rfl⟩ := Nat.exists_eq_add_of_lt (Nat.lt_of_succ_le hfuel)
      have hlabel : (Octets.after? "author " (s.line "author " ++
          (authors.flatMap (·.line "author ") ++ rest))).isSome := by
        rw [Signature.line, List.append_assoc, Octets.after?_append]
        rfl
      calc
        skipAuthors? (authors.length + tries + 1)
            ((s :: authors).flatMap (·.line "author ") ++ rest) =
            skipAuthors? (authors.length + tries + 1)
              (s.line "author " ++ (authors.flatMap (·.line "author ") ++ rest)) := by
          rw [List.flatMap_cons, List.append_assoc]
        _ = skipAuthors? (authors.length + tries) (authors.flatMap (·.line "author ") ++ rest) := by
          rw [skipAuthors?, if_pos hlabel, s.momentLine?_line (by decide)]
          rfl
        _ = some rest := ih (Nat.le_add_right _ _)

namespace CommitHeader

variable (h : CommitHeader)

def text : Octets :=
  idLine "tree " h.tree ++ (h.parents.flatMap (idLine "parent ") ++ (h.author.line "author " ++
    (h.others.flatMap (·.line "author ") ++ h.committer.line "committer ")))

theorem length_parents_le : h.parents.length ≤ h.text.length := by
  have hparents := length_le_length_flatMap (f := idLine "parent ") (by simp [idLine]) h.parents
  simp only [text, List.length_append]
  omega

theorem length_others_le : h.others.length ≤ h.text.length := by
  have hothers := length_le_length_flatMap (f := (Signature.line · "author "))
    (by simp [Signature.line]) h.others
  simp only [text, List.length_append]
  omega

/-- The time of the committer is read back from a header, whatever follows it. -/
theorem commitMoment?_text (rest : Octets) :
    commitMoment? (h.text ++ rest) = some h.committer.moment := by
  have hle : h.text.length ≤ (h.text ++ rest).length := (List.prefix_append _ rest).length_le
  have hparents := Nat.le_trans h.length_parents_le hle
  have hothers := Nat.le_trans h.length_others_le hle
  have hauthor : idLine? "parent " (h.author.line "author " ++
      (h.others.flatMap (·.line "author ") ++ (h.committer.line "committer " ++ rest))) = none := rfl
  have hcommitter : Octets.after? "author " (h.committer.line "committer " ++ rest) = none := rfl
  rw [commitMoment?]
  generalize (h.text ++ rest).length = fuel at hparents hothers ⊢
  simp only [text, List.append_assoc, idLine?_idLine, Option.bind_eq_bind, Option.bind_some]
  rw [skipIdLines_flatMap hauthor hparents, h.author.momentLine?_line (by decide)]
  simp only [Option.bind_some]
  rw [skipAuthors?_flatMap hcommitter hothers]
  simp only [Option.bind_some]
  rw [h.committer.momentLine?_line (by decide)]
  rfl

end CommitHeader

/-! ## The commit at HEAD -/

/-- An object with a header is found as a commit with the time of its committer. -/
theorem Finding.ofObject_of_header {id : ObjectId} {o : Object} {h : CommitHeader} {rest : Octets}
    (hkind : o.kind = .commit) (hbody : Octets.ofBytes o.body = h.text ++ rest) :
    ofObject id o = .commit ⟨id, h.committer.moment⟩ := by
  rw [ofObject, hbody, hkind, h.commitMoment?_text]

namespace Checkout

/-- The date that is told is that of the time which the committer of the commit at HEAD has
signed. -/
theorem commitDate_of_header {c : Checkout} {r : Reference} {o : Object} {h : CommitHeader}
    {rest : Octets} (hhead : c.references.head = .ok r) (hread : c.database.read r.start = .found o)
    (hkind : o.kind = .commit) (hbody : Octets.ofBytes o.body = h.text ++ rest) :
    c.repository.commitDate = h.committer.moment.date := by
  have hlookup : c.database.lookup r.start = .commit ⟨r.start, h.committer.moment⟩ := by
    rw [Database.lookup, hread]
    exact Finding.ofObject_of_header hkind hbody
  have hcommit : c.headCommit = .ok ⟨r.start, h.committer.moment⟩ := by
    rw [headCommit, hhead]
    change r.commit c.database = _
    rw [Reference.commit, hlookup]
  change (c.headCommit.mapError Failure.git >>= fun head => head.moment.date) = _
  rw [hcommit]
  rfl

/-- On a day of the years from 0 to 9999, by the clock of the committer, that day is told. -/
theorem commitDate_of_onDay {c : Checkout} {r : Reference} {o : Object} {h : CommitHeader}
    {rest : Octets} {d : CivilDate} (hhead : c.references.head = .ok r)
    (hread : c.database.read r.start = .found o) (hkind : o.kind = .commit)
    (hbody : Octets.ofBytes o.body = h.text ++ rest) (hday : h.committer.moment.OnDay d) :
    c.repository.commitDate = .ok d.isoText := by
  rw [commitDate_of_header hhead hread hkind hbody, hday.date_eq]

end Checkout

end VersionStamp.Git
