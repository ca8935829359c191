import VersionStamp.Proofs.Text.Completion

namespace VersionStamp.Utf8

/-!
# Bytes that are not UTF-8

Any bytes are characters in UTF-8 with ill-formed pieces between them, in one way only: a piece
stands where no character does, and is the longest beginning of a character there, or a single
byte. This is how bytes are read, so they are read as a text exactly if they are its UTF-8 form, and
otherwise have U+FFFD for each piece.
-/

def Begins (bytes : Bytes) : Prop :=
  ∃ c, bytes <+: String.utf8EncodeChar c

/-- Whether bytes are an ill-formed piece in front of others. -/
structure IsIllFormed (piece rest : Bytes) : Prop where
  ne_nil : piece ≠ []
  not_isPrefix : ∀ c, ¬ String.utf8EncodeChar c <+: piece ++ rest
  begins : piece.length = 1 ∨ Begins piece
  longest : ∀ more, more <+: piece ++ rest → Begins more → more.length ≤ piece.length

/-- The characters of bytes, with `none` for each ill-formed piece. -/
inductive Reads : Bytes → List (Option Char) → Prop
  | nil : Reads [] []
  | char {rest : Bytes} {cs : List (Option Char)} (c : Char) (hrest : Reads rest cs) :
      Reads (String.utf8EncodeChar c ++ rest) (some c :: cs)
  | piece {piece rest : Bytes} {cs : List (Option Char)} (hpiece : IsIllFormed piece rest)
      (hrest : Reads rest cs) : Reads (piece ++ rest) (none :: cs)

variable {b : UInt8} {c : Char} {bytes : Bytes} {p : Partial}

/-! ## The longest beginning of a character -/

/-- Whether bytes are those of a character that has begun: what is left of it completes it. -/
structure IsBegun (front : Bytes) (p : Partial) : Prop where
  completes_iff : ∀ bytes c, String.utf8EncodeChar c = front ++ bytes ↔ p.Completes bytes c
  low_le_high : p.low ≤ p.high

namespace IsBegun

variable {front rest : Bytes}

theorem of_lead (h : lead b = .begins p) : IsBegun [b] p where
  completes_iff _ _ :=
    ⟨completes_of_utf8EncodeChar h, utf8EncodeChar_of_completes h⟩
  low_le_high := low_le_high_of_lead h

theorem more (h : IsBegun front p) (hb : p.Accepts b) (hmore : ¬ p.missing ≤ 1) :
    IsBegun (front ++ [b]) (p.extended b) where
  completes_iff bytes c := by
    rw [List.append_assoc, List.singleton_append, h.completes_iff]
    constructor
    · intro hbytes
      obtain ⟨b', rest, -, hsame, hrest⟩ := hbytes.of_more hmore
      obtain ⟨rfl, rfl⟩ := List.cons.inj hsame
      exact hrest
    · exact .more hb hmore
  low_le_high := (by decide : (0x80 : UInt8) ≤ 0xBF)

theorem last (h : IsBegun front p) (hb : p.Accepts b) (hlast : p.missing ≤ 1) :
    String.utf8EncodeChar (Char.ofNat (p.extended b).value) = front ++ [b] :=
  (h.completes_iff _ _).mpr (.last hb hlast)

theorem begins (h : IsBegun front p) : Begins front := by
  obtain ⟨bytes, c, hbytes⟩ := Partial.exists_completes h.low_le_high
  exact ⟨c, bytes, ((h.completes_iff bytes c).mpr hbytes).symm⟩

theorem not_begins (h : IsBegun front p) (hb : ¬ p.Accepts b) : ¬ Begins (front ++ [b]) := by
  rintro ⟨c, rest, hc⟩
  rw [List.append_assoc, List.singleton_append] at hc
  cases (h.completes_iff _ c).mp hc.symm with
  | last haccepts => exact hb haccepts
  | more haccepts => exact hb haccepts

/-- What has only begun has no whole character in front. -/
theorem not_isPrefix (h : IsBegun front p) (c : Char) :
    ¬ String.utf8EncodeChar c <+: front := by
  rintro ⟨rest, hrest⟩
  obtain ⟨bytes, d, hbytes⟩ := Partial.exists_completes h.low_le_high
  have hd := (h.completes_iff bytes d).mpr hbytes
  have hsame : String.utf8EncodeChar c ++ (rest ++ bytes) = String.utf8EncodeChar d ++ [] := by
    rw [← List.append_assoc, hrest, ← hd, List.append_nil]
  have hnil := (append_utf8EncodeChar_inj hsame).2
  obtain rfl := (List.append_eq_nil_iff.mp hnil).2
  cases hbytes

theorem length_le {part : Bytes} (h : IsBegun front p)
    (hrest : ∀ b, rest.head? = some b → ¬ p.Accepts b) (hpart : part <+: front ++ rest)
    (hbegins : Begins part) : part.length ≤ front.length := by
  cases rest with
  | nil => simpa using hpart.length_le
  | cons b rest =>
      refine Nat.le_of_not_lt fun hlonger => h.not_begins (hrest b rfl) ?_
      have hfront : front ++ [b] <+: front ++ b :: rest := ⟨rest, by simp⟩
      obtain ⟨c, hc⟩ := hbegins
      have hpart := List.prefix_of_prefix_length_le hfront hpart
        (by rw [List.length_append]; exact hlonger)
      exact ⟨c, hpart.trans hc⟩

/-- A character that has begun and does not go on is an ill-formed piece. -/
theorem isIllFormed (h : IsBegun front p) (hne : front ≠ [])
    (hrest : ∀ b, rest.head? = some b → ¬ p.Accepts b) : IsIllFormed front rest where
  ne_nil := hne
  not_isPrefix c hc := by
    have hlength := h.length_le hrest hc ⟨c, List.prefix_refl _⟩
    exact h.not_isPrefix c (List.prefix_of_prefix_length_le hc ⟨rest, rfl⟩ hlength)
  begins := .inr h.begins
  longest _ hmore hbegins := h.length_le hrest hmore hbegins

end IsBegun

theorem not_begins_of_illFormed (h : lead b = .illFormed) : ¬ Begins (b :: bytes) := by
  rintro ⟨c, rest, hc⟩
  have hread := foldl_next_char [] c
  have hnext : Progress.next ⟨[], none⟩ b = Progress.onto {} [none] := by
    rw [Progress.next, Progress.start, h]
    rfl
  rw [← hc, List.cons_append, List.foldl_cons, hnext] at hread
  cases (Progress.eq_nothing_of_foldl_onto hread).2

/-- A byte that can lead nothing is an ill-formed piece of its own. -/
theorem isIllFormed_singleton (h : lead b = .illFormed) (rest : Bytes) : IsIllFormed [b] rest where
  ne_nil := List.cons_ne_nil b []
  not_isPrefix c hc := by
    cases hbytes : String.utf8EncodeChar c with
    | nil => exact String.utf8EncodeChar_ne_nil hbytes
    | cons b' bytes =>
        rw [hbytes] at hc
        obtain ⟨rfl, -⟩ := List.cons_prefix_cons.mp hc
        exact not_begins_of_illFormed h ⟨c, [], by rw [hbytes, List.append_nil]⟩
  begins := .inl rfl
  longest more hmore hbegins := by
    cases more with
    | nil => exact Nat.zero_le 1
    | cons b' more =>
        obtain ⟨rfl, -⟩ := List.cons_prefix_cons.mp hmore
        exact absurd hbegins (not_begins_of_illFormed h)

/-! ## Reading -/

theorem reads_of_lead {b : UInt8} {rest : Bytes} (hreads : Reads rest (scan rest))
    (hbegun : ∀ p, IsBegun [b] p →
      Reads (b :: rest) (rest.foldl Progress.next ⟨[], some p⟩).finish) :
    Reads (b :: rest) (scan (b :: rest)) := by
  cases hlead : lead b with
  | complete c =>
      have hbytes := utf8EncodeChar_of_lead hlead
      have hread := scan_append_char c rest
      rw [hbytes, List.singleton_append] at hread
      rw [hread, ← List.singleton_append, ← hbytes]
      exact .char c hreads
  | begins p =>
      rw [scan, List.foldl_cons, next_lead hlead]
      exact hbegun p (.of_lead hlead)
  | illFormed =>
      have hnext : [b].foldl Progress.next {} = ⟨[none], none⟩ := by
        rw [List.foldl_cons, Progress.next, Progress.start, hlead]
        rfl
      rw [← List.singleton_append, scan_of_foldl hnext]
      exact .piece (isIllFormed_singleton hlead rest) hreads

-- Bytes are read at the beginning of a character or within one, and either comes out of the other.
theorem reads_and_goesOn (rest : Bytes) : Reads rest (scan rest) ∧
    ∀ front p, front ≠ [] → IsBegun front p →
      Reads (front ++ rest) (rest.foldl Progress.next ⟨[], some p⟩).finish := by
  induction rest with
  | nil =>
      refine ⟨.nil, fun front p hne hbegun => ?_⟩
      exact .piece (hbegun.isIllFormed hne (by simp)) .nil
  | cons b rest ih =>
      obtain ⟨hreads, hgoesOn⟩ := ih
      have hfresh : Reads (b :: rest) (scan (b :: rest)) :=
        reads_of_lead hreads fun p hp => hgoesOn [b] p (List.cons_ne_nil b []) hp
      refine ⟨hfresh, fun front p hne hbegun => ?_⟩
      rw [List.foldl_cons]
      by_cases hb : p.Accepts b
      -- The byte completes the character, or the character goes on with it.
      · have hfront : front ++ b :: rest = front ++ [b] ++ rest := by simp
        rw [hfront]
        by_cases hlast : p.missing ≤ 1
        · rw [Partial.next_last hb hlast, finish_foldl, ← hbegun.last hb hlast]
          exact .char _ hreads
        · rw [Partial.next_more hb hlast]
          exact hgoesOn _ _ (by simp) (hbegun.more hb hlast)
      -- The byte ends an ill-formed piece and is read once more, at the beginning of a character.
      · have hpiece : IsIllFormed front (b :: rest) := by
          apply hbegun.isIllFormed hne
          intro b' hb'
          obtain rfl : b = b' := by simpa using hb'
          exact hb
        rw [Partial.next_piece hb, ← List.foldl_cons, finish_foldl]
        exact .piece hpiece hfresh

theorem reads_scan (bytes : Bytes) : Reads bytes (scan bytes) :=
  (reads_and_goesOn bytes).1

/-- Where an ill-formed piece ends is determined by the bytes. -/
theorem IsIllFormed.eq_of_append {piece piece' rest rest' : Bytes} (h : IsIllFormed piece rest)
    (h' : IsIllFormed piece' rest') (happend : piece ++ rest = piece' ++ rest') :
    piece = piece' ∧ rest = rest' := by
  have hle : ∀ {front back front' back' : Bytes}, IsIllFormed front back →
      IsIllFormed front' back' → front ++ back = front' ++ back' →
        front'.length ≤ front.length := by
    intro front back front' back' hfront hfront' hsame
    rcases hfront'.begins with hone | hbegins
    · rw [hone]
      exact List.length_pos_iff.mpr hfront.ne_nil
    · exact hfront.longest front' ⟨back', hsame.symm⟩ hbegins
  have hlength := Nat.le_antisymm (hle h' h happend.symm) (hle h h' happend)
  exact List.append_inj happend hlength

/-- There is only one way to read bytes. -/
theorem Reads.unique {cs cs' : List (Option Char)} (h : Reads bytes cs) (h' : Reads bytes cs') :
    cs = cs' := by
  induction h generalizing cs' with
  | nil =>
      generalize hbytes : ([] : Bytes) = bytes at h'
      cases h' with
      | nil => rfl
      | char c =>
          exact absurd (List.append_eq_nil_iff.mp hbytes.symm).1 String.utf8EncodeChar_ne_nil
      | piece hpiece => exact absurd (List.append_eq_nil_iff.mp hbytes.symm).1 hpiece.ne_nil
  | @char rest cs c hrest ih =>
      generalize hbytes : String.utf8EncodeChar c ++ rest = bytes at h'
      cases h' with
      | nil => exact absurd (List.append_eq_nil_iff.mp hbytes).1 String.utf8EncodeChar_ne_nil
      | char d hrest' =>
          obtain ⟨rfl, rfl⟩ := append_utf8EncodeChar_inj hbytes
          rw [ih hrest']
      | piece hpiece => exact absurd ⟨rest, hbytes⟩ (hpiece.not_isPrefix c)
  | @piece piece rest cs hpiece hrest ih =>
      generalize hbytes : piece ++ rest = bytes at h'
      cases h' with
      | nil => exact absurd (List.append_eq_nil_iff.mp hbytes).1 hpiece.ne_nil
      | @char rest' _ d => exact absurd ⟨rest', hbytes.symm⟩ (hpiece.not_isPrefix d)
      | piece hpiece' hrest' =>
          obtain ⟨rfl, rfl⟩ := hpiece.eq_of_append hpiece' hbytes
          rw [ih hrest']

theorem reads_iff {cs : List (Option Char)} : Reads bytes cs ↔ scan bytes = cs :=
  ⟨(reads_scan bytes).unique, fun h => h ▸ reads_scan bytes⟩

/-! ## What the bytes are read as -/

theorem eq_map_of_mapM_id {cs : List (Option Char)} {t : Text} (h : cs.mapM id = some t) :
    cs = t.map some := by
  induction cs generalizing t with
  | nil =>
      obtain rfl : [] = t := by simpa using h
      rfl
  | cons c cs ih =>
      rw [List.mapM_cons] at h
      obtain ⟨d, hd, h⟩ := Option.bind_eq_some_iff.mp h
      obtain ⟨rest, hrest, h⟩ := Option.bind_eq_some_iff.mp h
      obtain rfl : d :: rest = t := by simpa using h
      calc
        c :: cs = some d :: cs := by rw [← hd, id_eq]
        _ = some d :: rest.map some := by rw [ih hrest]
        _ = (d :: rest).map some := rfl

/-- Bytes that are read without a replacement are those of the text. -/
theorem encode_of_reads {t : Text} (h : Reads bytes (t.map some)) : bytes = encode t := by
  induction t generalizing bytes with
  | nil =>
      cases h
      rfl
  | cons c t ih =>
      cases h with
      | char _ hrest => rw [ih hrest, encode_cons]

/-- Bytes are read as a text exactly if they are its UTF-8 form. -/
theorem decode?_eq_some_iff {t : Text} : decode? bytes = some t ↔ bytes = encode t := by
  constructor
  · intro h
    exact encode_of_reads (reads_iff.mpr (eq_map_of_mapM_id h))
  · rintro rfl
    exact decode?_encode t

/-- The text of any bytes has U+FFFD for each ill-formed piece and is otherwise as they are. -/
theorem decodeLossy_of_reads {cs : List (Option Char)} (h : Reads bytes cs) :
    decodeLossy bytes = cs.map fun c => c.getD '\uFFFD' := by
  rw [decodeLossy, reads_iff.mp h]

end VersionStamp.Utf8
