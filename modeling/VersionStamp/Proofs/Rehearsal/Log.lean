import VersionStamp.Proofs.Repository.Agreement
import VersionStamp.Proofs.Resolution.Outcome
import VersionStamp.Repository.Rehearsal

namespace VersionStamp

/-!
# The log of a rehearsal

A step adds to the log the queries that it issues. Which ones these are follows from the state in
which the step is taken: a resolution issues its queries in a fixed order and ends with the first
one behind which it cannot go on. So the log of a run is what its steps have issued, one after the
other.
-/

open Resolution

namespace Repository

variable {r : Repository} {files : Files} {d : Declaration}

theorem asked_baseVersion (r : Repository) (files : Files) (d : Declaration) :
    (r.baseVersion files d).asked = [.topLevel] := by
  rw [baseVersion, bind_eq]
  cases r.topLevel <;> rfl

theorem asked_map {α β : Type} (f : α → β) (x : Resolution α) : (f <$> x).asked = x.asked := by
  change (andThen x fun a => pure (f a)).asked = _
  obtain ⟨asked, result⟩ := x
  cases result with
  | error why => rfl
  | ok a => exact List.append_nil asked

theorem asked_printedVersion (r : Repository) (files : Files) (d : Declaration)
    (options : PrintOptions) :
    (r.printedVersion files d options).asked =
      if options.project then [.topLevel] else (r.version files d).asked := by
  have hpure : ∀ x : Resolution Text,
      (andThen x fun text => pure (Version.printed options.newline text)).asked = x.asked :=
    asked_map _
  rw [printedVersion]
  split
  · rw [bind_eq, hpure, asked_map, asked_baseVersion]
  · rw [bind_eq, hpure, asked_map]

theorem asked_version_of_error {why : Failure} (h : r.tagsAtHead = .error why) :
    (r.version files d).asked = [.tagsAtHead] := by
  rw [version, h]
  rfl

theorem asked_version_of_tagged {names : List Text} (h : r.tagsAtHead = .ok ⟨names⟩)
    (hnames : names ≠ []) : (r.version files d).asked = [.tagsAtHead] := by
  rw [version, h]
  rcases names with _ | ⟨name, _ | ⟨other, more⟩⟩
  · exact absurd rfl hnames
  · rfl
  · rfl

/-- Without tags the queries go on behind the top level if the base version is found. -/
theorem asked_version_of_untagged (h : r.tagsAtHead = .ok ⟨[]⟩) :
    (r.version files d).asked =
      match (r.baseVersion files d).result, r.commitDate with
      | .error _, _ => [.tagsAtHead, .topLevel]
      | .ok _, .error _ => [.tagsAtHead, .topLevel, .commitDate]
      | .ok _, .ok _ => [.tagsAtHead, .topLevel, .commitDate, .shortHash] := by
  have hbase : r.baseVersion files d = ⟨[.topLevel], (r.baseVersion files d).result⟩ :=
    congrArg (Resolution.mk · _) (asked_baseVersion r files d)
  rw [version, h, hbase]
  cases (r.baseVersion files d).result with
  | error why => rfl
  | ok base =>
      cases r.commitDate with
      | error why => rfl
      | ok date => cases r.shortHash <;> rfl

end Repository

def Query.order : List Query :=
  [.tagsAtHead, .topLevel, .commitDate, .shortHash]

namespace RehearsedRepository

def Fails (r : RehearsedRepository) (q : Query) : Prop :=
  r.failing.map Prod.fst = some q

instance (r : RehearsedRepository) (q : Query) : Decidable (r.Fails q) :=
  inferInstanceAs (Decidable (_ = _))

theorem reply_of_not_fails {α : Type} {r : RehearsedRepository} {q : Query} (h : ¬ r.Fails q)
    (answer : α) : r.reply q answer = .ok answer := by
  rw [reply]
  split
  next failing status stderr hfailing =>
    have hne : failing ≠ q := fun heq => h (by rw [Fails, hfailing, heq]; rfl)
    rw [if_neg hne]
  next => rfl

theorem reply_of_fails {α : Type} {r : RehearsedRepository} {q : Query} (h : r.Fails q) :
    ∃ status stderr, r.failing = some (q, status, stderr) ∧
      ∀ answer : α, r.reply q answer = .error (.tool q.name status stderr) := by
  obtain ⟨⟨failing, status, stderr⟩, hfailing, rfl⟩ := Option.map_eq_some_iff.mp h
  refine ⟨status, stderr, hfailing, fun answer => ?_⟩
  simp [reply, hfailing]

end RehearsedRepository

namespace Rehearsal

namespace State

def Declares (s : State) : Prop :=
  (Repository.readDeclaration s.files s.declaration
    (Path.join s.repository.topLevel s.declaration.file)).isOk = true

instance (s : State) : Decidable s.Declares :=
  inferInstanceAs (Decidable (_ = _))

/-- Whether a resolution of the version does not go on behind a query: it fails, it tells some
tags, or it leads to no declaration. -/
def EndsWith (s : State) (q : Query) : Prop :=
  s.repository.Fails q ∨ (q = .tagsAtHead ∧ s.repository.tags ≠ []) ∨
    (q = .topLevel ∧ ¬ s.Declares)

instance (s : State) (q : Query) : Decidable (s.EndsWith q) :=
  inferInstanceAs (Decidable (_ ∨ _ ∨ _))

/-- The queries of a resolution of the version, up to the first one with which it ends. -/
def versionQueries (s : State) : List Query :=
  Query.order.take (Query.order.findIdx (fun q => decide (s.EndsWith q)) + 1)

/-- The queries that a step issues. -/
def issued (s : State) : Step → List Query
  | .inquire .topLevel => [.topLevel]
  | .inquire .tags => [.tagsAtHead]
  | .inquire .date => [.commitDate]
  | .inquire .hash => [.shortHash]
  | .inquire .baseVersion => [.topLevel]
  | .inquire .version => s.versionQueries
  | .inquire (.print options) => if options.project then [.topLevel] else s.versionQueries
  | _ => []

def issuedIn (s : State) : List Step → List (List Query)
  | [] => []
  | first :: rest => s.issued first :: (step s first).1.issuedIn rest

end State

variable {s : State}

/-! ## Where a resolution ends -/

theorem versionQueries_eq (s : State) :
    s.versionQueries =
      if s.EndsWith .tagsAtHead then [.tagsAtHead]
      else if s.EndsWith .topLevel then [.tagsAtHead, .topLevel]
      else if s.EndsWith .commitDate then [.tagsAtHead, .topLevel, .commitDate]
      else Query.order := by
  simp only [State.versionQueries, Query.order, List.findIdx_cons, List.findIdx_nil]
  by_cases htags : s.EndsWith .tagsAtHead
  · simp [htags]
  by_cases htop : s.EndsWith .topLevel
  · simp [htags, htop]
  by_cases hdate : s.EndsWith .commitDate
  · simp [htags, htop, hdate]
  by_cases hhash : s.EndsWith .shortHash <;> simp [htags, htop, hdate, hhash]

theorem tagsAtHead_of_not_endsWith (h : ¬ s.EndsWith .tagsAtHead) :
    s.repository.repository.tagsAtHead = .ok ⟨[]⟩ := by
  simp only [State.EndsWith, not_or, true_and, ne_eq, Decidable.not_not] at h
  obtain ⟨hfails, hnames, -⟩ := h
  rw [← hnames]
  exact RehearsedRepository.reply_of_not_fails hfails _

theorem baseVersion_of_endsWith (h : s.EndsWith .topLevel) :
    ∃ why, (s.repository.repository.baseVersion s.files s.declaration).result = .error why := by
  rw [Repository.result_baseVersion]
  by_cases hfails : s.repository.Fails .topLevel
  · obtain ⟨status, stderr, -, hreply⟩ := RehearsedRepository.reply_of_fails hfails
    have htop : s.repository.repository.topLevel = _ := hreply s.repository.topLevel
    exact ⟨_, by rw [htop]; rfl⟩
  · have htop : s.repository.repository.topLevel = .ok s.repository.topLevel :=
      RehearsedRepository.reply_of_not_fails hfails _
    have hdeclares : ¬ s.Declares := by simpa [State.EndsWith, hfails] using h
    rw [htop]
    change ∃ why, Repository.readDeclaration _ _ _ = .error why
    rw [State.Declares] at hdeclares
    cases hread : Repository.readDeclaration s.files s.declaration
        (Path.join s.repository.topLevel s.declaration.file) with
    | error why => exact ⟨why, rfl⟩
    | ok base => exact absurd (by rw [hread]; rfl) hdeclares

theorem baseVersion_of_not_endsWith (h : ¬ s.EndsWith .topLevel) :
    ∃ base, (s.repository.repository.baseVersion s.files s.declaration).result = .ok base := by
  simp only [State.EndsWith, not_or, true_and, Decidable.not_not] at h
  obtain ⟨hfails, -, hdeclares⟩ := h
  have htop : s.repository.repository.topLevel = .ok s.repository.topLevel :=
    RehearsedRepository.reply_of_not_fails hfails _
  rw [Repository.result_baseVersion, htop]
  change ∃ base, Repository.readDeclaration _ _ _ = .ok base
  rw [State.Declares] at hdeclares
  cases hread : Repository.readDeclaration s.files s.declaration
      (Path.join s.repository.topLevel s.declaration.file) with
  | error why => rw [hread] at hdeclares; cases hdeclares
  | ok base => exact ⟨base, rfl⟩

theorem commitDate_of_endsWith (h : s.EndsWith .commitDate) :
    ∃ why, s.repository.repository.commitDate = .error why := by
  have hfails : s.repository.Fails .commitDate := by simpa [State.EndsWith] using h
  obtain ⟨status, stderr, -, hreply⟩ := RehearsedRepository.reply_of_fails hfails
  exact ⟨_, hreply s.repository.date⟩

theorem commitDate_of_not_endsWith (h : ¬ s.EndsWith .commitDate) :
    s.repository.repository.commitDate = .ok s.repository.date :=
  RehearsedRepository.reply_of_not_fails (fun hfails => h (.inl hfails)) _

theorem asked_version_of_endsWith_tagsAtHead (h : s.EndsWith .tagsAtHead) :
    (s.repository.repository.version s.files s.declaration).asked = [.tagsAtHead] := by
  by_cases hfails : s.repository.Fails .tagsAtHead
  · obtain ⟨status, stderr, -, hreply⟩ := RehearsedRepository.reply_of_fails hfails
    exact Repository.asked_version_of_error (hreply _)
  · have hnames : s.repository.tags ≠ [] := by simpa [State.EndsWith, hfails] using h
    exact Repository.asked_version_of_tagged
      (RehearsedRepository.reply_of_not_fails hfails _) hnames

/-- The version asks for nothing behind the first query that ends it. -/
theorem asked_version (s : State) :
    (s.repository.repository.version s.files s.declaration).asked = s.versionQueries := by
  rw [versionQueries_eq]
  by_cases htags : s.EndsWith .tagsAtHead
  · rw [if_pos htags, asked_version_of_endsWith_tagsAtHead htags]
  rw [if_neg htags, Repository.asked_version_of_untagged (tagsAtHead_of_not_endsWith htags)]
  by_cases htop : s.EndsWith .topLevel
  · obtain ⟨why, hbase⟩ := baseVersion_of_endsWith htop
    rw [if_pos htop, hbase]
  obtain ⟨base, hbase⟩ := baseVersion_of_not_endsWith htop
  rw [if_neg htop, hbase]
  by_cases hdate : s.EndsWith .commitDate
  · obtain ⟨why, hcommitDate⟩ := commitDate_of_endsWith hdate
    rw [if_pos hdate, hcommitDate]
  · rw [if_neg hdate, commitDate_of_not_endsWith hdate]
    rfl

/-! ## Steps and runs -/

/-- A step adds the queries that it issues to the log. -/
theorem log_step (s : State) (x : Step) : (step s x).1.log = s.log ++ s.issued x := by
  cases x with
  | inquire i =>
      change s.log ++ (i.answer _ _ _).1 = _
      cases i with
      | baseVersion =>
          exact congrArg (s.log ++ ·) (Repository.asked_baseVersion _ _ _)
      | version => exact congrArg (s.log ++ ·) (asked_version s)
      | print options =>
          have hasked := Repository.asked_printedVersion s.repository.repository s.files
            s.declaration options
          rw [asked_version] at hasked
          exact congrArg (s.log ++ ·) hasked
      | _ => rfl
  | _ => exact (List.append_nil s.log).symm

/-- The log of a run has the queries of its steps, one after the other. -/
theorem log_run_eq (s : State) (steps : List Step) :
    (run s steps).1.log = s.log ++ (s.issuedIn steps).flatten := by
  induction steps generalizing s with
  | nil => exact (List.append_nil s.log).symm
  | cons first steps ih =>
      calc
        (run s (first :: steps)).1.log =
            (step s first).1.log ++ ((step s first).1.issuedIn steps).flatten := ih _
        _ = s.log ++ s.issued first ++ ((step s first).1.issuedIn steps).flatten := by
          rw [log_step]
        _ = s.log ++ (s.issuedIn (first :: steps)).flatten := by
          rw [State.issuedIn, List.flatten_cons, List.append_assoc]

theorem versionQueries_isPrefix (s : State) : s.versionQueries <+: Query.order :=
  List.take_prefix _ _

theorem versionQueries_ne_nil (s : State) : s.versionQueries ≠ [] := by
  simp [State.versionQueries, Query.order]

/-- No step issues a query twice. -/
theorem nodup_issued (s : State) (x : Step) : (s.issued x).Nodup := by
  have horder : Query.order.Nodup := by decide
  have hversion : s.versionQueries.Nodup := horder.sublist (versionQueries_isPrefix s).sublist
  cases x with
  | inquire i =>
      cases i with
      | version => exact hversion
      | print options =>
          rw [State.issued]
          split
          · exact List.pairwise_singleton _ _
          · exact hversion
      | _ => exact List.pairwise_singleton _ _
  | _ => exact List.nodup_nil

/-! ## Queries that fail -/

section Failing

variable {q : Query} {status : Int} {stderr : Text}

theorem fails_of_failing (h : s.repository.failing = some (q, status, stderr)) :
    s.repository.Fails q := by
  rw [RehearsedRepository.Fails, h]
  rfl

theorem reply_of_failing {α : Type} (h : s.repository.failing = some (q, status, stderr))
    (answer : α) : s.repository.reply q answer = .error (.tool q.name status stderr) := by
  simp [RehearsedRepository.reply, h]

theorem not_endsWith_of_mem (hq : q ∈ s.versionQueries) :
    (q ≠ .tagsAtHead → ¬ s.EndsWith .tagsAtHead) ∧
      (q = .commitDate ∨ q = .shortHash → ¬ s.EndsWith .topLevel) ∧
        (q = .shortHash → ¬ s.EndsWith .commitDate) := by
  rw [versionQueries_eq] at hq
  refine ⟨fun hne hends => ?_, fun hlate hends => ?_, fun hlast hends => ?_⟩
  · rw [if_pos hends] at hq
    exact hne (List.mem_singleton.mp hq)
  · rw [if_pos hends] at hq
    rcases hlate with rfl | rfl <;> split at hq <;> simp at hq
  · subst hlast
    rw [if_pos hends] at hq
    split at hq
    · simp at hq
    · split at hq <;> simp at hq

theorem getLast?_versionQueries (hends : s.EndsWith q) (hq : q ∈ s.versionQueries) :
    s.versionQueries.getLast? = some q := by
  obtain ⟨htags, htop, hdate⟩ := not_endsWith_of_mem hq
  rw [versionQueries_eq]
  cases q with
  | tagsAtHead => rw [if_pos hends]; rfl
  | topLevel => rw [if_neg (htags (by decide)), if_pos hends]; rfl
  | commitDate =>
      rw [if_neg (htags (by decide)), if_neg (htop (.inl rfl)), if_pos hends]
      rfl
  | shortHash =>
      rw [if_neg (htags (by decide)), if_neg (htop (.inr rfl)), if_neg (hdate rfl)]
      rfl

theorem result_baseVersion_of_failing
    (h : s.repository.failing = some (.topLevel, status, stderr)) :
    (s.repository.repository.baseVersion s.files s.declaration).result =
      .error (.tool Query.topLevel.name status stderr) := by
  have htop : s.repository.repository.topLevel = _ := reply_of_failing h s.repository.topLevel
  rw [Repository.result_baseVersion, htop]
  rfl

/-- A failing query that the version reaches is its failure. -/
theorem result_version_of_failing (h : s.repository.failing = some (q, status, stderr))
    (hq : q ∈ s.versionQueries) :
    (s.repository.repository.version s.files s.declaration).result =
      .error (.tool q.name status stderr) := by
  obtain ⟨htags, htop, hdate⟩ := not_endsWith_of_mem hq
  rw [Repository.result_version]
  cases q with
  | tagsAtHead =>
      have hreply : s.repository.repository.tagsAtHead = _ := reply_of_failing h _
      rw [hreply]
      rfl
  | topLevel =>
      rw [tagsAtHead_of_not_endsWith (htags (by decide)), result_baseVersion_of_failing h]
      rfl
  | commitDate =>
      obtain ⟨base, hbase⟩ := baseVersion_of_not_endsWith (htop (.inl rfl))
      have hreply : s.repository.repository.commitDate = _ := reply_of_failing h _
      rw [tagsAtHead_of_not_endsWith (htags (by decide)), hbase, hreply]
      rfl
  | shortHash =>
      obtain ⟨base, hbase⟩ := baseVersion_of_not_endsWith (htop (.inr rfl))
      have hreply : s.repository.repository.shortHash = _ := reply_of_failing h _
      rw [tagsAtHead_of_not_endsWith (htags (by decide)), hbase,
        commitDate_of_not_endsWith (hdate rfl), hreply]
      rfl

/-- A query that is set to fail is the last one that an inquiry issues, and its failure is the
answer. -/
theorem inquire_of_failing {i : Inquiry} (h : s.repository.failing = some (q, status, stderr))
    (hq : q ∈ s.issued (.inquire i)) :
    (s.issued (.inquire i)).getLast? = some q ∧
      (step s (.inquire i)).2 = .failed (.tool q.name status stderr) := by
  have hends : s.EndsWith q := .inl (fails_of_failing h)
  cases i with
  | version =>
      refine ⟨getLast?_versionQueries hends hq, ?_⟩
      exact congrArg (Answer.ofResult Answer.version) (result_version_of_failing h hq)
  | baseVersion =>
      obtain rfl := List.mem_singleton.mp hq
      exact ⟨rfl, congrArg (Answer.ofResult Answer.baseVersion) (result_baseVersion_of_failing h)⟩
  | print options =>
      have hprinted := Repository.result_printedVersion s.repository.repository s.files
        s.declaration options
      rw [State.issued] at hq ⊢
      by_cases hproject : options.project
      · rw [if_pos hproject] at hq hprinted ⊢
        obtain rfl := List.mem_singleton.mp hq
        rw [result_baseVersion_of_failing h] at hprinted
        exact ⟨rfl, congrArg (Answer.ofResult Answer.text) hprinted⟩
      · rw [if_neg hproject] at hq hprinted ⊢
        rw [result_version_of_failing h hq] at hprinted
        exact ⟨getLast?_versionQueries hends hq, congrArg (Answer.ofResult Answer.text) hprinted⟩
  | topLevel =>
      obtain rfl := List.mem_singleton.mp hq
      exact ⟨rfl, congrArg (Answer.ofResult Answer.text) (reply_of_failing h _)⟩
  | tags =>
      obtain rfl := List.mem_singleton.mp hq
      exact ⟨rfl, congrArg (Answer.ofResult Answer.tags) (reply_of_failing h _)⟩
  | date =>
      obtain rfl := List.mem_singleton.mp hq
      exact ⟨rfl, congrArg (Answer.ofResult Answer.text) (reply_of_failing h _)⟩
  | hash =>
      obtain rfl := List.mem_singleton.mp hq
      exact ⟨rfl, congrArg (Answer.ofResult Answer.text) (reply_of_failing h _)⟩

end Failing

def Step.IsProjectMode : Step → Prop
  | .inquire .baseVersion => True
  | .inquire (.print options) => options.project = true
  | _ => False

theorem issued_of_isProjectMode {x : Step} (h : x.IsProjectMode) :
    s.issued x = [.topLevel] := by
  match x, h with
  | .inquire .baseVersion, _ => rfl
  | .inquire (.print options), h => exact if_pos h

/-- At every point of a run the log holds what the steps so far have issued, in order. For a
version that is a beginning of the four queries, and for the base version the top level alone. No
step issues a query twice, and one that is set to fail is logged before it fails. -/
theorem log_of_run (s : State) (steps : List Step) :
    (run s steps).1.log = s.log ++ (s.issuedIn steps).flatten ∧
    (∀ before after, steps = before ++ .queries :: after →
      (run s steps).2[before.length]? =
        some (.queries (s.log ++ (s.issuedIn before).flatten))) ∧
    (∀ now : State, now.versionQueries ≠ [] ∧ now.versionQueries <+: Query.order) ∧
    (∀ (now : State) (x : Step), (now.issued x).Nodup) ∧
    (∀ (now : State) (x : Step), x.IsProjectMode → (step now x).1.log = now.log ++ [.topLevel]) ∧
    (∀ (now : State) (i : Inquiry) (q : Query) (status : Int) (stderr : Text),
      now.repository.failing = some (q, status, stderr) → q ∈ now.issued (.inquire i) →
        (step now (.inquire i)).1.log.getLast? = some q ∧
          (step now (.inquire i)).2 = .failed (.tool q.name status stderr)) := by
  refine ⟨log_run_eq s steps, ?_, fun now => ⟨versionQueries_ne_nil now, versionQueries_isPrefix now⟩,
    nodup_issued, ?_, ?_⟩
  · rintro before after rfl
    rw [getElem?_answers, ← log_run_eq]
    rfl
  · intro now x hx
    rw [log_step, issued_of_isProjectMode hx]
  · intro now i q status stderr hfailing hq
    obtain ⟨hlast, hanswer⟩ := inquire_of_failing hfailing hq
    refine ⟨?_, hanswer⟩
    rw [log_step, List.getLast?_append, hlast]
    rfl

def interrupted : List Step :=
  [.inquire .version,
    .write "top/CMakeLists.txt" (Utf8.encode "VERSION \"1.3.0.${BUILD_NUMBER}\"\n"),
    .failOn .commitDate 128 "fatal: bad revision",
    .inquire .version,
    .inquire (.print { project := true }),
    .addTag "v1.3.0",
    .inquire (.print {})]

theorem log_of_run_interrupted :
    (run {} (interrupted ++ [.queries])).2[interrupted.length]? =
      some (.queries [.tagsAtHead, .topLevel, .tagsAtHead, .topLevel, .commitDate, .topLevel,
        .tagsAtHead]) := by
  have htold := (log_of_run {} (interrupted ++ [.queries])).2.1 interrupted [] rfl
  rw [htold]
  rfl

end Rehearsal

end VersionStamp
