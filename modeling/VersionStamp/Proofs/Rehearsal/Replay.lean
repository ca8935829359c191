import VersionStamp.Repository.Rehearsal

namespace VersionStamp.Rehearsal

/-!
# Rehearsals without their readings

Steps that only read change nothing but the log, and only the step that tells the queries looks at
the log. So a run from which some readings are left out answers the other steps as before.
-/

def Step.isReading : Step → Bool
  | .inquire _ | .read _ | .queries => true
  | _ => false

/-- States that differ in their logs at most. -/
def State.Agrees (s t : State) : Prop :=
  s.repository = t.repository ∧ s.files = t.files ∧ s.declaration = t.declaration

namespace State.Agrees

variable {s t u : State} {x : Step}

theorem refl (s : State) : s.Agrees s :=
  ⟨rfl, rfl, rfl⟩

theorem trans (h : s.Agrees t) (h' : t.Agrees u) : s.Agrees u :=
  ⟨h.1.trans h'.1, h.2.1.trans h'.2.1, h.2.2.trans h'.2.2⟩

/-- States that agree are those of which one has another log. -/
theorem exists_log (h : s.Agrees t) : ∃ log, t = { s with log := log } := by
  obtain ⟨repository, files, declaration, log⟩ := s
  obtain ⟨repository', files', declaration', log'⟩ := t
  obtain ⟨rfl, rfl, rfl⟩ := h
  exact ⟨log', rfl⟩

/-- A step keeps two states alike but for their logs. -/
theorem step (h : s.Agrees t) (x : Step) :
    (Rehearsal.step s x).1.Agrees (Rehearsal.step t x).1 := by
  obtain ⟨log, rfl⟩ := h.exists_log
  cases x <;> exact ⟨rfl, rfl, rfl⟩

/-- In states that are alike but for their logs, every answer but the log itself is the same. -/
theorem answer (h : s.Agrees t) (hx : x ≠ .queries) :
    (Rehearsal.step s x).2 = (Rehearsal.step t x).2 := by
  obtain ⟨log, rfl⟩ := h.exists_log
  cases x with
  | queries => exact absurd rfl hx
  | _ => rfl

theorem step_of_reading (h : s.Agrees t) (hx : x.isReading = true) :
    (Rehearsal.step s x).1.Agrees t := by
  have hstep : (Rehearsal.step s x).1.Agrees s := by
    match x, hx with
    | .inquire _, _ => exact ⟨rfl, rfl, rfl⟩
    | .read _, _ => exact ⟨rfl, rfl, rfl⟩
    | .queries, _ => exact ⟨rfl, rfl, rfl⟩
  exact hstep.trans h

end State.Agrees

/-- A run of which some steps are to be left out: those that are not marked. -/
abbrev Plan := List (Step × Bool)

namespace Plan

def steps (plan : Plan) : List Step :=
  plan.map Prod.fst

def kept (plan : Plan) : List Step :=
  (plan.filter Prod.snd).map Prod.fst

def LeavesOutReadings (plan : Plan) : Prop :=
  ∀ x ∈ plan, x.2 = false → x.1.isReading = true

end Plan

variable {s t : State}

theorem agrees_run_kept (plan : Plan) (hplan : plan.LeavesOutReadings) (h : s.Agrees t) :
    (run s plan.steps).1.Agrees (run t plan.kept).1 := by
  induction plan generalizing s t with
  | nil => exact h
  | cons first plan ih =>
      obtain ⟨x, keep⟩ := first
      have hrest : Plan.LeavesOutReadings plan := fun y hy => hplan y (List.mem_cons_of_mem _ hy)
      cases keep with
      | true => exact ih hrest (h.step x)
      | false =>
          have hx : x.isReading = true := hplan (x, false) List.mem_cons_self rfl
          exact ih hrest (h.step_of_reading hx)

theorem agrees_run_of_readings {readings : List Step} (h : ∀ x ∈ readings, x.isReading = true) :
    (run s readings).1.Agrees s := by
  have hrun : ∀ {now : State}, now.Agrees s → (run now readings).1.Agrees s := by
    induction readings with
    | nil => exact id
    | cons first readings ih =>
        intro now hnow
        have hfirst := hnow.step_of_reading (h first List.mem_cons_self)
        exact ih (fun x hx => h x (List.mem_cons_of_mem _ hx)) hfirst
  exact hrun (State.Agrees.refl s)

/-- A step that is kept is answered as it would be with all the readings that are left out, unless
it tells the queries. So an inquiry is answered alike however often it is made and whatever else is
read in between. -/
theorem answer_kept (s : State) (plan : Plan) (hplan : plan.LeavesOutReadings) :
    (∀ (before after : Plan) (x : Step), plan = before ++ (x, true) :: after → x ≠ .queries →
      ∃ answer, (run s plan.steps).2[before.steps.length]? = some answer ∧
        (run s plan.kept).2[before.kept.length]? = some answer) ∧
    (∀ (before after : List Step) (x : Step),
      (∀ y ∈ before, y.isReading = true) → x ≠ .queries →
        (run s (before ++ x :: after)).2[before.length]? = some (step s x).2) := by
  refine ⟨?_, ?_⟩
  · rintro before after x rfl hx
    have hbefore : before.LeavesOutReadings := fun y hy =>
      hplan y (List.mem_append_left _ hy)
    have hagrees := agrees_run_kept before hbefore (State.Agrees.refl s)
    refine ⟨(step (run s before.steps).1 x).2, ?_, ?_⟩
    · have hsteps : Plan.steps (before ++ (x, true) :: after) =
          before.steps ++ x :: Plan.steps after := by simp [Plan.steps]
      rw [hsteps, getElem?_answers]
    · have hkept : Plan.kept (before ++ (x, true) :: after) =
          before.kept ++ x :: Plan.kept after := by simp [Plan.kept]
      rw [hkept, getElem?_answers, hagrees.answer hx]
  · intro before after x hbefore hx
    rw [getElem?_answers, (agrees_run_of_readings hbefore).answer hx]

def repetitive : Plan :=
  [(.inquire .version, false), (.queries, false), (.inquire .version, true),
    (.addTag "v1.3.0", true), (.read "top", false), (.inquire .tags, false)]

theorem answer_kept_repetitive :
    (run {} (Plan.steps (repetitive ++ [(.inquire .version, true)]))).2[6]? =
        some (.version (.release "v1.3.0")) ∧
      (run {} (Plan.kept (repetitive ++ [(.inquire .version, true)]))).2[2]? =
        some (.version (.release "v1.3.0")) := by
  have hplan : Plan.LeavesOutReadings (repetitive ++ [(.inquire .version, true)]) := by
    unfold Plan.LeavesOutReadings
    decide
  obtain ⟨answer, hfull, hkept⟩ :=
    (answer_kept {} _ hplan).1 repetitive [] (.inquire .version) rfl (by simp)
  have hanswer : answer = .version (.release "v1.3.0") := Option.some.inj (hfull.symm.trans rfl)
  subst hanswer
  exact ⟨hfull, hkept⟩

end VersionStamp.Rehearsal
