import DocCheck.Check

/-!
# Reporting issues

Issues are reported to a list that only grows at its end. A run that reports issues therefore leaves
what was reported before as it is, and a loop reports what its rounds report, one after the other.
The checks are such loops over the anchors of a stream.
-/

namespace DocCheck

variable {α β : Type}

/-- A run reports issues: it puts them behind those that were reported before. -/
def Reports (m : StateM (List Issue) α) (issues : List Issue) : Prop :=
  ∀ prior, (m.run prior).2 = prior ++ issues

namespace Reports

variable {m : StateM (List Issue) α} {issues more : List Issue}

/-- What is given back reports nothing. -/
theorem pure (a : α) : Reports (Pure.pure a) [] := fun prior => (List.append_nil prior).symm

/-- A run that goes on reports what its two parts report. -/
theorem bind {f : α → StateM (List Issue) β} (hm : Reports m issues)
    (hf : ∀ a, Reports (f a) more) : Reports (m >>= f) (issues ++ more) := by
  intro prior
  have hstep : ((m >>= f).run prior).2 = ((f (m.run prior).1).run (m.run prior).2).2 := rfl
  rw [hstep, hf, hm, List.append_assoc]

/-- A loop reports what its rounds report, in their order. -/
theorem forM {f : α → StateM (List Issue) PUnit} {found : α → List Issue}
    (h : ∀ a, Reports (f a) (found a)) (as : List α) :
    Reports (as.forM f) (as.flatMap found) := by
  induction as with
  | nil => exact .pure ()
  | cons a as ih => exact .bind (h a) fun _ => ih

/-- What a run reports if nothing was reported before. -/
theorem run_nil (h : Reports m issues) : (m.run []).2 = issues := h []

end Reports

/-- One issue is reported. -/
theorem reports_report (i : Issue) : Reports (report i) [i] := fun _ => rfl

/-- All issues of a list are reported. -/
theorem reports_forM_report (issues : List Issue) : Reports (issues.forM report) issues := by
  have hloop := Reports.forM reports_report issues
  rwa [List.flatMap_singleton'] at hloop

/-- The issues of a file comment are reported. -/
theorem reports_reportFile (cfg : Settings) (s : Stream) (p : Nat) :
    Reports (reportFile cfg s p) (fileIssues cfg s p) :=
  reports_forM_report _

/-- The issues of the comment of a declaration are reported. -/
theorem reports_reportClass (cfg : Settings) (s : Stream) (c : Nat) :
    Reports (reportClass cfg s c) (classIssues cfg s c) := by
  have hboth := (reports_forM_report (classIssues cfg s c)).bind fun _ =>
    Reports.pure (examineClass cfg s c).properties
  rwa [List.append_nil] at hboth

namespace Check

/-- The check of file comments finds the issues at every open tag. -/
theorem run_fileComment_eq (cfg : Settings) (s : Stream) :
    fileComment.run cfg s = (s.positions (· = .openTag)).flatMap (fileIssues cfg s) :=
  (Reports.forM (reports_reportFile cfg s) _).run_nil

/-- The check of declarations finds the issues at every class-like keyword. -/
theorem run_classComment_eq (cfg : Settings) (s : Stream) :
    classComment.run cfg s = (s.positions (·.isClassLike)).flatMap (classIssues cfg s) := by
  refine (Reports.forM (fun c => ?_) _).run_nil
  have hround := (reports_reportClass cfg s c).bind fun _ => Reports.pure ()
  rwa [List.append_nil] at hround

/-- Several checks find what each of them finds, one after the other. -/
theorem runAll_eq_flatMap (checks : List Check) (cfg : Settings) (s : Stream) :
    runAll checks cfg s = checks.flatMap (·.run cfg s) := by
  -- The loop puts what a check finds behind what was found before.
  have hloop (found : List Issue) :
      checks.foldl (fun found check => found ++ check.run cfg s) found =
        found ++ checks.flatMap (·.run cfg s) := by
    induction checks generalizing found with
    | nil => exact (List.append_nil found).symm
    | cons check checks ih => rw [List.foldl_cons, ih, List.flatMap_cons, List.append_assoc]
  exact hloop []

end Check

end DocCheck
