import VersionStamp.Execution
import VersionStamp.Proofs.Repository.Agreement

namespace VersionStamp

/-!
# Repositories that are not opened

A repository that cannot be opened fails for the same reason whatever is asked of it, at the first
question. So it makes no difference to the result whether the reason is reported on opening or with
the answers.
-/

namespace Repository

variable {why : Failure} {files : Files} {d : Declaration} {options : PrintOptions}

/-- One question is asked of a repository that has not been opened, and its failure is the reason. -/
theorem printedVersion_unopened :
    (unopened why).printedVersion files d options =
      ⟨[if options.project then .topLevel else .tagsAtHead], .error why⟩ := by
  obtain ⟨newline, project⟩ := options
  cases project <;> rfl

end Repository

/-- The result of asking is that of opening first and asking what has been opened. -/
theorem Git.result_printedVersion_repositoryOf (opened : Except Problem Checkout) (files : Files)
    (d : Declaration) (options : PrintOptions) :
    ((repositoryOf opened).printedVersion files d options).result =
      opened.mapError Failure.git >>= fun checkout =>
        (checkout.repository.printedVersion files d options).result := by
  cases opened with
  | ok checkout => rfl
  | error problem => exact congrArg Resolution.result Repository.printedVersion_unopened

theorem GitSettings.openRepository_bind {g : GitSettings} (hbackend : g.backend = .builtIn)
    (host : Host) (files : Files) (d : Declaration) (options : PrintOptions) :
    (g.openRepository host >>= fun opened =>
        (opened.repository.printedVersion files d options).result) =
      ((Git.repositoryOf (Git.Checkout.ofPath host.files ".")).printedVersion files d
        options).result := by
  rw [Git.result_printedVersion_repositoryOf, openRepository, hbackend]
  cases Git.Checkout.ofPath host.files "." <;> rfl

end VersionStamp
