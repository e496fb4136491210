import Srcmv.Proofs.Fs.Footprint

/-! # Commits and recoveries stay within their transaction

Whatever the workspace, the control tree and the records look like, and whatever fails or crashes: a
commit changes no file but the changed outputs of its plan, no directory that was there before, and no
control object; a recovery changes no file but the targets the manifest of its transaction records,
and no directory of another transaction.
-/

namespace Srcmv.Fs

open Srcmv.Core Machine Process

/-- Whatever happens, a commit changes no file but those its plan changes, no directory that was there
before and no control object, and leaves at most one new directory. -/
theorem commit_isolated (setting : Setting) (snapshot : WorkspaceSnapshot) (plan : EditPlan) (newFileMode : UInt32)
    (identifiers : List String) (oracle : Oracle Site) (world : World) (taken : List (Site × Went)) :
    SparedByCommit plan identifiers world
      ((commit setting snapshot plan newFileMode identifiers).run oracle ⟨world, taken⟩).2.world :=
  Triple.keeps_run commit_spares oracle taken

/-- Whatever happens, a recovery changes no file but the targets its transaction records, no directory
of another transaction and no control object, and creates no transaction. -/
theorem recoverLocked_isolated (setting : Setting) (transactionId : String) (mode : RecoveryMode) (oracle : Oracle Site)
    (world : World) (taken : List (Site × Went)) :
    (Scope.ofRecorded setting.crates world transactionId).Spares world
      ((recoverLocked setting transactionId mode).run oracle ⟨world, taken⟩).2.world :=
  Triple.keeps_run (spares_of_acts (recoverLocked_acts mode)) oracle taken

end Srcmv.Fs
