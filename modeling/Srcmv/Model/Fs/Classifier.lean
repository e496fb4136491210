import Srcmv.Model.Fs.Journal

/-! # Recovery classification

Which recovery actions are safe for one target, from its recorded state and what is observed at its
path, its candidate and its backup. No filesystem access; every combination that the tables do not
list is a conflict.
-/

namespace Srcmv.Fs

/-- What one location holds, compared with the record. -/
inductive LocationObservation where
  | original
  | candidate
  | absent
  | unexpected
deriving DecidableEq

structure SyntheticTargetObservation where
  parentMatches : Bool
  target : LocationObservation
  candidate : LocationObservation
  backup : LocationObservation
deriving DecidableEq

/-- Safe recovery actions established for one target. -/
structure RecoveryDisposition where
  complete : Bool
  rollback : Bool
  cleanupOnly : Bool
deriving DecidableEq

namespace RecoveryDisposition

def forCompletionAndRollback : RecoveryDisposition := ⟨true, true, false⟩

def forRollbackOnly : RecoveryDisposition := ⟨false, true, false⟩

def forCleanupOnly : RecoveryDisposition := ⟨false, false, true⟩

end RecoveryDisposition

def conflict (reason : String) : FsError := .recoveryConflict reason

/-- The locations of one target: its path, its candidate and its backup. -/
def SyntheticTargetObservation.locations (observed : SyntheticTargetObservation) :
    LocationObservation × LocationObservation × LocationObservation :=
  (observed.target, observed.candidate, observed.backup)

def initialTarget (originalExisted : Bool) : LocationObservation :=
  if originalExisted then .original else .absent

def classifyPreparing (originalExisted : Bool) (observed : SyntheticTargetObservation) :
    Except FsError RecoveryDisposition :=
  if observed.target = initialTarget originalExisted ∧
      (observed.candidate = .absent ∨ observed.candidate = .candidate) ∧ observed.backup = .absent then
    .ok .forRollbackOnly
  else .error (conflict "preparing_observation_invalid")

def classifyPrepared (originalExisted : Bool) (observed : SyntheticTargetObservation) :
    Except FsError RecoveryDisposition :=
  if observed.target = initialTarget originalExisted ∧ observed.candidate = .candidate ∧
      observed.backup = .absent then
    .ok .forCompletionAndRollback
  else .error (conflict "prepared_observation_invalid")

/-- The locations that commit progress admits. -/
def committingValid (originalExisted : Bool) (kind : CommitKind)
    (locations : LocationObservation × LocationObservation × LocationObservation) : Bool :=
  match originalExisted, kind with
  | true, .untouched => locations ∈ [(.original, .candidate, .absent), (.absent, .candidate, .original),
      (.candidate, .absent, .original)]
  | false, .untouched => locations ∈ [(.absent, .candidate, .absent), (.candidate, .absent, .absent)]
  | true, .backedUp => locations ∈ [(.absent, .candidate, .original), (.candidate, .absent, .original)]
  | false, .backedUp => false
  | true, .installed => locations = (.candidate, .absent, .original)
  | false, .installed => locations = (.candidate, .absent, .absent)

def classifyCommitting (originalExisted : Bool) (recorded : TargetState)
    (observed : SyntheticTargetObservation) : Except FsError RecoveryDisposition :=
  if committingValid originalExisted recorded.commit.kind observed.locations then
    .ok .forCompletionAndRollback
  else .error (conflict "committing_observation_invalid")

def classifyCommitted (originalExisted : Bool) (observed : SyntheticTargetObservation) :
    Except FsError RecoveryDisposition :=
  if observed.target = .candidate ∧ observed.candidate = .absent ∧
      observed.backup = (if originalExisted then .original else .absent) then
    .ok .forCleanupOnly
  else .error (conflict "committed_observation_invalid")

def classifyRestoredOriginal (observed : SyntheticTargetObservation) (disposition : RecoveryDisposition) :
    Except FsError RecoveryDisposition :=
  if observed.locations = (.original, .absent, .absent) then .ok disposition
  else .error (conflict "restored_original_observation_invalid")

def classifyRestoredAbsence (observed : SyntheticTargetObservation) (disposition : RecoveryDisposition) :
    Except FsError RecoveryDisposition :=
  if observed.locations = (.absent, .absent, .absent) then .ok disposition
  else .error (conflict "restored_absence_observation_invalid")

/-- The locations an unfinished rollback of one target admits. -/
def rollingBackValid (originalExisted : Bool)
    (locations : LocationObservation × LocationObservation × LocationObservation) : Bool :=
  if originalExisted then
    locations ∈ [(.original, .absent, .absent), (.original, .candidate, .absent),
      (.absent, .absent, .original), (.absent, .candidate, .original), (.candidate, .absent, .original)]
  else
    locations ∈ [(.absent, .absent, .absent), (.absent, .candidate, .absent), (.candidate, .absent, .absent)]

def classifyRollingBack (originalExisted : Bool) (recorded : TargetState)
    (observed : SyntheticTargetObservation) : Except FsError RecoveryDisposition :=
  match recorded.rollback.kind, originalExisted with
  | .originalRestored, true => classifyRestoredOriginal observed .forRollbackOnly
  | .absenceRestored, false => classifyRestoredAbsence observed .forRollbackOnly
  | .none, _ =>
      if rollingBackValid originalExisted observed.locations then .ok .forRollbackOnly
      else .error (conflict "rolling_back_observation_invalid")
  | _, _ => .error (conflict "rolling_back_record_invalid")

def classifyRolledBack (originalExisted : Bool) (recorded : TargetState)
    (observed : SyntheticTargetObservation) : Except FsError RecoveryDisposition :=
  match recorded.rollback.kind, originalExisted with
  | .originalRestored, true => classifyRestoredOriginal observed .forCleanupOnly
  | .absenceRestored, false => classifyRestoredAbsence observed .forCleanupOnly
  | _, _ => .error (conflict "rolled_back_record_invalid")

/-- Classify one target against the last state snapshot. -/
def classifyRecovery (global : GlobalState) (originalExisted : Bool) (recorded : TargetState)
    (observed : SyntheticTargetObservation) : Except FsError RecoveryDisposition :=
  if observed.parentMatches = false ∨ observed.target = .unexpected ∨ observed.candidate = .unexpected ∨
      observed.backup = .unexpected then
    .error (conflict "unexpected_location_or_parent")
  else
    match global with
    | .preparing => classifyPreparing originalExisted observed
    | .prepared => classifyPrepared originalExisted observed
    | .committing => classifyCommitting originalExisted recorded observed
    | .committed => classifyCommitted originalExisted observed
    | .rollingBack => classifyRollingBack originalExisted recorded observed
    | .rolledBack => classifyRolledBack originalExisted recorded observed

end Srcmv.Fs
