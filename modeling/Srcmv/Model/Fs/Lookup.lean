import Srcmv.Model.Fs.Commit

/-! # Directory entries

A filesystem on which several spellings of a path may name one directory entry, as a case-insensitive
one does, and what completing a target does to the entry its path names: a recorded original is moved
away, then the candidate is moved in without replacing anything.
-/

namespace Srcmv.Fs

open Srcmv.Core

/-- Paths are resolved to directory entries. -/
structure Lookup (Entry : Type) where
  identity : FileIdentity
  parents : String → Except FsError (FileIdentity × List FileIdentity)
  resolve : String → Entry
  item : Entry → Option Item

namespace Lookup

variable {Entry : Type} (lookup : Lookup Entry)

/-- What the workspace shows through the lookup. -/
def view : WorkspaceView := ⟨lookup.identity, lookup.parents, fun path => lookup.item (lookup.resolve path)⟩

variable [DecidableEq Entry]

def place (entry : Entry) (item : Option Item) : Lookup Entry :=
  { lookup with item := Function.update lookup.item entry item }

/-- Move a recorded original to its backup location and verify it there. -/
def backUpOriginal (entry : Entry) (original : Option FileIdentity) : Except FsError (Lookup Entry) :=
  match original, lookup.item entry with
  | none, _ => .ok lookup
  | some _, none => .error (.io "backup_target" none)
  | some identity, some (.file node) =>
      if node.identity = identity then .ok (lookup.place entry none)
      else .error (conflict "recorded_original_mismatch")
  | some _, some _ => .error (conflict "transaction_location_type_invalid")

/-- The rename that installs a candidate never replaces its destination. -/
def installCandidate (entry : Entry) (candidate : Node) : Except FsError (Lookup Entry) :=
  match lookup.item entry with
  | none => .ok (lookup.place entry (some (.file candidate)))
  | some _ => .error (conflict "no_replace_destination_collision")

/-- `complete_target`, as the entry its path names sees it. -/
def completeTarget (path : String) (original : Option FileIdentity) (candidate : Node) :
    Except FsError (Lookup Entry) := do
  let vacated ← lookup.backUpOriginal (lookup.resolve path) original
  vacated.installCandidate (lookup.resolve path) candidate

/-- The original that a manifest records for an output. -/
def recordedOriginal (snapshot : WorkspaceSnapshot) (output : PlannedOutput) : Option FileIdentity :=
  (snapshot.files.find? fun file => file.path = output.path).map FileSnapshot.identity

/-- Complete the targets of a transaction, one after the other. -/
def completeTargets (snapshot : WorkspaceSnapshot) (candidate : PlannedOutput → Node) (outputs : List PlannedOutput) :
    Except FsError (Lookup Entry) :=
  outputs.foldlM (fun lookup output => lookup.completeTarget output.path.value (recordedOriginal snapshot output)
    (candidate output)) lookup

end Lookup

end Srcmv.Fs
