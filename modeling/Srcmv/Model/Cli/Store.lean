import Srcmv.Model.Cli.Commands
import Srcmv.Proofs.Core.Creations

/-! # What the commands are for

A store is what stands at every path. An accepted batch changes it as a whole: a file the batch names
gets its reference bytes and keeps its mode, and a file the batch creates gets the mode of new files.
Between commands a store is settled, or a batch is pending that is applied later or not at all.
-/

namespace Srcmv.Cli

open Srcmv.Core Srcmv.Fs Relation

/-- What stands at a path, without identities. -/
inductive PathContent where
  | file (mode : UInt32) (bytes : Bytes)
  | symlink
  | other
deriving DecidableEq

def PathContent.ofItem : Item → PathContent
  | .file node => .file (node.mode &&& 0o7777) node.bytes
  | .symlink => .symlink
  | .other => .other

abbrev Store := String → Option PathContent

def storeOf (files : String → Option Item) : Store := fun path => (files path).map PathContent.ofItem

instance (operation : Operation) (path : WorkspaceRelativePath) : Decidable (operation.Creates path) :=
  inferInstanceAs (Decidable (_ ∧ _))

/-- The store after a batch. -/
def Store.after (store : Store) (snapshot : WorkspaceSnapshot) (batch : BatchSpecification) (newFileMode : UInt32) : Store :=
  fun path =>
    match store path with
    | some (.file mode bytes) =>
        if ∃ file ∈ snapshot.files, file.path.value = path then some (.file mode (referenceOutput snapshot batch ⟨path⟩))
        else some (.file mode bytes)
    | none =>
        if ∃ operation ∈ batch.operations, operation.Creates ⟨path⟩ then
          some (.file (newFileMode &&& 0o666) (referenceOutput snapshot batch ⟨path⟩))
        else none
    | some .symlink => some .symlink
    | some .other => some .other

/-- A request is accepted in a workspace that shows the store, and its batch is applied. -/
inductive Store.Step (setting : Setting) : Store → Store → Prop where
  | applies {world : World} {snapshot : WorkspaceSnapshot} {plan : EditPlan} (request : CommitRequest)
      (acquired : (setting.view world).acquireSnapshot setting.crates.sha256 (snapshotRequirements request.batch) {} = .ok snapshot)
      (planned : lockedPlan setting request snapshot = .ok plan) :
      Step setting (storeOf world.files) ((storeOf world.files).after snapshot request.batch request.newFileMode)

/-- A settled store, or a store to which a batch is being applied. -/
inductive Standing where
  | settled (store : Store)
  | pending (before after : Store)

/-- Batches begin and end one at a time. -/
inductive Standing.Step (setting : Setting) : Standing → Standing → Prop where
  | begins {before after : Store} (step : Store.Step setting before after) : Step setting (.settled before) (.pending before after)
  | commits {before after : Store} : Step setting (.pending before after) (.settled after)
  | rollsBack {before after : Store} : Step setting (.pending before after) (.settled before)

/-- A settled store is the whole of the workspace, with no transaction active. While a batch is pending,
one transaction is active, and every path shows what was there before, what will be there, or nothing. -/
def Standing.Shows : Standing → World → Prop
  | settled store, world => world.control.transactions = ∅ ∧ storeOf world.files = store
  | pending before after, world =>
      (∃ id, ∀ other, other ∈ world.control.transactions ↔ other = id) ∧
        ∀ path, storeOf world.files path = before path ∨ storeOf world.files path = after path ∨ storeOf world.files path = none

/-- The batches that may have been applied so far. -/
def Standing.Since (setting : Setting) (start : Store) : Standing → Prop
  | settled store => ReflTransGen (Store.Step setting) start store
  | pending before after => ReflTransGen (Store.Step setting) start before ∧ Store.Step setting before after

/-- From one settled store to another, whole batches are applied and nothing else. -/
theorem Standing.since_of_reached {setting : Setting} {start : Store} {standing : Standing}
    (reached : ReflTransGen (Standing.Step setting) (.settled start) standing) : standing.Since setting start := by
  induction reached with
  | refl => exact .refl
  | tail _ step ih =>
    cases step with
    | begins step => exact ⟨ih, step⟩
    | commits => exact ih.1.tail ih.2
    | rollsBack => exact ih.1

end Srcmv.Cli
