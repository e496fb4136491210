import Srcmv.Model.Fs.Journal

/-! # What a valid manifest promises

Targets are indexed in order, carry the generated artifact names, record an original completely or
not at all, and have strictly increasing paths.
-/

namespace Srcmv.Fs

open Srcmv.Core

/-- One target of a valid manifest. -/
structure ManifestTarget.Valid (target : ManifestTarget) (index : ℕ) : Prop where
  targetIndex : target.targetIndex = lengthU64 index
  candidateName : target.candidateName = generatedName "candidate" index
  backupName : target.backupName = generatedName "backup" index
  original : target.originalExisted = true → target.originalIdentity.isSome ∧ target.originalSha256.isSome ∧
    target.originalLength.isSome
  noOriginal : target.originalExisted = false → target.originalIdentity = none ∧ target.originalSha256 = none ∧
    target.originalLength = none
  metadata : metadataValid target = true

private theorem validateOptionalOriginal_ok {target : ManifestTarget} {id : String}
    (valid : validateOptionalOriginal target id = .ok ()) :
    (target.originalExisted = true → target.originalIdentity.isSome ∧ target.originalSha256.isSome ∧
      target.originalLength.isSome) ∧
    (target.originalExisted = false → target.originalIdentity = none ∧ target.originalSha256 = none ∧
      target.originalLength = none) := by
  unfold validateOptionalOriginal at valid
  dsimp only at valid
  split at valid
  · cases valid
  · next accepted =>
    rw [not_or, not_not, not_and, not_not] at accepted
    constructor
    · intro existed
      have fields := accepted.1
      rw [existed] at fields
      simpa using fields.symm
    · intro missing
      simpa using accepted.2 missing

private theorem validateGeneratedName_ok {value kind : String} {index : ℕ}
    (valid : validateGeneratedName value kind index = .ok ()) : value = generatedName kind index := by
  unfold validateGeneratedName at valid
  split at valid
  · assumption
  · cases valid

/-- What one iteration of the target loop establishes. -/
private theorem validateTarget_ok {manifest : Manifest} {limits : TransactionLimits} {carried next : Option String × ℕ}
    {entry : ManifestTarget × ℕ} (valid : validateTarget manifest limits carried entry = .ok next) :
    entry.1.Valid entry.2 ∧ (∀ prior, carried.1 = some prior → prior < entry.1.path) ∧
      next.1 = some entry.1.path := by
  unfold validateTarget at valid
  simp only [Except.bind_eq_ok, Except.rejectIf_eq_ok, Except.pure_eq_ok, not_not, Bool.not_eq_true,
    Bool.not_eq_false] at valid
  obtain ⟨_, _, _, index, _, sorted, ⟨⟩, candidate, ⟨⟩, backup, _, _, ⟨⟩, original, projected, _, _, metadata,
    _, _, rfl⟩ := valid
  have fields := validateOptionalOriginal_ok original
  refine ⟨⟨index, validateGeneratedName_ok candidate, validateGeneratedName_ok backup, fields.1, fields.2, metadata⟩,
    ?_, rfl⟩
  intro prior carriedPrior
  rw [carriedPrior] at sorted
  simpa using sorted

/-- What holds after a prefix of the targets. -/
private structure Visited (done : List (ManifestTarget × ℕ)) (carried : Option String × ℕ) : Prop where
  valid : ∀ entry ∈ done, entry.1.Valid entry.2
  sorted : done.Pairwise fun left right => left.1.path < right.1.path
  last : ∀ entry ∈ done, ∃ prior, carried.1 = some prior ∧ entry.1.path ≤ prior

private theorem visited_step {manifest : Manifest} {limits : TransactionLimits} (done : List (ManifestTarget × ℕ))
    (entry : ManifestTarget × ℕ) (carried next : Option String × ℕ) (visited : Visited done carried)
    (stepped : validateTarget manifest limits carried entry = .ok next) : Visited (done ++ [entry]) next := by
  obtain ⟨valid, after, carriedNext⟩ := validateTarget_ok stepped
  have below : ∀ other ∈ done, other.1.path < entry.1.path := by
    intro other member
    obtain ⟨prior, carriedPrior, bounded⟩ := visited.last other member
    exact bounded.trans_lt (after prior carriedPrior)
  refine ⟨?_, ?_, ?_⟩
  · intro other member
    rcases List.mem_append.mp member with earlier | final
    · exact visited.valid other earlier
    · rw [List.mem_singleton.mp final]; exact valid
  · rw [List.pairwise_append]
    exact ⟨visited.sorted, List.pairwise_singleton _ _, fun other member final same => by
      rw [List.mem_singleton.mp same]; exact below other member⟩
  · intro other member
    refine ⟨entry.1.path, carriedNext, ?_⟩
    rcases List.mem_append.mp member with earlier | final
    · exact (below other earlier).le
    · rw [List.mem_singleton.mp final]

/-- What the engine relies on. -/
structure Manifest.Valid (manifest : Manifest) : Prop where
  identifier : validateTransactionId manifest.transactionId = .ok ()
  nonempty : manifest.targets.length ≠ 0
  few : manifest.targets.length ≤ maxTransactionTargets
  target : ∀ (index : ℕ) (target : ManifestTarget), manifest.targets[index]? = some target → target.Valid index
  sorted : manifest.targets.Pairwise fun left right => left.path < right.path

theorem validateManifest_valid {manifest : Manifest} (accepted : validateManifest manifest {} = .ok ()) :
    manifest.Valid := by
  unfold validateManifest at accepted
  simp only [Except.bind_eq_ok, Except.rejectIf_eq_ok] at accepted
  obtain ⟨_, _, ⟨⟩, identifier, _, _, _, nonempty, _, few, carried, folded, _⟩ := accepted
  have unvisited : Visited [] (none, 0) := ⟨by simp, List.Pairwise.nil, by simp⟩
  have visited : Visited ([] ++ manifest.targets.zipIdx) carried :=
    List.foldlM_ok_induction visited_step _ unvisited folded
  rw [List.nil_append] at visited
  refine ⟨identifier, nonempty, Nat.le_of_not_lt few, ?_, ?_⟩
  · intro index target found
    exact visited.valid (target, index) (List.mk_mem_zipIdx_iff_getElem?.mpr found)
  · rw [← List.zipIdx_map_fst 0 manifest.targets]
    exact List.pairwise_map.mpr visited.sorted

namespace Manifest.Valid

variable {manifest : Manifest}

/-- Different targets have different paths. -/
theorem path_injective (valid : manifest.Valid) {left right : ℕ} {leftTarget rightTarget : ManifestTarget}
    (foundLeft : manifest.targets[left]? = some leftTarget) (foundRight : manifest.targets[right]? = some rightTarget)
    (same : leftTarget.path = rightTarget.path) : left = right := by
  have sorted := List.pairwise_iff_getElem.mp valid.sorted
  obtain ⟨leftBound, rfl⟩ := List.getElem?_eq_some_iff.mp foundLeft
  obtain ⟨rightBound, rfl⟩ := List.getElem?_eq_some_iff.mp foundRight
  rcases Nat.lt_trichotomy left right with less | equal | greater
  · exact absurd same (sorted left right leftBound rightBound less).ne
  · exact equal
  · exact absurd same.symm (sorted right left rightBound leftBound greater).ne

theorem mem_authorizedNames (valid : manifest.Valid) {name : String} :
    name ∈ manifest.targets.flatMap (fun target => [target.candidateName, target.backupName]) ↔
      ∃ index < manifest.targets.length, name = generatedName "candidate" index ∨ name = generatedName "backup" index := by
  simp only [List.mem_flatMap, List.mem_cons, List.not_mem_nil, or_false]
  constructor
  · rintro ⟨target, member, named⟩
    obtain ⟨index, bound, found⟩ := List.getElem_of_mem member
    have validTarget := valid.target index target (found ▸ List.getElem?_eq_getElem bound)
    rw [validTarget.candidateName, validTarget.backupName] at named
    exact ⟨index, bound, named⟩
  · rintro ⟨index, bound, named⟩
    have validTarget := valid.target index _ (List.getElem?_eq_getElem bound)
    refine ⟨_, List.getElem_mem bound, ?_⟩
    rwa [validTarget.candidateName, validTarget.backupName]

end Manifest.Valid

end Srcmv.Fs
