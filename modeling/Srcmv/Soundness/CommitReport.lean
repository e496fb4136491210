import Srcmv.Proofs.Cli.CommitLine
import Srcmv.Proofs.Core.Projection
import Srcmv.Proofs.Fs.Outcomes
import Srcmv.Proofs.Protocol.RequestPaths
import Srcmv.Soundness.OneTransaction
import Srcmv.Soundness.RecoveryLimit

/-! # Reporting a commit

Whether a commit can be reported is only checked after it has changed files. The check never fails: the
paths of a request with their escapes fit into its text, every operation has two of them, and of the
outputs, which have different paths, only a limited number can change.
-/

namespace Srcmv.Cli

open Srcmv.Core Srcmv.Fs Srcmv.Protocol CompactJson Machine Process

section Sums

variable {α : Type*}

private theorem sum_le_of_subset {items others : List α} (distinct : items.Nodup) (listed : items ⊆ others) (size : α → ℕ) :
    (items.map size).sum ≤ (others.map size).sum ∧ items.length ≤ others.length := by
  obtain ⟨arranged, permuted, inside⟩ := List.Nodup.subperm distinct listed
  refine ⟨?_, permuted.length_eq ▸ inside.length_le⟩
  rw [← (permuted.map size).sum_eq]
  exact (inside.map size).sum_le_sum fun _ _ => Nat.zero_le _

private theorem sum_le_bound {items : List α} {size : α → ℕ} {bound : ℕ} (each : ∀ item ∈ items, size item ≤ bound) :
    (items.map size).sum ≤ items.length * bound := by
  have summed := List.sum_le_card_nsmul (items.map size) bound (List.forall_mem_map.mpr each)
  rwa [List.length_map, smul_eq_mul] at summed

end Sums

section Parts

private theorem operations_length_le (operations : List ResolvedOperation) :
    (operations.map operationLength).sum ≤
      424 * operations.length + ((operations.flatMap ResolvedOperation.paths).map pathEscapedLength).sum := by
  induction operations with
  | nil => exact le_rfl
  | cons operation rest ih =>
    have index := naturalLength_le operation.operationIndex
    have start := naturalLength_le operation.sourceRange.start
    have stop := naturalLength_le operation.sourceRange.stop
    have offset := naturalLength_le operation.destinationOffset
    have effect : (if operation.effect = .changed then 82 else 11) ≤ 82 := by split_ifs <;> decide
    simp only [List.map_cons, List.sum_cons, List.length_cons, List.flatMap_cons, List.map_append, List.sum_append,
      ResolvedOperation.paths, List.map_nil, List.sum_nil, operationLength, pathEscapedLength] at ih ⊢
    omega

private theorem outputs_length_le (snapshot : WorkspaceSnapshot) (outputs : List PlannedOutput) :
    (outputs.map (outputLength snapshot)).sum ≤
      297 * outputs.length + ((outputs.map PlannedOutput.path).map pathEscapedLength).sum := by
  induction outputs with
  | nil => exact le_rfl
  | cons output rest ih =>
    have change : changeLength output.change ≤ 17 := by cases output.change <;> decide
    have digest : (if output.originalDigest.isSome then 73 else 4) ≤ 73 := by split_ifs <;> decide
    have resulting := naturalLength_le output.resultingLength
    have original : ((originalBytes snapshot output.path.value).map List.length).elim 4 naturalLength ≤ 20 := by
      cases originalBytes snapshot output.path.value with
      | none => decide
      | some bytes => exact naturalLength_le bytes.length
    simp only [List.map_cons, List.sum_cons, List.length_cons, outputLength, pathEscapedLength] at ih ⊢
    omega

private theorem pathEscapedLength_le {path : WorkspaceRelativePath} (bounded : (utf8Bytes path.value).length ≤ 4096) :
    pathEscapedLength path ≤ 24576 := by
  have escaped := (escapedLength_bounds path.value).2
  rw [utf8Bytes] at bounded
  rw [pathEscapedLength]
  omega

private theorem isLowerHex_unescaped {char : Char} (hex : Fs.isLowerHex char = true) : Unescaped char := by
  have table : ∀ code < 128, Fs.isLowerHex (Char.ofNat code) = true → Unescaped (Char.ofNat code) := by decide
  have ascii : char.toNat < 128 := by
    have cases_ := hex
    rw [Fs.isLowerHex, Bool.or_eq_true, Bool.and_eq_true, decide_eq_true_iff, decide_eq_true_iff, Char.isDigit_iff_toNat] at cases_
    rcases cases_ with ⟨-, nine⟩ | ⟨-, last⟩
    · exact lt_of_le_of_lt nine (by decide)
    · have bound : char.toNat ≤ 'f'.toNat := last
      exact lt_of_le_of_lt bound (by decide)
  have plain := table char.toNat ascii
  rw [Char.ofNat_toNat] at plain
  exact plain hex

private theorem transactionLength_le {transactionId : Option String}
    (valid : ∀ id, transactionId = some id → validateTransactionId id = .ok ()) : transactionLength transactionId ≤ 45 := by
  cases transactionId with
  | none => exact (by decide : 11 ≤ 45)
  | some id =>
    have accepted := valid id rfl
    rw [validateTransactionId] at accepted
    split_ifs at accepted with shape
    have plain := escapedLength_unescaped fun char member => isLowerHex_unescaped (List.all_eq_true.mp shape.2 char member)
    rw [transactionLength, Option.elim_some, plain, shape.1]

end Parts

section Line

variable {toVec : Content → Bytes} {sha256 : Bytes → Sha256Digest} {sizes : TypeSizes} {snapshot : WorkspaceSnapshot}
  {batch : BatchSpecification} {editPlan : EditPlan}

/-- What a response lists besides its plan. -/
structure Reportable (editPlan : EditPlan) (warnings : List WarningDto) (transactionId : Option String)
    (modes : List (String × ℕ)) : Prop where
  bare : ∀ warning ∈ warnings, warning.context = []
  warned : (warnings.map warningLength).sum + (warnings.length - 1) ≤ 200
  identifier : ∀ id, transactionId = some id → validateTransactionId id = .ok ()
  modes : (modes.map Prod.fst).Sublist ((Fs.changedOutputs editPlan).map fun output => output.path.value)

/-- Every response to a plan of a limited batch is within the limit of responses. -/
private theorem length_commitLine_le (serializer : Content.Compact toVec) (limited : Limited batch)
    (planned : Core.plan sha256 sizes snapshot batch {} = .ok editPlan) (hash : Sha256Digest) {warnings : List WarningDto}
    {transactionId : Option String} {modes : List (String × ℕ)} (reportable : Reportable editPlan warnings transactionId modes) :
    (toJsonLine toVec (buildCommitResponse snapshot editPlan hash warnings transactionId modes).content).length ≤
      maxResponseBytes := by
  obtain ⟨operations, distinct, listed⟩ := plan_paths planned
  obtain ⟨-, changed, within⟩ := plan_projects planned
  have paths : editPlan.operations.flatMap ResolvedOperation.paths = batch.operations.flatMap endpointsOf := by
    rw [List.flatMap_def, operations, List.flatMap_def]
  have count : editPlan.operations.length = batch.operations.length := by
    rw [← List.length_map ResolvedOperation.paths, operations, List.length_map]
  have endpoints : (batch.operations.flatMap endpointsOf).length = 2 * batch.operations.length := by
    rw [List.length_flatMap]
    simp only [endpointsOf, List.length_cons, List.length_nil, List.map_const', List.sum_replicate, smul_eq_mul]
    omega
  have spread := sum_le_of_subset distinct listed pathEscapedLength
  have resolved := operations_length_le editPlan.operations
  have produced := outputs_length_le snapshot editPlan.outputs
  have few : (changedOutputs editPlan).length ≤ 100 := by
    rw [changedOutputs, ← changed]
    exact within
  have short : ∀ output ∈ changedOutputs editPlan, pathEscapedLength output.path ≤ 24576 := by
    intro output member
    exact pathEscapedLength_le (limited.bounded output.path (listed (List.mem_map_of_mem (List.mem_of_mem_filter member))))
  have sorted : (Fs.changedOutputs editPlan).Perm (changedOutputs editPlan) := List.mergeSort_perm _ _
  have files : ((changedOutputs editPlan).map listedLength).sum ≤ (changedOutputs editPlan).length * 24578 :=
    sum_le_bound fun output member => Nat.add_le_add_right (short output member) 2
  have preserved : (modes.map modeLength).sum ≤ modes.length * 24599 := by
    apply sum_le_bound
    intro entry member
    obtain ⟨output, inside, path⟩ := List.mem_map.mp (reportable.modes.subset (List.mem_map_of_mem member))
    have bound := short output (sorted.mem_iff.mp inside)
    have digits := naturalLength_le entry.2
    rw [pathEscapedLength, path] at bound
    rw [modeLength]
    omega
  have fewer : modes.length ≤ (changedOutputs editPlan).length := by
    have longer := reportable.modes.length_le
    rwa [List.length_map, List.length_map, sorted.length_eq] at longer
  have transaction := transactionLength_le reportable.identifier
  have warned := reportable.warned
  have parsed := limited.paths
  have bounded := limited.count
  rw [length_commitLine serializer, length_warnings serializer reportable.bare, maxResponseBytes]
  rw [paths] at resolved
  rw [List.length_map, endpoints] at spread
  omega

end Line

section Command

/-- The errors that are reported as an exceeded resource limit. -/
def CommitFailure.IsResourceLimit : CommitFailure → Prop
  | .filesystem (.resourceLimitExceeded _ _ _) => True
  | .filesystem (.core (.resourceLimitExceeded _ _ _)) => True
  | .serializedJsonResponse _ _ => True
  | _ => False

section Statements

variable (setting : Setting) (reporting : Reporting) (arguments : CommitArguments)

/-- The response to every accepted plan is within the limit, whether the plan changes nothing or was committed. -/
structure ResponsesFit : Prop where
  unchanged : ∀ snapshot editPlan inspection warnings,
    Core.plan setting.crates.sha256 arguments.sizes snapshot arguments.batch {} = .ok editPlan →
    diagnosticContext inspection = .ok warnings →
    (toJsonLine reporting.toVec (reporting.unchangedResponse snapshot editPlan warnings).content).length ≤ maxResponseBytes
  committed : ∀ snapshot editPlan start outcome later,
    Core.plan setting.crates.sha256 arguments.sizes snapshot arguments.batch {} = .ok editPlan →
    Yields (fun _ _ => True) (Fs.commit setting snapshot editPlan arguments.newFileMode arguments.identifiers) start outcome later →
    (toJsonLine reporting.toVec (reporting.committedResponse snapshot editPlan outcome).content).length ≤ maxResponseBytes

/-- A commit to the files of this world that reports an exceeded limit has changed none of them, whatever transactions
it finds and whatever stood there before it had the lock. -/
def LimitsSpareFiles (world : World) : Prop :=
  ∀ start prelock inspection error later, start.files = world.files → start.control.objects = world.control.objects →
    Fails Answering (executeCommit setting reporting arguments prelock inspection) start error later →
    error.IsResourceLimit → later.files = world.files

end Statements

variable {setting : Setting} {reporting : Reporting} {arguments : CommitArguments} {world : World}

section Responses

private theorem diagnosticContext_ok {lock : Except FsError (Option (Except FsError (List RecoveryEntry)))}
    {warnings : List WarningDto} (inspected : diagnosticContext lock = .ok warnings) : warnings = [staleWarning] ∨ warnings = [] := by
  rw [diagnosticContext] at inspected
  obtain ⟨scan, -, inspected⟩ := Except.bind_eq_ok.mp inspected
  cases scan with
  | none => exact .inl (Except.pure_eq_ok.mp inspected).symm
  | some scan =>
    obtain ⟨entries, -, inspected⟩ := Except.bind_eq_ok.mp inspected
    dsimp only at inspected
    split_ifs at inspected
    exact .inr (Except.pure_eq_ok.mp inspected).symm

private theorem unchanged_reportable (editPlan : EditPlan) {warnings : List WarningDto}
    (known : warnings = [staleWarning] ∨ warnings = []) : Reportable editPlan warnings none [] where
  bare := by rcases known with rfl | rfl <;> simp [staleWarning]
  warned := by rcases known with rfl | rfl <;> decide
  identifier _ absent := by cases absent
  modes := List.nil_sublist _

private theorem committed_reportable {editPlan : EditPlan} {outcome : CommitOutcome} (reports : Reports editPlan outcome) :
    Reportable editPlan [metadataWarning] (some outcome.transactionId) (Reporting.modes outcome) where
  bare := List.forall_mem_singleton.mpr rfl
  warned := by decide
  identifier _ same := Option.some.inj same ▸ reports.identifier
  modes := by
    rw [Reporting.modes, List.map_map]
    exact reports.modes

private theorem responses_fit (serializer : Content.Compact reporting.toVec) (limited : Limited arguments.batch) :
    ResponsesFit setting reporting arguments where
  unchanged _ editPlan _ _ planned inspected :=
    length_commitLine_le serializer limited planned _ (unchanged_reportable editPlan (diagnosticContext_ok inspected))
  committed snapshot editPlan start outcome later planned := by
    rintro ⟨oracle, -, stopped, -⟩
    exact length_commitLine_le serializer limited planned _ (committed_reportable (commit_reports (Prod.ext stopped rfl)))

private theorem serializeCommitResponse_fits {toVec : Content → Bytes} {response : CommitResponse}
    (fits : (toJsonLine toVec response.content).length ≤ maxResponseBytes) :
    serializeCommitResponse toVec response = .ok (toJsonLine toVec response.content) := by
  rw [serializeCommitResponse, enforceResponseBytes, if_neg (not_lt.mpr fits)]
  rfl

end Responses

section Sparing

private theorem isIo_spares {error : FsError} (io : error.IsIo) : ¬(CommitFailure.filesystem error).IsResourceLimit := by
  obtain ⟨_, _, rfl⟩ := io
  exact id

/-- Files are spared wherever a commit fails with an exceeded limit. -/
private def Spares (world : World) : Ending World CommitFailure Bytes :=
  ⟨fun _ _ => True, fun error later => error.IsResourceLimit → later.files = world.files, fun _ => True⟩

private theorem committing_spares (serializer : Content.Compact reporting.toVec) (limited : Limited arguments.batch)
    (completes : ∀ snapshot editPlan manifest, Admits setting arguments world snapshot editPlan manifest →
      (plannedJob setting world snapshot editPlan manifest).Completes)
    {before : World} {snapshot : WorkspaceSnapshot} {editPlan : EditPlan} (ready : CommitReady setting before)
    (files : before.files = world.files)
    (acquired : (setting.view before).acquireSnapshot setting.crates.sha256 (snapshotRequirements arguments.batch) {} = .ok snapshot)
    (planned : expectedPlan setting arguments snapshot = .ok editPlan) : Triple Answering (· = before)
      (do
        let outcome ← (Fs.commit setting snapshot editPlan arguments.newFileMode arguments.identifiers).mapError .filesystem
        Process.ofExcept (serializeCommitResponse reporting.toVec (reporting.committedResponse snapshot editPlan outcome)))
      (Spares world) := by
  have core := (expectedPlan_eq_ok.mp planned).1
  have reported : Triple Answering (· = before) (Fs.commit setting snapshot editPlan arguments.newFileMode arguments.identifiers)
      (Yielding fun outcome _ => Reports editPlan outcome) := Triple.yieldingRuns fun _ _ _ _ ran => commit_reports ran
  have commits : Triple Answering (· = before) (Fs.commit setting snapshot editPlan arguments.newFileMode arguments.identifiers)
      ⟨fun outcome _ => Reports editPlan outcome,
        fun error later => (CommitFailure.filesystem error).IsResourceLimit → later.files = world.files, fun _ => True⟩ := by
    refine ((commit_triple Answering.sees ready acquired planned).both reported).mono (fun _ same => same)
      (fun _ _ both => both.2) (fun error later stopped limit => ?_) fun _ _ => trivial
    rcases stopped.1 with ⟨-, kept⟩ | ⟨manifest, admits, reports⟩
    · exact kept.trans files
    · cases reports with
      | recoveryRequired hindered rests => exact limit.elim
      | rolledBack hindered ended => exact ended.files.trans files
      | committed ended late =>
        rcases late with ⟨io, -⟩ | ⟨large, -⟩
        · exact absurd limit (isIo_spares io)
        · rw [plannedJob_congr files] at large
          exact absurd (completes _ _ _ (admits.congr files)) large
  refine Triple.bind (fun outcome _ => Reports editPlan outcome) (Triple.mapError commits) fun outcome => ?_
  refine Triple.pointwise fun later reports => ?_
  rw [Reporting.committedResponse,
    serializeCommitResponse_fits (length_commitLine_le serializer limited core _ (committed_reportable reports))]
  exact Triple.pure fun _ _ => trivial

/-- If every admitted transaction fits the recovery limit, exceeded limits spare the files. -/
private theorem limits_spare (serializer : Content.Compact reporting.toVec) (limited : Limited arguments.batch)
    (captured : captureControlIdentities world.control = .ok setting.lock)
    (fresh : ∀ (path : String) (node : Node) (name : String), world.files path = some (.file node) →
      setting.newIdentity name ≠ node.identity)
    (completes : ∀ snapshot editPlan manifest, Admits setting arguments world snapshot editPlan manifest →
      (plannedJob setting world snapshot editPlan manifest).Completes) : LimitsSpareFiles setting reporting arguments world := by
  intro start prelock inspection error later files objects fails limit
  have captured' : captureControlIdentities start.control = .ok setting.lock := by
    rw [captureControlIdentities_congr objects]
    exact captured
  have stays (later : World) (same : later.files = start.files) : (∀ error, (Spares world).failed error later) ∧
      (Spares world).crashed later := ⟨fun _ _ => same.trans files, trivial⟩
  have stands (later : World) (same : later = start) : (∀ error, (Spares world).failed error later) ∧ (Spares world).crashed later :=
    stays later (by rw [same])
  have reads : Triple Answering (· = start)
      (ioRead "acquire_snapshot" none fun _ =>
        (setting.view prelock).acquireSnapshot setting.crates.sha256 (snapshotRequirements arguments.batch) {} : Engine WorkspaceSnapshot)
      ⟨fun _ => (· = start), fun error => (Spares world).failed (.filesystem error), (Spares world).crashed⟩ :=
    Triple.observe (fun _ _ _ => trivial) (fun _ later same => (stands later same).1 _) (fun _ same _ _ => same)
      fun _ later same error _ => (stands later same).1 _
  have commits : Triple Answering (· = start) (executeCommit setting reporting arguments prelock inspection) (Spares world) := by
    rw [executeCommit]
    refine Triple.bind (fun _ => (· = start)) (Triple.mapError reads) fun prelockSnapshot => ?_
    refine Triple.computes (fun _ later same => (stands later same).1 _) fun prelockPlan planned => ?_
    split_ifs
    · refine Triple.computes (fun _ later same => (stands later same).1 _) fun warnings inspected => ?_
      exact Triple.ofExcept (fun _ _ _ _ => trivial) fun _ _ later same => (stands later same).1 _
    · refine underLock_triple captured' (fun path node name => by rw [files]; exact fresh path node name)
        (fun later _ same => stays later same) fun before snapshot plan ready same acquired locked => ?_
      exact committing_spares serializer limited completes ready (same.trans files) acquired (lockedPlan_eq_ok.mp locked).1
  exact commits.fails rfl fails limit

end Sparing

section Exhausting

/-- An admitted commit whose files do not fit the recovery limit reports that limit, although every candidate is installed. -/
private theorem executeCommit_exhausted {snapshot : WorkspaceSnapshot} {editPlan : EditPlan} {manifest : Manifest}
    (fresh : ∀ (path : String) (node : Node) (name : String), world.files path = some (.file node) →
      setting.newIdentity name ≠ node.identity)
    (idle : Idle world.control) (captured : captureControlIdentities world.control = .ok setting.lock)
    (admits : Admits setting arguments world snapshot editPlan manifest)
    (large : ¬(plannedJob setting world snapshot editPlan manifest).Completes)
    (inspection : Except FsError (Option (Except FsError (List RecoveryEntry)))) :
    ∃ error later, Fails Calmly (executeCommit setting reporting arguments world inspection) world error later ∧
      error.IsResourceLimit ∧ later.files ≠ world.files := by
  have sound : (plannedJob setting world snapshot editPlan manifest).Sound := admits.from_.sound admits.encodes fresh
  have core := (expectedPlan_eq_ok.mp admits.planned).1
  have changes : editPlan.usage.changedTargets ≠ 0 := by
    rw [(plan_projects core).2.1]
    intro none
    apply admits.changed
    rw [Fs.changedOutputs, List.length_eq_zero_iff.mp none, List.mergeSort_nil]
  have ready : CommitReady setting (beginHistory world) := ⟨idle, captured, rfl, rfl, fresh⟩
  have same : (beginHistory world).files = world.files := rfl
  have reads : Triple Calmly (· = world)
      (ioRead "acquire_snapshot" none fun _ =>
        (setting.view world).acquireSnapshot setting.crates.sha256 (snapshotRequirements arguments.batch) {} : Engine WorkspaceSnapshot)
      (Ends FsError.IsIo (Exactly snapshot world) (Held (Calmly : Site → Went → Prop) world)) :=
    Triple.watches admits.acquired ⟨_, _, rfl⟩
  have commits : Triple Calmly (· = world) (executeCommit setting reporting arguments world inspection)
      (⟨fun _ _ => False, fun error later => error.IsResourceLimit ∧ later.files ≠ world.files, fun _ => True⟩ :
        Ending World CommitFailure Bytes) := by
    rw [executeCommit]
    refine Triple.bind (Exactly snapshot world) (Triple.mapError (reads.mono (fun _ same => same) (fun _ _ passed => passed)
      (fun _ _ stopped => absurd stopped.2.1 Calmly.undisturbed) fun _ _ => trivial)) fun prelockSnapshot => Triple.fact ?_
    rintro rfl
    rw [admits.planned, ofExcept_ok_bind, if_neg changes]
    apply underLock_calm idle admits.acquired (lockedPlan_eq_ok.mpr ⟨admits.planned, rfl⟩)
    have calm := (Admits.congr same.symm admits).commit_calm ready
    rw [plannedJob_congr same] at calm
    refine Triple.bind (fun _ _ => False) (Triple.mapError (calm.mono (fun _ same => same)
      (fun _ _ finished => large finished.1) (fun error later stopped => ?_) fun _ _ => trivial)) fun _ _ _ impossible => impossible.elim
    obtain ⟨-, ⟨_, _, rfl⟩, ended⟩ := stopped
    refine ⟨trivial, ?_⟩
    rw [ended.files, if_pos rfl]
    exact sound.plannedFiles_ne
  rcases commits.calm_ends rfl (fun _ _ calm => calm) with ⟨_, _, -, impossible⟩ | stopped
  · exact impossible.elim
  · exact stopped

end Exhausting

/-- The response to every accepted plan of a parsed request is within the limit. A commit reports an exceeded limit
after it has changed files exactly where an admitted transaction does not fit the recovery limit: what it
records and the files it backs up are read once more when it has committed. -/
theorem limits_spare_files_iff (setting : Setting) (reporting : Reporting) (arguments : CommitArguments) (world : World)
    (serializer : Content.Compact reporting.toVec) (read : Bytes → Option Content) (reader : Content.Reader read) (input : Bytes)
    (parsed : parseRequest read input = .ok arguments.batch) (valid : validateControlTree world.control = .ok ())
    (captured : captureControlIdentities world.control = .ok setting.lock)
    (fresh : ∀ (path : String) (node : Node) (name : String), world.files path = some (.file node) →
      setting.newIdentity name ≠ node.identity) :
    ResponsesFit setting reporting arguments ∧
      (LimitsSpareFiles setting reporting arguments world ↔
        ∀ snapshot editPlan manifest, Admits setting arguments world snapshot editPlan manifest →
          (plannedJob setting world snapshot editPlan manifest).Completes) := by
  have limited := parseRequest_limited reader parsed
  refine ⟨responses_fit serializer limited, fun spares snapshot editPlan manifest admits => ?_,
    limits_spare serializer limited captured fresh⟩
  by_contra large
  -- no transaction is left where the commit begins
  let start : World := ⟨world.files, { world.control with transactions := ∅, completed := ∅ }, [], []⟩
  have files : start.files = world.files := rfl
  have objects : start.control.objects = world.control.objects := rfl
  have idle : Idle start.control := ⟨by rw [validateControlTree_congr objects]; exact valid, rfl, rfl⟩
  have captured' : captureControlIdentities start.control = .ok setting.lock := by
    rw [captureControlIdentities_congr objects]
    exact captured
  have begun : Admits setting arguments start snapshot editPlan manifest := Admits.congr files.symm admits
  have large' : ¬(plannedJob setting start snapshot editPlan manifest).Completes := by rwa [plannedJob_congr files]
  obtain ⟨error, later, ⟨oracle, within, stopped, ended⟩, limit, changed⟩ :=
    @executeCommit_exhausted setting reporting arguments start snapshot editPlan manifest fresh idle captured' begun large' (.ok none)
  exact changed (spares start start (.ok none) error later files objects
    ⟨oracle, fun step member => Answering.of_calmly _ _ (within step member), stopped, ended⟩ limit)

section Small

/-- The small batch as a request: the first line of one file becomes a new one. -/
def requestContent : Content :=
  .map [("protocol_version", .natural 1), ("operations", .seq [.map [("kind", .string "move"),
    ("source", .map [("path", .string "a"), ("selector", .map [("kind", .string "lines"), ("start", .natural 1), ("end", .natural 1)]),
      ("precondition", .map [("kind", .string "sha256"), ("value", .string Sample.sourceDigest.toPrefixedHex)])]),
    ("destination", .map [("path", .string "b"), ("anchor", .map [("kind", .string "file_start")]),
      ("precondition", .map [("kind", .string "must_not_exist")])])]])]

/-- A commit of the small batch can always be reported. -/
theorem limits_spare_files_small : ResponsesFit Sample.setting ⟨Content.compact, zeroDigest⟩ Sample.request.toCommitArguments ∧
    LimitsSpareFiles Sample.setting ⟨Content.compact, zeroDigest⟩ Sample.request.toCommitArguments Sample.quietWorld := by
  obtain ⟨fit, spare⟩ := limits_spare_files_iff Sample.setting ⟨Content.compact, zeroDigest⟩ Sample.request.toCommitArguments
    Sample.quietWorld Content.compact_compact _ (Content.reader_of_compact requestContent) requestContent.compact (by decide +kernel)
    rfl rfl Sample.quietWorld_new
  refine ⟨fit, spare.mpr fun snapshot editPlan manifest admits => ?_⟩
  obtain ⟨sameSnapshot, samePlan, sameManifest⟩ := Sample.request_admits.unique admits
  have completes : Sample.job.Completes := Sample.job_sound.completes (Nat.le_of_ble_eq_true rfl)
  rwa [Sample.job_quiet, ← sameSnapshot, ← samePlan, ← sameManifest] at completes

end Small

section Long

/-- The commit that copies the first byte of the line. -/
def longArguments : CommitArguments := { Sample.request.toCommitArguments with batch := longest.batch }

/-- The request to copy the first byte of a line of 256 MiB is accepted and planned. Where nothing disturbs it, its
commit installs the new line and reports that a resource limit is exceeded. -/
theorem longest_commit_exhausted :
    parseRequest longest.read longest.requestContent.compact = .ok longArguments.batch ∧
    (Sample.setting.view longest.world).acquireSnapshot Sample.setting.crates.sha256 (snapshotRequirements longArguments.batch) {} =
      .ok longest.snapshot ∧
    (∃ editPlan, Core.plan Sample.setting.crates.sha256 longArguments.sizes longest.snapshot longArguments.batch {} = .ok editPlan) ∧
    ∃ error later, Fails Calmly (executeCommit Sample.setting ⟨Content.compact, zeroDigest⟩ longArguments longest.world (.ok none))
        longest.world error later ∧
      error.IsResourceLimit ∧ later.files ≠ longest.world.files := by
  obtain ⟨digest, planned⟩ := longest.planned
  have identifier : validateTransactionId Sample.transactionId = .ok () := by decide
  have admits : Admits Sample.setting longArguments longest.world longest.snapshot (longest.editPlan digest)
      (longest.manifest Sample.transactionId digest) := {
    acquired := longest.acquired
    planned := expectedPlan_eq_ok.mpr ⟨planned, fun _ impossible => by cases impossible⟩
    qualified := rfl
    device := rfl
    changed := by rw [longest.changedOutputs_line]; exact List.cons_ne_nil _ _
    built := ⟨Sample.transactionId, List.replicate 7 Sample.transactionId, by decide +kernel, longest.built _ digest _⟩
    encodes := longest.encodes _ digest identifier }
  have fresh : ∀ (path : String) (node : Node) (name : String), longest.world.files path = some (.file node) →
      Sample.setting.newIdentity name ≠ node.identity := longest.identities_new
  exact ⟨longest.parsed, longest.acquired, ⟨_, planned⟩, executeCommit_exhausted fresh ⟨rfl, rfl, rfl⟩ rfl admits
    (longest.not_completes _ digest List.length_replicate) (.ok none)⟩

end Long

end Command

end Srcmv.Cli
