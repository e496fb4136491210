import Srcmv.Model.Lsp.Bodies
import Srcmv.Model.Protocol.Request

/-! # Raw depth checks measure nesting

Both checks run the scan of `JsonText` and differ in their error only. Hence each accepts a document
exactly when its arrays and objects are nested no deeper than the limit.
-/

namespace Srcmv

open Srcmv.Core JsonText

variable {limit : ℕ}

namespace Lsp

theorem nestBody_counts (limit : ℕ) : Counts (nestBody limit) limit usizeMax := by
  intro depth within
  have exact_ : min (depth + 1) usizeMax = depth + 1 := Nat.min_eq_left within
  rw [nestBody, exact_]
  exact ⟨fun fits => if_neg (not_lt.mpr fits), fun beyond => ⟨_, if_pos beyond⟩⟩

theorem validateRawJsonDepth_eq_ok {body : Bytes} :
    validateRawJsonDepth body limit = .ok () ↔ ∃ final, body.foldlM (Scan.visit (nestBody limit)) {} = .ok final := by
  rw [validateRawJsonDepth]
  constructor
  · intro accepted
    obtain ⟨final, scanned, -⟩ := Except.bind_eq_ok.mp accepted
    exact ⟨final, scanned⟩
  · rintro ⟨final, scanned⟩
    rw [scanned]
    rfl

end Lsp

namespace Protocol

/-- One more level of a request. -/
def nestRequest (limit depth : ℕ) : Except ProtocolError ℕ := do
  enforceLimit "json_depth" (min (depth + 1) u64Max) limit
  return min (depth + 1) u64Max

theorem nestRequest_counts (limit : ℕ) : Counts (nestRequest limit) limit u64Max := by
  intro depth within
  have exact_ : min (depth + 1) u64Max = depth + 1 := Nat.min_eq_left within
  rw [nestRequest, exact_, enforceLimit]
  constructor
  · intro fits
    rw [if_pos fits]
    rfl
  · intro beyond
    rw [if_neg (not_le.mpr beyond)]
    exact ⟨_, rfl⟩

def DepthScan.toScan (scan : DepthScan) : Scan := ⟨scan.depth, scan.inString, scan.escaped⟩

theorem DepthScan.visit_toScan (scan : DepthScan) (byte : UInt8) :
    (scan.visit limit byte).map toScan = Scan.visit (nestRequest limit) scan.toScan byte := by
  rcases scan with ⟨depth, inString, escaped⟩
  have deeper : (do
      enforceLimit "json_depth" (min (depth + 1) u64Max) limit
      return (⟨min (depth + 1) u64Max, inString, escaped⟩ : DepthScan)).map toScan =
      (nestRequest limit depth >>= fun depth => .ok ⟨depth, inString, escaped⟩) := by
    rw [nestRequest]
    cases enforceLimit "json_depth" (min (depth + 1) u64Max) limit <;> rfl
  cases inString with
  | true =>
    cases escaped with
    | true => rfl
    | false =>
      simp only [visit, Scan.visit, toScan, if_true, Bool.false_eq_true, if_false]
      split_ifs <;> rfl
  | false =>
    simp only [visit, Scan.visit, toScan, Bool.false_eq_true, if_false]
    split_ifs
    · rfl
    · exact deeper
    · rfl
    · rfl

/-- The scan of a request is the scan of its nesting. -/
theorem foldlM_visit (input : Bytes) (scan : DepthScan) :
    (input.foldlM (DepthScan.visit limit) scan).map DepthScan.toScan = input.foldlM (Scan.visit (nestRequest limit)) scan.toScan := by
  induction input generalizing scan with
  | nil => rfl
  | cons byte input ih =>
    rw [List.foldlM_cons, List.foldlM_cons, ← DepthScan.visit_toScan]
    cases scan.visit limit byte with
    | error failure => rfl
    | ok next => exact ih next

theorem enforceJsonDepth_eq_ok {input : Bytes} :
    enforceJsonDepth input limit = .ok () ↔ ∃ final, input.foldlM (Scan.visit (nestRequest limit)) {} = .ok final := by
  have mapped := @foldlM_visit limit input {}
  rw [enforceJsonDepth]
  constructor
  · intro accepted
    obtain ⟨final, scanned, -⟩ := Except.bind_eq_ok.mp accepted
    rw [scanned] at mapped
    exact ⟨final.toScan, mapped.symm⟩
  · rintro ⟨final, scanned⟩
    cases kept : input.foldlM (DepthScan.visit limit) {} with
    | error failure =>
      rw [kept] at mapped
      cases mapped.trans scanned
    | ok _ => rfl

end Protocol

/-- The length of a slice fits into its machine word, hence so does every depth. -/
theorem raw_depth_is_nesting {value : JsonValue} {text : Bytes} (document : Document value text) (slice : text.length ≤ Lsp.usizeMax)
    (limit : ℕ) : (Lsp.validateRawJsonDepth text limit = .ok () ↔ value.nesting ≤ limit) ∧
      (Protocol.enforceJsonDepth text limit = .ok () ↔ value.nesting ≤ limit) := by
  refine ⟨Lsp.validateRawJsonDepth_eq_ok.trans ?_, Protocol.enforceJsonDepth_eq_ok.trans ?_⟩
  · exact document.scan (Lsp.nestBody_counts limit) slice
  · exact document.scan (Protocol.nestRequest_counts limit) slice

/-- The text `["\"[", []]`, whose first bracket inside a string does not count. -/
theorem bracketsInString : Document (.array [.string [34, 91], .array []]) [91, 34, 92, 34, 91, 34, 44, 32, 91, 93, 93] := by
  have units : Units [34, 91] [92, 34, 91] :=
    .short (by decide) (.literal (show '[' ≠ '"' by decide) (by decide) (by decide) .nil)
  have first : Denotes (.value (.string [34, 91])) [34, 92, 34, 91, 34] := .string ⟨_, units, rfl⟩
  have none_ : Blank [] := fun _ member => absurd member List.not_mem_nil
  have space : Blank [32] := by
    intro byte member
    exact List.mem_singleton.mp member ▸ List.mem_cons_self
  have second : Denotes (.items [.array []]) [32, 91, 93] := .lastItem space (.array (.noItems none_)) none_
  exact ⟨[], _, [], none_, .array (.nextItem none_ first none_ second), none_, rfl⟩

theorem raw_depth_is_nesting_example :
    Lsp.validateRawJsonDepth [91, 34, 92, 34, 91, 34, 44, 32, 91, 93, 93] 2 = .ok () ∧
      ¬Protocol.enforceJsonDepth [91, 34, 92, 34, 91, 34, 44, 32, 91, 93, 93] 1 = .ok () := by
  have slice : List.length ([91, 34, 92, 34, 91, 34, 44, 32, 91, 93, 93] : Bytes) ≤ Lsp.usizeMax := by decide
  constructor
  · exact (raw_depth_is_nesting bracketsInString slice 2).1.mpr (by decide)
  · intro accepted
    exact absurd ((raw_depth_is_nesting bracketsInString slice 1).2.mp accepted) (by decide)

end Srcmv
