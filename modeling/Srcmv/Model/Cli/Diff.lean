import Srcmv.Model.Cli.Preview
import Srcmv.Model.Protocol.Terminal

/-! # The bounded diff

A writer collects the text of a diff within a budget of work and of output, where the output is
measured both as it is and as it will stand in a JSON string. What does not fit is left out, and
nothing is written after it.
-/

namespace Srcmv.Cli

open Srcmv.Core Srcmv.Fs Srcmv.Protocol

def diffWorkUnits : ℕ := 10000000
def diffOutputBytes : ℕ := 4 * 1024 * 1024

/-- `saturating_add`. -/
def saturatingAdd (left right : ℕ) : ℕ := min (left + right) u64Max

inductive DiffTruncation where
  | work
  | output
deriving DecidableEq

structure DiffWriter where
  text : List Char := []
  encodedBytes : ℕ := 0
  workUnits : ℕ := 0
  maximumOutputBytes : ℕ := diffOutputBytes
  truncation : Option DiffTruncation := none
deriving DecidableEq

/-- The bytes of one byte in a JSON string. -/
def jsonByteBytes (byte : UInt8) : ℕ :=
  if byte ∈ [34, 92, 10, 13, 9, 8, 12] then 2
  else if byte ≤ 0x1f then 6
  else 1

def jsonStringContentBytes (value : List Char) : ℕ := ((Utf8.encode value).map jsonByteBytes).sum

namespace DiffWriter

def withMaximumOutputBytes (maximumOutputBytes : ℕ) : DiffWriter where
  maximumOutputBytes

def charge (writer : DiffWriter) (units : ℕ) : DiffWriter :=
  let workUnits := saturatingAdd writer.workUnits units
  { writer with
    workUnits
    truncation := if diffWorkUnits < workUnits ∧ writer.truncation = none then some .work else writer.truncation }

/-- Append a text unless the writer is truncated or it does not fit; then the writer is truncated. -/
def push (writer : DiffWriter) (value : List Char) : Bool × DiffWriter :=
  let charged := writer.charge (Utf8.size value)
  let encodedBytes := jsonStringContentBytes value
  if charged.truncation.isSome ∨ saturatingAdd (Utf8.size charged.text) (Utf8.size value) > charged.maximumOutputBytes ∨
      saturatingAdd charged.encodedBytes encodedBytes > charged.maximumOutputBytes then
    (false, { charged with truncation := some (charged.truncation.getD .output) })
  else (true, { charged with text := charged.text ++ value, encodedBytes := charged.encodedBytes + encodedBytes })

/-- Append texts up to the first that does not fit. -/
def pushAll (writer : DiffWriter) : List (List Char) → Bool × DiffWriter
  | [] => (true, writer)
  | value :: rest =>
      match writer.push value with
      | (true, pushed) => pushed.pushAll rest
      | (false, pushed) => (false, pushed)

/-! ## A hunk -/

/-- How many lines agree from the beginning. -/
def agreeingLines (before after : List TextLine) : ℕ :=
  ((before.zip after).takeWhile fun pair => pair.1.full = pair.2.full).length

/-- The characters of the `str` of a line. -/
def contentText (line : TextLine) : List Char := (Utf8.decode line.content).getD []

def lineText (sign : Char) (line : TextLine) : List Char :=
  sign :: (escapeTerminalText (contentText line) ++ " [".toList ++ line.terminator.toList ++ "]\n".toList)

def beforeHeader (path : String) : List Char := "--- ".toList ++ escapeTerminalText path.toList ++ " (before)\n".toList

def afterHeader (path : String) : List Char := "+++ ".toList ++ escapeTerminalText path.toList ++ " (after)\n".toList

/-- The header of a hunk at a line, with the numbers of removed and of added lines. -/
def hunkHeader (line removed added : ℕ) : List Char :=
  "@@ -".toList ++ Nat.toDigits 10 line ++ ",".toList ++ Nat.toDigits 10 removed ++ " +".toList ++ Nat.toDigits 10 line ++
    ",".toList ++ Nat.toDigits 10 added ++ " @@\n".toList

/-- Write the change of one output; the result tells whether it was written whole. -/
def writeOutput (writer : DiffWriter) (path : String) (before after : Bytes) : Except FsError (Bool × DiffWriter) := do
  let charged := writer.charge (saturatingAdd before.length after.length)
  if charged.truncation.isSome then return (false, charged)
  let beforeLines ← textLines before
  let afterLines ← textLines after
  let front := agreeingLines beforeLines afterLines
  let back := agreeingLines (beforeLines.drop front).reverse (afterLines.drop front).reverse
  let beforeEnd := beforeLines.length - back
  let afterEnd := afterLines.length - back
  return charged.pushAll
    ([beforeHeader path, afterHeader path, hunkHeader (front + 1) (beforeEnd - front) (afterEnd - front)] ++
      ((beforeLines.take beforeEnd).drop front).map (lineText '-') ++
      ((afterLines.take afterEnd).drop front).map (lineText '+'))

end DiffWriter

end Srcmv.Cli
