import ClientLoom.Cli.Basic
import ClientLoom.Json.Printer
import ClientLoom.Output.Report

/-!
# Summaries of a run

What a run prints: the configuration and the report, as JSON, as plain lines or in colours.
-/

namespace ClientLoom

/-- The configuration of a run and its report. -/
structure Summary where
  config : String
  report : ExportReport

namespace Summary

/-- The fields of the outcome for a file. -/
def outcomeJson (file : FileOutcome) : Json :=
  .object ([("path", .string file.path), ("status", .string file.status.name)] ++
    (file.diff.map fun diff => ("diff", .string diff)).toList)

/-- The summary as a JSON value. -/
def toJson (summary : Summary) : Json :=
  .object [
    ("config", .string summary.config),
    ("changed", .ofNat summary.report.changedCount),
    ("root", .string summary.report.root),
    ("dry_run", .bool summary.report.dryRun),
    ("files", .array (summary.report.files.map outcomeJson))]

/-- The last line. -/
def footer (report : ExportReport) : String :=
  let count := toString report.changedCount
  if report.dryRun then "Would change " ++ count ++ " files."
  else "API build finished. Changed " ++ count ++ " files."

/-- Plain lines: every file that is not unchanged, then the diffs. -/
def plain (report : ExportReport) : String :=
  let listed := report.files.filter fun file => file.status ≠ .unchanged
  let lines := listed.map fun file => file.status.name ++ "\t" ++ file.path ++ "\n"
  String.join lines ++ String.join (report.files.filterMap FileOutcome.diff) ++ footer report

/-- Repeats a style behind every end of a style within a text. -/
def restyle (style : List Char) : List Char → List Char
  | '\x1b' :: '[' :: '0' :: 'm' :: rest =>
    ['\x1b', '[', '0', 'm'] ++ style ++ restyle style rest
  | c :: rest => c :: restyle style rest
  | [] => []

/-- A text in a style, if colours are wanted. -/
def paint (colored : Bool) (codes text : String) : String :=
  if colored then
    let style := "\x1b[" ++ codes ++ "m"
    style ++ String.ofList (restyle style.toList text.toList) ++ "\x1b[0m"
  else text

/-- The style of a status. -/
def statusCodes : FileStatus → String
  | .created => "1;32"
  | .updated => "1;33"
  | .unchanged => "2"
  | .ignored => "34"

/-- The name of a status in a column of nine characters. -/
def label (colored : Bool) (status : FileStatus) : String :=
  paint colored (statusCodes status) (String.ofList (status.name.toList.rightpad 9 ' '))

/-- The lines of a text without their ends. -/
def linesWithin : List Char → List (List Char)
  | [] => []
  | '\r' :: '\n' :: rest => [] :: linesWithin rest
  | c :: rest =>
    if c = '\n' then [] :: linesWithin rest
    else
      match linesWithin rest with
      | [] => [[c]]
      | line :: others => (c :: line) :: others

/-- A line of a diff in its style. -/
def diffLine (colored : Bool) (line : List Char) : String :=
  let text := String.ofList line
  if "+++".toList.isPrefixOf line || "---".toList.isPrefixOf line then paint colored "1" text
  else if "+".toList.isPrefixOf line then paint colored "32" text
  else if "-".toList.isPrefixOf line then paint colored "31" text
  else if "@@".toList.isPrefixOf line then paint colored "36" text
  else text

/-- A diff with an empty line in front. -/
def diffBlock (colored : Bool) (diff : String) : String :=
  "\n" ++ String.join ((linesWithin diff.toList).map fun line => diffLine colored line ++ "\n")

/-- A summary for people. -/
def pretty (colored : Bool) (summary : Summary) : String :=
  let report := summary.report
  let files := report.files.map fun file =>
    "  " ++ label colored file.status ++ " " ++ file.path ++ "\n"
  let diffs := (report.files.filterMap FileOutcome.diff).map (diffBlock colored)
  paint colored "1" "Config:" ++ " " ++ summary.config ++ "\n" ++
    paint colored "1" "Output:" ++ " " ++ report.root ++ "\n" ++
    String.join files ++ String.join diffs ++ "\n" ++
    paint colored (if report.changedCount = 0 then "2" else "1") (footer report)

/-- The text of a summary in a format. -/
def render (summary : Summary) (format : OutputFormat) (colored : Bool) : String :=
  match format with
  | .json => summary.toJson.indented 0
  | .text => plain summary.report
  | .pretty => pretty colored summary

end Summary

end ClientLoom
