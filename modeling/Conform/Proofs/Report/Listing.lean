import Conform.Proofs.Validator.Limit
import Conform.Report.Basic

/-!
What reports say, and how their text lists them: by headings, entries, and the two lines at the end,
of which only headings start with `PASS` or `FAIL`. A text is taken apart at its line breaks, so it
gives these back only if none of them holds a break.
-/

namespace Conform

namespace Report

variable {files : Files} {validator : Validator} {limit : Nat} {path : Path}

def heading (report : Report) : String :=
  match report.limitCount? with
  | some count =>
    s!"FAIL: {report.document} (circular dependency limit reached after {count} " ++
      "repeated object entries)"
  | none =>
    if report.isValid then s!"PASS: {report.document}"
    else s!"FAIL: {report.document} ({report.mismatches.length} error(s))"

def lines (report : Report) : List String := report.heading :: report.mismatches.map Mismatch.line

def startsWith (start line : String) : Bool := start.toList.isPrefixOf line.toList

variable {report : Report} {reports : List Report}

example : listText [⟨⟨"a.json"⟩, true, [], none⟩, ⟨⟨"b.json"⟩, false, [], some 3⟩,
    ⟨⟨"c.json"⟩, false, [.saying rootPath .array " is not an array."], none⟩] =
      "PASS: a.json\n" ++
      "FAIL: b.json (circular dependency limit reached after 3 repeated object entries)\n" ++
      "FAIL: c.json (1 error(s))\n  [ArrayMismatch] Base is not an array.\n\n" ++
      "1/3 document(s) valid\n" := by
  rfl

end Report
end Conform
