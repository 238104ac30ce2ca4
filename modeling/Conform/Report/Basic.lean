import Conform.Registry.Document

namespace Conform

structure Report where
  document : Path
  isValid : Bool
  mismatches : List Mismatch
  /-- How often an object was entered again when the limit stopped the validation. -/
  limitCount? : Option Nat

namespace Report

def ofFile (files : Files) (validator : Validator) (limit : Nat) (path : Path) :
    Except RegistryFault Report := do
  let value ← Document.load files path
  match validator.validate value limit with
  | .ok mismatches => return ⟨path, mismatches.isEmpty, mismatches, none⟩
  | .error reached => return ⟨path, false, [], some reached.count⟩

/-- Validates documents in order. The first that cannot be read stops this; its fault comes with the
reports before it. -/
def ofFiles (files : Files) (validator : Validator) (limit : Nat) :
    List Path → List Report × Option RegistryFault
  | [] => ([], none)
  | path :: rest =>
    match ofFile files validator limit path with
    | .error fault => ([], some fault)
    | .ok report =>
      let (reports, fault) := ofFiles files validator limit rest
      (report :: reports, fault)

def text (report : Report) : String :=
  match report.limitCount? with
  | some count =>
    s!"FAIL: {report.document} (circular dependency limit reached after {count} " ++
      "repeated object entries)\n"
  | none =>
    if report.isValid then s!"PASS: {report.document}\n"
    else
      s!"FAIL: {report.document} ({report.mismatches.length} error(s))\n" ++
        String.join (report.mismatches.map fun mismatch => mismatch.line ++ "\n")

def listText (reports : List Report) : String :=
  let valid := reports.countP (·.isValid)
  String.join (reports.map text) ++ s!"\n{valid}/{reports.length} document(s) valid\n"

def toJson (report : Report) : Json :=
  .object <|
    [("document", .string report.document.text), ("valid", .bool report.isValid),
      ("errors", .array (report.mismatches.map Mismatch.toJson))] ++
    (report.limitCount?.map fun count => ("circular_limit_reached", Json.ofInt count)).toList

def listJson (reports : List Report) : Json := .array (reports.map toJson)

end Report
end Conform
