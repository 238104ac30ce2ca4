import Conform.Files.Basic
import Conform.Schema.Document
import Conform.Schema.Id
import Conform.Validator.Assertion
import Conform.Validator.Fault
import Conform.Yaml.Conversion

namespace Conform

inductive SchemaDefect where
  | notADirectory
  | unreadableDirectory (fault : FileFault)
  | noFileName
  | unknownSuffix (known : List String)
  | id (fault : SchemaFault)
  | malformed (format : Format)

def SchemaDefect.message : SchemaDefect → String
  | .notADirectory => "not a directory"
  | .unreadableDirectory fault => s!"cannot read schema directory: {fault.message}"
  | .noFileName => "file name is not valid UTF-8"
  | .unknownSuffix known =>
    "expected one of [" ++ ", ".intercalate (known.map Text.quoted) ++ "]"
  | .id fault => fault.message
  | .malformed format => s!"invalid {format.label}"

inductive DocumentDefect where
  | unreadable (fault : FileFault)
  | malformed (format : Format)
  | noJson (fault : ConversionFault)

def DocumentDefect.message : DocumentDefect → String
  | .unreadable fault => fault.message
  | .malformed format => s!"invalid {format.label}"
  | .noJson fault => fault.message

inductive RegistryFault where
  | missingSchema (id : String)
  | missingValidator (id : String)
  | build (id : SchemaId) (fault : BuildFault)
  | schemaLoad (path : Path) (defect : SchemaDefect)
  | documentLoad (path : Path) (defect : DocumentDefect)
  | circularLimit (reached : LimitReached)
  | assertion (fault : AssertFault)
  | file (fault : FileFault)

namespace RegistryFault

def message : RegistryFault → String
  | .missingSchema id => s!"missing schema: '{id}'"
  | .missingValidator id => s!"missing validator: '{id}'"
  | .build id fault => s!"failed to compile schema {id}: {fault.message}"
  | .schemaLoad path defect => s!"failed to load schema {path}: {defect.message}"
  | .documentLoad path defect => s!"failed to load document {path}: {defect.message}"
  | .circularLimit reached => reached.message
  | .assertion fault => fault.message
  | .file fault => s!"I/O error: {fault.message}"

def cause? : RegistryFault → Option String
  | .build _ fault => some fault.message
  | .file fault => some fault.message
  | _ => none

end RegistryFault
end Conform
