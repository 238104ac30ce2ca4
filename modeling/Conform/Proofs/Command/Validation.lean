import Conform.Command.Run
import Conform.Proofs.Files.Tree
import Conform.Proofs.Pointwise
import Conform.Proofs.Registry.History
import Conform.Proofs.Report.Listing
import Conform.Proofs.Validator.Compilation
import Mathlib

/-!
What comes of validating documents: a fault, or a report on each of them. The fault is the first in
the order in which the schemas are loaded, the id is looked up and the documents are read.
-/

namespace Conform

namespace Run

variable {α β : Type}

end Run

namespace Report

variable {files : Files} {validator : Validator} {limit : Nat} {path : Path}

end Report

namespace Task

open Registry (latest? registeredBelow)

variable {files : Files} {directory : Path} {schema : String} {limit : Nat} {documents : List Path}

end Task

end Conform
