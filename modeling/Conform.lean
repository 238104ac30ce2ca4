import Conform.Files.Tree
import Conform.Main
import Conform.Proofs.Validator.Acceptance
import Conform.Proofs.Validator.Termination
import Conform.Schema.Graph
import Conform.Validator.Decoding
import Conform.Proofs.Validator.Numbering
import Conform.Proofs.Validator.Composition
import Conform.Proofs.Validator.Location
import Conform.Proofs.Registry.History
import Conform.Proofs.Schema.Renaming
import Conform.Proofs.Validator.Renaming
import Conform.Proofs.Validator.Evolution
import Conform.Proofs.Json.Reordering
import Conform.Proofs.Schema.Reordering
import Conform.Proofs.Validator.Reordering
import Conform.Proofs.Validator.Merging
import Conform.Proofs.Validator.Flattening
import Conform.Proofs.Validator.Runs
import Conform.Proofs.Decoding.Fields
import Conform.Proofs.Schema.RoundTrip
import Conform.Proofs.Yaml.Conversion
import Conform.Proofs.Schema.Elision
import Conform.Proofs.Validator.Nesting
import Conform.Proofs.Schema.Construction
import Conform.Proofs.Files.Path
import Conform.Proofs.Files.Relisting
import Conform.Proofs.Registry.Directory
import Conform.Proofs.Numeric.Rounding
import Conform.Proofs.Schema.Comparison
import Conform.Proofs.Schema.KeyOrder
import Conform.Proofs.Validator.KnownKeys
import Conform.Proofs.Report.Listing
import Conform.Proofs.Command.Validation
