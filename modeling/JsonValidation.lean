import JsonValidation.Value.Reader
import JsonValidation.Schema.Inspect
import JsonValidation.Failure.Collect
import JsonValidation.Proofs.Acceptance
import JsonValidation.Proofs.Culprits
import JsonValidation.Proofs.Narrowing
import JsonValidation.Proofs.Reading
import JsonValidation.Proofs.Steps
import JsonValidation.Proofs.FirstFailure
import JsonValidation.Proofs.Erasure
import JsonValidation.Proofs.Forms
import JsonValidation.Proofs.EqualInputs
import JsonValidation.Proofs.Flattening
import JsonValidation.Proofs.Decoding
import JsonValidation.Proofs.Work
import JsonValidation.Proofs.Doubles
import JsonValidation.Proofs.NumberLiterals
import JsonValidation.Proofs.Leaves
import JsonValidation.Proofs.Navigation
import JsonValidation.Proofs.Tuples
import JsonValidation.Proofs.Fragments
import JsonValidation.Proofs.Declarations
import JsonValidation.Proofs.LocationTexts
import JsonValidation.Proofs.Collecting
import JsonValidation.Proofs.OneLine
import JsonValidation.Proofs.ReportLines
