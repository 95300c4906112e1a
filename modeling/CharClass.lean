import CharClass.Spec.Trace
import CharClass.Token
import CharClass.Json.Parse
import CharClass.Script
import CharClass.Proofs.Boolean
import CharClass.Proofs.Grammar
import CharClass.Proofs.Guarded
import CharClass.Proofs.Json.RoundTrip
import CharClass.Proofs.LastChange
import CharClass.Proofs.Matching
import CharClass.Proofs.Refusal
import CharClass.Proofs.WholeList
import CharClass.Proofs.Overlap
import CharClass.Proofs.Segmentation
import CharClass.Proofs.Written
import CharClass.Proofs.Composition
import CharClass.Proofs.Logged
import CharClass.Proofs.Gaps
import CharClass.Proofs.Size
import CharClass.Proofs.Fragmentation
import CharClass.Proofs.Characters
import CharClass.Proofs.Display
import CharClass.Proofs.Json.FirstRefused
import CharClass.Proofs.Merging
import CharClass.Proofs.Unchanged
import CharClass.Proofs.PlainText
import CharClass.Proofs.Reread
