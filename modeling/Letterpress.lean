import Letterpress.Engine
import Letterpress.Proofs.Interpretation
import Letterpress.Proofs.Recency
import Letterpress.Proofs.Reading
import Letterpress.Proofs.Printing
import Letterpress.Proofs.EngineRun
import Letterpress.Proofs.Coherence
import Letterpress.Proofs.Grammar
import Letterpress.Proofs.Taking
import Letterpress.Proofs.Derivation
import Letterpress.Proofs.Acceptance
import Letterpress.Proofs.Tiling
import Letterpress.Proofs.Inclusion
import Letterpress.Proofs.Schedule
import Letterpress.Proofs.Circle
import Letterpress.Proofs.Agreement
import Letterpress.Proofs.Completion
import Letterpress.Proofs.Decision
import Letterpress.Proofs.Retention
import Letterpress.Proofs.Turns
import Letterpress.Proofs.Notebooks
import Letterpress.Proofs.Concatenation
import Letterpress.Proofs.Keys
import Letterpress.Proofs.Chains
import Letterpress.Proofs.Refusal
import Letterpress.Proofs.Absence
import Letterpress.Proofs.Positions
import Letterpress.Proofs.Excerpts
import Letterpress.Proofs.Reports
import Letterpress.Proofs.Canonical
import Letterpress.Proofs.Precedence
import Letterpress.Proofs.Numerals
import Letterpress.Proofs.Suggestions
import Letterpress.Proofs.Composites
import Letterpress.Proofs.Amounts
import Letterpress.Proofs.Widths
import Letterpress.Proofs.Foregone
import Letterpress.Proofs.Lowercase
import Letterpress.Proofs.Slugs
import Letterpress.Proofs.Integers
import Letterpress.Proofs.Documents
import Letterpress.Proofs.Joining
import Letterpress.Proofs.Guesses
import Letterpress.Proofs.Scanner
import Letterpress.Proofs.Scanning
import Letterpress.Proofs.Landing
