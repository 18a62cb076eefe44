import Patterns.Balanced
import Patterns.Describe
import Patterns.Operations.Chain
import Patterns.Operations.Split
import Patterns.Proofs.Concatenation
import Patterns.Proofs.Expansion
import Patterns.Proofs.LiteralParts
import Patterns.Proofs.Progress
import Patterns.Proofs.Removal
import Patterns.Proofs.Translation
import Patterns.Recipe
import Patterns.Proofs.Requests
import Patterns.Proofs.Caching
import Patterns.Proofs.Recompilation
import Patterns.Proofs.Copying
import Patterns.Proofs.Reentrance
import Patterns.Proofs.Atomicity
import Patterns.Proofs.Brackets
import Patterns.Proofs.Delimiters
import Patterns.Proofs.Searches
import Patterns.Proofs.Iteration
import Patterns.Proofs.Splitting
import Patterns.Proofs.Turns
import Patterns.Proofs.Segments
import Patterns.Proofs.Escapes
import Patterns.Proofs.Coverage
import Patterns.Proofs.Tally
import Patterns.Proofs.Captures
import Patterns.Proofs.Settled
import Patterns.Proofs.Modes
import Patterns.Proofs.NormalForm
import Patterns.Proofs.Insertion
import Patterns.Proofs.Literals
import Patterns.Proofs.GatedTokens
import Patterns.Proofs.Uses
import Patterns.Proofs.Cursors
import Patterns.Proofs.ClassSets
import Patterns.Proofs.Classes
import Patterns.Proofs.ClassTexts
import Patterns.Proofs.Pieces
import Patterns.Proofs.Resumption
import Patterns.Proofs.Skipping
import Patterns.Proofs.CharDelimiters
import Patterns.Proofs.Joining
import Patterns.Proofs.LiteralReading
import Patterns.Proofs.Occurrences
import Patterns.Proofs.Stickiness
import Patterns.Proofs.Templates
import Patterns.Proofs.Quoting
import Patterns.Proofs.Failures
import Patterns.Proofs.Stepping
import Patterns.Proofs.Chains
import Patterns.Proofs.Traces
import Patterns.Proofs.Ledgers
