import AdaptiveArith.Adaptive
import AdaptiveArith.Environment.Overloads
import AdaptiveArith.Failure.Report
import AdaptiveArith.Tree.Position
import AdaptiveArith.Wire.Code
import AdaptiveArith.Proofs.Evaluation
import AdaptiveArith.Proofs.Lowering
import AdaptiveArith.Proofs.Machine
import AdaptiveArith.Proofs.StackTyping
import AdaptiveArith.Proofs.Adaptive
import AdaptiveArith.Proofs.Agreement
import AdaptiveArith.Proofs.Session
import AdaptiveArith.Proofs.Leaves
import AdaptiveArith.Proofs.Filling
import AdaptiveArith.Proofs.History
import AdaptiveArith.Proofs.Postorder
import AdaptiveArith.Proofs.Attempts
import AdaptiveArith.Proofs.Interpretations
import AdaptiveArith.Proofs.Homogeneous
import AdaptiveArith.Proofs.Convergence
import AdaptiveArith.Proofs.Indexed
import AdaptiveArith.Proofs.Readers
import AdaptiveArith.Proofs.RoundTrip
import AdaptiveArith.Proofs.Depth
import AdaptiveArith.Proofs.Untrusted
import AdaptiveArith.Proofs.Rounding
import AdaptiveArith.Proofs.Division
import AdaptiveArith.Proofs.Numeric
import AdaptiveArith.Proofs.Repetition
import AdaptiveArith.Proofs.StackSize
import AdaptiveArith.Proofs.Nesting
import AdaptiveArith.Proofs.TextLimit
import AdaptiveArith.Proofs.Exact
import AdaptiveArith.Proofs.ShortestDigits
import AdaptiveArith.Proofs.DecimalTier
import AdaptiveArith.Proofs.Containment
import AdaptiveArith.Proofs.Fallible
import AdaptiveArith.Proofs.Ladder
import AdaptiveArith.Proofs.DecimalText
import AdaptiveArith.Proofs.FloatText
import AdaptiveArith.Proofs.Words
import AdaptiveArith.Proofs.Modulo
import AdaptiveArith.Proofs.Room
import AdaptiveArith.Proofs.Refusal
import AdaptiveArith.Proofs.Bookkeeping
import AdaptiveArith.Proofs.SameNumber
import AdaptiveArith.Proofs.Identity
