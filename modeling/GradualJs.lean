import GradualJs.Main
import GradualJs.Proofs.Calling
import GradualJs.Proofs.Declarations.DeclaredParts
import GradualJs.Proofs.Declarations.Typedefs
import GradualJs.Proofs.Deferred.Replay
import GradualJs.Proofs.Flow.Balance
import GradualJs.Proofs.Flow.CallTarget
import GradualJs.Proofs.Flow.Conditions
import GradualJs.Proofs.Flow.DeadCode
import GradualJs.Proofs.Flow.Handlers
import GradualJs.Proofs.Flow.Muted
import GradualJs.Proofs.Flow.Operands
import GradualJs.Proofs.Lattice.Exclusion
import GradualJs.Proofs.Lattice.Explanation
import GradualJs.Proofs.Lattice.LeastBound
import GradualJs.Proofs.Lattice.Order
import GradualJs.Proofs.Lattice.WellFormed
import GradualJs.Proofs.Naming.Namespaces
import GradualJs.Proofs.Registry.Hiding
import GradualJs.Proofs.Suppression.Selection
import GradualJs.Proofs.Syntax.RoundTrip
import GradualJs.Registry.OfJson
import GradualJs.Registry.ToJson
import GradualJs.Syntax.Sketch
