import Stencil.Render.Bound
import Stencil.Proofs.Frame
import Stencil.Proofs.Limit
import Stencil.Proofs.Simulation
import Stencil.Proofs.Inlining
import Stencil.Proofs.Termination
import Stencil.Proofs.Delegation
import Stencil.Proofs.Lifetime
import Stencil.Proofs.Lineage
import Stencil.Proofs.Names
import Stencil.Proofs.Parallel
import Stencil.Proofs.Visibility
import Stencil.Proofs.Detour
import Stencil.Proofs.Unreferenced
import Stencil.Proofs.Translation
import Stencil.Proofs.Splicing
import Stencil.Proofs.LazyRanges
import Stencil.Proofs.Stranded
import Stencil.Proofs.Filtering
import Stencil.Proofs.Unrolling
import Stencil.Proofs.Passes
import Stencil.Proofs.Enclosing
import Stencil.Proofs.Operands
import Stencil.Proofs.Defined
import Stencil.Proofs.Residues
import Stencil.Proofs.Ordering
import Stencil.Proofs.Equivalence
import Stencil.Proofs.Progression
import Stencil.Proofs.OpenScopes
import Stencil.Proofs.Conditions
import Stencil.Proofs.Entries
