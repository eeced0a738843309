import Cpipe.Proofs.MemoryPlanner
import Mathlib.Order.Bounds.Basic

namespace Cpipe.Proofs.SlotCount
open Cpipe.Runtime Cpipe.Runtime.MemoryPlanner Cpipe.Compute Cpipe.Proofs.MemoryPlanner Library

variable {layout : BufferLayout} {nodes : List DescPtr} {edges : List MemoryGraphEdge}

end Cpipe.Proofs.SlotCount
