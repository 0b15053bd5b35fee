import Mathlib.Data.Int.Notation
import SwapiService.Lib.TaskPool

/-!
# The data that crosses service boundaries

The DTOs of `lib/common/dto`, the payloads of the events, and the choices the
world makes at an `await`.

A result is whatever JSON the downstream service returned; the services only ever
pass it on and ask whether it is truthy.  What the packages between two services make
of it is not decided here: see `Settings.transform`.  An absent `result` and a `null`
one are not told apart: no service does, and PostgreSQL stores both as `NULL`.

## Main definitions

* `Double`, `Json`, `Json.truthy` — numbers, JSON values and their truth value.
* `Uuid`, `SubqueryDto`, `QueryDto` — identifiers and DTOs.
* `SubqueryPayload`, `SubqueryPayload.validate` — what is published as a
  `SCHEDULE_FETCH` event, and `RpcDtoValidationPipe` on it.
* `Choice` — what happens to an awaited call.
-/

namespace SwapiService

/-! ### JSON -/

/-- A number of JavaScript, a double, by its 64 bits.  `JSON.parse` rounds the
literal it finds, to zero if it is too small and to an infinity if it is too large. -/
abbrev Double := BitVec 64

/-- The bits of an infinity without its sign.  Above them there is only `NaN`. -/
def Double.infinity : ℕ := 0x7ff0000000000000

/-- A number is truthy, unless it is a zero, of either sign, or `NaN`. -/
def Double.truthy (x : Double) : Bool :=
  let magnitude := x.toNat % 0x8000000000000000
  0 < magnitude && magnitude ≤ infinity

/-- A JSON value as `JSON.parse` makes it.  An object or an array is kept as its text,
since no service looks inside. -/
inductive Json
  | null
  | bool (b : Bool)
  | num (x : Double)
  | str (text : String)
  | structured (text : String)
  deriving DecidableEq, Repr

/-- The truth value of a JSON value in JavaScript. -/
def Json.truthy : Json → Bool
  | .null => false
  | .bool b => b
  | .num x => x.truthy
  | .str text => text != ""
  | .structured _ => true

-- `1e-400` is parsed to zero and `1e400` to infinity.
example : (Json.num 0).truthy = false ∧ (Json.num 0x7ff0000000000000).truthy = true := by decide

/-- The expression `r || null`. -/
def Json.orNull (r : Json) : Json := if r.truthy then r else .null

theorem Json.ne_null_of_truthy {r : Json} (h : r.truthy = true) : r ≠ .null := by
  rintro rfl
  exact absurd h (by decide)

theorem Json.truthy_orNull (r : Json) : r.orNull.truthy = r.truthy := by
  unfold orNull
  split_ifs with h
  · rfl
  · rw [Bool.not_eq_true] at h
    rw [h, truthy]

/-- `r || null` is truthy or `null`. -/
theorem Json.orNull_eq_null_of_not_truthy {r : Json} (h : ¬ r.orNull.truthy = true) :
    r.orNull = .null := by
  unfold orNull at h ⊢
  split_ifs with hr
  · rw [if_pos hr] at h
    exact absurd hr h
  · rfl

/-- A non-`null` value of `r || null` is `r` itself. -/
theorem Json.orNull_eq_self {r : Json} (h : r.orNull ≠ .null) : r.orNull = r := by
  unfold orNull at h ⊢
  split_ifs with hr
  · rfl
  · rw [if_neg hr] at h
    exact absurd rfl h

/-! ### Identifiers and DTOs -/

/-- A version 4 UUID. -/
structure Uuid where
  val : ℕ
  deriving DecidableEq, Repr

/-- The `id` of a response: a UUID, the empty string of a response that was not
recorded, or the sentinel of a query that was not found. -/
inductive ResponseId
  | uuid (id : Uuid)
  | blank
  | NOT_FOUND
  deriving DecidableEq, Repr

/-- The status of a query. -/
inductive Status
  | PENDING
  | COMPLETED
  deriving DecidableEq, Repr

/-- `SubqueryDto`. -/
structure SubqueryDto where
  id : Uuid
  path : String
  queryId : Uuid
  result : Json := .null
  deriving DecidableEq, Repr

/-- `QueryDto`, of which `CreateQueryResponseDto` picks every field. -/
structure QueryDto where
  id : ResponseId
  subqueries : List SubqueryDto
  callbackUrl : Option String
  status : Status
  deriving DecidableEq, Repr

/-- `CreateQueryResponseDto`. -/
abbrev CreateQueryResponseDto := QueryDto

/-- `CreateQueryRequestDto`. -/
structure CreateQueryRequestDto where
  subqueries : List String
  callbackUrl : Option String
  deriving DecidableEq, Repr

/-- What `fetchQueryRequestResultsFromDataSource` publishes as a `SCHEDULE_FETCH`
event.  A field that is `undefined` is missing from the message. -/
structure SubqueryPayload where
  id : Option Uuid
  path : Option String
  queryId : Uuid
  deriving DecidableEq, Repr

/-- `RpcDtoValidationPipe` for a `SubqueryDto`: a payload without an `id` that is
a UUID or without a `path` that is a string never reaches the handler. -/
def SubqueryPayload.validate (p : SubqueryPayload) : Option SubqueryDto :=
  match p.id, p.path with
  | some id, some path => some { id, path, queryId := p.queryId }
  | _, _ => none

theorem SubqueryPayload.id_of_validate (p : SubqueryPayload) {dto : SubqueryDto}
    (h : p.validate = some dto) : p.id = some dto.id := by
  obtain ⟨_ | id, _ | path, queryId⟩ := p
  · cases h
  · cases h
  · cases h
  · obtain rfl := Option.some.inj h
    rfl

/-! ### Choices -/

/-- What the world makes of the call an activation awaits: it succeeds; it fails,
and its promise is rejected; the parallel `CACHE_READ` at position `j` is answered;
the downstream service answers with the body `data`; or the call succeeds and the
`uuidv4()` after it returns `id`. -/
inductive Choice
  | proceed
  | fail
  | read (j : ℕ)
  | body (data : Json)
  | draw (id : Uuid)
  deriving DecidableEq, Repr

end SwapiService
