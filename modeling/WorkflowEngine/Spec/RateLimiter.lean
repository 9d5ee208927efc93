import Mathlib.Data.Rat.Defs
import Mathlib.Algebra.Order.Ring.Unbundled.Rat
import Mathlib.Logic.Function.Basic

/-! The in-memory rate limiter (`middleware/rate_limiter.py`). A request is handled up to
`call_next` without a pause. Times are exact. -/

namespace WorkflowEngine

structure RateLimitSettings where
  rateLimitEnabled : Bool := false
  rateLimitRequests : ℤ := 100
  rateLimitWindowSeconds : ℤ := 60

/-- What the limiter reads of a request: the id of `request.state.user`, the client and the path. -/
structure LimitedRequest where
  user : Option String
  clientHost : Option String
  path : String
  deriving DecidableEq

/-- A request that comes in while `time.time()` is `now`. -/
structure TimedRequest where
  request : LimitedRequest
  now : ℚ
  deriving DecidableEq

inductive RateVerdict where
  | callNext
  | rateLimited (retryAfter : ℤ)
  deriving DecidableEq

/-- `_requests`, where a key that is not there has no times. -/
abbrev RateWindows := String → List ℚ

namespace RateLimiterMiddleware

def getKey (request : LimitedRequest) : String :=
  match request.user with
  | some userId => "user:" ++ userId
  | none => "ip:" ++ request.clientHost.getD "unknown"

variable (settings : RateLimitSettings)

def unexpired (now : ℚ) (times : List ℚ) : List ℚ :=
  times.filter fun ts => now - ts < settings.rateLimitWindowSeconds

def dispatch (requests : RateWindows) (a : TimedRequest) : RateVerdict × RateWindows :=
  if !settings.rateLimitEnabled then (.callNext, requests)
  else if a.request.path = "/health" then (.callNext, requests)
  else
    let key := getKey a.request
    let kept := unexpired settings a.now (requests key)
    if settings.rateLimitRequests ≤ kept.length then
      (.rateLimited settings.rateLimitWindowSeconds, Function.update requests key kept)
    else (.callNext, Function.update requests key (kept ++ [a.now]))

/-- What a sequence of requests leaves behind. -/
def windowsAfter (arrivals : List TimedRequest) : RateWindows :=
  arrivals.foldl (fun requests a => (dispatch settings requests a).2) fun _ => []

/-- The requests with what became of them, from the state on. -/
def dispatchFrom (requests : RateWindows) : List TimedRequest → List (TimedRequest × RateVerdict)
  | [] => []
  | a :: rest => (a, (dispatch settings requests a).1) ::
      dispatchFrom (dispatch settings requests a).2 rest

def dispatchAll (arrivals : List TimedRequest) : List (TimedRequest × RateVerdict) :=
  dispatchFrom settings (fun _ => []) arrivals

/-- The times at which requests of a key were let through. -/
def admitted (key : String) (history : List (TimedRequest × RateVerdict)) : List ℚ :=
  (history.filter fun x => getKey x.1.request = key ∧ x.2 = .callNext).map fun x => x.1.now

end RateLimiterMiddleware

end WorkflowEngine
