import Aetheris.Protocol.Types
import Mathlib.Logic.Function.Basic

/-!
# The rate limiter of the auth service

One counter for each kind and identity, reset an hour after it was started.
-/

namespace Aetheris.Auth

/-! ## Answers -/

/-- The gRPC codes the service answers with. -/
inductive Code where
  | invalidArgument
  | deadlineExceeded
  | resourceExhausted
  | internal
  | unauthenticated
deriving DecidableEq, Repr

structure Status where
  code : Code
  message : String
deriving DecidableEq, Repr

namespace Status

def invalidArgument (message : String) : Status := ⟨.invalidArgument, message⟩
def deadlineExceeded (message : String) : Status := ⟨.deadlineExceeded, message⟩
def resourceExhausted (message : String) : Status := ⟨.resourceExhausted, message⟩
def internal (message : String) : Status := ⟨.internal, message⟩
def unauthenticated (message : String) : Status := ⟨.unauthenticated, message⟩

end Status

/-! ## The limiter -/

inductive RateLimitType where
  | email
  | ip
deriving DecidableEq, Repr

namespace RateLimitType

def limit : RateLimitType → UInt32
  | .email => 5
  | .ip => 30

/-- The `Debug` form. -/
def name : RateLimitType → String
  | .email => "Email"
  | .ip => "Ip"

end RateLimitType

structure RateLimitEntry where
  count : UInt32
  resetAt : Instant
deriving DecidableEq, Repr

abbrev InMemoryRateLimiter := RateLimitType × String → Option RateLimitEntry

namespace InMemoryRateLimiter

def new : InMemoryRateLimiter := fun _ => none

/-- The length of a window: an hour, with instants in nanoseconds. -/
def window : Instant := 3600 * 1000000000

/-- `check_limit`: one step on the entry of the key. -/
def checkLimit (limiter : InMemoryRateLimiter) (type : RateLimitType) (identity : String)
    (now : Instant) : InMemoryRateLimiter × Except Status Unit :=
  let key := (type, identity)
  let entry := (limiter key).getD ⟨0, now + window⟩
  let entry := if now > entry.resetAt then ⟨0, now + window⟩ else entry
  if entry.count ≥ type.limit then
    -- the entry is stored (and possibly reset) even though the call is refused
    (Function.update limiter key (some entry), .error (.resourceExhausted
      s!"Rate limit exceeded for {type.name}: {identity}. Try again later."))
  else
    (Function.update limiter key (some { entry with count := entry.count + 1 }), .ok ())

def cleanup (limiter : InMemoryRateLimiter) (now : Instant) : InMemoryRateLimiter :=
  fun key => (limiter key).filter fun entry => entry.resetAt > now

end InMemoryRateLimiter

end Aetheris.Auth
