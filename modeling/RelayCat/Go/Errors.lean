import Mathlib.Data.List.Basic

/-!
# Go error values and gRPC statuses

The error values that the relay and the endpoints create, wrap and compare. Wrapping with
`%w` keeps the cause, so `errors.Is` follows it; a gRPC status error wraps nothing, and in
particular a status with code `Canceled` is not `context.Canceled`.
-/

namespace RelayCat.Go

abbrev Bytes := List UInt8

/-- The gRPC status codes this repository returns or receives. -/
inductive Code where
  | canceled
  | unknown
  | invalidArgument
  | deadlineExceeded
  | notFound
  | alreadyExists
  | resourceExhausted
  | failedPrecondition
  | internal
  | unavailable
  | unauthenticated
  deriving DecidableEq, Repr

/-- Error values; `none : Option Err` is the nil error. -/
inductive Err where
  | eof
  | unexpectedEOF
  | canceled
  | deadlineExceeded
  | netClosed
  | status (code : Code) (message : String)
  | new (message : String)
  | errorf (message : String) (cause : Err)
  deriving DecidableEq, Repr

namespace Err

/-- `errors.Is`: compare along the chain of wrapped causes. -/
def is : Err → Err → Bool
  | errorf message cause, target => errorf message cause == target || cause.is target
  | e, target => e == target

/-- A wrapped error is compared through its cause. -/
theorem is_errorf {message : String} {cause target : Err} (h : errorf message cause ≠ target) :
    (errorf message cause).is target = cause.is target := by
  simp [is, beq_eq_false_iff_ne.mpr h]

/-- `Error()`, as far as a status message quotes it. -/
def text : Err → String
  | eof => "EOF"
  | unexpectedEOF => "unexpected EOF"
  | canceled => "context canceled"
  | deadlineExceeded => "context deadline exceeded"
  | netClosed => "use of closed network connection"
  | status _ message => message
  | new message => message
  | errorf message cause => message ++ ": " ++ cause.text

/-- The error a gRPC client receives when the server's handler returns this one. -/
def toStatus : Err → Err
  | status code message => status code message
  | canceled => status .canceled canceled.text
  | deadlineExceeded => status .deadlineExceeded deadlineExceeded.text
  | e => status .unknown e.text

end Err

/-- Why a context is done. -/
inductive CtxErr where
  | canceled
  | deadlineExceeded
  deriving DecidableEq, Repr

/-- `ctx.Err()` of a context that is done. -/
def CtxErr.err : CtxErr → Err
  | canceled => .canceled
  | deadlineExceeded => .deadlineExceeded

/-- `status.FromContextError(ctx.Err()).Err()`. -/
def CtxErr.statusErr (e : CtxErr) : Err := e.err.toStatus

end RelayCat.Go
