import Mathlib.Algebra.Group.Nat.Defs
import Mathlib.Algebra.Group.Int.Defs

namespace SandboxedApi

inductive StatusCode where
  | invalidArgument
  | failedPrecondition
  | notFound
  | internal
  | resourceExhausted
  | outOfRange
  deriving DecidableEq, Repr

structure Status where
  code : StatusCode
  message : String
  deriving DecidableEq, Repr

end SandboxedApi
