import LingoAsync.Action
import LingoAsync.Text.Loads
import LingoAsync.Text.Base64

/-!
# Exceptions

The exceptions that reach a handler of the worker, under the source's names. A
raising computation on a state `σ` is a `Py σ`.
-/

namespace LingoAsync

open LingoAsync.Text

/-- One entry of pydantic's `exc.errors()`: the `type` of the complaint and the
path `loc` to the field it is about. -/
structure LineError where
  type : PyStr
  loc : List PyStr
  deriving DecidableEq, Repr

inductive PyExc where
  /-- `pydantic.ValidationError` -/
  | ValidationError (errors : List LineError)
  | JSONDecodeError
  /-- `binascii.Error` -/
  | BinasciiError
  | UnicodeDecodeError
  | ValueError (msg : PyStr)
  /-- `codecs.lookup` on a name no codec has -/
  | LookupError
  | KeyError (key : PyStr)
  | TypeError
  | AttributeError
  | RecursionError
  /-- `httpx.HTTPStatusError`, with `exc.response.status_code` -/
  | HTTPStatusError (code : Nat)
  /-- `httpx.TransportError`: a network failure or a timeout -/
  | TransportError
  | CircuitOpenError (msg : PyStr)
  | AssertionError
  /-- `botocore.exceptions.ClientError` -/
  | ClientError
  /-- `sqlite3.IntegrityError` -/
  | IntegrityError
  /-- any other `Exception`, by its class name -/
  | other (name : PyStr)
  deriving DecidableEq, Repr

namespace PyExc

/-- `isinstance(exc, ValidationError)`. -/
def isValidationError : PyExc → Bool
  | ValidationError _ => true
  | _ => false

/-- What `base64.b64decode` raises on a `str`. -/
def ofBase64Error : Base64Error → PyExc
  | .notAscii => ValueError (py "string argument should contain only ASCII characters")
  | .malformed => BinasciiError

end PyExc

/-- A computation on the state `σ` that may raise. -/
abbrev Py (σ : Type) := Action PyExc σ

end LingoAsync
