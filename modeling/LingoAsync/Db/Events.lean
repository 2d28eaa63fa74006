import LingoAsync.Python

/-!
# The event log's write protocol

`app/db/protocols/events.py`: what the worker asks of an event log. A repository
is its two writes, as computations on the process state `σ`; either may raise.
-/

namespace LingoAsync.Db

open LingoAsync.Text

/-- The arguments of `save`. -/
structure SaveArgs where
  id : PyStr
  userId : PyStr
  eventType : PyStr
  payloadJson : PyStr
  receivedAt : PyStr
  ttlEpoch : Int
  deriving DecidableEq, Repr

/-- The arguments of `update_status`. -/
structure UpdateArgs where
  id : PyStr
  status : PyStr
  errorMsg : Option PyStr
  outcomesJson : PyStr
  deriving DecidableEq, Repr

/-- `EventsWriteRepository`. -/
structure EventsRepo (σ : Type) where
  save : SaveArgs → Py σ Unit
  updateStatus : UpdateArgs → Py σ Unit

end LingoAsync.Db
