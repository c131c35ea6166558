import MiniPgw.Common

/-!
# ICdrWriter — the records of the CDR log

`pgw/server/interfaces/ICdrWriter.h`: the texts of the four actions, and the records that go in
and come out of a CDR writer.
-/

namespace Pgw

/-- What `writeAction(imsi, action)` is given. -/
structure CdrEntry where
  imsi : Imsi
  action : Bytes
  deriving DecidableEq, Repr

/-- What `getRecentRecords` returns. -/
structure CdrRecord where
  imsi : Bytes
  action : Bytes
  timestamp : Bytes
  deriving DecidableEq, Repr

namespace ICdrWriter

def SESSION_CREATED : Bytes := ascii "CREATED"
def SESSION_DELETED : Bytes := ascii "DELETED"
def SESSION_REJECTED : Bytes := ascii "REJECTED"
def SESSION_ERROR : Bytes := ascii "ERROR"

def READ_CDR_LIMIT : Nat := 100

end ICdrWriter

/-- An `ICdrWriter` as its callers see it: the entries it has been given, and which of the calls of
`writeAction` throw an exception instead. -/
structure CdrWriter where
  entries : List CdrEntry
  /-- The number of calls of `writeAction` so far. -/
  calls : Nat
  throwsAt : Nat → Bool

/-- No call of `writeAction` throws. -/
def CdrWriter.Reliable (w : CdrWriter) : Prop :=
  ∀ n, w.throwsAt n = false

end Pgw
