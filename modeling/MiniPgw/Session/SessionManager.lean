import MiniPgw.Lib.Effects
import MiniPgw.Lib.Run
import MiniPgw.Lib.UnorderedMap
import MiniPgw.Cdr.Interface

/-!
# SessionManager — the table of active sessions

`pgw/server/SessionManager.cpp`. A method is a computation on the manager that may throw; the
readings of `steady_clock` that it makes are its arguments. `SessionCall` lists the calls a run can
make, and `step` is one call, after which the manager goes on with whatever state the call left,
also when it threw.
-/

namespace Pgw

/-! ## ISessionManager

The types of the interface. A session is stored with the moment of its creation and nothing else. -/

/-- `struct SessionData` -/
structure SessionData where
  createdTime : Time
  deriving DecidableEq, Repr

/-- `enum class CreateResult` -/
inductive CreateResult where
  | CREATED
  | REJECTED_BLACKLIST
  | ALREADY_EXISTS
  | SERVICE_UNAVAILABLE
  | ERROR
  deriving DecidableEq, Repr

/-- `struct Statistics` -/
structure Statistics where
  activeSessions : Nat
  createdSessions : Nat
  rejectedSessions : Nat
  expiredSessions : Nat
  terminateSessions : Nat
  totalSessions : Nat
  uptimeSeconds : Nat
  deriving DecidableEq, Repr

/-- `std::unordered_map<std::string, SessionData>` -/
abbrev Sessions := UnorderedMap Imsi SessionData

/-- An element of the session table. -/
abbrev SessionEntry := Sigma fun _ : Imsi => SessionData

/-! ## The manager

One method of the source after the other. The CDR writer may throw in any of its calls, which is why
every method may. -/

/-- The members of `SessionManager`. -/
structure SessionManager where
  cdrWriter : CdrWriter
  sessions : Sessions
  blacklist : Blacklist
  /-- In seconds. -/
  sessionTimeoutSec : Int
  shutdownRate : Int
  draining : Bool
  stats : Statistics
  startTime : Time

namespace SessionManager

/-- A method of the manager. -/
abbrev Method := EStateM Fault SessionManager

/-- The manager that the constructor leaves. -/
def constructed (cdrWriter : CdrWriter) (blacklist : Blacklist) (timeout rate : Int) (now : Time) :
    SessionManager where
  cdrWriter := cdrWriter
  sessions := ∅
  blacklist := blacklist
  sessionTimeoutSec := timeout
  shutdownRate := rate
  draining := false
  stats := ⟨0, 0, 0, 0, 0, 0, 0⟩
  startTime := now

/-- `countActiveSession()` -/
def countActiveSession (m : SessionManager) : Nat :=
  m.sessions.size

/-- `hasSession(imsi)` -/
def hasSession (m : SessionManager) (imsi : Imsi) : Bool :=
  imsi ∈ m.sessions

/-- `getStatistics()`: the number of sessions is counted again, the other counters are copied. -/
def getStatistics (m : SessionManager) (now : Time) : Statistics :=
  { m.stats with
    activeSessions := m.sessions.size
    -- `count()` is an `int64_t`
    uptimeSeconds := ((now - m.startTime).tdiv (seconds 1) % 2 ^ 64).toNat }

/-- `m_cdrWriter.writeAction(imsi, action)` -/
def writeAction (imsi : Imsi) (action : Bytes) : Method Unit := do
  let m ← get
  if m.cdrWriter.throwsAt m.cdrWriter.calls then do
    set { m with cdrWriter.calls := m.cdrWriter.calls + 1 }
    throw .exception
  else
    set { m with
      cdrWriter.entries := m.cdrWriter.entries ++ [CdrEntry.mk imsi action]
      cdrWriter.calls := m.cdrWriter.calls + 1 }

/-- The next `writeAction` does not throw. -/
def Writes (m : SessionManager) : Prop :=
  m.cdrWriter.throwsAt m.cdrWriter.calls = false

/-- `addToBlacklist(imsi)`: whether the IMSI was inserted. -/
def addToBlacklist (imsi : Imsi) : Method Bool := do
  let m ← get
  if Validation.isValidImsi imsi then do
    set { m with blacklist := insert imsi m.blacklist }
    pure (imsi ∉ m.blacklist)
  else pure false

/-- `createSession(imsi)`: draining, the blacklist and the table are looked at in this order. -/
def createSession (imsi : Imsi) (now : Time) : Method CreateResult := do
  let m ← get
  if m.draining then pure .SERVICE_UNAVAILABLE
  else if imsi ∈ m.blacklist then do
    writeAction imsi ICdrWriter.SESSION_REJECTED
    modify fun m => { m with
      stats.rejectedSessions := m.stats.rejectedSessions + 1
      stats.totalSessions := m.stats.totalSessions + 1 }
    pure .REJECTED_BLACKLIST
  else if m.hasSession imsi then pure .ALREADY_EXISTS
  else
    catching
      (do
        -- the session is in the table before its record is written, and stays there if that throws
        let emplaced := m.sessions.tryEmplace imsi (SessionData.mk now)
        set { m with sessions := emplaced.1 }
        if emplaced.2 then do
          writeAction imsi ICdrWriter.SESSION_CREATED
          modify fun m => { m with
            stats.createdSessions := m.stats.createdSessions + 1
            stats.totalSessions := m.stats.totalSessions + 1
            stats.activeSessions := m.sessions.size }
          pure .CREATED
        else do
          writeAction imsi ICdrWriter.SESSION_ERROR
          pure .ERROR)
      (pure .ERROR)

/-- `deleteSession(it)`, for the element that `it` points to. -/
def deleteSession (it : SessionEntry) : Method Unit := do
  modify fun m => { m with sessions := m.sessions.erase it.1 }
  writeAction it.1 ICdrWriter.SESSION_DELETED
  modify fun m => { m with stats.activeSessions := m.sessions.size }

/-- `m_stats.terminateSessions++` -/
def countTerminated : Method Unit :=
  modify fun m => { m with stats.terminateSessions := m.stats.terminateSessions + 1 }

/-- `m_stats.expiredSessions++` -/
def countExpired : Method Unit :=
  modify fun m => { m with stats.expiredSessions := m.stats.expiredSessions + 1 }

/-- Deletes the session at `m_sessions.begin()`. -/
def shutdownSession : Method Bool := do
  let m ← get
  match m.sessions.entries with
  | [] => pure false
  | it :: _ => do
    deleteSession it
    countTerminated
    pure true

/-- `terminateSession(imsi)`: whether there was a session. -/
def terminateSession (imsi : Imsi) : Method Bool := do
  let m ← get
  match m.sessions.lookup imsi with
  | some data => do
    deleteSession ⟨imsi, data⟩
    countTerminated
    pure true
  | none => pure false

/-- The loop of `cleanTimeoutSessions`, from the element that `it` points to up to `end()`.
Deleting an element leaves the rest of the iteration as it is. -/
def cleanFrom (now : Time) : List SessionEntry → Method Unit
  | [] => pure ()
  | it :: rest => do
    let m ← get
    if now - it.2.createdTime ≥ seconds m.sessionTimeoutSec then do
      deleteSession it
      countExpired
      cleanFrom now rest
    else cleanFrom now rest

/-- `cleanTimeoutSessions()`: one pass over the table, with one reading of the clock. -/
def cleanTimeoutSessions (now : Time) : Method Unit := do
  let m ← get
  cleanFrom now m.sessions.entries

/-- `startDraining()` -/
def startDraining : Method Unit :=
  modify fun m => { m with draining := true }

/-! ## gracefulShutdown

The clock is a sequence of readings. The comparison with the timeout stands as it is in the source,
where its operands are the wrong way round. -/

/-- The local variables of the loop of `gracefulShutdown`, and what it has done to the clock. -/
structure Pacing where
  lastDeletionTime : Time
  timeoutShutdown : Bool
  /-- The number of clock readings made so far. -/
  readings : Nat
  /-- The arguments of `sleep_for` so far. -/
  sleeps : List Time

/-- What an iteration does before it deletes a session; `clock i` is the `i`-th reading. -/
def pace (clock : Nat → Time) (timeoutSec : Int) (delayBetweenSessions startDeletionTime : Time)
    (p : Pacing) : Pacing :=
  if p.timeoutShutdown then p
  else
    let now := clock p.readings
    let timeSinceLastDeletion := now - p.lastDeletionTime
    if timeSinceLastDeletion < delayBetweenSessions then
      let calculatedDelay := delayBetweenSessions - timeSinceLastDeletion
      -- in this order: with a steady clock the difference is never positive
      let calculatedTimeout := startDeletionTime - now
      if calculatedTimeout > seconds timeoutSec then
        { p with timeoutShutdown := true, readings := p.readings + 1 }
      else
        { p with
          lastDeletionTime := clock (p.readings + 1)
          readings := p.readings + 2
          sleeps := p.sleeps ++ [calculatedDelay] }
    else { p with readings := p.readings + 1 }

/-- `while (sessionsAvailable)`, at most `fuel` times. Every iteration that does not end the loop
deletes a session, so `size + 1` iterations are enough (`shutdownLoop_fuel`). -/
def shutdownLoop (pacing : Pacing → Pacing) : Nat → Pacing → Method Unit
  | 0, _ => pure ()
  | fuel + 1, p => do
    let paced := pacing p
    let sessionsAvailable ← shutdownSession
    if sessionsAvailable then shutdownLoop pacing fuel paced
    else pure ()

/-- `gracefulShutdown()`: the table is emptied at the pace that the rate gives. -/
def gracefulShutdown (clock : Nat → Time) : Method Unit := do
  modify fun m => { m with draining := true }
  let m ← get
  -- a division by zero is undefined
  if m.shutdownRate = 0 then throw .undefined
  else do
    let delayBetweenSessions := milliseconds ((1000 : Int).tdiv m.shutdownRate)
    let startDeletionTime := clock 0
    let pacing := pace clock m.sessionTimeoutSec delayBetweenSessions startDeletionTime
    shutdownLoop pacing (m.sessions.size + 1) ⟨startDeletionTime, false, 1, []⟩
    modify fun m =>
      if m.sessions.entries = [] then { m with stats.activeSessions := 0 } else m

/-! ## Runs

Calls from outside, in any order, with every reading of the clock that they make. -/

/-- The calls of the manager, each with the readings of the clock that it makes. -/
inductive SessionCall where
  | createSession (imsi : Imsi) (now : Time)
  | terminateSession (imsi : Imsi)
  | shutdownSession
  | cleanTimeoutSessions (now : Time)
  | gracefulShutdown (clock : Nat → Time)
  | addToBlacklist (imsi : Imsi)
  | startDraining
  /-- Not a call: the table is iterated in another order from now on. -/
  | rehash (order : List SessionEntry)

/-- What a call runs. -/
def perform : SessionCall → Method Unit
  | .createSession imsi now => do
    let _ ← SessionManager.createSession imsi now
  | .terminateSession imsi => do
    let _ ← SessionManager.terminateSession imsi
  | .shutdownSession => do
    let _ ← SessionManager.shutdownSession
  | .cleanTimeoutSessions now => SessionManager.cleanTimeoutSessions now
  | .gracefulShutdown clock => SessionManager.gracefulShutdown clock
  | .addToBlacklist imsi => do
    let _ ← SessionManager.addToBlacklist imsi
  | .startDraining => SessionManager.startDraining
  | .rehash order => modify fun m => { m with sessions := m.sessions.reordered order }

/-- One call. An exception leaves the manager as it is; after undefined behaviour there is no
manager. -/
def step (m : SessionManager) (c : SessionCall) : Option SessionManager :=
  match (perform c).run m with
  | .ok _ m' => some m'
  | .error .exception m' => some m'
  | .error .undefined _ => none

end SessionManager
end Pgw
