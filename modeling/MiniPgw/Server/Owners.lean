import MiniPgw.Server.Startup

/-!
# Owners — who has to give a resource back

The members of `Server::Impl` own what they hold (`Owns`), a function holds the rest in its local
variables, and each step moves a resource between the two or gives it back: `Settled` says so of the
history. Here it is proved of the functions that `run` calls up to the event loop, also when they
throw; one of them forgets what it holds (`createDatabase_settled`).

## The architecture

* **`Owns`**, **`Settled`** — the balance: what the history has acquired and not released is what
  the members own and what is held besides.
* **`Settled.acquire`**, **`Settled.release`**, **`Settled.move`**, **`Settled.recloses`** — the
  four things a step can do to it.
* **`createSocket_settled`** to **`startListener_settled`** — a lemma for each function that `run`
  calls, with a postcondition for its return and one for its exception.
* **`IsMember`** — the two listeners differ in the member that owns the socket; what is said of
  one is said of both.
* **`Serving`**, **`initializeServers_serving`** — the servers, however far their start has come.
-/

namespace Pgw

open Effects
open Handles (Tracks Use Held ReleasedOnce)

/-! ## The system calls of a socket

The conditions of the socket calls under which a constructor or a `bind` throws, as predicates that
can be evaluated. -/

namespace SocketCalls

/-- The constructor of the socket does not throw. -/
def Opens (calls : SocketCalls) : Prop :=
  calls.fd.isSome = true ∧ calls.reuse = true ∧ calls.getFlags = true ∧ calls.setFlags = true

instance (calls : SocketCalls) : Decidable calls.Opens :=
  inferInstanceAs (Decidable (_ ∧ _))

/-- `bind` does not throw. -/
def Binds (calls : SocketCalls) (isListening : Bool) : Prop :=
  calls.resolves = true ∧ calls.binds = true ∧ (isListening = true → calls.listens = true)

instance (calls : SocketCalls) (isListening : Bool) : Decidable (calls.Binds isListening) :=
  inferInstanceAs (Decidable (_ ∧ _ ∧ (_ → _)))

end SocketCalls

namespace Process

variable {env : Environment} {p p' q : Process} {held : List Resource} {r : Resource}
  {twice : Bool}

/-! ## Owners

Every resource but the descriptor of epoll is either owned by a member of the process, or held by a
function that is being carried out, or it has been given back. The descriptor of epoll is closed
once more after it has been given back, which `twice` records. -/

/-- What the members of the process own: a descriptor 0 would not be closed. -/
def Owns (p : Process) : Resource → Prop
  | .connection => p.dbManager = true
  | .statement _ => p.cdrWriter = some .database
  | .flusher => p.cdrWriter = some .database
  | .writeFile => ∃ read, p.cdrWriter = some (.file true read)
  | .readFile => ∃ write, p.cdrWriter = some (.file write true)
  | .udpSocket => ∃ fd running, p.udpServer = some ⟨some fd, running⟩ ∧ 0 < fd
  | .tcpSocket => ∃ fd running, p.tcpServer = some ⟨some fd, running⟩ ∧ 0 < fd
  | .httpThread => ∃ running, p.httpServer = some ⟨running, true⟩
  | .epollFd => False
  | .timerFd => False

/-- What has been closed a second time, if `twice` is set. -/
def Reclosed (twice : Bool) (r : Resource) : Prop :=
  r = .epollFd ∧ twice = true

/-- The process is `q` but for the history, in which exactly what the members own and what is
`held` besides has not been released. When `twice` is set, the descriptor of epoll has been closed a
second time, and nothing is said of it any more. -/
def Settled (twice : Bool) (q : Process) (held : List Resource) (p : Process) : Prop :=
  ∃ uses, p = { q with uses := uses } ∧
    Tracks (Reclosed twice) (fun r => r ∈ held ∨ q.Owns r) uses

/-- The macros can be used. -/
def CanLog (env : Environment) (logger : DefaultLogger) : Prop :=
  ¬ (logger = .dropped ∧ env.logsWithoutDefault = false)

/-- The history says nothing of the logger. -/
theorem Settled.canLog (h : Settled twice q held p) (hlog : CanLog env q.defaultLogger) :
    CanLog env p.defaultLogger := by
  obtain ⟨uses, rfl, -⟩ := h
  exact hlog

/-- As long as the macros can be used they change nothing, so a proof steps over them. -/
theorem ensures_log {Q : Unit → Process → Prop} {E : Halt → Process → Prop}
    (hlog : CanLog env p.defaultLogger) : Ensures (log env) p Q E ↔ Q () p := by
  unfold CanLog at hlog
  simp only [log, ensures_bind, ensures_get, if_neg hlog, ensures_pure]

/-- The same as a rule: `log` at the end of a function, -/
theorem ensures_log_of {Q : Unit → Process → Prop} {E : Halt → Process → Prop}
    (hlog : CanLog env p.defaultLogger) (h : Q () p) : Ensures (log env) p Q E :=
  (ensures_log hlog).mpr h

/-- and `log` before the rest of it. -/
theorem ensures_log_bind {α : Type} {f : Unit → Method α} {Q : α → Process → Prop}
    {E : Halt → Process → Prop} (hlog : CanLog env p.defaultLogger) (h : Ensures (f ()) p Q E) :
    Ensures (log env >>= f) p Q E :=
  (ensures_bind _ _).mpr (ensures_log_of hlog h)

/-- What has not been released yet is held or owned, the descriptor of epoll aside. -/
theorem Settled.held_iff (h : Settled twice q held p) (hr : r ≠ .epollFd) :
    Held r p.uses ↔ r ∈ held ∨ q.Owns r := by
  obtain ⟨uses, rfl, htracks⟩ := h
  exact ((htracks r).2 fun hspoiled => hr hspoiled.1).2

/-- A function takes a resource that nobody has. -/
theorem Settled.acquire (h : Settled twice q held p) (hheld : r ∉ held) (howns : ¬ q.Owns r) :
    Settled twice q (r :: held) { p with uses := p.uses ++ [.acquired r] } := by
  obtain ⟨uses, rfl, htracks⟩ := h
  have hfree : ¬ (r ∈ held ∨ q.Owns r) := not_or.mpr ⟨hheld, howns⟩
  refine ⟨_, rfl, (htracks.acquire hfree).congr fun x => ?_⟩
  rw [List.mem_cons, or_assoc]

/-- A function gives back what it alone holds. -/
theorem Settled.release (h : Settled twice q (r :: held) p) (hheld : r ∉ held)
    (howns : ¬ q.Owns r) :
    Settled twice q held { p with uses := p.uses ++ [.released r] } := by
  obtain ⟨uses, rfl, htracks⟩ := h
  refine ⟨_, rfl, (htracks.release (.inl List.mem_cons_self)).congr fun x => ?_⟩
  by_cases hx : x = r
  · subst hx
    simp [hheld, howns]
  · simp [hx]

/-- **The descriptor of epoll is closed again** after it has been given back. -/
theorem Settled.recloses (h : Settled false q held p) (hheld : .epollFd ∉ held) :
    Settled true q held { p with uses := p.uses ++ [.released .epollFd] } := by
  obtain ⟨uses, rfl, htracks⟩ := h
  have hfree : ¬ (.epollFd ∈ held ∨ q.Owns .epollFd) := not_or.mpr ⟨hheld, id⟩
  exact ⟨_, rfl, (htracks.spoil hfree).congr_spoiled fun x => by simp [Reclosed]⟩

/-- A member takes over what is held, or gives it away. -/
theorem Settled.move (h : Settled twice q held p) (q' : Process) (held' : List Resource)
    (hmove : ∀ x, (x ∈ held' ∨ q'.Owns x) ↔ (x ∈ held ∨ q.Owns x)) :
    Settled twice q' held' { q' with uses := p.uses } := by
  obtain ⟨uses, rfl, htracks⟩ := h
  exact ⟨uses, rfl, htracks.congr hmove⟩

/-- `try` with a handler: the handler runs from the state in which the exception has been thrown,
and what is not an exception passes it by. -/
theorem ensures_catching {α : Type} {body handler : Method α} {Q : α → Process → Prop}
    {E : Halt → Process → Prop} :
    Ensures (catching body handler) p Q E ↔
      Ensures body p Q fun e t => if e = .exception then Ensures handler t Q E else E e t :=
  ensures_handling _ _ _

/-- Acquiring a resource is an entry of the history, -/
theorem ensures_acquire {Q : Unit → Process → Prop} {E : Halt → Process → Prop} :
    Ensures (acquire r) p Q E ↔ Q () { p with uses := p.uses ++ [.acquired r] } :=
  Iff.rfl

/-- and so is giving it back. -/
theorem ensures_release {Q : Unit → Process → Prop} {E : Halt → Process → Prop} :
    Ensures (release r) p Q E ↔ Q () { p with uses := p.uses ++ [.released r] } :=
  Iff.rfl

/-! ## The sockets

A socket is held by its constructor until a listener owns it. When the constructor throws after
`socket`, it has closed the descriptor itself. -/

/-- The constructor of a socket, when it throws, has closed the descriptor. -/
theorem createSocket_settled (hlog : CanLog env q.defaultLogger) (h : Settled twice q held p)
    (hheld : r ∉ held) (howns : ¬ q.Owns r) (calls : SocketCalls) :
    Ensures (createSocket env r calls) p
      (fun fd p' => calls.Opens ∧ calls.fd = some fd ∧ Settled twice q (r :: held) p')
      (fun e p' => e = .exception ∧ ¬ calls.Opens ∧ Settled twice q held p') := by
  unfold createSocket
  cases hfd : calls.fd with
  | none =>
    refine ⟨rfl, fun hopens => ?_, h⟩
    simp [SocketCalls.Opens, hfd] at hopens
  | some fd =>
    have hacquired := h.acquire hheld howns
    have hreleased := hacquired.release hheld howns
    simp only [ensures_bind, ensures_acquire, ensures_ite, ensures_release, ensures_throw,
      ensures_log (hacquired.canLog hlog), ensures_pure]
    -- the three options are set one after the other, and the first failure closes the socket
    split_ifs with hreuse hget hset
    · exact ⟨trivial, fun hopens => by simp [hopens.2.1] at hreuse, hreleased⟩
    · exact ⟨trivial, fun hopens => by simp [hopens.2.2.1] at hget, hreleased⟩
    · exact ⟨trivial, fun hopens => by simp [hopens.2.2.2] at hset, hreleased⟩
    · have hopens : calls.Opens := by simp_all [SocketCalls.Opens]
      exact ⟨hopens, trivial, hacquired⟩

/-- `bind` changes nothing in the process, whether it throws or not. -/
theorem bind_settled (hlog : CanLog env p.defaultLogger) (calls : SocketCalls)
    (isListening : Bool) :
    Ensures (bind env calls isListening) p
      (fun _ p' => calls.Binds isListening ∧ p' = p)
      (fun e p' => e = .exception ∧ ¬ calls.Binds isListening ∧ p' = p) := by
  simp only [bind, ensures_ite, ensures_throw, ensures_log hlog]
  split_ifs with hresolves hbinds hlistens
  · exact ⟨trivial, fun h => by simp [h.1] at hresolves, trivial⟩
  · exact ⟨trivial, fun h => by simp [h.2.1] at hbinds, trivial⟩
  · refine ⟨trivial, fun h => ?_, trivial⟩
    obtain ⟨hlistening, hfails⟩ := Bool.and_eq_true_iff.mp hlistens
    simp [h.2.2 hlistening] at hfails
  · refine ⟨⟨by simpa using hresolves, by simpa using hbinds, fun hlistening => ?_⟩, trivial⟩
    simpa [hlistening] using hlistens

/-! ## The stages of `run`

The process at the points between the stages of `run`, described by what has been made so far. What
each stage needs of the environment has a name of its own. -/

/-- The logger has been initialised. -/
def logged : Process :=
  { initial with gLogger := true, defaultLogger := .pgw }

/-- The database has been opened, or not. -/
def opened (db : Bool) : Process :=
  { logged with dbManager := db }

/-- Without its database the process is where the logger left it. -/
theorem opened_false : opened false = logged := rfl

/-- There is a CDR writer. -/
def writing (db : Bool) (writer : CdrBackEnd) : Process :=
  { opened db with cdrWriter := some writer }

end Process

namespace Environment

/-- The logger can be initialised. -/
def Logs (env : Environment) : Prop :=
  env.poolStarts = true ∧ env.config.logLevel ∈ Process.levels ∧ env.logFileOpens = true ∧
    env.flushesPeriodically = true

/-- The records go to the database. -/
def usesDatabase (env : Environment) : Bool :=
  env.config.databaseFile ≠ [] && env.sqliteOpens

/-- The constructor of `DatabaseCdrWriter` does not throw. -/
def DatabaseReady (env : Environment) : Prop :=
  env.createsTable = true ∧ (∀ sql, env.prepares sql = true) ∧ env.flusherStarts = true

/-- What that constructor has prepared. -/
def prepared (env : Environment) : List Resource :=
  if env.createsTable then
    (if env.prepares .SQL_RECENT_CDR then [.statement .SQL_RECENT_CDR] else [])
      ++ if env.prepares .SQL_WRITE_CDR then [.statement .SQL_WRITE_CDR] else []
  else []

/-- The three servers can be started. The HTTP server always goes on. -/
def ServersStart (env : Environment) : Prop :=
  env.udp.Opens ∧ env.tcp.Opens ∧ env.udp.Binds false ∧ env.tcp.Binds true

instance (env : Environment) : Decidable env.ServersStart :=
  inferInstanceAs (Decidable (_ ∧ _ ∧ _ ∧ _))

/-- The event loop is left through an exception. -/
def LoopThrows (env : Environment) : Prop :=
  env.epoll = true ∧ env.loopEnd = .threw

/-- The event loop goes on for ever. -/
def LoopGoesOn (env : Environment) : Prop :=
  env.epoll = true ∧ env.loopEnd = .goesOn

/-- The event loop returns: it has stopped, `epoll_wait` has failed, or there has not been a loop
because `epoll_create1` has failed. -/
def LoopReturns (env : Environment) : Prop :=
  env.epoll = true → env.loopEnd = .stopped ∨ env.loopEnd = .left

/-- A loop that has been entered closes the descriptor of epoll twice on its way out. -/
def recloses (env : Environment) : Bool :=
  decide env.ServersStart && env.epoll

/-- The sockets that will not be closed. -/
def unclosed (env : Environment) : List Resource :=
  (if env.udp.Opens ∧ env.tcp.Opens ∧ env.tcp.fd = some 0 then [.tcpSocket] else [])
    ++ if env.udp.Opens ∧ env.udp.fd = some 0 then [.udpSocket] else []

end Environment

namespace Process

variable {env : Environment} {p p' q : Process} {held : List Resource} {r : Resource}
  {twice : Bool}

/-- Any logger that has not been dropped can be used, -/
theorem canLog_of_ne {logger : DefaultLogger} (h : logger ≠ .dropped) : CanLog env logger :=
  fun hdropped => h hdropped.1

/-- so the one that `init` has made can, -/
theorem canLog_pgw (env : Environment) : CanLog env .pgw :=
  canLog_of_ne (by decide)

/-- and so can the one that spdlog makes by itself. -/
theorem canLog_library : CanLog env .library :=
  canLog_of_ne (by decide)

/-- The logger comes up, or it is left null, half made or without its file. -/
theorem initializeLogger_ensures :
    Ensures (initializeLogger env) initial
      (fun ok p => ok = true ∧ env.Logs ∧ p = logged)
      (fun e p => e = .exception ∧ ¬ env.Logs ∧
        (p = initial ∨ p = { initial with gLogger := true } ∨ p = logged)) := by
  unfold Environment.Logs
  cases hpool : env.poolStarts with
  | false => simp [initializeLogger, init, initial, hpool]
  | true =>
    by_cases hlevel : env.config.logLevel ∈ levels
    · cases hfile : env.logFileOpens <;> cases hflush : env.flushesPeriodically <;>
        simp [initializeLogger, init, addFileSink, initial, logged, hlevel, hfile, hpool, hflush,
          ensures_log, canLog_pgw]
    · simp [initializeLogger, init, initial, hlevel, hpool]

/-- Every statement has been finalized. -/
def Finalized (p : Process) : Prop :=
  ∀ sql, ¬ Held (.statement sql) p.uses

/-- `sqlite3_close` closes a connection whose statements have all been finalized, -/
theorem ensures_closeConnection {Q : Unit → Process → Prop} {E : Halt → Process → Prop}
    (hfinalized : p.Finalized) :
    Ensures closeConnection p Q E ↔ Q () { p with uses := p.uses ++ [.released .connection] } := by
  have hnone : ¬ (Held (.statement .SQL_WRITE_CDR) p.uses ∨
      Held (.statement .SQL_RECENT_CDR) p.uses) :=
    not_or.mpr ⟨hfinalized .SQL_WRITE_CDR, hfinalized .SQL_RECENT_CDR⟩
  simp only [closeConnection, ensures_bind, ensures_get, if_neg hnone, ensures_release]

/-- The connection ends up in the member or is closed again: opening the database never throws and
never forgets what it has opened. -/
theorem initializeDatabase_settled (h : Settled twice logged [] p) :
    Returns (initializeDatabase env) p fun ok p' =>
      ok = env.usesDatabase ∧ Settled twice (opened env.usesDatabase) [] p' := by
  unfold Environment.usesDatabase
  -- no file name: the CDR go into files and nothing is opened
  by_cases hfile : env.config.databaseFile = []
  · simpa [initializeDatabase, hfile, opened_false] using h
  have hacquired : Settled twice logged [.connection]
      { p with uses := p.uses ++ [.acquired .connection] } :=
    h.acquire List.not_mem_nil (by simp [Owns, logged, initial])
  by_cases hopens : env.sqliteOpens = true
  · have hmember := hacquired.move (opened true) [] fun x => by
      cases x <;> simp [Owns, opened, logged, initial]
    obtain ⟨uses, rfl, -⟩ := h
    simpa [initializeDatabase, openDatabase, ensures_acquire, ensures_log, canLog_pgw, hfile,
      hopens, opened, logged] using hmember
  · -- `sqlite3_open` failed: the handle it gave is closed in the same method
    have hclosed : Settled twice logged []
        { p with uses := p.uses ++ [.acquired .connection] ++ [.released .connection] } :=
      hacquired.release List.not_mem_nil (by simp [Owns, logged, initial])
    have hfinalized : Finalized { p with uses := p.uses ++ [.acquired .connection] } := by
      intro sql hheld
      have howner := (hacquired.held_iff Resource.noConfusion).mp hheld
      simp [Owns, logged, initial] at howner
    simpa [initializeDatabase, openDatabase, ensures_acquire, ensures_closeConnection hfinalized,
      hfile, hopens, opened_false] using hclosed

/-! ## The CDR writers

Here a constructor throws with something in its hands: the statements that were prepared before the
one that failed, or before the thread could not be started. Nobody finalizes them. -/

/-- A statement that has been prepared is held by the constructor until its members take it over;
one that could not be prepared is not there to be finalized. -/
theorem prepareStatement_settled (h : Settled twice q held p) {sql : Sql}
    (hheld : .statement sql ∉ held) (howns : ¬ q.Owns (.statement sql)) :
    Returns (prepareStatement env sql) p fun ok p' =>
      ok = env.prepares sql ∧
        Settled twice q ((if env.prepares sql then [.statement sql] else []) ++ held) p' := by
  by_cases hprepares : env.prepares sql = true
  · simpa [prepareStatement, hprepares, ensures_acquire] using h.acquire hheld howns
  · simpa [prepareStatement, hprepares] using h

/-- The constructor of `DatabaseCdrWriter`: if it throws, what it has prepared stays. -/
theorem createDatabase_settled (h : Settled twice (opened true) [] p) :
    Ensures (createDatabase env) p
      (fun writer p' => writer = .database ∧ env.DatabaseReady ∧
        Settled twice (opened true) (.flusher :: env.prepared) p')
      (fun e p' => e = .exception ∧ ¬ env.DatabaseReady ∧
        Settled twice (opened true) env.prepared p') := by
  have hnone : ∀ sql, ¬ (opened true).Owns (.statement sql) := by
    intro sql howns
    cases howns
  unfold createDatabase Environment.DatabaseReady Environment.prepared
  -- `createTable` first, then the two statements, then the thread
  by_cases htable : env.createsTable = true
  · simp only [htable, Bool.not_true, Bool.false_eq_true, if_false, if_true, ensures_bind]
    refine (prepareStatement_settled h List.not_mem_nil (hnone _)).mono ?_ fun _ _ hf => hf.elim
    rintro write p₁ ⟨rfl, hwrite⟩
    refine (prepareStatement_settled hwrite ?_ (hnone _)).mono ?_ fun _ _ hf => hf.elim
    · split <;> simp
    rintro recent p₂ ⟨rfl, hrecent⟩
    rw [List.append_nil] at hrecent
    -- both statements are prepared before either is looked at
    have hall : (∀ sql, env.prepares sql = true) ↔
        env.prepares .SQL_WRITE_CDR = true ∧ env.prepares .SQL_RECENT_CDR = true :=
      ⟨fun hp => ⟨hp _, hp _⟩, fun hp sql => by cases sql <;> simp [hp]⟩
    by_cases hprepares : ∀ sql, env.prepares sql = true
    · have hstarted := hrecent.acquire (r := .flusher) (by simp [hprepares])
        (by simp [Owns, opened, logged, initial])
      have hlog := hstarted.canLog (canLog_pgw env)
      -- the thread may fail to start: the constructor throws with both statements prepared
      by_cases hstarts : env.flusherStarts = true
      · simpa [hprepares, hstarts, ensures_acquire, ensures_log hlog] using hstarted
      · simpa [hprepares, hstarts] using hrecent
    · -- one of them could not be prepared, and the constructor throws
      have hfails : (!env.prepares .SQL_WRITE_CDR || !env.prepares .SQL_RECENT_CDR) = true := by
        rw [hall] at hprepares
        cases hw : env.prepares .SQL_WRITE_CDR <;> cases hr : env.prepares .SQL_RECENT_CDR <;>
          simp_all
      simp only [hfails, if_true, ensures_throw]
      exact ⟨trivial, fun hready => hprepares hready.2.1, hrecent⟩
  · simpa [htable] using h

/-- The files that are open. -/
def filesOf (write read : Bool) : List Resource :=
  (if read then [.readFile] else []) ++ if write then [.writeFile] else []

/-- The file writer owns those of its two files that could be opened. -/
theorem createFile_settled (h : Settled twice (opened false) [] p) :
    Returns (createFile env) p fun writer p' =>
      ∃ write read, writer = .file write read ∧
        Settled twice (opened false) (filesOf write read) p' := by
  have hnone : ∀ r, ¬ (opened false).Owns r := by
    intro r howns
    cases r <;> simp [Owns, opened, logged, initial] at howns
  have hlog := h.canLog (canLog_pgw env)
  by_cases hwrites : env.cdrFileWrites = true
  · have hwrite := h.acquire (r := .writeFile) List.not_mem_nil (hnone _)
    by_cases hreads : env.cdrFileReads = true
    · have hread := hwrite.acquire (r := .readFile) (by simp) (hnone _)
      simpa [createFile, hwrites, hreads, ensures_acquire, ensures_log, hlog, filesOf] using hread
    · simpa [createFile, hwrites, hreads, ensures_acquire, ensures_log, hlog, filesOf] using hwrite
  · simpa [createFile, hwrites, ensures_log, hlog, filesOf] using h

/-- A file can only be open in a writer of files. -/
theorem initializeCdrWriter_settled {db : Bool} (h : Settled twice (opened db) [] p) :
    Ensures (initializeCdrWriter env) p
      (fun ok p' => ok = true ∧ (db = true → env.DatabaseReady) ∧
        ∃ writer, (writer = .database ↔ db = true) ∧ Settled twice (writing db writer) [] p')
      (fun e p' => e = .exception ∧ db = true ∧ ¬ env.DatabaseReady ∧
        Settled twice (opened true) env.prepared p') := by
  have hdb : p.dbManager = db := by
    obtain ⟨uses, rfl, -⟩ := h
    rfl
  rw [initializeCdrWriter, ensures_bind, ensures_get, hdb]
  -- the configuration says which back end is made
  cases db with
  | true =>
    simp only [if_true, ensures_bind]
    refine (createDatabase_settled h).mono ?_ ?_
    · rintro writer p' ⟨rfl, hready, hsettled⟩
      have hmember := hsettled.move (writing true .database) [] fun x => by
        obtain ⟨htable, hprepares, -⟩ := hready
        cases x with
        -- what the process owns now is read off case by case
        | statement sql =>
          cases sql <;>
            simp [Owns, writing, opened, logged, initial, Environment.prepared, htable, hprepares]
        | _ =>
          simp [Owns, writing, opened, logged, initial, Environment.prepared, htable, hprepares]
      obtain ⟨uses, rfl, -⟩ := hsettled
      rw [ensures_modify, ensures_log (canLog_pgw env)]
      exact ⟨rfl, fun _ => hready, .database, by decide, hmember⟩
    · -- a constructor that fails: the exception leaves `initialize`, the statements are given back
      rintro e p' ⟨rfl, hfails, hsettled⟩
      exact ⟨rfl, trivial, hfails, hsettled⟩
  | false =>
    simp only [Bool.false_eq_true, if_false, ensures_bind]
    -- a writer of files reports no failure, whatever its two opens did
    refine (createFile_settled h).mono ?_ fun _ _ hf => hf.elim
    rintro writer p' ⟨write, read, rfl, hsettled⟩
    have hmember := hsettled.move (writing false (.file write read)) [] fun x => by
      cases write <;> cases read <;> cases x <;>
        simp [Owns, writing, opened, logged, initial, filesOf]
    obtain ⟨uses, rfl, -⟩ := hsettled
    rw [ensures_modify, ensures_log (canLog_pgw env)]
    have hnot : CdrBackEnd.file write read = .database ↔ False :=
      iff_false_intro fun hdatabase => by cases hdatabase
    exact ⟨rfl, False.elim, .file write read, hnot, hmember⟩

/-! ## The servers

The listeners and the HTTP server come up one after the other. Whatever has been constructed when
one of them throws is in its member and is destroyed with the server. -/

/-- What `close` does not close. -/
def spared (r : Resource) (fd : Nat) : List Resource :=
  if fd = 0 then [r] else []

/-- The UDP server owns its socket, unless the descriptor is 0; if the constructor throws, there is
nothing to own. -/
theorem makeUdpServer_settled (hlog : CanLog env q.defaultLogger) (h : Settled twice q [] p)
    (hnone : q.udpServer = none) :
    Ensures (makeUdpServer env) p
      (fun _ p' => env.udp.Opens ∧ ∃ fd, env.udp.fd = some fd ∧
        Settled twice { q with udpServer := some ⟨some fd, false⟩ } (spared .udpSocket fd) p')
      (fun e p' => e = .exception ∧ ¬ env.udp.Opens ∧ Settled twice q [] p') := by
  have howns : ¬ q.Owns .udpSocket := by simp [Owns, hnone]
  rw [makeUdpServer, ensures_bind, ensures_log (h.canLog hlog), ensures_bind]
  refine (createSocket_settled hlog h List.not_mem_nil howns env.udp).mono ?_ fun _ _ hf => hf
  rintro fd p' ⟨hopens, hfd, hsettled⟩
  rw [ensures_bind, ensures_log (hsettled.canLog hlog), ensures_modify]
  have hmember := hsettled.move { q with udpServer := some ⟨some fd, false⟩ }
      (spared .udpSocket fd) fun x => by
    cases x <;> by_cases hzero : fd = 0 <;> simp [Owns, spared, hzero, hnone, Nat.pos_iff_ne_zero]
  obtain ⟨uses, rfl, -⟩ := hsettled
  exact ⟨hopens, fd, hfd, hmember⟩

/-- So does the TCP server, whose constructor logs the exception and throws it again. -/
theorem makeTcpServer_settled (hlog : CanLog env q.defaultLogger) (h : Settled twice q held p)
    (hnone : q.tcpServer = none) (hheld : .tcpSocket ∉ held) :
    Ensures (makeTcpServer env) p
      (fun _ p' => env.tcp.Opens ∧ ∃ fd, env.tcp.fd = some fd ∧
        Settled twice { q with tcpServer := some ⟨some fd, false⟩ }
          (spared .tcpSocket fd ++ held) p')
      (fun e p' => e = .exception ∧ ¬ env.tcp.Opens ∧ Settled twice q held p') := by
  have howns : ¬ q.Owns .tcpSocket := by simp [Owns, hnone]
  rw [makeTcpServer, ensures_bind, ensures_catching, ensures_bind, ensures_log (h.canLog hlog)]
  refine (createSocket_settled hlog h hheld howns env.tcp).mono ?_ ?_
  · rintro fd p' ⟨hopens, hfd, hsettled⟩
    rw [ensures_bind, ensures_log (hsettled.canLog hlog), ensures_modify]
    -- with the descriptor 0 the socket is nobody's: `close` would leave it open
    have hmember := hsettled.move { q with tcpServer := some ⟨some fd, false⟩ }
        (spared .tcpSocket fd ++ held) fun x => by
      cases x <;> by_cases hzero : fd = 0 <;>
        simp [Owns, spared, hzero, hnone, Nat.pos_iff_ne_zero, or_comm]
    obtain ⟨uses, rfl, -⟩ := hsettled
    exact ⟨hopens, fd, hfd, hmember⟩
  · rintro e p' ⟨rfl, hfails, hsettled⟩
    show Ensures (do log env; throw .exception) p' _ _
    rw [ensures_bind, ensures_log (hsettled.canLog hlog), ensures_throw]
    exact ⟨rfl, hfails, hsettled⟩

/-- The HTTP server is constructed without a thread. -/
theorem makeHttpServer_settled (hlog : CanLog env q.defaultLogger) (h : Settled twice q held p)
    (hnone : q.httpServer = none) :
    Returns (makeHttpServer env) p fun _ p' =>
      Settled twice { q with httpServer := some ⟨false, false⟩ } held p' := by
  have hmember := h.move { q with httpServer := some ⟨false, false⟩ } held
    fun x => by cases x <;> simp [Owns, hnone]
  rw [makeHttpServer, Returns, ensures_bind, ensures_log (h.canLog hlog), ensures_modify]
  obtain ⟨uses, rfl, -⟩ := h
  exact hmember

/-- The HTTP server owns its thread if it has come up; otherwise the process goes on without it. -/
theorem startHttp_settled (hlog : CanLog env q.defaultLogger) (h : Settled twice q held p)
    (hhttp : q.httpServer = some ⟨false, false⟩) (hheld : .httpThread ∉ held) :
    Returns (startHttp env) p fun _ p' =>
      Settled twice { q with httpServer := some ⟨env.httpStarts, env.httpStarts⟩ } held p' := by
  have hfound : p.httpServer = some ⟨false, false⟩ := by
    obtain ⟨uses, rfl, -⟩ := h
    exact hhttp
  rw [startHttp, Returns, ensures_bind, ensures_get, hfound]
  by_cases hstarts : env.httpStarts = true
  · have hacquired := h.acquire hheld (by simp [Owns, hhttp])
    have hmember := hacquired.move { q with httpServer := some ⟨true, true⟩ }
      held fun x => by cases x <;> simp [Owns, hhttp]
    obtain ⟨uses, rfl, -⟩ := h
    simpa [hstarts, ensures_acquire, ensures_log, hlog] using hmember
  · have hsame : { q with httpServer := some ⟨false, false⟩ } = q := by
      rw [← hhttp]
    simpa [hstarts, ensures_log, h.canLog hlog, hsame] using h

/-- `part` and `put` are the member that owns `r`. -/
structure IsMember (r : Resource) (part : Process → Option Listener)
    (put : Option Listener → Process → Process) : Prop where
  part_put : ∀ l q, part (put l q) = l
  put_put : ∀ l l' q, put l (put l' q) = put l q
  put_part : ∀ q, put (part q) q = q
  part_uses : ∀ q uses, part { q with uses := uses } = part q
  put_uses : ∀ l q uses, put l { q with uses := uses } = { put l q with uses := uses }
  logger : ∀ l q, (put l q).defaultLogger = q.defaultLogger
  owns : ∀ l q, (put l q).Owns r ↔ ∃ fd running, l = some ⟨some fd, running⟩ ∧ 0 < fd
  others : ∀ l q x, x ≠ r → ((put l q).Owns x ↔ q.Owns x)

/-- The UDP server is the member that owns the UDP socket, -/
theorem udpMember : IsMember .udpSocket udpServer fun u p => { p with udpServer := u } where
  part_put := fun _ _ => rfl
  put_put := fun _ _ _ => rfl
  put_part := fun _ => rfl
  part_uses := fun _ _ => rfl
  put_uses := fun _ _ _ => rfl
  logger := fun _ _ => rfl
  owns := fun _ _ => Iff.rfl
  others := fun l q x hx => by cases x <;> first | exact absurd rfl hx | exact Iff.rfl

/-- and the TCP server the one that owns the listening socket. -/
theorem tcpMember : IsMember .tcpSocket tcpServer fun t p => { p with tcpServer := t } where
  part_put := fun _ _ => rfl
  put_put := fun _ _ _ => rfl
  put_part := fun _ => rfl
  part_uses := fun _ _ => rfl
  put_uses := fun _ _ _ => rfl
  logger := fun _ _ => rfl
  owns := fun _ _ => Iff.rfl
  others := fun l q x hx => by cases x <;> first | exact absurd rfl hx | exact Iff.rfl

section
variable {part : Process → Option Listener} {put : Option Listener → Process → Process}

/-- A member can be read off the process without its history. -/
theorem Settled.part_eq (h : Settled twice q held p) (hmember : IsMember r part put) :
    part p = part q := by
  obtain ⟨uses, rfl, -⟩ := h
  exact hmember.part_uses q uses

/-- A listener may change as long as its socket does not. -/
theorem Settled.listener (h : Settled twice q held p) (hmember : IsMember r part put)
    {l : Option Listener}
    (hsame : (∃ fd running, l = some ⟨some fd, running⟩ ∧ 0 < fd) ↔ q.Owns r) :
    Settled twice (put l q) held (put l p) := by
  have hmoved := h.move (put l q) held fun x => by
    by_cases hx : x = r
    · rw [hx, hmember.owns, hsame]
    · rw [hmember.others l q x hx]
  obtain ⟨uses, rfl, -⟩ := h
  rw [hmember.put_uses l q uses]
  exact hmoved

/-- The listener closes its socket, and gives it up. -/
theorem closeSocket_settled {fd : Nat} {running : Bool} (hlog : CanLog env q.defaultLogger)
    (hmember : IsMember r part put) (h : Settled twice q held p) (hapart : q.Owns r → r ∉ held)
    (hlistener : part q = some ⟨some fd, running⟩) :
    Returns (closeSocket env r fd) p fun _ p' =>
      ∀ l, (∀ fd running, l ≠ some ⟨some fd, running⟩) →
        Settled twice (put l q) held (put l p') := by
  -- an open socket is one with a positive descriptor
  have howns : q.Owns r ↔ 0 < fd := by
    rw [← hmember.put_part q, hmember.owns, hlistener]
    simp
  -- it is closed and then forgotten; descriptor 0 is forgotten without being closed
  by_cases hfd : 0 < fd
  · rw [closeSocket, if_pos hfd, Returns, ensures_bind, ensures_release]
    obtain ⟨uses, rfl, htracks⟩ := h
    refine ensures_log_of hlog fun l hl => ⟨_, hmember.put_uses l q _, ?_⟩
    refine (htracks.release (.inr (howns.mpr hfd))).congr fun x => ?_
    by_cases hx : x = r
    · subst hx
      have hgone : ¬ (put l q).Owns x := fun hown => by
        obtain ⟨fd', running', heq, -⟩ := (hmember.owns l q).mp hown
        exact hl fd' running' heq
      simp [hgone, hapart (howns.mpr hfd)]
    · simp [hmember.others l q x hx, hx]
  · rw [closeSocket, if_neg hfd]
    intro l hl
    refine h.listener hmember (iff_of_false ?_ fun hown => hfd (howns.mp hown))
    rintro ⟨fd', running', heq, -⟩
    exact hl fd' running' heq

/-- `start` of a listener binds it, or leaves it as it is. -/
theorem startListener_settled {calls : SocketCalls} {isListening : Bool} {socket : Option Nat}
    (hlog : CanLog env q.defaultLogger) (hmember : IsMember r part put) (h : Settled twice q held p)
    (hlistener : part q = some ⟨socket, false⟩) :
    Ensures (startListener env part put calls isListening) p
      (fun _ p' => calls.Binds isListening ∧ Settled twice (put (some ⟨socket, true⟩) q) held p')
      (fun e p' => e = .exception ∧ ¬ calls.Binds isListening ∧ Settled twice q held p') := by
  rw [startListener, ensures_bind, ensures_get, (h.part_eq hmember).trans hlistener]
  simp only [Bool.false_eq_true, if_false]
  rw [ensures_bind, ensures_catching, ensures_bind, ensures_log (h.canLog hlog), ensures_bind]
  -- `bind` is called within a `try` whose handler throws another exception
  refine (bind_settled (h.canLog hlog) calls isListening).mono ?_ ?_
  · rintro _ p' ⟨hbinds, rfl⟩
    have hsame : (∃ fd running, some (Listener.mk socket true) = some ⟨some fd, running⟩ ∧ 0 < fd) ↔
        q.Owns r := by
      rw [← hmember.put_part q, hmember.owns, hlistener]
      simp
    have hstarted := h.listener hmember hsame
    rw [ensures_modify]
    refine ensures_log_of (hstarted.canLog ?_) ⟨hbinds, hstarted⟩
    rw [hmember.logger]
    exact hlog
  · rintro e p' ⟨rfl, hfails, rfl⟩
    show Ensures (do log env; throw .exception) p' _ _
    rw [ensures_bind, ensures_log (h.canLog hlog), ensures_throw]
    exact ⟨rfl, hfails, h⟩

end

/-- The process with these servers. -/
def servers (w : Process) (udp : Option Listener) (http : Option HttpListener)
    (tcp : Option Listener) : Process :=
  { w with udpServer := udp, httpServer := http, tcpServer := tcp }

/-- A running HTTP server has its thread, and only a running one. -/
def HttpConsistent (q : Process) : Prop :=
  ∀ http, q.httpServer = some http → http.joinable = http.running

/-- What is held is not owned as well. -/
def Apart (q : Process) (held : List Resource) : Prop :=
  ∀ r ∈ held, ¬ q.Owns r

/-- The process is `w` but for its servers, and `held` has not been released besides. There is an
UDP server if its socket could be created. -/
def Serving (env : Environment) (twice : Bool) (w : Process) (held : List Resource) (p : Process) :
    Prop :=
  ∃ udp http tcp, Settled twice (servers w udp http tcp) held p ∧
    HttpConsistent (servers w udp http tcp) ∧ Apart (servers w udp http tcp) held ∧
    (env.udp.Opens → udp ≠ none)

variable {w : Process}

/-- Nothing is held, so nothing is held that is owned as well. -/
theorem apart_nil : Apart q [] :=
  fun _ h => absurd h List.not_mem_nil

/-- An HTTP server that has just come up, or has not, is consistent. -/
theorem httpConsistent_eq {udp tcp : Option Listener} (b : Bool) :
    HttpConsistent (servers w udp (some ⟨b, b⟩) tcp) := by
  intro http hsome
  cases hsome
  rfl

/-- A socket that `close` would not close is not owned. -/
theorem apart_udp {http : Option HttpListener} {tcp : Option Listener} {running : Bool} (fd : Nat) :
    Apart (servers w (some ⟨some fd, running⟩) http tcp) (spared .udpSocket fd) := by
  unfold spared
  split
  · subst fd
    simp [Apart, Owns, servers]
  · exact apart_nil

/-- The same with both sockets. -/
theorem apart_both {http : Option HttpListener} {running running' : Bool} (fd fd' : Nat) :
    Apart (servers w (some ⟨some fd, running⟩) http (some ⟨some fd', running'⟩))
      (spared .tcpSocket fd' ++ spared .udpSocket fd) := by
  intro r hr
  rcases List.mem_append.mp hr with htcp | hudp
  · unfold spared at htcp
    split at htcp
    · subst fd'
      simp_all [Owns, servers]
    · cases htcp
  · exact apart_udp fd r hudp

/-- **The servers start**, or what has been made of them is still in its members. -/
theorem initializeServers_serving (hlog : CanLog env w.defaultLogger)
    (h : Settled twice (servers w none none none) [] p) (hmanages : w.sessionManager = true) :
    Ensures (initializeServers env) p
      (fun ok p' => ok = true ∧ env.ServersStart ∧ Serving env twice w env.unclosed p')
      (fun e p' => e = .exception ∧ ¬ env.ServersStart ∧ Serving env twice w env.unclosed p') := by
  have hmanager : p.sessionManager = true := by
    obtain ⟨uses, rfl, -⟩ := h
    exact hmanages
  rw [initializeServers, ensures_bind, ensures_get, hmanager, Bool.not_true, if_neg (by decide),
    ensures_bind]
  refine (makeUdpServer_settled (q := servers w none none none) hlog h rfl).mono ?_ ?_
  swap
  · rintro e p' ⟨rfl, hfails, hsettled⟩
    have hnothing : env.unclosed = [] := by simp [Environment.unclosed, hfails]
    rw [hnothing]
    exact ⟨rfl, fun hstart => hfails hstart.1, none, none, none, hsettled,
      by simp [HttpConsistent, servers], apart_nil, fun hopens => absurd hopens hfails⟩
  rintro _ p₁ ⟨hudp, fdU, hfdU, h₁⟩
  rw [ensures_bind]
  refine (makeHttpServer_settled (q := servers w (some ⟨some fdU, false⟩) none none) hlog h₁
    rfl).mono ?_ fun _ _ hf => hf.elim
  intro _ p₂ h₂
  rw [ensures_bind]
  have hother : .tcpSocket ∉ spared .udpSocket fdU := by
    unfold spared
    split <;> simp
  refine (makeTcpServer_settled
    (q := servers w (some ⟨some fdU, false⟩) (some ⟨false, false⟩) none)
    hlog h₂ rfl hother).mono ?_ ?_
  swap
  · rintro e p' ⟨rfl, hfails, hsettled⟩
    have hunclosed : env.unclosed = spared .udpSocket fdU := by
      simp [Environment.unclosed, hfails, hudp, hfdU, spared]
    rw [hunclosed]
    exact ⟨rfl, fun hstart => hfails hstart.2.1, _, _, none, hsettled, httpConsistent_eq false,
      apart_udp fdU, by simp⟩
  rintro _ p₃ ⟨htcp, fdT, hfdT, h₃⟩
  have hunclosed : env.unclosed = spared .tcpSocket fdT ++ spared .udpSocket fdU := by
    simp [Environment.unclosed, htcp, hudp, hfdT, hfdU, spared]
  rw [hunclosed]
  have hthread : .httpThread ∉ spared .tcpSocket fdT ++ spared .udpSocket fdU := by
    unfold spared
    split <;> split <;> simp
  -- the sockets exist: what is left is to bind them
  rw [ensures_bind]
  refine (startListener_settled
    (q := servers w (some ⟨some fdU, false⟩) (some ⟨false, false⟩) (some ⟨some fdT, false⟩))
    hlog udpMember h₃ rfl).mono ?_ ?_
  swap
  · rintro e p' ⟨rfl, hfails, hsettled⟩
    exact ⟨rfl, fun hstart => hfails hstart.2.2.1, _, _, _, hsettled, httpConsistent_eq false,
      apart_both fdU fdT, by simp⟩
  rintro _ p₄ ⟨hbindsU, h₄⟩
  rw [ensures_bind]
  refine (startHttp_settled
    (q := servers w (some ⟨some fdU, true⟩) (some ⟨false, false⟩) (some ⟨some fdT, false⟩))
    hlog h₄ rfl hthread).mono ?_ fun _ _ hf => hf.elim
  intro _ p₅ h₅
  rw [ensures_bind]
  refine (startListener_settled
    (q := servers w (some ⟨some fdU, true⟩) (some ⟨env.httpStarts, env.httpStarts⟩)
      (some ⟨some fdT, false⟩))
    hlog tcpMember h₅ rfl).mono ?_ ?_
  swap
  · rintro e p' ⟨rfl, hfails, hsettled⟩
    exact ⟨rfl, fun hstart => hfails hstart.2.2.2, _, _, _, hsettled,
      httpConsistent_eq env.httpStarts, apart_both fdU fdT, by simp⟩
  rintro _ p₆ ⟨hbindsT, h₆⟩
  rw [ensures_bind, ensures_log (h₆.canLog hlog)]
  exact ⟨rfl, ⟨hudp, htcp, hbindsU, hbindsT⟩, some ⟨some fdU, true⟩,
    some ⟨env.httpStarts, env.httpStarts⟩, some ⟨some fdT, true⟩, h₆,
    httpConsistent_eq env.httpStarts, apart_both fdU fdT, by simp⟩

end Process
end Pgw
