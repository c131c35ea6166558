import MiniPgw.Lib.Handles
import MiniPgw.Server.Config

/-!
# Startup — the life of a server process

`Server::run` and `Server::~Server` of `pgw/server/Server.cpp`, with what they call on the way: the
logger, the `DatabaseManager`, the constructors and destructors of the CDR writers and of the three
servers, and the constructors of the sockets.

`main` constructs the server, runs it and destroys it. The event loop is present by the way in which
it ends, if it ends at all (`LoopEnd`); what the system and the libraries answer comes with the
`Environment`. `uses` is the history of what the code of the server acquires and has to give back.

Two things stay outside. The log file, the thread of the pool and the one that flushes periodically
belong to spdlog: its sinks and its registry give them back, the threads after `main`. The
descriptors of the clients that `TcpServer` accepts are the subject of its own model. Memory does
not run out.
-/

namespace Pgw

open Handles (Use Held)

/-! ## The environment

Everything that the life of a process depends on and that the process cannot decide: files, memory,
sockets, threads, the database, and how the event loop ends. -/

/-- The statements that `DatabaseCdrWriter` prepares. -/
inductive Sql where
  | SQL_WRITE_CDR
  | SQL_RECENT_CDR
  deriving DecidableEq, Repr

/-- What the code of the server acquires itself, up to the clients that it accepts, and has to give
back to the system or to a library. -/
inductive Resource where
  /-- `sqlite3*` -/
  | connection
  /-- `sqlite3_stmt*` -/
  | statement (sql : Sql)
  /-- The thread of `flushLoop`. -/
  | flusher
  | writeFile
  | readFile
  | udpSocket
  | tcpSocket
  /-- The thread in which the HTTP library listens. -/
  | httpThread
  | epollFd
  | timerFd
  deriving DecidableEq, Repr

/-- What the system calls for one socket return; `true` is success. -/
structure SocketCalls where
  /-- `socket` -/
  fd : Option Nat
  /-- `setsockopt` -/
  reuse : Bool
  /-- `fcntl(fd, F_GETFL)` -/
  getFlags : Bool
  /-- `fcntl(fd, F_SETFL)` -/
  setFlags : Bool
  /-- `SocketUtils::createAddress` finds an address. -/
  resolves : Bool
  /-- `bind` -/
  binds : Bool
  /-- `listen`, for a listening socket. -/
  listens : Bool

/-- How `runEventLoop` gets out of its loop, if it does. -/
inductive LoopEnd where
  /-- `state` is `STOPPED`. -/
  | stopped
  /-- `epoll_wait` has failed. -/
  | left
  /-- An exception. -/
  | threw
  /-- It does not: nobody has requested a shutdown, or the drain timer never expires. -/
  | goesOn
  deriving DecidableEq, Repr

/-- What the system and the libraries answer in the life of one process. -/
structure Environment where
  config : Config
  /-- `spdlog::init_thread_pool` does not throw. -/
  poolStarts : Bool
  /-- The rotating sink opens its file. -/
  logFileOpens : Bool
  /-- `spdlog::flush_every` does not throw. -/
  flushesPeriodically : Bool
  /-- `sqlite3_open` -/
  sqliteOpens : Bool
  /-- `sqlite3_exec` of `SQL_SCHEMA_CREATE`. -/
  createsTable : Bool
  /-- `sqlite3_prepare_v2` -/
  prepares : Sql → Bool
  /-- The constructor of `m_thread` does not throw. -/
  flusherStarts : Bool
  cdrFileWrites : Bool
  cdrFileReads : Bool
  udp : SocketCalls
  /-- The constructor of `m_serverThread` does not throw. -/
  httpStarts : Bool
  tcp : SocketCalls
  /-- `epoll_create1` -/
  epoll : Bool
  /-- `timerfd_create` -/
  timer : Bool
  loopEnd : LoopEnd
  /-- There is something left for the last flush. -/
  buffered : Bool
  /-- spdlog can be used when its default logger has been dropped. -/
  logsWithoutDefault : Bool

/-! ## The process

What a process has, by its members, and beside it the history of what it has acquired and given
back. The results compare the two. -/

/-- The default logger of spdlog, which the macros write to. -/
inductive DefaultLogger where
  /-- The one that spdlog has from the start. -/
  | library
  /-- `g_logger` -/
  | pgw
  | dropped
  deriving DecidableEq, Repr

/-- What `m_cdrWriter` points to: the files are those that are open. -/
inductive CdrBackEnd where
  | database
  | file (write read : Bool)
  deriving DecidableEq, Repr

/-- An `UdpServer` or a `TcpServer`, with its socket. -/
structure Listener where
  socket : Option Nat
  running : Bool
  deriving DecidableEq, Repr

/-- An `HttpServer`: is `m_serverThread` joinable? -/
structure HttpListener where
  running : Bool
  joinable : Bool
  deriving DecidableEq, Repr

/-- The members of `Server::Impl` but for `m_tcpHandler`, which owns nothing that the others do not,
the logger and the history of the resources. -/
structure Process where
  /-- `g_logger` is not null. -/
  gLogger : Bool
  defaultLogger : DefaultLogger
  /-- `m_dbManager` is not null; it is connected then. -/
  dbManager : Bool
  cdrWriter : Option CdrBackEnd
  sessionManager : Bool
  tcpServer : Option Listener
  udpServer : Option Listener
  httpServer : Option HttpListener
  /-- The writer has flushed for the last time. -/
  lastFlush : Bool
  uses : List (Use Resource)

namespace Process

/-- Why a call does not return. -/
inductive Halt where
  /-- A `std::exception` was thrown. -/
  | exception
  /-- Undefined behaviour, or a failed assertion. -/
  | undefined
  /-- It goes on for ever. -/
  | forever
  deriving DecidableEq, Repr

/-- A method of `Server`, of its members or of `Logger`: it may throw, end the process, or not
return. -/
abbrev Method := EStateM Halt Process

/-- `try { body } catch (const std::exception&) { handler }` -/
def catching {α : Type} (body handler : Method α) : Method α :=
  Effects.handling .exception body handler

/-- The process in which `Server` is constructed. -/
def initial : Process where
  gLogger := false
  defaultLogger := .library
  dbManager := false
  cdrWriter := none
  sessionManager := false
  tcpServer := none
  udpServer := none
  httpServer := none
  lastFlush := false
  uses := []

/-- The process gets a resource of the system or of a library. -/
def acquire (r : Resource) : Method Unit :=
  modify fun p => { p with uses := p.uses ++ [.acquired r] }

/-- The process gives it back. -/
def release (r : Resource) : Method Unit :=
  modify fun p => { p with uses := p.uses ++ [.released r] }

/-- An `if` without `else`. -/
def onlyIf (condition : Bool) (body : Method Unit) : Method Unit :=
  if condition then body else pure ()

variable (env : Environment)

/-! ## The logger

The macros write through the default logger of spdlog, which `shutdown` drops. From then on a macro
dereferences a null pointer. -/

/-- `LOG_INFO` and the like: `spdlog::info` dereferences the default logger. -/
def log : Method Unit := do
  let p ← get
  if p.defaultLogger = .dropped ∧ env.logsWithoutDefault = false then throw .undefined else pure ()

/-- The names of the levels, as `parse_level` has them. -/
def levels : List Bytes :=
  [ascii "TRACE", ascii "DEBUG", ascii "INFO", ascii "WARN", ascii "ERROR", ascii "CRITICAL"]

/-- `logger::init` -/
def init : Method Unit := do
  let p ← get
  if p.gLogger then log env
  -- what is thrown here leaves `g_logger` null
  else if !env.poolStarts then throw .exception
  else do
    modify fun p => { p with gLogger := true }
    -- `parse_level` throws, and `init` throws again
    if levels.contains env.config.logLevel then do
      modify fun p => { p with defaultLogger := .pgw }
      log env
    else throw .exception

/-- `logger::addFileSink` -/
def addFileSink : Method Unit := do
  let p ← get
  if p.gLogger then
    if !env.logFileOpens then throw .exception
    else if !env.flushesPeriodically then throw .exception
    else log env
  else log env

/-- `logger::shutdown` -/
def shutdownLogger : Method Unit := do
  let p ← get
  if p.gLogger then
    modify fun p => { p with
      gLogger := false
      -- `spdlog::drop` drops the default logger only if it is the one that is dropped
      defaultLogger := if p.defaultLogger = .pgw then .dropped else p.defaultLogger }
  else log env

/-- `Logger::init` with what the configuration says; an exception leaves it half made. -/
def initializeLogger : Method Bool := do
  init env
  addFileSink env
  let p ← get
  pure p.gLogger

/-! ## The database

Opening the database never throws: a failure leaves the process without one, and the records go into
files. -/

/-- `sqlite3_close`: with a statement that is not finalized it is `SQLITE_BUSY`. -/
def closeConnection : Method Unit := do
  let p ← get
  if Held (.statement .SQL_WRITE_CDR) p.uses ∨ Held (.statement .SQL_RECENT_CDR) p.uses then pure ()
  else release .connection

/-- `DatabaseManager::initialize`: what the PRAGMAs return is not looked at. -/
def openDatabase : Method Bool := do
  acquire .connection
  if env.sqliteOpens then pure true
  else do
    closeConnection
    pure false

/-- The connection is opened and kept, or closed again with a message. Without a file name there is
no database. -/
def initializeDatabase : Method Bool := do
  if env.config.databaseFile = [] then pure false
  else do
    let opened ← openDatabase env
    if opened then do
      modify fun p => { p with dbManager := true }
      log env
      pure true
    else pure false

/-! ## The CDR writers

Two back ends. The constructor of one throws when it cannot be of use; that of the other logs the
failure and goes on without its file. -/

/-- `DatabaseManager::prepareStatement` -/
def prepareStatement (sql : Sql) : Method Bool := do
  if env.prepares sql then do
    acquire (.statement sql)
    pure true
  else pure false

/-- The constructor of `DatabaseCdrWriter`. Its destructor does not run if it throws. -/
def createDatabase : Method CdrBackEnd := do
  if !env.createsTable then throw .exception
  else do
    let write ← prepareStatement env .SQL_WRITE_CDR
    let recent ← prepareStatement env .SQL_RECENT_CDR
    if !write || !recent then throw .exception
    else if !env.flusherStarts then throw .exception
    else do
      acquire .flusher
      log env
      pure .database

/-- The constructor of `FileCdrWriter`. -/
def createFile : Method CdrBackEnd := do
  if !env.cdrFileWrites then do
    log env
    pure (.file false false)
  else do
    acquire .writeFile
    if !env.cdrFileReads then do
      log env
      pure (.file true false)
    else do
      acquire .readFile
      log env
      pure (.file true true)

/-- The writer of the database if there is one, else that of the file. Only the first constructor
can throw. -/
def initializeCdrWriter : Method Bool := do
  let p ← get
  if p.dbManager then do
    let writer ← createDatabase env
    modify fun p => { p with cdrWriter := some writer }
    log env
    pure true
  else do
    let writer ← createFile env
    modify fun p => { p with cdrWriter := some writer }
    log env
    pure true

/-- The session manager refers to the CDR writer, which has to be there. -/
def initializeSessionManager : Method Bool := do
  let p ← get
  if p.cdrWriter.isNone then do
    log env
    pure false
  else do
    modify fun p => { p with sessionManager := true }
    log env
    pure true

/-! ## The sockets

The socket classes close positive descriptors only. A process that was started without a standard
input may get the descriptor 0, which is then never closed. -/

/-- The constructors of `UdpSocket` and of `TcpSocket`: a descriptor that cannot be set up is closed
again. -/
def createSocket (r : Resource) (calls : SocketCalls) : Method Nat := do
  match calls.fd with
  | none => throw .exception
  | some fd => do
    acquire r
    if !calls.reuse then do
      release r
      throw .exception
    else if !calls.getFlags then do
      release r
      throw .exception
    else if !calls.setFlags then do
      release r
      throw .exception
    else do
      log env
      pure fd

def createUdp : Method Nat :=
  createSocket env .udpSocket env.udp

def createTcp : Method Nat :=
  createSocket env .tcpSocket env.tcp

/-- `UdpSocket::bind` and `TcpSocket::bind` -/
def bind (calls : SocketCalls) (isListening : Bool) : Method Unit := do
  if !calls.resolves then throw .exception
  else if !calls.binds then throw .exception
  else if isListening && !calls.listens then throw .exception
  else log env

/-- `close`, also in the destructor: the descriptor 0 is not closed. -/
def closeSocket (r : Resource) (fd : Nat) : Method Unit := do
  if 0 < fd then do
    release r
    log env
  else pure ()

/-! ## The servers

Construction and start are two stages: a listener that could not be started is still a member, and
is destroyed with its socket. -/

/-- `std::make_unique<UdpServer>(…, SocketFactory::createUdp())` -/
def makeUdpServer : Method Unit := do
  log env
  let fd ← createUdp env
  log env
  modify fun p => { p with udpServer := some ⟨some fd, false⟩ }

/-- `std::make_unique<HttpServer>` -/
def makeHttpServer : Method Unit := do
  log env
  modify fun p => { p with httpServer := some ⟨false, false⟩ }

/-- `std::make_unique<TcpServer>`, which creates its socket and throws another exception if that
throws. -/
def makeTcpServer : Method Unit := do
  let fd ← catching
    (do
      log env
      createTcp env)
    (do
      log env
      throw .exception)
  log env
  modify fun p => { p with tcpServer := some ⟨some fd, false⟩ }

/-- `start` of a listener, for the member that `part` and `put` give: it binds, or throws another
exception. -/
def startListener (part : Process → Option Listener) (put : Option Listener → Process → Process)
    (calls : SocketCalls) (isListening : Bool) : Method Unit := do
  let p ← get
  match part p with
  | none => throw .undefined
  | some listener =>
    if listener.running then log env
    else do
      catching
        (do
          log env
          bind env calls isListening
          modify (put (some { listener with running := true })))
        (do
          log env
          throw .exception)
      log env

/-- `UdpServer::start` -/
def startUdp : Method Unit :=
  startListener env udpServer (fun u p => { p with udpServer := u }) env.udp false

/-- `TcpServer::start` -/
def startTcp : Method Unit :=
  startListener env tcpServer (fun t p => { p with tcpServer := t }) env.tcp true

/-- `HttpServer::start`: without its thread the server goes on. -/
def startHttp : Method Unit := do
  let p ← get
  match p.httpServer with
  | none => throw .undefined
  | some http =>
    if http.running then log env
    else if env.httpStarts then do
      acquire .httpThread
      modify fun p => { p with httpServer := some ⟨true, true⟩ }
      log env
    else do
      log env
      log env

/-- The three servers are constructed, then started. The HTTP server may fail to start without
consequences. -/
def initializeServers : Method Bool := do
  let p ← get
  if !p.sessionManager then do
    log env
    pure false
  else do
    makeUdpServer env
    makeHttpServer env
    makeTcpServer env
    startUdp env
    startHttp env
    startTcp env
    log env
    pure true

/-- `UdpServer::stop` -/
def stopUdp : Method Unit := do
  let p ← get
  match p.udpServer with
  | none => pure ()
  | some udp =>
    if udp.running then do
      modify fun p => { p with udpServer := some { udp with running := false } }
      log env
    else pure ()

/-- `TcpServer::stop`, without the clients: the socket is closed and reset. -/
def stopTcp : Method Unit := do
  let p ← get
  match p.tcpServer with
  | none => pure ()
  | some tcp =>
    if tcp.running then do
      log env
      modify fun p => { p with tcpServer := some { tcp with running := false } }
      match tcp.socket with
      | none => pure ()
      | some fd => do
        closeSocket env .tcpSocket fd
        modify fun p => { p with tcpServer := some ⟨none, false⟩ }
      log env
    else pure ()

/-- `HttpServer::stop`: the library's server stops, so that the thread can be joined. -/
def stopHttp : Method Unit := do
  let p ← get
  match p.httpServer with
  | none => pure ()
  | some http =>
    if http.running then do
      log env
      modify fun p => { p with httpServer := some { http with running := false } }
      onlyIf http.joinable do
        release .httpThread
        modify fun p => { p with httpServer := some ⟨false, false⟩ }
      log env
    else log env

/-! ## run

`runEventLoop` has two guards, for epoll and for the timer. One of the closures in it copies the
guard of epoll, and the copy closes the descriptor as well. -/

/-- A destructor that runs at the end of a scope, also when an exception leaves the scope. -/
def atScopeEnd (destructor body : Method Unit) : Method Unit := do
  catching body
    (do
      destructor
      throw .exception)
  destructor

/-- A `SocketGuard` around the rest of a function. -/
def guarded (r : Resource) (created : Bool) (body : Method Unit) : Method Unit := do
  if created then do
    acquire r
    atScopeEnd (release r) body
  else body

/-- What the loop does to the process when it ends, or does not. -/
def loop : Method Unit :=
  match env.loopEnd with
  | .stopped => do
    stopUdp env
    stopTcp env
    stopHttp env
    log env
  | .left => log env
  | .threw => throw .exception
  | .goesOn => throw .forever

def runEventLoop : Method Unit := do
  if !env.epoll then log env
  else
    guarded .epollFd true <|
      -- the closure `addToEpoll` has a copy of the guard, whose destructor closes the descriptor
      -- too
      atScopeEnd (release .epollFd) <|
        guarded .timerFd env.timer (loop env)

/-- `Server::run` up to its handler. -/
def serve : Method Int := do
  if !env.config.isValid then pure 1
  else do
    let initialised ← initializeLogger env
    if !initialised then pure 1
    else do
      let opened ← initializeDatabase env
      onlyIf (!opened) (log env)
      let writes ← initializeCdrWriter env
      if !writes then do
        log env
        pure 1
      else do
        let manages ← initializeSessionManager env
        if !manages then do
          log env
          pure 1
        else do
          let started ← initializeServers env
          if !started then do
            log env
            pure 1
          else do
            log env
            runEventLoop env
            log env
            pure 0

/-- `Server::run`: whatever is thrown in `serve` is logged, and the exit code is 1. -/
def run : Method Int :=
  catching (serve env) do
    let p ← get
    onlyIf p.gLogger do
      log env
      shutdownLogger env
    pure 1

/-! ## ~Server

The members are destroyed in the reverse order of their declaration. If an exception has left
`serve`, the logger is gone by then. -/

/-- A thread that is still joinable ends the program. -/
def destroyHttpServer : Method Unit := do
  let p ← get
  onlyIf (p.httpServer.any (·.running)) (stopHttp env)
  let p ← get
  if p.httpServer.any (·.joinable) then throw .undefined
  else modify fun p => { p with httpServer := none }

/-- The destructor of a listener: it stops a running server, and its socket is closed. -/
def destroyListener (part : Process → Option Listener)
    (put : Option Listener → Process → Process) (stop : Method Unit) (r : Resource) :
    Method Unit := do
  let p ← get
  match part p with
  | none => pure ()
  | some listener => do
    onlyIf listener.running stop
    log env
    let p ← get
    match (part p).bind (·.socket) with
    | some fd => closeSocket env r fd
    | none => pure ()
    modify (put none)

def destroyUdpServer : Method Unit :=
  destroyListener env udpServer (fun u p => { p with udpServer := u }) (stopUdp env) .udpSocket

def destroyTcpServer : Method Unit :=
  destroyListener env tcpServer (fun t p => { p with tcpServer := t }) (stopTcp env) .tcpSocket

/-- The destructors of the CDR writers. -/
def destroyCdrWriter : Method Unit := do
  let p ← get
  match p.cdrWriter with
  | none => pure ()
  | some .database => do
    release .flusher
    modify fun p => { p with lastFlush := true }
    onlyIf env.buffered (log env)
    release (.statement .SQL_WRITE_CDR)
    release (.statement .SQL_RECENT_CDR)
    log env
    modify fun p => { p with cdrWriter := none }
  | some (.file write read) => do
    onlyIf write (release .writeFile)
    onlyIf read (release .readFile)
    log env
    modify fun p => { p with cdrWriter := none }

/-- `DatabaseManager::cleanup` -/
def destroyDbManager : Method Unit := do
  let p ← get
  if p.dbManager then do
    closeConnection
    modify fun p => { p with dbManager := false }
  else pure ()

/-- `Server::~Server`: the members of `Impl`, the last one first. -/
def destroy : Method Unit := do
  destroyHttpServer env
  destroyUdpServer env
  destroyTcpServer env
  modify fun p => { p with sessionManager := false }
  destroyCdrWriter env
  destroyDbManager

/-- `main` -/
def main : Method Int := do
  let code ← run env
  destroy env
  pure code

end Process
end Pgw
