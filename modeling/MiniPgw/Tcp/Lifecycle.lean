import MiniPgw.Tcp.ProcessEvent

/-!
# The lifecycle of the TCP server

The public calls of a `TcpServer` in any order, from either constructor. `stop` destroys `m_socket`,
and `start` binds whatever `m_socket` is; the test constructor leaves `m_stopAccepting` without a
value, which the production one sets.

`Lifecycle` is the part of the history of calls that matters: whether the server runs, whether it
has been stopped, and whether the flag has been set. The server follows it (`Tracks`), so that it
says which call is safe (`safeCall_iff`); `keepsLifecycle_iff` puts this on sequences of calls.

## The architecture

* **`Misuses`**, **`StartReports`**, **`SafeCall`** — what is asked of one call, in terms of the
  server.
* **`Lifecycle`**, **`Lifecycle.after`**, **`Lifecycle.permits`** — the same in terms of the
  history.
* **`Tracks`**, **`publicStep_tracks`**, **`exec_tracks`** — the server follows the history: one
  lemma for each method that touches the listener, a frame lemma for the others.
* **`misuses_iff`**, **`startReports_of_defined`**, **`safeCall_iff`** — so both say the same of a
  call.
* **`keepsLifecycle_iff`** — and of a sequence of calls.
-/

namespace Pgw

open Protocol Effects

namespace TcpServer

variable {η : Type}

/-! ## The public calls

Everything that a user of the class can call, in any order, from either constructor. -/

/-- The two constructors of `TcpServer`. -/
inductive Constructor where
  | production
  | test
  deriving DecidableEq, Repr

/-- The server that the constructor leaves, with its socket. -/
def Constructor.build (how : Constructor) (handler : η) (socket : Nat) : TcpServer η :=
  match how with
  | .production => constructed handler socket
  | .test => constructedWith handler socket

/-- A call from outside: of a method, or of `processEvent` with all that the system answers in it.
-/
inductive PublicCall where
  | call (c : ServerCall)
  | processEvent (outcomes : EventOutcomes)
  /-- A caller asks for the descriptor only while `isRunning()` is true. -/
  | getFd

/-- `m_socket->getFd()` -/
def getFd : Method η Nat := do
  let s ← get
  match s.socket with
  | none => throw .undefined
  | some fd => pure fd

section
variable (handle : Message → EStateM Fault η Message)

/-- What a public call runs. The descriptor is asked for as `runEventLoop` does it. -/
def performPublic : PublicCall → Method η Unit
  | .call c => perform handle c
  | .processEvent outcomes => TcpServer.processEvent handle outcomes
  | .getFd => do
    let s ← get
    if s.running then do
      let _ ← TcpServer.getFd
    else pure ()

/-- One public call; after undefined behaviour there is no server. -/
def publicStep (s : TcpServer η) (c : PublicCall) : Option (TcpServer η) :=
  afterCall (performPublic handle c) s

/-! ## Safe calls

A call misuses the server if it dereferences the socket after `stop`, or reads the flag that only
one constructor sets. -/

/-- The call dereferences a null `m_socket` or reads an `m_stopAccepting` without a value. In
`processEvent` only `acceptNewClient` can: what the traversal does is not about the listener. -/
def Misuses (s : TcpServer η) : PublicCall → Prop
  | .call c => Undefined (perform handle c) s
  | .processEvent outcomes => s.running = true ∧ Undefined (acceptNewClient outcomes.accept) s
  | .getFd => s.running = true ∧ Undefined getFd s

/-- `start` brings the server up or throws the documented exception. -/
def StartReports (s : TcpServer η) (bindSucceeds : Bool) : Prop :=
  ∃ s', ((start bindSucceeds).run s = .ok () s' ∧ s'.running = true) ∨
    (start bindSucceeds).run s = .error .exception s'

/-- What the call should be in this state. -/
def SafeCall (s : TcpServer η) (c : PublicCall) : Prop :=
  ¬ Misuses handle s c ∧ ∀ bindSucceeds, c = .call (.start bindSucceeds) →
    StartReports s bindSucceeds

/-- Every call of the sequence that is reached is safe. -/
def KeepsLifecycle (s₀ : TcpServer η) (calls : List PublicCall) : Prop :=
  ∀ pre c s, pre ++ [c] <+: calls → Run.exec (publicStep handle) s₀ pre = some s →
    SafeCall handle s c

end

/-! ## The history

The history forgets everything but three facts. `Tracks` ties them to the members of the
listener. -/

/-- What the calls so far amount to. -/
structure Lifecycle where
  /-- The last `start` that bound an address has not been followed by `stop`. -/
  running : Bool
  /-- A running server has been stopped. -/
  stopped : Bool
  /-- The constructor or `stopAccepting` has given `m_stopAccepting` a value. -/
  flagSet : Bool
  deriving DecidableEq, Repr

namespace Lifecycle

/-- Nothing has been called yet. Only the production constructor gives `m_stopAccepting` a value. -/
def initial (how : Constructor) : Lifecycle :=
  ⟨false, false, how == .production⟩

/-- How a call changes what the calls so far amount to. -/
def after (l : Lifecycle) : PublicCall → Lifecycle
  | .call (.start bindSucceeds) => { l with running := l.running || bindSucceeds }
  | .call .stop => { l with running := false, stopped := l.stopped || l.running }
  | .call .stopAccepting => { l with flagSet := true }
  | _ => l

/-- No `start` of a stopped server, and no client of a running one before the flag has a value. -/
def permits (l : Lifecycle) : PublicCall → Bool
  | .call (.start _) => !l.stopped || l.running
  | .call (.acceptNewClient _) | .processEvent _ => l.flagSet || !l.running
  | _ => true

/-- Each call is permitted by the history of those before it. -/
def orderly : Lifecycle → List PublicCall → Bool
  | _, [] => true
  | l, c :: calls => l.permits c && (l.after c).orderly calls

/-- In an orderly sequence each call is permitted when it comes. -/
theorem permits_of_orderly {c : PublicCall} {pre calls : List PublicCall}
    (hpre : pre ++ [c] <+: calls) :
    ∀ {l : Lifecycle}, l.orderly calls = true → (pre.foldl after l).permits c = true := by
  induction pre generalizing calls with
  | nil =>
    intro l horderly
    obtain ⟨post, rfl⟩ := hpre
    exact (Bool.and_eq_true_iff.mp horderly).1
  | cons d pre ih =>
    intro l horderly
    obtain ⟨post, rfl⟩ := hpre
    exact ih ⟨post, rfl⟩ (Bool.and_eq_true_iff.mp horderly).2

end Lifecycle

variable {handle : Message → EStateM Fault η Message} {s s' : TcpServer η} {l : Lifecycle}

/-- **The invariant**: the listener is in the state that the history says. -/
structure Tracks (l : Lifecycle) (s : TcpServer η) : Prop where
  running : s.running = l.running
  socket : s.socket.isSome = !l.stopped
  flag : s.stopAccepting.isSome = l.flagSet
  /-- A stopped server does not run again. -/
  once : l.running = true → l.stopped = false

/-- Either constructor begins the history. -/
theorem tracks_build (how : Constructor) (handler : η) (socket : Nat) :
    Tracks (.initial how) (how.build handler socket) := by
  cases how with
  | production => exact ⟨rfl, rfl, rfl, fun _ => rfl⟩
  | test => exact ⟨rfl, rfl, rfl, fun _ => rfl⟩

/-- The invariant is about the listener only. -/
theorem Tracks.of_sameListener (h : Tracks l s) (hsame : SameListener s s') : Tracks l s' where
  running := hsame.running ▸ h.running
  socket := hsame.socket ▸ h.socket
  flag := hsame.stopAccepting ▸ h.flag
  once := h.once

/-- What keeps the listener keeps the invariant. -/
theorem Tracks.yields {α : Type} {body : Method η α} (h : Tracks l s)
    (hbody : Preserves (SameListener s) body) : Yields body s (Tracks l) := by
  refine (hbody s (.refl s)).mono (fun _ s' hsame => h.of_sameListener hsame) ?_
  exact fun _ s' hsame _ => h.of_sameListener hsame

/-- A running server has its socket. -/
theorem Tracks.usable_iff (h : Tracks l s) (hrunning : s.running = true) :
    s.Usable ↔ l.flagSet = true := by
  have hstopped : l.stopped = false := h.once (h.running.symm.trans hrunning)
  constructor
  · exact fun husable => h.flag.symm.trans husable.stopAccepting
  · intro hflag
    refine ⟨?_, h.flag.trans hflag⟩
    rw [h.socket, hstopped]
    rfl

/-! ## What each call does to the listener

Of all calls only `start`, `stop` and `stopAccepting` change the listener. -/

/-- `start` runs the server if it can bind the address; an exception leaves it as it was. -/
theorem start_tracks (h : Tracks l s) (bindSucceeds : Bool) :
    Yields (start bindSucceeds) s (Tracks (l.after (.call (.start bindSucceeds)))) := by
  have hrun := h.running
  simp only [Yields, start, ensures_bind, ensures_get]
  cases hrunning : s.running with
  | true =>
    -- already running: the call only writes to the log
    refine ⟨?_, h.socket, h.flag, fun _ => h.once (hrun.symm.trans hrunning)⟩
    show s.running = (l.running || bindSucceeds)
    rw [← hrun, hrunning, Bool.true_or]
  | false =>
    cases hsocket : s.socket with
    | none =>
      -- the null pointer is dereferenced
      exact fun he => by cases he
    | some fd =>
      have hstopped : l.stopped = false := by
        have hisSome := h.socket
        rw [hsocket] at hisSome
        simpa using hisSome
      cases bindSucceeds with
      | false =>
        -- `bind` throws before `m_running` is set
        refine fun _ => ⟨?_, h.socket, h.flag, fun _ => hstopped⟩
        show s.running = (l.running || false)
        rw [hrun, Bool.or_false]
      | true =>
        refine ⟨?_, hsocket ▸ h.socket, h.flag, fun _ => hstopped⟩
        show true = (l.running || true)
        rw [Bool.or_true]

/-- `stop` takes the socket of a running server away for good. -/
theorem stop_tracks (h : Tracks l s) : Yields stop s (Tracks (l.after (.call .stop))) := by
  have hrun := h.running
  cases hrunning : s.running with
  | false =>
    unfold Yields Ensures
    rw [stop_run_idle hrunning]
    refine ⟨hrunning, ?_, h.flag, fun hfalse => by cases hfalse⟩
    show s.socket.isSome = !(l.stopped || l.running)
    rw [← hrun, hrunning, Bool.or_false]
    exact h.socket
  | true =>
    refine (stop_listener hrunning).mono ?_ fun _ _ hfalse => hfalse.elim
    rintro _ s' ⟨hrunning', hsocket', hflag'⟩
    refine ⟨hrunning', ?_, ?_, fun hfalse => by cases hfalse⟩
    · show s'.socket.isSome = !(l.stopped || l.running)
      rw [hsocket', ← hrun, hrunning, Bool.or_true]
      rfl
    · rw [hflag']
      exact h.flag

/-- The traversal of the clients does not touch the listener, -/
theorem serveClients_sameListener (o : EventOutcomes) (fds : List Nat) :
    Preserves (SameListener s) (serveClients handle o fds) := by
  induction fds with
  | nil => exact preserves_pure ()
  | cons fd fds ih =>
    refine (handleClientData_sameListener fd _ _).bind fun _ => preserves_get.bind fun u => ?_
    exact Preserves.ite ih (preserves_throw _)

/-- so `processEvent` does not either. -/
theorem processEvent_sameListener (o : EventOutcomes) :
    Preserves (SameListener s) (processEvent handle o) := by
  refine preserves_get.bind fun u => Preserves.ite (preserves_pure ()) ?_
  refine Preserves.tryCatch ((acceptNewClient_sameListener _).bind fun _ => ?_) fun e => ?_
  · exact preserves_get.bind fun u => serveClients_sameListener o u.clients.keys
  · cases e with
    | exception => exact preserves_pure ()
    | undefined => exact preserves_throw _

/-- To ask for the descriptor changes nothing. -/
theorem getFd_sameListener : Preserves (SameListener s) (getFd : Method η Nat) := by
  refine preserves_get.bind fun u => ?_
  cases u.socket with
  | none => exact preserves_throw _
  | some fd => exact preserves_pure fd

/-- **The step lemma**: the server goes on as the history says. -/
theorem publicStep_tracks {c : PublicCall} (h : Tracks l s)
    (hstep : publicStep handle s c = some s') : Tracks (l.after c) s' := by
  refine of_afterCall hstep ?_
  cases c with
  | call c =>
    cases c with
    | start bindSucceeds => exact start_tracks h bindSucceeds
    | stop => exact stop_tracks h
    | stopAccepting => exact ⟨h.running, h.socket, rfl, h.once⟩
    | acceptNewClient outcome =>
      exact h.yields ((acceptNewClient_sameListener outcome).bind fun _ => preserves_pure ())
    | handleClientData fd received sends =>
      exact h.yields
        ((handleClientData_sameListener fd received sends).bind fun _ => preserves_pure ())
  | processEvent outcomes => exact h.yields (processEvent_sameListener outcomes)
  | getFd =>
    refine h.yields (preserves_get.bind fun u => Preserves.ite ?_ (preserves_pure ()))
    exact getFd_sameListener.bind fun _ => preserves_pure ()

/-- **The run lemma.** -/
theorem exec_tracks {calls : List PublicCall} (h : Tracks l s)
    (hrun : Run.exec (publicStep handle) s calls = some s') :
    Tracks (calls.foldl Lifecycle.after l) s' := by
  have hstep : ∀ (l : Lifecycle) (s : TcpServer η) (c : PublicCall) (s' : TcpServer η),
      Tracks l s → publicStep handle s c = some s' → Tracks (l.after c) s' :=
    fun _ _ _ _ h hstep => publicStep_tracks h hstep
  exact Run.exec_foldl hstep h hrun

/-! ## Which calls are safe

By the invariant the state of the listener is known from the history, and with it which calls are
defined. -/

/-- `let _ ←` in front of `pure ()` changes no behaviour. -/
theorem undefined_discard_iff {α : Type} {body : Method η α} :
    Undefined (do let _ ← body; pure () : Method η Unit) s ↔ Undefined body s := by
  unfold Undefined
  rw [EStateM.run_bind]
  cases body.run s with
  | ok a t => simp
  | error e t => simp

/-- A call that returns has not run into undefined behaviour. -/
theorem not_undefined_of_returns {α : Type} {body : Method η α} {Q : α → TcpServer η → Prop}
    (h : Returns body s Q) : ¬ Undefined body s := by
  rintro ⟨s', hrun⟩
  exact h.of_run_error hrun

/-- `handleClientData` does not look at the listener. -/
theorem handleClientData_not_undefined (hhandle : Defined handle) (fd : Nat)
    (received : ReceiveOutcome) (sends : Nat → SendOutcome) :
    ¬ Undefined (handleClientData handle fd received sends) s := by
  by_cases hin : fd ∈ s.clients
  · let o : EventOutcomes := ⟨.failed, fun _ => received, fun _ => sends⟩
    obtain ⟨connected, u, hrun, -⟩ := handleClientData_run_client (o := o) hhandle hin
    rintro ⟨s', hundefined⟩
    rw [hrun] at hundefined
    cases hundefined
  · have hlookup : s.clients.lookup fd = none := AList.lookup_eq_none.mpr hin
    rintro ⟨s', hundefined⟩
    simp [handleClientData, hlookup] at hundefined

/-- `acceptNewClient` reads the flag of a running server, whatever the kernel answers. -/
theorem Tracks.accept_undefined_iff (h : Tracks l s) (outcome : AcceptOutcome) :
    Undefined (acceptNewClient outcome) s ↔ (l.flagSet || !l.running) = false := by
  rw [acceptNewClient_undefined_iff, ← h.running]
  cases hrunning : s.running with
  | false => simp
  | true =>
    rw [h.usable_iff hrunning]
    simp

/-- **A call is a misuse exactly if the history does not permit it**: each kind of call looks at one
thing, the socket or the flag. -/
theorem misuses_iff (hhandle : Defined handle) (h : Tracks l s) (c : PublicCall) :
    Misuses handle s c ↔ l.permits c = false := by
  cases c with
  | call c =>
    cases c with
    | start bindSucceeds =>
      show Undefined (start bindSucceeds) s ↔ (!l.stopped || l.running) = false
      rw [start_undefined_iff, ← h.socket, ← h.running]
      cases s.running <;> cases s.socket <;> simp
    | stop =>
      refine iff_of_false (not_undefined_of_returns (stop_running s)) ?_
      exact Bool.noConfusion
    | stopAccepting =>
      refine iff_of_false ?_ Bool.noConfusion
      rintro ⟨s', hrun⟩
      cases hrun
    | acceptNewClient outcome =>
      show Undefined (do let _ ← acceptNewClient outcome; pure ()) s ↔ _
      rw [undefined_discard_iff]
      exact h.accept_undefined_iff outcome
    | handleClientData fd received sends =>
      refine iff_of_false ?_ Bool.noConfusion
      exact undefined_discard_iff.not.mpr (handleClientData_not_undefined hhandle fd received sends)
  | processEvent outcomes =>
    have hrunning : Undefined (acceptNewClient outcomes.accept) s → s.running = true :=
      fun haccept => ((acceptNewClient_undefined_iff _).mp haccept).1
    -- `processEvent` returns before `acceptNewClient` if the server is not running
    show s.running = true ∧ Undefined (acceptNewClient outcomes.accept) s ↔ _
    rw [and_iff_right_of_imp hrunning]
    exact h.accept_undefined_iff outcomes.accept
  | getFd =>
    refine iff_of_false ?_ Bool.noConfusion
    rintro ⟨hrunning, s', hrun⟩
    -- a running server has not been stopped
    have hsocket : s.socket.isSome = true := by
      rw [h.socket, h.once (h.running.symm.trans hrunning)]
      rfl
    obtain ⟨fd, hfd⟩ := Option.isSome_iff_exists.mp hsocket
    simp [getFd, hfd] at hrun

/-- Undefined behaviour aside, `start` does what its documentation says. -/
theorem startReports_of_defined {bindSucceeds : Bool} (h : ¬ Undefined (start bindSucceeds) s) :
    StartReports s bindSucceeds := by
  cases hrunning : s.running with
  | true => exact ⟨s, .inl ⟨by simp [start, hrunning], hrunning⟩⟩
  | false =>
    cases hsocket : s.socket with
    | none => exact absurd ((start_undefined_iff bindSucceeds).mpr ⟨hrunning, hsocket⟩) h
    | some fd =>
      cases bindSucceeds with
      | true => exact ⟨{ s with running := true }, .inl ⟨by simp [start, hrunning, hsocket], rfl⟩⟩
      | false => exact ⟨s, .inr (by simp [start, hrunning, hsocket])⟩

/-- **Which calls are safe**: those that the history permits. -/
theorem safeCall_iff (hhandle : Defined handle) (h : Tracks l s) (c : PublicCall) :
    SafeCall handle s c ↔ l.permits c = true := by
  have hmisuses := misuses_iff hhandle h c
  rw [← Bool.not_eq_false, ← hmisuses]
  refine ⟨fun hsafe => hsafe.1, fun hdefined => ⟨hdefined, ?_⟩⟩
  rintro bindSucceeds rfl
  exact startReports_of_defined hdefined

/-- **When the lifecycle is kept.** From either constructor, for every sequence of public calls with
any outcomes of the sockets: exactly when every call that is reached is permitted by those before
it. -/
theorem keepsLifecycle_iff (hhandle : Defined handle) (how : Constructor) (handler : η)
    (socket : Nat) (calls : List PublicCall) :
    KeepsLifecycle handle (how.build handler socket) calls ↔
      ∀ pre c, pre ++ [c] <+: calls →
        (Run.exec (publicStep handle) (how.build handler socket) pre).isSome = true →
          (pre.foldl Lifecycle.after (.initial how)).permits c = true := by
  have hstart := tracks_build how handler socket
  constructor
  · intro hkeeps pre c hpre hreached
    obtain ⟨s, hrun⟩ := Option.isSome_iff_exists.mp hreached
    exact (safeCall_iff hhandle (exec_tracks hstart hrun) c).mp (hkeeps pre c s hpre hrun)
  · intro hpermits pre c s hpre hrun
    refine (safeCall_iff hhandle (exec_tracks hstart hrun) c).mpr (hpermits pre c hpre ?_)
    rw [hrun]
    rfl

/-! ## Three sequences

A sequence as the header of the class has it, and two that the class permits and that end in
undefined behaviour. -/

/-- A client is accepted and served, and the server stopped twice. -/
def orderlyCalls : List PublicCall :=
  [.call (.start true), .getFd, .call (.acceptNewClient (.connected 5 6)),
    .processEvent (byteAndNothing false), .call .stopAccepting,
    .call (.acceptNewClient (.connected 5 6)), .call .stop, .call .stop]

/-- An orderly sequence is safe, a second `stop` and a client after `stopAccepting` included. -/
theorem keepsLifecycle_orderlyCalls :
    KeepsLifecycle echo (Constructor.production.build () 3) orderlyCalls := by
  have hecho : Defined echo := by
    intro m h h' hrun
    cases hrun
  refine (keepsLifecycle_iff hecho .production () 3 orderlyCalls).mpr fun pre c hpre _ => ?_
  exact Lifecycle.permits_of_orderly hpre rfl

/-- The server is started again after it has been stopped. -/
def restart : List PublicCall :=
  [.call (.start true), .call .stop, .call (.start true)]

/-- The first client of a server. -/
def acceptOnce : List PublicCall :=
  [.call (.start true), .call (.acceptNewClient .failed)]

/-- `start` after `stop` dereferences the null `m_socket`, and the server of the test constructor
reads its uninitialised flag with the first client. -/
theorem restart_misuses :
    ¬ KeepsLifecycle echo (Constructor.production.build () 3) restart ∧
      ¬ KeepsLifecycle echo (Constructor.test.build () 3) acceptOnce := by
  constructor
  · intro hkeeps
    have hrun : Run.exec (publicStep echo) (Constructor.production.build () 3)
        [.call (.start true), .call .stop] = some _ := rfl
    exact (hkeeps _ (.call (.start true)) _ ⟨[], rfl⟩ hrun).1 ⟨_, rfl⟩
  · intro hkeeps
    have hrun : Run.exec (publicStep echo) (Constructor.test.build () 3) [.call (.start true)]
        = some _ := rfl
    exact (hkeeps _ (.call (.acceptNewClient .failed)) _ ⟨[], rfl⟩ hrun).1 ⟨_, rfl⟩

end TcpServer
end Pgw
