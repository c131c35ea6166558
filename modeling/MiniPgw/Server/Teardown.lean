import MiniPgw.Server.Owners

/-!
# Teardown — what a server process leaves behind

Whatever fails on the way, a process that ends should have given everything back, once, and a
destructor that runs should come to its end. Three things stand in the way:

* the constructor of `DatabaseCdrWriter` forgets the statements it has prepared when it throws, and
  the connection with an unfinalized statement is not closed either;
* `run` shuts the logger down when it catches an exception, and the destructors use it;
* the closure `addToEpoll` has a copy of the guard of the epoll descriptor, so that the descriptor
  is closed twice on every way out of `runEventLoop`.

A process whose loop goes on for ever does not end. `exitCode_iff` is about whether `run` returns
and with which code, `tidy_iff` about what `main` leaves behind, and `lastFlush_iff` about the
records in the buffer of the CDR writer.
-/

namespace Pgw

open Effects
open Handles (Tracks Use Held ReleasedOnce)

namespace Process

variable {env : Environment} {p p' q w : Process} {held : List Resource} {r : Resource}
  {twice : Bool}

/-! ## Stopping

`stop` of each server, for the process in which the others are as they are. A listener that has been
stopped owns no more than before. -/

/-- `UdpServer::stop` clears the flag and logs. The socket stays where it is, for the destructor to
close. -/
theorem stopUdp_settled (hlog : CanLog env q.defaultLogger) (h : Settled twice q held p) :
    Returns (stopUdp env) p fun _ p' =>
      ∃ l, Settled twice { q with udpServer := l } held p' ∧
        (Owns { q with udpServer := l } .udpSocket → q.Owns .udpSocket) ∧
        (l = none → q.udpServer = none) := by
  rw [stopUdp, Returns, ensures_bind, ensures_get, h.part_eq udpMember]
  cases hlistener : q.udpServer with
  | none => exact ⟨q.udpServer, h, id, fun _ => rfl⟩
  | some listener =>
    obtain ⟨socket, running⟩ := listener
    cases running with
    | false => exact ⟨q.udpServer, h, id, fun hnone => by cases hlistener.symm.trans hnone⟩
    | true =>
      have hsame :
          (∃ fd running, some (Listener.mk socket false) = some ⟨some fd, running⟩ ∧ 0 < fd) ↔
          q.Owns .udpSocket := by simp [Owns, hlistener]
      have hstopped := h.listener udpMember hsame
      simp only [if_true]
      rw [ensures_bind, ensures_modify]
      apply ensures_log_of (hstopped.canLog hlog)
      exact ⟨_, hstopped, hsame.mp, fun hnone => by cases hnone⟩

/-- `TcpServer::stop` closes the listening socket and forgets its descriptor; nothing happens if the
server is not running. -/
theorem stopTcp_settled (hlog : CanLog env q.defaultLogger) (h : Settled twice q held p)
    (hapart : q.Owns .tcpSocket → .tcpSocket ∉ held) :
    Returns (stopTcp env) p fun _ p' =>
      ∃ l, Settled twice { q with tcpServer := l } held p' ∧
        (Owns { q with tcpServer := l } .tcpSocket → q.Owns .tcpSocket) := by
  rw [stopTcp, Returns, ensures_bind, ensures_get, h.part_eq tcpMember]
  -- nothing to stop: no listener, or one that does not run
  cases hlistener : q.tcpServer with
  | none => exact ⟨q.tcpServer, h, id⟩
  | some listener =>
    obtain ⟨socket, running⟩ := listener
    cases running with
    | false => exact ⟨q.tcpServer, h, id⟩
    | true =>
      have hsame :
          (∃ fd running, some (Listener.mk socket false) = some ⟨some fd, running⟩ ∧ 0 < fd) ↔
          q.Owns .tcpSocket := by simp [Owns, hlistener]
      have hstopped := h.listener tcpMember hsame
      simp only [if_true]
      refine ensures_log_bind (h.canLog hlog) ?_
      rw [ensures_bind, ensures_modify]
      -- running, but the socket may have failed to open
      cases socket with
      | none => exact ensures_log_of (hstopped.canLog hlog) ⟨_, hstopped, hsame.mp⟩
      | some fd =>
        show Ensures (closeSocket env .tcpSocket fd >>= _) _ _ _
        rw [ensures_bind]
        refine (closeSocket_settled (q := { q with tcpServer := some ⟨some fd, false⟩ }) hlog
          tcpMember hstopped (fun hown => hapart (hsame.mp hown)) rfl).mono ?_ fun _ _ hf => hf.elim
        intro _ p' hclosed
        have hgone := hclosed (some ⟨none, false⟩) (by simp)
        rw [ensures_bind, ensures_modify]
        -- the descriptor is forgotten, so it is not closed a second time
        refine ensures_log_of (hgone.canLog hlog) ⟨_, hgone, fun hown => ?_⟩
        obtain ⟨fd', running, hsome, -⟩ := hown
        cases hsome

/-- The thread of the HTTP server is joined. -/
theorem stopHttp_settled (hlog : CanLog env q.defaultLogger) (h : Settled twice q held p)
    (hapart : q.Owns .httpThread → .httpThread ∉ held) (hhttp : q.HttpConsistent) :
    Returns (stopHttp env) p fun _ p' => ∃ l, Settled twice { q with httpServer := l } held p' ∧
      ∀ http, l = some http → http = ⟨false, false⟩ := by
  have hfound : p.httpServer = q.httpServer := by
    obtain ⟨uses, rfl, -⟩ := h
    rfl
  rw [stopHttp, Returns, ensures_bind, ensures_get, hfound]
  cases hserver : q.httpServer with
  | none => exact ⟨q.httpServer, h, by simp [hserver]⟩
  | some http =>
    obtain ⟨running, joinable⟩ := http
    -- a running server has a thread to join
    obtain rfl : joinable = running := hhttp _ hserver
    cases joinable with
    | false => exact ensures_log_of (h.canLog hlog) ⟨q.httpServer, h, by simp [hserver]⟩
    | true =>
      simp only [if_true]
      refine ensures_log_bind (h.canLog hlog) ?_
      obtain ⟨uses, rfl, htracks⟩ := h
      -- the member gives its thread back and stays, stopped
      have howned : q.Owns .httpThread := ⟨true, hserver⟩
      have hjoined : Handles.Tracks (Reclosed twice)
          (fun r => r ∈ held ∨ Owns { q with httpServer := some ⟨false, false⟩ } r) _ :=
        (htracks.release (.inr howned)).congr fun x => by
          cases x <;> simp [Owns, hapart howned]
      exact ensures_log_of hlog ⟨_, ⟨_, rfl, hjoined⟩, by simp⟩

/-! ## The event loop

Inside of the loop the three servers may be stopped; nothing else that the process owns changes
hands. The guards give back what they hold on every way out. -/

/-- The three servers are stopped one after the other, and each `stop` leaves the servers of the
others and what is held besides as they are. -/
theorem stopServers_serving (hlog : CanLog env w.defaultLogger) (h : Serving env twice w held p) :
    Returns (do
      stopUdp env
      stopTcp env
      stopHttp env
      log env) p fun _ p' => Serving env twice w held p' := by
  obtain ⟨udp, http, tcp, hsettled, hhttp, hapart, hsome⟩ := h
  -- each `stop` owns less afterwards, so what is held besides stays apart from it
  rw [Returns, ensures_bind]
  refine (stopUdp_settled (q := servers w udp http tcp) hlog hsettled).mono ?_ fun _ _ hf => hf.elim
  rintro _ p₁ ⟨udp', h₁, hudp, hnone⟩
  have hapart₁ : Apart (servers w udp' http tcp) held := by
    intro r hr hown
    cases r with
    | udpSocket => exact hapart _ hr (hudp hown)
    | _ => exact hapart _ hr hown
  rw [ensures_bind]
  refine (stopTcp_settled (q := servers w udp' http tcp) hlog h₁
    fun hown hr => hapart₁ _ hr hown).mono ?_ fun _ _ hf => hf.elim
  rintro _ p₂ ⟨tcp', h₂, htcp⟩
  have hapart₂ : Apart (servers w udp' http tcp') held := by
    intro r hr hown
    cases r with
    | tcpSocket => exact hapart₁ _ hr (htcp hown)
    | _ => exact hapart₁ _ hr hown
  rw [ensures_bind]
  refine (stopHttp_settled (q := servers w udp' http tcp') hlog h₂
    (fun hown hr => hapart₂ _ hr hown) hhttp).mono ?_ fun _ _ hf => hf.elim
  rintro _ p₃ ⟨http', h₃, hjoined⟩
  have hapart₃ : Apart (servers w udp' http' tcp') held := by
    intro r hr hown
    cases r with
    -- a thread that was joined is owned no longer
    | httpThread =>
      obtain ⟨running, hsome⟩ := hown
      cases hjoined _ hsome
    | _ => exact hapart₂ _ hr hown
  have hhttp₃ : HttpConsistent (servers w udp' http' tcp') := by
    intro http hsome
    rw [hjoined http hsome]
  exact ensures_log_of (h₃.canLog hlog) ⟨udp', http', tcp', h₃, hhttp₃, hapart₃,
    fun hopens hgone => hsome hopens (hnone hgone)⟩

/-- The call returns if the event loop does and throws if the loop does, with `S` of the state that
it leaves. If the loop goes on for ever, so does the call, and nothing has been flushed. -/
def Exits (env : Environment) (w : Process) (S : Process → Prop) (x : Method Unit) (p : Process) :
    Prop :=
  Ensures x p (fun _ p' => env.LoopReturns ∧ S p') fun e p' =>
    e = .exception ∧ env.LoopThrows ∧ S p' ∨
      e = .forever ∧ env.LoopGoesOn ∧ p'.lastFlush = w.lastFlush

/-- A destructor runs on both ways out of its scope. -/
theorem Exits.atScopeEnd {destructor body : Method Unit} {S S' : Process → Prop}
    (hbody : Exits env w S body p)
    (hdestructor : ∀ p, S p → Returns destructor p fun _ p' => S' p') :
    Exits env w S' (atScopeEnd destructor body) p := by
  unfold Exits Process.atScopeEnd
  rw [ensures_bind, ensures_catching]
  refine hbody.mono ?_ ?_
  · rintro _ p' ⟨hreturns, hS⟩
    exact (hdestructor p' hS).mono (fun _ _ hS' => ⟨hreturns, hS'⟩) fun _ _ hf => hf.elim
  · rintro e p' (⟨rfl, hthrows, hS⟩ | ⟨rfl, hforever⟩)
    · rw [if_pos rfl, ensures_bind]
      exact (hdestructor p' hS).mono (fun _ _ hS' => .inl ⟨rfl, hthrows, hS'⟩) fun _ _ hf => hf.elim
    · rw [if_neg (by decide)]
      exact .inr ⟨rfl, hforever⟩

/-- A guard gives back what it alone has held, and the servers are as they were. -/
theorem Serving.release (h : Serving env twice w (r :: held) p) (hheld : r ∉ held)
    (hunowned : ∀ q : Process, ¬ q.Owns r) :
    Serving env twice w held { p with uses := p.uses ++ [.released r] } := by
  obtain ⟨udp, http, tcp, hsettled, hhttp, hapart, hsome⟩ := h
  exact ⟨udp, http, tcp, hsettled.release hheld (hunowned _), hhttp,
    fun x hx => hapart x (List.mem_cons_of_mem r hx), hsome⟩

/-- The second `close` of a descriptor that is closed. -/
theorem Serving.recloses (h : Serving env false w held p) (hheld : .epollFd ∉ held) :
    Serving env true w held { p with uses := p.uses ++ [.released .epollFd] } := by
  obtain ⟨udp, http, tcp, hsettled, hrest⟩ := h
  exact ⟨udp, http, tcp, hsettled.recloses hheld, hrest⟩

/-- A guard takes a resource that no member of the process could own. -/
theorem Serving.acquire (h : Serving env twice w held p) (hheld : r ∉ held)
    (hunowned : ∀ q : Process, ¬ q.Owns r) :
    Serving env twice w (r :: held) { p with uses := p.uses ++ [.acquired r] } := by
  obtain ⟨udp, http, tcp, hsettled, hhttp, hapart, hsome⟩ := h
  refine ⟨udp, http, tcp, hsettled.acquire hheld (hunowned _), hhttp, fun x hx => ?_, hsome⟩
  rcases List.mem_cons.mp hx with rfl | hx
  · exact hunowned _
  · exact hapart x hx

/-- **A guard gives back what it guards**, whether its body returns or throws. -/
theorem guarded_exits {created : Bool} {body : Method Unit} (hheld : r ∉ held)
    (hunowned : ∀ q : Process, ¬ q.Owns r)
    (hbody : ∀ held₁ p, Serving env twice w held₁ p →
      Exits env w (Serving env twice w held₁) body p)
    (h : Serving env twice w held p) :
    Exits env w (Serving env twice w held) (guarded r created body) p := by
  unfold guarded
  cases created with
  | false => exact hbody held p h
  | true =>
    have hrest : Exits env w (Serving env twice w held) (Process.atScopeEnd (release r) body)
        { p with uses := p.uses ++ [.acquired r] } :=
      (hbody _ _ (h.acquire hheld hunowned)).atScopeEnd fun _ hS => hS.release hheld hunowned
    simp only [if_true]
    unfold Exits at hrest ⊢
    rw [ensures_bind, ensures_acquire]
    exact hrest

/-- Neither guard of `runEventLoop` is a member of the process or one of its sockets. -/
theorem notMem_unclosed (hguard : r = .epollFd ∨ r = .timerFd) : r ∉ env.unclosed := by
  intro hr
  unfold Environment.unclosed at hr
  rcases List.mem_append.mp hr with hr | hr <;> split at hr <;> rcases hguard with rfl | rfl <;>
    simp at hr

/-- The servers do not touch the logger, so that the macros work as long as they did before. -/
theorem Serving.canLog (h : Serving env twice w held p) (hlog : CanLog env w.defaultLogger) :
    CanLog env p.defaultLogger := by
  obtain ⟨udp, http, tcp, hsettled, -⟩ := h
  exact hsettled.canLog hlog

/-- What `run` leaves, up to the members that `destroy` looks at first. -/
theorem Serving.fields (h : Serving env twice w held p) :
    p.defaultLogger = w.defaultLogger ∧ p.cdrWriter = w.cdrWriter ∧ p.lastFlush = w.lastFlush ∧
      (env.udp.Opens → p.udpServer ≠ none) := by
  obtain ⟨udp, http, tcp, ⟨uses, rfl, -⟩, -, -, hsome⟩ := h
  exact ⟨rfl, rfl, rfl, hsome⟩

/-- Whatever the loop does, no resource changes hands but those of the servers that it stops. -/
theorem loop_exits (hlog : CanLog env w.defaultLogger) (hepoll : env.epoll = true)
    (h : Serving env twice w held p) : Exits env w (Serving env twice w held) (loop env) p := by
  unfold Exits loop Environment.LoopReturns Environment.LoopThrows Environment.LoopGoesOn
  cases env.loopEnd with
  | stopped =>
    exact (stopServers_serving hlog h).mono (fun _ _ hserving => ⟨fun _ => .inl rfl, hserving⟩)
      fun _ _ hf => hf.elim
  | left => exact ensures_log_of (h.canLog hlog) ⟨fun _ => .inr rfl, h⟩
  | threw => exact .inl ⟨rfl, ⟨hepoll, rfl⟩, h⟩
  | goesOn => exact .inr ⟨rfl, ⟨hepoll, rfl⟩, h.fields.2.2.1⟩

/-- **The event loop gives back its timer once, and the descriptor of epoll twice.** -/
theorem runEventLoop_exits (hlog : CanLog env w.defaultLogger) (hstart : env.ServersStart)
    (h : Serving env false w env.unclosed p) :
    Exits env w (Serving env env.recloses w env.unclosed) (runEventLoop env) p := by
  rw [runEventLoop]
  cases hepoll : env.epoll with
  | false =>
    have hrecloses : env.recloses = false := by simp [Environment.recloses, hepoll]
    rw [hrecloses]
    refine ensures_log_of (h.canLog hlog) ⟨fun htrue => ?_, h⟩
    rw [hepoll] at htrue
    cases htrue
  | true =>
    have hrecloses : env.recloses = true := by simp [Environment.recloses, hepoll, hstart]
    have hheld : .epollFd ∉ env.unclosed := notMem_unclosed (.inl rfl)
    have htimer : .timerFd ∉ Resource.epollFd :: env.unclosed := by
      simp [notMem_unclosed (.inr rfl : Resource.timerFd = .epollFd ∨ _)]
    -- the guard acquires the descriptor; the timer comes and goes
    have hinner : Exits env w (Serving env false w (.epollFd :: env.unclosed))
        (guarded .timerFd env.timer (loop env)) _ :=
      guarded_exits htimer (fun _ => id) (fun _ _ => loop_exits hlog hepoll)
        (h.acquire hheld fun _ => id)
    -- the closure closes the descriptor, and the guard closes it again
    have hclosure : Exits env w (Serving env false w env.unclosed)
        (Process.atScopeEnd (release .epollFd) (guarded .timerFd env.timer (loop env))) _ :=
      hinner.atScopeEnd fun _ hS => hS.release hheld fun _ => id
    have hguard : Exits env w (Serving env true w env.unclosed)
        (Process.atScopeEnd (release .epollFd) (Process.atScopeEnd (release .epollFd) _)) _ :=
      hclosure.atScopeEnd fun _ hS => hS.recloses hheld
    rw [hrecloses, if_neg (by decide), guarded, if_pos rfl]
    unfold Exits at hguard ⊢
    rw [ensures_bind, ensures_acquire]
    exact hguard

/-! ## ~Server

Each member's destructor gives back what that member owns. Put one after the other in their order,
they leave a process that owns nothing. -/

/-- The destructor of the HTTP server stops it first, which joins its thread; a thread that is still
joinable would end the process. -/
theorem destroyHttpServer_settled (hlog : CanLog env q.defaultLogger) (h : Settled twice q held p)
    (hapart : q.Owns .httpThread → .httpThread ∉ held) (hhttp : q.HttpConsistent) :
    Returns (destroyHttpServer env) p fun _ p' =>
      Settled twice { q with httpServer := none } held p' := by
  have hfound : p.httpServer = q.httpServer := by
    obtain ⟨uses, rfl, -⟩ := h
    rfl
  have hstopped : Returns (onlyIf (p.httpServer.any (·.running)) (stopHttp env)) p
      fun _ p' => ∃ l, Settled twice { q with httpServer := l } held p' ∧
        ∀ http, l = some http → http = ⟨false, false⟩ := by
    -- `stop` is called while the server runs; else nothing can be joinable
    by_cases hrunning : p.httpServer.any (·.running) = true
    · rw [onlyIf, if_pos hrunning]
      exact stopHttp_settled hlog h hapart hhttp
    · rw [onlyIf, if_neg hrunning]
      refine ⟨q.httpServer, h, fun http hsome => ?_⟩
      have hidle : http.running = false := by simpa [hfound, hsome] using hrunning
      have hjoinable := hhttp http hsome
      cases http
      simp_all
  -- the thread is gone when the member is destroyed, so `std::terminate` is out of reach
  rw [destroyHttpServer, Returns, ensures_bind, ensures_get, ensures_bind]
  refine hstopped.mono ?_ fun _ _ hf => hf.elim
  rintro _ p' ⟨l, hsettled, hl⟩
  have hfound' : p'.httpServer = l := by
    obtain ⟨uses, rfl, -⟩ := hsettled
    rfl
  have hjoined : p'.httpServer.any (·.joinable) = false := by
    rw [hfound']
    cases l with
    | none => rfl
    | some http => rw [hl http rfl]; rfl
  rw [ensures_bind, ensures_get, hjoined, if_neg (by decide), ensures_modify]
  -- with the server its thread leaves the table of what is owned
  have hmember := hsettled.move { q with httpServer := none } held fun x => by
    cases x with
    | httpThread =>
      have hnone : ¬ ∃ running, l = some ⟨running, true⟩ := by
        rintro ⟨running, hsome⟩
        cases hl _ hsome
      simp [Owns, hnone]
    | _ => simp [Owns]
  obtain ⟨uses, rfl, -⟩ := hsettled
  exact hmember

section
variable {part : Process → Option Listener} {put : Option Listener → Process → Process}

/-- **The destructor of a listener** closes its socket, if `stop` does no more than that. -/
theorem destroyListener_settled {stop : Method Unit} (hlog : CanLog env q.defaultLogger)
    (hmember : IsMember r part put) (h : Settled twice q held p) (hapart : q.Owns r → r ∉ held)
    (hstop : Returns stop p fun _ p' =>
      ∃ l, Settled twice (put l q) held p' ∧ ((put l q).Owns r → q.Owns r)) :
    Returns (destroyListener env part put stop r) p fun _ p' =>
      Settled twice (put none q) held p' := by
  rw [destroyListener, Returns, ensures_bind, ensures_get, h.part_eq hmember]
  cases hlistener : part q with
  -- no listener was ever made, and there is nothing to give back
  | none =>
    have hsame : put none q = q := by rw [← hlistener, hmember.put_part]
    rw [hsame]
    exact h
  | some listener =>
    -- the destructor calls `stop` only while the listener runs
    have hstopped : Returns (onlyIf listener.running stop) p
        fun _ p' => ∃ l, Settled twice (put l q) held p' ∧ ((put l q).Owns r → q.Owns r) := by
      unfold onlyIf
      split
      · exact hstop
      · refine ⟨part q, ?_⟩
        rw [hmember.put_part]
        exact ⟨h, id⟩
    show Ensures (onlyIf listener.running stop >>= _) p _ _
    rw [ensures_bind]
    refine hstopped.mono ?_ fun _ _ hf => hf.elim
    rintro _ p' ⟨l, hsettled, hfewer⟩
    have hlogger : CanLog env (put l q).defaultLogger := by
      -- it then logs, and closes the socket that is still held
      rw [hmember.logger]
      exact hlog
    refine ensures_log_bind (hsettled.canLog hlogger) ?_
    rw [ensures_bind, ensures_get, hsettled.part_eq hmember, hmember.part_put]
    cases hsocket : l.bind (·.socket) with
    | none =>
      -- `stop` has closed it already
      have hunowned : ¬ (put l q).Owns r := fun hown => by
        obtain ⟨fd, running, rfl, -⟩ := (hmember.owns l q).mp hown
        cases hsocket
      have hgone := hsettled.listener hmember (l := none) (iff_of_false (by simp) hunowned)
      rw [hmember.put_put] at hgone
      exact hgone
    | some fd =>
      obtain ⟨⟨socket, running⟩, rfl, hsome⟩ := Option.bind_eq_some_iff.mp hsocket
      obtain rfl : socket = some fd := hsome
      show Ensures (closeSocket env r fd >>= _) _ _ _
      rw [ensures_bind]
      refine (closeSocket_settled hlogger hmember hsettled (fun hown => hapart (hfewer hown))
        (hmember.part_put _ _)).mono ?_ fun _ _ hf => hf.elim
      intro _ p₁ hclosed
      have hgone := hclosed none (by simp)
      rw [hmember.put_put] at hgone
      exact hgone

end

/-- An `if` without an `else` either carries its body out or leaves everything as it is. -/
theorem ensures_onlyIf {condition : Bool} {body : Method Unit} {Q : Unit → Process → Prop}
    {E : Halt → Process → Prop} :
    Ensures (onlyIf condition body) p Q E ↔
      if condition then Ensures body p Q E else Q () p := by
  unfold onlyIf
  rw [ensures_ite, ensures_pure]

/-- The last flush has taken place once the writer of the database has been destroyed. -/
def flushed (q : Process) : Bool :=
  q.lastFlush || q.cdrWriter = some .database

/-- The destructor of a CDR writer gives back whatever the writer has: the thread and the statements
of the writer of the database, and the open ones of the two files of the other. -/
theorem destroyCdrWriter_settled (hlog : CanLog env q.defaultLogger) (h : Settled twice q held p)
    (hapart : q.Apart held) :
    Returns (destroyCdrWriter env) p fun _ p' =>
      Settled twice { q with cdrWriter := none, lastFlush := q.flushed } held p' := by
  have hfound : p.cdrWriter = q.cdrWriter := by
    obtain ⟨uses, rfl, -⟩ := h
    rfl
  have hfree : ∀ r, q.Owns r → r ∉ held := fun r hown hin => hapart r hin hown
  rw [destroyCdrWriter, Returns, ensures_bind, ensures_get, hfound]
  cases hwriter : q.cdrWriter with
  | none =>
    obtain ⟨uses, rfl, htracks⟩ := h
    refine ⟨uses, ?_, htracks.congr fun x => ?_⟩
    · simp [flushed, hwriter]
    · cases x <;> simp [Owns, hwriter]
  | some writer =>
    cases writer with
    | database =>
      -- the thread is joined, the last flush is made, and the two statements are finalized
      obtain ⟨uses, rfl, htracks⟩ := h
      have hflusher : q.Owns .flusher := hwriter
      have hstatement : ∀ sql, q.Owns (.statement sql) := fun _ => hwriter
      have hjoined := htracks.release (.inr hflusher)
      have hwrite := hjoined.release (k := .statement .SQL_WRITE_CDR)
        ⟨by decide, .inr (hstatement .SQL_WRITE_CDR)⟩
      have hrecent := hwrite.release (k := .statement .SQL_RECENT_CDR)
        ⟨by decide, by decide, .inr (hstatement .SQL_RECENT_CDR)⟩
      have hdestroyed : Handles.Tracks (Reclosed twice)
          (fun r => r ∈ held ∨ Owns { q with cdrWriter := none, lastFlush := true } r) _ :=
        hrecent.congr fun x => by
          cases x with
          | statement sql => cases sql <;> simp [Owns, hfree _ (hstatement _)]
          | flusher => simp [Owns, hfree _ hflusher]
          | _ => simp [Owns, hwriter]
      simp only
      rw [ensures_bind, ensures_release, ensures_bind, ensures_modify, ensures_bind, ensures_onlyIf]
      -- what comes after the flush is the same whether the flush logs or not
      have hlast : ∀ {E : Halt → Process → Prop}, Ensures (do
          release (.statement .SQL_WRITE_CDR)
          release (.statement .SQL_RECENT_CDR)
          log env
          modify fun p => { p with cdrWriter := none })
          { q with lastFlush := true, uses := uses ++ [.released .flusher] }
          (fun _ p' =>
            Settled twice { q with cdrWriter := none, lastFlush := q.flushed } held p') E := by
        intro E
        have hflushed : q.flushed = true := by simp [flushed, hwriter]
        rw [ensures_bind, ensures_release, ensures_bind, ensures_release, hflushed]
        exact ensures_log_bind hlog ⟨_, rfl, hdestroyed⟩
      split
      · exact ensures_log_of hlog hlast
      · exact hlast
    | file write read =>
      obtain ⟨uses, rfl, htracks⟩ := h
      -- each of the files is closed if it is open, whatever the other one is
      have hwriteFile : q.Owns .writeFile ↔ write = true := by simp [Owns, hwriter]
      have hreadFile : q.Owns .readFile ↔ read = true := by simp [Owns, hwriter]
      have hclosed : ∀ (uses : List (Use Resource)) {E : Halt → Process → Prop},
          Tracks (Reclosed twice) (fun r => r ∈ held ∨ Owns { q with cdrWriter := none } r) uses →
          Ensures (do
            log env
            modify fun p => { p with cdrWriter := none }) { q with uses := uses }
            (fun _ p' =>
              Settled twice { q with cdrWriter := none, lastFlush := q.flushed } held p') E := by
        intro uses E htracks
        have hflushed : q.flushed = q.lastFlush := by simp [flushed, hwriter]
        rw [hflushed]
        exact ensures_log_bind hlog ⟨_, rfl, htracks⟩
      simp only
      rw [ensures_bind, ensures_onlyIf]
      cases write with
      | false =>
        cases read with
        | false =>
          refine hclosed uses (htracks.congr fun x => ?_)
          cases x <;> simp [Owns, hwriter]
        | true =>
          have howned := hreadFile.mpr rfl
          refine hclosed _ ((htracks.release (.inr howned)).congr fun x => ?_)
          cases x <;> simp [Owns, hwriter, hfree _ howned]
      | true =>
        have howned := hwriteFile.mpr rfl
        have hwritten := htracks.release (.inr howned)
        cases read with
        | false =>
          refine hclosed _ (hwritten.congr fun x => ?_)
          cases x <;> simp [Owns, hwriter, hfree _ howned]
        | true =>
          have howned' := hreadFile.mpr rfl
          have hread := hwritten.release (k := .readFile) ⟨by decide, .inr howned'⟩
          refine hclosed _ (hread.congr fun x => ?_)
          cases x <;> simp [Owns, hwriter, hfree _ howned, hfree _ howned']

/-- The connection is closed and given back, provided that no statement is left: this is why the
writer has to be destroyed before the manager. -/
theorem destroyDbManager_settled (h : Settled twice q held p) (hconnection : .connection ∉ held)
    (hwriter : q.cdrWriter = none) (hstatements : ∀ sql, .statement sql ∉ held) :
    Returns destroyDbManager p fun _ p' => Settled twice { q with dbManager := false } held p' := by
  -- the statements belong to the writer, which is gone
  have hfinalized : p.Finalized := by
    intro sql hheld
    have howner := (h.held_iff Resource.noConfusion).mp hheld
    simp [Owns, hwriter, hstatements sql] at howner
  have hfound : p.dbManager = q.dbManager := by
    obtain ⟨uses, rfl, -⟩ := h
    rfl
  rw [destroyDbManager, Returns, ensures_bind, ensures_get, hfound]
  cases hdb : q.dbManager with
  | false =>
    have hsame : { q with dbManager := false } = q := by rw [← hdb]
    rw [hsame]
    exact h
  | true =>
    simp only [if_true]
    rw [ensures_bind, ensures_closeConnection hfinalized, ensures_modify]
    obtain ⟨uses, rfl, htracks⟩ := h
    have howned : q.Owns .connection := hdb
    refine ⟨_, rfl, (htracks.release (.inr howned)).congr fun x => ?_⟩
    cases x <;> simp [Owns, hconnection]

/-- **The destructor of the server** gives back all that its members own, if it can log. -/
theorem destroy_settled (hlog : CanLog env q.defaultLogger) (h : Settled twice q held p)
    (hhttp : q.HttpConsistent) (hapart : q.Apart held) (hconnection : .connection ∉ held)
    (hstatements : ∀ sql, .statement sql ∉ held) :
    Returns (destroy env) p fun _ p' =>
      ∃ q', Settled twice q' held p' ∧ (∀ r, ¬ q'.Owns r) ∧ q'.lastFlush = q.flushed := by
  have hfree : ∀ r, q.Owns r → r ∉ held := fun r hown hin => hapart r hin hown
  -- the members are destroyed in the reverse order of their declaration, `httpServer` first
  rw [destroy, Returns, ensures_bind]
  refine (destroyHttpServer_settled hlog h (hfree _) hhttp).mono ?_ fun _ _ hf => hf.elim
  intro _ p₁ h₁
  rw [ensures_bind]
  have hudp : Returns (stopUdp env) p₁ fun _ p' => ∃ l,
      Settled twice (servers q l none q.tcpServer) held p' ∧
        (Owns (servers q l none q.tcpServer) .udpSocket → q.Owns .udpSocket) := by
    refine (stopUdp_settled (q := servers q q.udpServer none q.tcpServer) hlog h₁).mono ?_
      fun _ _ hf => hf
    rintro _ p' ⟨l, hsettled, hfewer, -⟩
    exact ⟨l, hsettled, hfewer⟩
  -- then the listeners, each of which stops itself if it still runs
  refine (destroyListener_settled (q := servers q q.udpServer none q.tcpServer) hlog udpMember h₁
    (hfree .udpSocket) hudp).mono ?_ fun _ _ hf => hf.elim
  intro _ p₂ h₂
  rw [ensures_bind]
  have htcp := stopTcp_settled (q := servers q none none q.tcpServer) hlog h₂ (hfree .tcpSocket)
  refine (destroyListener_settled (q := servers q none none q.tcpServer) hlog tcpMember h₂
    (hfree .tcpSocket) htcp).mono ?_ fun _ _ hf => hf.elim
  intro _ p₃ h₃
  rw [ensures_bind, ensures_modify, ensures_bind]
  -- the session manager owns nothing that has to be given back
  have h₄ : Settled twice { servers q none none none with sessionManager := false } held
      { p₃ with sessionManager := false } := by
    have hmoved := h₃.move { servers q none none none with sessionManager := false } held
      fun x => by
      cases x <;> simp [Owns, servers]
    obtain ⟨uses, rfl, -⟩ := h₃
    exact hmoved
  have hapart' : ∀ r ∈ held,
      ¬ Owns { servers q none none none with sessionManager := false } r := by
    intro r hr hown
    apply hapart r hr
    cases r <;> simp_all [Owns, servers]
  -- the writer flushes before its statements go, and the connection is closed last
  refine (destroyCdrWriter_settled
    (q := { servers q none none none with sessionManager := false }) hlog h₄ hapart').mono ?_
    fun _ _ hf => hf.elim
  intro _ p₅ h₅
  refine (destroyDbManager_settled h₅ hconnection rfl hstatements).mono ?_ fun _ _ hf => hf.elim
  intro _ p₆ h₆
  refine ⟨_, h₆, fun r hown => ?_, rfl⟩
  -- nothing is left that could own `r`
  cases r <;> simp [Owns, servers] at hown

/-- There is still an UDP server, and nothing has been flushed. -/
def MuteUdp (env : Environment) (p : Process) : Prop :=
  ¬ CanLog env p.defaultLogger ∧ p.udpServer ≠ none ∧ p.lastFlush = false

/-- The call keeps `I`, or ends the process in a state with `I`. -/
def Stays (I : Process → Prop) (x : Method Unit) : Prop :=
  ∀ p, I p → Ensures x p (fun _ p' => I p') (fun e p' => e = .undefined ∧ I p')

/-- The call ends the process in a state with `I`. -/
def Ends (I : Process → Prop) (x : Method Unit) : Prop :=
  ∀ p, I p → Ensures x p (fun _ _ => False) (fun e p' => e = .undefined ∧ I p')

section
variable {I : Process → Prop} {x y : Method Unit} {f : Unit → Method Unit}

/-- Two calls in a row keep what each of them keeps. -/
theorem Stays.bind (hx : Stays I x) (hf : ∀ a, Stays I (f a)) : Stays I (x >>= f) := by
  intro p hp
  rw [ensures_bind]
  exact (hx p hp).mono (fun a t ht => hf a t ht) fun _ _ he => he

/-- What is kept up to the call that ends the process holds when it ends. -/
theorem Stays.then_ends (hx : Stays I x) (hf : ∀ a, Ends I (f a)) : Ends I (x >>= f) := by
  intro p hp
  rw [ensures_bind]
  exact (hx p hp).mono (fun a t ht => hf a t ht) fun _ _ he => he

/-- Nothing that comes after the end of the process is carried out. -/
theorem Ends.bind (hx : Ends I x) : Ends I (x >>= f) := by
  intro p hp
  rw [ensures_bind]
  exact (hx p hp).mono (fun _ _ hf => hf.elim) fun _ _ he => he

/-- A call that ends the process keeps `I` as far as `Stays` asks for it. -/
theorem Ends.stays (hx : Ends I x) : Stays I x :=
  fun p hp => (hx p hp).mono (fun _ _ hf => hf.elim) fun _ _ he => he

theorem stays_pure : Stays I (pure ()) :=
  fun _ h => h

theorem stays_modify {g : Process → Process} (h : ∀ p, I p → I (g p)) : Stays I (modify g) :=
  h

theorem stays_get {f : Process → Method Unit} (hf : ∀ p, I p → Stays I (f p)) :
    Stays I (get >>= f) := by
  intro p hp
  rw [ensures_bind]
  exact hf p hp p hp

/-- Both branches of an `if` have to keep it. -/
theorem stays_ite {c : Prop} {_ : Decidable c} (hx : Stays I x) (hy : Stays I y) :
    Stays I (if c then x else y) := by
  split
  · exact hx
  · exact hy

/-- **A macro ends the process.** -/
theorem ends_log (hI : ∀ p, I p → ¬ CanLog env p.defaultLogger) : Ends I (log env) := by
  intro p hp
  have hdropped := not_not.mp (hI p hp)
  simp only [log, ensures_bind, ensures_get, if_pos hdropped, ensures_throw]
  exact ⟨trivial, hp⟩

/-- `HttpServer::stop` logs on both of its branches, so with an HTTP server it ends the process. -/
theorem stays_stopHttp (hI : ∀ p, I p → ¬ CanLog env p.defaultLogger) :
    Stays I (stopHttp env) := by
  refine stays_get fun p _ => ?_
  cases p.httpServer with
  | none => exact stays_pure
  | some http => exact stays_ite (ends_log hI).bind.stays (ends_log hI).stays

/-- `UdpServer::stop` clears its flag before it logs, and `I` has to survive that. -/
theorem stays_stopUdp (hI : ∀ p, I p → ¬ CanLog env p.defaultLogger)
    (hudp : ∀ p udp, I p → I { p with udpServer := some udp }) : Stays I (stopUdp env) := by
  refine stays_get fun p _ => ?_
  cases p.udpServer with
  | none => exact stays_pure
  | some udp =>
    exact stays_ite (Stays.bind (stays_modify fun p hp => hudp p _ hp) fun _ => (ends_log hI).stays)
      stays_pure

/-- The destructor of the HTTP server logs only if the server is running. -/
theorem stays_destroyHttpServer (hI : ∀ p, I p → ¬ CanLog env p.defaultLogger)
    (hhttp : ∀ p, I p → I { p with httpServer := none }) : Stays I (destroyHttpServer env) :=
  stays_get fun _ _ => Stays.bind (stays_ite (stays_stopHttp hI) stays_pure) fun _ =>
    stays_get fun _ _ => stays_ite (fun _ hp => ⟨rfl, hp⟩) (stays_modify hhttp)

section
variable {part : Process → Option Listener} {put : Option Listener → Process → Process}

/-- The destructor of a listener logs. -/
theorem ends_destroyListener (hI : ∀ p, I p → ¬ CanLog env p.defaultLogger)
    (hpart : ∀ p, I p → part p ≠ none) (hstop : Stays I x) :
    Ends I (destroyListener env part put x r) := by
  intro p hp
  rw [destroyListener, ensures_bind, ensures_get]
  cases hlistener : part p with
  | none => exact absurd hlistener (hpart p hp)
  | some listener =>
    exact Stays.then_ends (stays_ite hstop stays_pure) (fun _ => (ends_log hI).bind) p hp

end
end

/-- **With an UDP server** it does not even get to the last flush. -/
theorem ends_destroy_udp : Ends (MuteUdp env) (destroy env) := by
  have hI : ∀ p, MuteUdp env p → ¬ CanLog env p.defaultLogger := fun _ hp => hp.1
  have hudp : ∀ p udp, MuteUdp env p → MuteUdp env { p with udpServer := some udp } :=
    fun p udp hp => ⟨hp.1, Option.some_ne_none udp, hp.2.2⟩
  refine (stays_destroyHttpServer hI fun _ hp => hp).then_ends fun _ => Ends.bind ?_
  exact ends_destroyListener hI (fun p hp => hp.2.1) (stays_stopUdp hI hudp)

end Process

/-! ## main

The ways in which `run` can return, throw, end the process, or serve for ever, with the condition on
the environment for each of them and the state that it leaves. -/

namespace Environment

/-- `run` gets as far as the database. -/
def Ready (env : Environment) : Prop :=
  env.config.isValid = true ∧ env.Logs

/-- There is a CDR writer: that of the database is not replaced when it cannot be constructed. -/
def WriterStarts (env : Environment) : Prop :=
  env.usesDatabase = true → env.DatabaseReady

/-- The server serves until its event loop ends. -/
def Serves (env : Environment) : Prop :=
  env.Ready ∧ env.WriterStarts ∧ env.ServersStart ∧ env.LoopReturns

/-- An exception gets out of the servers or of the event loop. -/
def FailsServing (env : Environment) : Prop :=
  env.Ready ∧ env.WriterStarts ∧ (¬ env.ServersStart ∨ env.LoopThrows)

/-- The server serves for ever. -/
def GoesOn (env : Environment) : Prop :=
  env.Ready ∧ env.WriterStarts ∧ env.ServersStart ∧ env.LoopGoesOn

/-- The event loop is entered, with a descriptor of epoll. -/
def EntersLoop (env : Environment) : Prop :=
  env.Ready ∧ env.WriterStarts ∧ env.ServersStart ∧ env.epoll = true

/-- The constructor of `DatabaseCdrWriter` throws with statements that it has prepared. -/
def ForgetsStatement (env : Environment) : Prop :=
  env.Ready ∧ ¬ env.WriterStarts ∧ env.prepared ≠ []

/-- A socket has got the descriptor 0. -/
def KeepsSocket (env : Environment) : Prop :=
  env.Ready ∧ env.WriterStarts ∧ env.unclosed ≠ []

variable {env : Environment}

/-- The ends of the loop exclude each other: a loop that returns has not thrown, -/
theorem LoopReturns.not_throws (h : env.LoopReturns) : ¬ env.LoopThrows := by
  rintro ⟨hepoll, hthrew⟩
  have hend := h hepoll
  rw [hthrew] at hend
  rcases hend with heq | heq <;> cases heq

/-- one that goes on has not returned, -/
theorem LoopGoesOn.not_returns (h : env.LoopGoesOn) : ¬ env.LoopReturns := by
  intro hreturns
  have hend := hreturns h.1
  rw [h.2] at hend
  rcases hend with heq | heq <;> cases heq

/-- nor has it thrown. -/
theorem LoopGoesOn.not_throws (h : env.LoopGoesOn) : ¬ env.LoopThrows := by
  rintro ⟨-, hthrew⟩
  cases h.2.symm.trans hthrew

/-- Likewise for the whole of `run`, which serves to the end, fails, or goes on. -/
theorem Serves.not_fails (h : env.Serves) : ¬ env.FailsServing :=
  fun hfails => hfails.2.2.elim (absurd h.2.2.1) h.2.2.2.not_throws

theorem Serves.not_goesOn (h : env.Serves) : ¬ env.GoesOn :=
  fun hgoesOn => hgoesOn.2.2.2.not_returns h.2.2.2

theorem FailsServing.not_goesOn (h : env.FailsServing) : ¬ env.GoesOn :=
  fun hgoesOn => h.2.2.elim (absurd hgoesOn.2.2.1) hgoesOn.2.2.2.not_throws

end Environment

namespace Process

variable {env : Environment} {p p' q w : Process} {held : List Resource} {r : Resource}
  {twice : Bool}

/-- The process when the session manager has been constructed. -/
def managing (db : Bool) (writer : CdrBackEnd) : Process :=
  { writing db writer with sessionManager := true }

/-- The logger has been shut down. -/
def silenced (q : Process) : Process :=
  { q with gLogger := false, defaultLogger := .dropped }

/-- The state of the process when `run` has returned `code`. -/
inductive Ended (env : Environment) : Int → Process → Prop where
  | refused (hvalid : ¬ env.config.isValid = true) : Ended env 1 initial
  | unlogged (hvalid : env.config.isValid = true) (hlogs : ¬ env.Logs) (logger : DefaultLogger) :
      Ended env 1 { initial with defaultLogger := logger }
  | unwritten {p : Process} (hready : env.Ready) (hwriter : ¬ env.WriterStarts)
      (hsettled : Settled false (silenced (opened true)) env.prepared p) : Ended env 1 p
  | failed {p : Process} (hfails : env.FailsServing) (writer : CdrBackEnd)
      (hwriter : writer = .database ↔ env.usesDatabase = true)
      (hserving : Serving env env.recloses (silenced (managing env.usesDatabase writer))
        env.unclosed p) : Ended env 1 p
  | served {p : Process} (hserves : env.Serves) (writer : CdrBackEnd)
      (hwriter : writer = .database ↔ env.usesDatabase = true)
      (hserving : Serving env env.recloses (managing env.usesDatabase writer) env.unclosed p) :
      Ended env 0 p

/-- The state of the process when an exception leaves `serve`. -/
inductive Escaped (env : Environment) : Process → Prop where
  | unlogged (hvalid : env.config.isValid = true) (hlogs : ¬ env.Logs) {p : Process}
      (hp : p = initial ∨ p = { initial with gLogger := true } ∨ p = logged) : Escaped env p
  | unwritten {p : Process} (hready : env.Ready) (hwriter : ¬ env.WriterStarts)
      (hsettled : Settled false (opened true) env.prepared p) : Escaped env p
  | failed {p : Process} (hfails : env.FailsServing) (writer : CdrBackEnd)
      (hwriter : writer = .database ↔ env.usesDatabase = true)
      (hserving : Serving env env.recloses (managing env.usesDatabase writer) env.unclosed p) :
      Escaped env p

/-- The loop goes on for ever, and what is in the buffer of the writer stays there. -/
def Running (env : Environment) (p : Process) : Prop :=
  env.GoesOn ∧ p.lastFlush = false

/-- The session manager only needs the CDR writer to be there, so this stage cannot fail after the
one before it. -/
theorem initializeSessionManager_settled {db : Bool} {writer : CdrBackEnd}
    (h : Settled twice (writing db writer) [] p) :
    Returns (initializeSessionManager env) p fun ok p' =>
      ok = true ∧ Settled twice (servers (managing db writer) none none none) [] p' := by
  have hwriter : p.cdrWriter = some writer := by
    obtain ⟨uses, rfl, -⟩ := h
    rfl
  have hmanaged := h.move (servers (managing db writer) none none none) []
    fun x => by cases x <;> simp [Owns, writing, managing, servers, opened, logged, initial]
  rw [initializeSessionManager, Returns, ensures_bind, ensures_get, hwriter, Option.isNone_some,
    if_neg (by decide), ensures_bind, ensures_modify]
  obtain ⟨uses, rfl, -⟩ := h
  exact ensures_log_bind (canLog_pgw env) ⟨rfl, hmanaged⟩

/-- What `serve` does with the servers, once there is a CDR writer. -/
theorem serveRest_ensures {writer : CdrBackEnd} (hready : env.Ready) (hstarts : env.WriterStarts)
    (hwriter : writer = .database ↔ env.usesDatabase = true)
    (h : Settled false (servers (managing env.usesDatabase writer) none none none) [] p) :
    Ensures (do
      let started ← initializeServers env
      if !started then do
        log env
        pure 1
      else do
        log env
        runEventLoop env
        log env
        pure 0) p (Ended env) fun e p =>
          e = .exception ∧ Escaped env p ∨ e = .forever ∧ Running env p := by
  have hlog : CanLog env (managing env.usesDatabase writer).defaultLogger := canLog_pgw env
  rw [ensures_bind]
  refine (initializeServers_serving hlog h rfl).mono ?_ ?_
  -- first the exception: a listener could not be constructed or started
  swap
  · rintro e p' ⟨rfl, hfails, hserving⟩
    have hrecloses : env.recloses = false := by simp [Environment.recloses, hfails]
    refine .inl ⟨rfl, .failed ⟨hready, hstarts, .inl hfails⟩ writer hwriter ?_⟩
    rw [hrecloses]
    exact hserving
  rintro _ p₁ ⟨rfl, hservers, h₁⟩
  rw [Bool.not_true, if_neg (by decide)]
  refine ensures_log_bind (h₁.canLog hlog) ?_
  rw [ensures_bind]
  -- the loop returns, throws, or goes on for ever
  refine (runEventLoop_exits hlog hservers h₁).mono ?_ ?_
  · rintro _ p₂ ⟨hreturns, h₂⟩
    refine ensures_log_bind (h₂.canLog hlog) ?_
    exact .served ⟨hready, hstarts, hservers, hreturns⟩ writer hwriter h₂
  · rintro e p' (⟨rfl, hthrows, hserving⟩ | ⟨rfl, hforever, hlast⟩)
    · exact .inl ⟨rfl, .failed ⟨hready, hstarts, .inr hthrows⟩ writer hwriter hserving⟩
    · exact .inr ⟨rfl, ⟨hready, hstarts, hservers, hforever⟩, hlast⟩

/-- **How `serve` ends**, which exception leaves it, or that it serves for ever. Every stage has one
way on and at most one way out, which is a case of `Ended` or of `Escaped`. -/
theorem serve_ensures :
    Ensures (serve env) initial (Ended env) fun e p =>
      e = .exception ∧ Escaped env p ∨ e = .forever ∧ Running env p := by
  rw [serve]
  -- the configuration
  by_cases hvalid : env.config.isValid = true
  swap
  · rw [if_pos (by simp [hvalid])]
    exact .refused hvalid
  rw [if_neg (by simp [hvalid]), ensures_bind]
  -- the logger
  refine initializeLogger_ensures.mono ?_ fun e p hthrown => ?_
  swap
  · exact .inl ⟨hthrown.1, .unlogged hvalid hthrown.2.1 hthrown.2.2⟩
  rintro _ _ ⟨rfl, hlogs, rfl⟩
  have hready : env.Ready := ⟨hvalid, hlogs⟩
  have hlogged : Settled false logged [] logged :=
    ⟨[], rfl, (Handles.tracks_nil.congr fun x => by
      cases x <;> simp [Owns, logged, initial]).congr_spoiled fun x => by simp [Reclosed]⟩
  -- the database: without it, `run` logs and goes on
  rw [Bool.not_true, if_neg (by decide), ensures_bind]
  refine (initializeDatabase_settled hlogged).mono ?_ fun _ _ hf => hf.elim
  rintro _ p₁ ⟨rfl, h₁⟩
  have hrest : Ensures (do
      let writes ← initializeCdrWriter env
      if !writes then do
        log env
        pure 1
      else do
        let manages ← initializeSessionManager env
        if !manages then do
          log env
          pure 1
        else do
          let started ← initializeServers env
          if !started then do
            log env
            pure 1
          else do
            log env
            runEventLoop env
            log env
            pure 0) p₁ (Ended env) fun e p =>
              e = .exception ∧ Escaped env p ∨ e = .forever ∧ Running env p := by
    -- the CDR writer: it throws or it is there
    rw [ensures_bind]
    refine (initializeCdrWriter_settled h₁).mono ?_ ?_
    swap
    · rintro e p' ⟨rfl, hdb, hfails, hsettled⟩
      exact .inl ⟨rfl, .unwritten hready (fun hstarts => hfails (hstarts hdb)) hsettled⟩
    rintro _ p₂ ⟨rfl, hstarts, writer, hwriter, h₂⟩
    rw [Bool.not_true, if_neg (by decide), ensures_bind]
    refine (initializeSessionManager_settled h₂).mono ?_ fun _ _ hf => hf.elim
    rintro _ p₃ ⟨rfl, h₃⟩
    rw [Bool.not_true, if_neg (by decide)]
    exact serveRest_ensures hready hstarts hwriter h₃
  rw [ensures_bind, ensures_onlyIf]
  split
  · exact ensures_log_of (h₁.canLog (canLog_pgw env)) hrest
  · exact hrest

/-- `shutdownLogger` drops the logger of spdlog along with `g_logger`; no resource changes hands. -/
theorem shutdownLogger_settled (h : Settled twice q held p) (hinit : q.gLogger = true)
    (hpgw : q.defaultLogger = .pgw) :
    Returns (shutdownLogger env) p fun _ p' => Settled twice (silenced q) held p' := by
  have hmoved := h.move (silenced q) held fun x => by
    cases x <;> simp [Owns, silenced]
  obtain ⟨uses, rfl, -⟩ := h
  rw [shutdownLogger, Returns, ensures_bind, ensures_get]
  simp only [hinit, hpgw, if_true, ensures_modify]
  exact hmoved

/-- What the handler of `run` makes of the state that an exception has left. -/
theorem handler_ended (hescaped : Escaped env p) :
    Returns (do
      let p ← get
      onlyIf p.gLogger do
        log env
        shutdownLogger env
      pure 1) p (Ended env) := by
  rw [Returns, ensures_bind, ensures_get, ensures_bind, ensures_onlyIf]
  cases hescaped with
  | unlogged hvalid hlogs hp =>
    rcases hp with rfl | rfl | rfl
    -- `g_logger` is null: the message goes to `std::cerr`
    · rw [if_neg (by decide)]
      exact .unlogged hvalid hlogs .library
    · rw [if_pos rfl]
      exact ensures_log_bind canLog_library (.unlogged hvalid hlogs .library)
    · have hinit : logged.gLogger = true := rfl
      rw [if_pos hinit]
      exact ensures_log_bind (canLog_pgw env) (.unlogged hvalid hlogs .dropped)
  | unwritten hready hwriter hsettled =>
    have hinit : p.gLogger = true := by
      obtain ⟨uses, rfl, -⟩ := hsettled
      rfl
    rw [if_pos hinit]
    refine ensures_log_bind (hsettled.canLog (canLog_pgw env)) ?_
    exact (shutdownLogger_settled hsettled rfl rfl).mono
      (fun _ _ hsilenced => .unwritten hready hwriter hsilenced) fun _ _ hf => hf.elim
  | failed hfails writer hwriter hserving =>
    obtain ⟨udp, http, tcp, hsettled, hhttp, hapart, hsome⟩ := hserving
    have hinit : p.gLogger = true := by
      obtain ⟨uses, rfl, -⟩ := hsettled
      rfl
    rw [if_pos hinit]
    refine ensures_log_bind (hsettled.canLog (canLog_pgw env)) ?_
    refine (shutdownLogger_settled hsettled rfl rfl).mono (fun _ p' hsilenced => ?_)
      fun _ _ hf => hf.elim
    have hapart' : Apart (servers (silenced (managing env.usesDatabase writer)) udp http tcp)
        env.unclosed := fun r hr hown => by
      refine hapart r hr ?_
      cases r <;> exact hown
    exact .failed hfails writer hwriter ⟨udp, http, tcp, hsilenced, hhttp, hapart', hsome⟩

/-- **How `run` ends**, if the loop does not go on for ever. -/
theorem run_ended :
    Ensures (run env) initial (Ended env) fun e p => e = .forever ∧ Running env p := by
  rw [run, ensures_catching]
  refine serve_ensures.mono (fun _ _ hended => hended) ?_
  rintro e p (⟨rfl, hescaped⟩ | ⟨rfl, hrunning⟩)
  · rw [if_pos rfl]
    exact (handler_ended hescaped).mono (fun _ _ hended => hended) fun _ _ hf => hf.elim
  · rw [if_neg (by decide)]
    exact ⟨rfl, hrunning⟩

/-- If `run` returns, the loop does not go on for ever. -/
theorem Ended.not_goesOn {code : Int} (h : Ended env code p) : ¬ env.GoesOn := by
  cases h with
  | refused hvalid => exact fun hgoesOn => hvalid hgoesOn.1.1
  | unlogged hvalid hlogs logger => exact fun hgoesOn => hlogs hgoesOn.1.2
  | unwritten hready hwriter hsettled => exact fun hgoesOn => hwriter hgoesOn.2.1
  | failed hfails writer hwriter hserving => exact hfails.not_goesOn
  | served hserves writer hwriter hserving => exact hserves.not_goesOn

/-! ## What is left

What nobody gives back: statements of a constructor that threw, a connection that cannot be closed
because of them, a socket with the descriptor 0. -/

/-- The process that `main` leaves, if it gets so far, owns nothing, and `left` is what nobody has
given back. -/
structure Leaves (twice : Bool) (left : List Resource) (p : Process) : Prop where
  settled : ∃ q, Settled twice q left p ∧ ∀ r, ¬ q.Owns r
  /-- The guards of the event loop leave nothing. -/
  guards : .epollFd ∉ left

/-- What `close` can spare are the two sockets only. -/
theorem mem_unclosed (hr : r ∈ env.unclosed) : r = .tcpSocket ∨ r = .udpSocket := by
  unfold Environment.unclosed at hr
  rcases List.mem_append.mp hr with hr | hr <;> split at hr <;> simp_all

/-- The end of a process with servers, if it can log. -/
theorem destroy_serving (hlog : CanLog env w.defaultLogger)
    (h : Serving env twice w env.unclosed p) :
    Returns (destroy env) p fun _ p' =>
      Leaves twice env.unclosed p' ∧ p'.lastFlush = w.flushed := by
  obtain ⟨udp, http, tcp, hsettled, hhttp, hapart, -⟩ := h
  have hconnection : .connection ∉ env.unclosed := by
    intro hr
    rcases mem_unclosed hr with heq | heq <;> cases heq
  have hstatements : ∀ sql, .statement sql ∉ env.unclosed := by
    intro sql hr
    rcases mem_unclosed hr with heq | heq <;> cases heq
  refine (destroy_settled (q := servers w udp http tcp) hlog hsettled hhttp hapart hconnection
    hstatements).mono ?_ fun _ _ hf => hf.elim
  rintro _ p' ⟨q, hsettled', hnone, hflushed⟩
  refine ⟨⟨⟨q, hsettled', hnone⟩, notMem_unclosed (.inl rfl)⟩, ?_⟩
  obtain ⟨uses, rfl, -⟩ := hsettled'
  exact hflushed

/-- `run` returns exactly if the loop does not go on for ever, since it catches what is thrown. -/
theorem run_returns_iff : (∃ code p, (run env).run initial = .ok code p) ↔ ¬ env.GoesOn := by
  constructor
  · rintro ⟨code, p, hrun⟩
    exact (run_ended.of_run_ok hrun).not_goesOn
  · intro hends
    cases hrun : (run env).run initial with
    | ok code p => exact ⟨code, p, rfl⟩
    | error e p => exact absurd (run_ended.of_run_error hrun).2.1 hends

section
variable {code : Int}

/-- It is 0 in the one of the five cases in which the server has served. -/
theorem Ended.code_eq_zero_iff (h : Ended env code p) : code = 0 ↔ env.Serves := by
  cases h with
  | refused hvalid => exact iff_of_false (by decide) fun hserves => hvalid hserves.1.1
  | unlogged hvalid hlogs logger => exact iff_of_false (by decide) fun hserves => hlogs hserves.1.2
  | unwritten hready hwriter hsettled =>
    exact iff_of_false (by decide) fun hserves => hwriter hserves.2.1
  | failed hfails writer hwriter hserving =>
    exact iff_of_false (by decide) fun hserves => hserves.not_fails hfails
  | served hserves writer hwriter hserving => exact iff_of_true rfl hserves

/-- There is a CDR writer, or the process has not got so far. -/
theorem Ended.cdrWriter (h : Ended env code p) :
    p.cdrWriter = none ∧ ¬ (env.Ready ∧ env.WriterStarts) ∨
      (env.Ready ∧ env.WriterStarts) ∧
        ∃ writer, p.cdrWriter = some writer ∧ (writer = .database ↔ env.usesDatabase = true) := by
  cases h with
  | refused hvalid => exact .inl ⟨rfl, fun hboth => hvalid hboth.1.1⟩
  | unlogged hvalid hlogs logger => exact .inl ⟨rfl, fun hboth => hlogs hboth.1.2⟩
  | unwritten hready hwriter hsettled =>
    obtain ⟨uses, rfl, -⟩ := hsettled
    exact .inl ⟨rfl, fun hboth => hwriter hboth.2⟩
  | failed hfails writer hwriter hserving =>
    exact .inr ⟨⟨hfails.1, hfails.2.1⟩, writer, hserving.fields.2.1, hwriter⟩
  | served hserves writer hwriter hserving =>
    exact .inr ⟨⟨hserves.1, hserves.2.1⟩, writer, hserving.fields.2.1, hwriter⟩

end

/-- What `main` has left when it has come to its end. -/
structure Finished (env : Environment) (p : Process) : Prop where
  ends : ¬ env.GoesOn
  logs : ¬ (env.FailsServing ∧ env.logsWithoutDefault = false)
  leaves : ∃ twice left, Leaves twice left p ∧ (twice = true ↔ env.EntersLoop) ∧
    (left = [] ↔ ¬ env.ForgetsStatement ∧ ¬ env.KeepsSocket)

/-- The process ends, and of everything but the descriptor of epoll it has given back what it has
acquired exactly once. -/
def Tidy (env : Environment) : Prop :=
  ∃ code p, (main env).run initial = .ok code p ∧ ∀ r, r ≠ .epollFd → ReleasedOnce r p.uses

/-- Whether the destructor of the server gets to the last flush, after each way in which `run` can
have ended with a CDR writer of the database and an UDP server. -/
theorem destroy_lastFlush {code : Int} (h : Ended env code p) (hready : env.Ready)
    (hdatabase : env.usesDatabase = true) (hwriter : env.DatabaseReady) (hudp : env.udp.Opens) :
    Ensures (destroy env) p
      (fun _ p' => p'.lastFlush = (decide (code = 0) || env.logsWithoutDefault))
      (fun _ p' => p'.lastFlush = (decide (code = 0) || env.logsWithoutDefault)) := by
  have hserved : ∀ {w}, CanLog env w.defaultLogger → w.cdrWriter = some .database →
      Serving env env.recloses w env.unclosed p →
      Returns (destroy env) p fun _ p' => p'.lastFlush = true := by
    intro w hlog hcdr hserving
    refine (destroy_serving hlog hserving).mono (fun _ p' h => ?_) fun _ _ hf => hf.elim
    rw [h.2]
    simp [flushed, hcdr]
  cases h with
  | refused hvalid => exact absurd hready.1 hvalid
  | unlogged hvalid hlogs logger => exact absurd hready.2 hlogs
  | unwritten _ hnot hsettled => exact absurd (fun _ => hwriter) hnot
  | failed hfails writer hback hserving =>
    obtain rfl := hback.mpr hdatabase
    cases hspdlog : env.logsWithoutDefault with
    | true =>
      have hlog : CanLog env (silenced (managing env.usesDatabase .database)).defaultLogger :=
        fun hdropped => absurd (hspdlog.symm.trans hdropped.2) (by decide)
      exact (hserved hlog rfl hserving).mono (fun _ _ hlast => hlast) fun _ _ hf => hf.elim
    | false =>
      obtain ⟨hlogger, -, hlast, hsome⟩ := hserving.fields
      have hmute : MuteUdp env p := ⟨fun hlog => hlog ⟨hlogger, hspdlog⟩, hsome hudp, hlast⟩
      -- the destructor of the UDP server comes before that of the writer, and logs
      exact (ends_destroy_udp p hmute).mono (fun _ _ hf => hf.elim) fun _ _ h => h.2.2.2
  | served hserves writer hback hserving =>
    obtain rfl := hback.mpr hdatabase
    exact (hserved (canLog_pgw env) rfl hserving).mono (fun _ _ hlast => hlast)
      fun _ _ hf => hf.elim

/-- **The last flush.** For every answer of the system and of the libraries with which the CDR
writer of the database and the UDP socket can be constructed: the writer flushes for the last time
exactly if `run` returns 0, or returns and spdlog does not need its default logger. Otherwise what
is in its buffer is lost. -/
theorem lastFlush_iff (hready : env.Ready) (hdatabase : env.usesDatabase = true)
    (hwriter : env.DatabaseReady) (hudp : env.udp.Opens) :
    (finalState ((main env).run initial)).lastFlush = true ↔
      ∃ code p, (run env).run initial = .ok code p ∧
        (code = 0 ∨ env.logsWithoutDefault = true) := by
  cases hrun : (run env).run initial with
  | error e p =>
    -- the loop goes on for ever
    have hmain : (main env).run initial = .error e p := by simp [main, hrun]
    have hlast : p.lastFlush = false := (run_ended.of_run_error hrun).2.2
    simp [hmain, hlast]
  | ok code p =>
    have hmain : (main env).run initial = ((destroy env) >>= fun _ => pure code).run p := by
      simp [main, hrun]
    have hdestroy : Ensures (destroy env >>= fun _ => pure code) p
        (fun _ p' => p'.lastFlush = (decide (code = 0) || env.logsWithoutDefault))
        (fun _ p' => p'.lastFlush = (decide (code = 0) || env.logsWithoutDefault)) := by
      rw [ensures_bind]
      exact destroy_lastFlush (run_ended.of_run_ok hrun) hready hdatabase hwriter hudp
    have hlast := Ensures.finalState
      (P := fun p' : Process => p'.lastFlush = (decide (code = 0) || env.logsWithoutDefault))
        hdestroy
    rw [hmain, hlast]
    simp

/-- Everything succeeds until `epoll_wait` reports an event for which a handler throws. -/
def throwingEnvironment : Environment where
  config := { Config.uninitialised with
    databaseFile := ascii "cdr.db"
    logLevel := ascii "INFO" }
  poolStarts := true
  logFileOpens := true
  flushesPeriodically := true
  sqliteOpens := true
  createsTable := true
  prepares := fun _ => true
  flusherStarts := true
  cdrFileWrites := true
  cdrFileReads := true
  udp := ⟨some 5, true, true, true, true, true, true⟩
  httpStarts := true
  tcp := ⟨some 6, true, true, true, true, true, true⟩
  epoll := true
  timer := true
  loopEnd := .threw
  buffered := true
  logsWithoutDefault := false

/-- An exception from a handler costs the records in the buffer: `run` returns 1 and the destructor
does not come to the flush. -/
theorem lastFlush_iff_throwing :
    (finalState ((main throwingEnvironment).run initial)).lastFlush = false := by
  have hready : throwingEnvironment.Ready := ⟨rfl, rfl, by decide, rfl, rfl⟩
  have hflush := @lastFlush_iff throwingEnvironment hready (by decide)
    ⟨rfl, fun _ => rfl, rfl⟩ (by decide)
  apply Bool.eq_false_iff.mpr
  intro hlast
  obtain ⟨code, p, hrun, rfl | hspdlog⟩ := hflush.mp hlast
  · have hserves := (run_ended.of_run_ok hrun).code_eq_zero_iff.mp rfl
    exact hserves.2.2.2.not_throws ⟨rfl, rfl⟩
  · cases hspdlog

end Process
end Pgw
