import MiniPgw.Tcp.Delivery

/-!
# The command clients share one handler

Many connections are served at once, their requests arrive in pieces and in pipelines, and replies
may leave in pieces. What all this amounts to is one object that answers requests one at a time:
`answer` is the command handler as such an object, and `operations` is the order in which the server
used it.

* **`exec_operations`** — in every reachable state, the operations so far, in the order in which
  they were carried out, are a run of the handler alone, which ends in the handler's state;
* **`conversing_exec`** — what a connection has asked and was answered, in terms of the bytes that
  arrived on it;
* **`linearized`** — the result: the answers on every connection are those of the one run, to
  exactly the requests that its peer has sent, and if they are well-formed, the peer reads back
  exactly these answers if and only if `::send` cut none short. An answer to an unknown command
  need not be well-formed, and then the peer finds no frame in it.
-/

namespace Pgw

open Protocol

/-- A request and its answer; an exception of the handler is no answer. -/
abbrev Operation := Message × Option Message

/-- The operation of an event. -/
def TcpEvent.operation : TcpEvent → Option Operation
  | .handled _ request reply => some (request, reply)
  | _ => none

/-- The operations of a trace, in the order in which they were carried out. -/
def operations (trace : List TcpEvent) : List Operation :=
  trace.filterMap TcpEvent.operation

/-- An exchange is an operation that has returned. -/
def Exchange.operation (x : Exchange) : Operation :=
  (x.request, some x.reply)

/-- What was broken off is one that has thrown, or one whose reply could not be sent. -/
def Breakage.operation : Breakage → Operation
  | .handle request => (request, none)
  | .send request reply => (request, some reply)

/-- The operations of two parts of a trace. -/
theorem operations_append (trace trace' : List TcpEvent) :
    operations (trace ++ trace') = operations trace ++ operations trace' :=
  List.filterMap_append

/-- A close is no operation. -/
@[simp] theorem operations_closes (closes : List Nat) :
    operations (closes.map .closed) = [] := by
  simp [operations, TcpEvent.operation]

/-- A breakage is one operation, -/
@[simp] theorem operations_breakageEvents (fd : Nat) (breakage : Breakage) :
    operations (TcpServer.breakageEvents fd breakage) = [breakage.operation] := by
  cases breakage <;> rfl

/-- and the exchanges are one each. -/
@[simp] theorem operations_exchangeEvents (fd : Nat) (exchanges : List Exchange) :
    operations (exchanges.flatMap (TcpServer.exchangeEvents fd))
      = exchanges.map Exchange.operation := by
  induction exchanges with
  | nil => rfl
  | cons x exchanges ih =>
    rw [List.flatMap_cons, operations_append, ih]
    rfl

namespace TcpServer

variable {η : Type} {handle : Message → EStateM Fault η Message} {s s' : TcpServer η}

/-! ## The handler alone

The operations on the handler are totally ordered by the trace, since one thread makes them. Each
answer is what the handler gives at this point of the order. -/

/-- The handler takes a request with the answer that it gives. -/
def answer (handle : Message → EStateM Fault η Message) (h : η) (op : Operation) : Option η :=
  match (handle op.1).run h with
  | .ok reply h' => if op.2 = some reply then some h' else none
  | .error _ h' => if op.2 = none then some h' else none

/-- The handler answers an operation with the reply that it has given, -/
theorem answer_ok {request reply : Message} {h h' : η}
    (hrun : (handle request).run h = .ok reply h') :
    answer handle h (request, some reply) = some h' := by
  simp [answer, hrun]

/-- or throws where it has thrown. -/
theorem answer_error {request : Message} {e : Fault} {h h' : η}
    (hrun : (handle request).run h = .error e h') :
    answer handle h (request, none) = some h' := by
  simp [answer, hrun]

/-- A conversation is a run of the handler. -/
theorem exec_conversation (handle : Message → EStateM Fault η Message) (sends : Nat → SendOutcome)
    (requests : List Message) :
    ∀ (i : Nat) (h : η), Run.exec (answer handle) h
      ((conversation handle sends i h requests).exchanges.map Exchange.operation ++
        ((conversation handle sends i h requests).broken.map fun b => b.2.operation).toList)
      = some (conversation handle sends i h requests).handler := by
  induction requests with
  | nil => exact fun _ _ => rfl
  | cons request requests ih =>
    intro i h
    rw [conversation]
    cases hrun : (handle request).run h with
    | error e h' => exact Run.exec_singleton (answer_error hrun)
    | ok reply h' =>
      cases sends i with
      | failed => exact Run.exec_singleton (answer_ok hrun)
      | accepted taken =>
        exact Run.exec_cons_eq_some.mpr ⟨h', answer_ok hrun, ih (i + 1) h'⟩

/-- **One call is a run of the handler over the operations that it adds.** -/
theorem operations_step {c : ServerCall} (hstep : Step handle s c s') :
    ∃ ops, operations s'.trace = operations s.trace ++ ops ∧
      Run.exec (answer handle) s.handler ops = some s'.handler := by
  -- a call that only closes or removes does nothing at the handler
  have hquiet : ∀ {clients : UnorderedMap Nat ClientContext}, OnlyClients s s' clients →
      ∃ ops, operations s'.trace = operations s.trace ++ ops ∧
        Run.exec (answer handle) s.handler ops = some s'.handler := by
    intro clients honly
    obtain ⟨closes, htrace⟩ := honly.trace
    refine ⟨[], ?_, ?_⟩
    · rw [htrace, operations_append, operations_closes]
    · rw [honly.handler]
      rfl
  cases hstep with
  | admin _ _ _ _ honly => exact hquiet honly
  | unknown _ _ _ _ => exact ⟨[], by simp, rfl⟩
  | nothing _ _ _ _ => exact ⟨[], by simp, rfl⟩
  | removed _ _ _ _ _ _ _ honly => exact hquiet honly
  -- a conversation up to its end: the handler has run over its operations
  | served fd data _ sends client exchanges h' _ _ hconversation =>
    have hrun := exec_conversation handle sends
      (TcpSerializer.framing.parse (client.readBuffer ++ data)).1 0 s.handler
    rw [hconversation] at hrun
    refine ⟨exchanges.map Exchange.operation, ?_, by simpa using hrun⟩
    rw [operations_append, operations_exchangeEvents]
  -- a conversation that breaks: one more operation, the one that breaks it
  | broken fd data _ sends _ client exchanges h' breakage closes _ _ hconversation _ hhandler
      htrace =>
    have hrun := exec_conversation handle sends
      (TcpSerializer.framing.parse (client.readBuffer ++ data)).1 0 s.handler
    rw [hconversation] at hrun
    refine ⟨exchanges.map Exchange.operation ++ [breakage.operation], ?_, ?_⟩
    · rw [htrace]
      simp [operations_append]
    · rw [hhandler]
      simpa using hrun

/-- **The order of the operations explains every answer.** Induction on the run. -/
theorem exec_operations {calls : List ServerCall}
    (hrun : Run.exec (step handle) s calls = some s') :
    ∃ ops, operations s'.trace = operations s.trace ++ ops ∧
      Run.exec (answer handle) s.handler ops = some s'.handler := by
  have hkeep : ∀ (u : TcpServer η) (c : ServerCall) (v : TcpServer η),
      (∃ ops, operations u.trace = operations s.trace ++ ops ∧
        Run.exec (answer handle) s.handler ops = some u.handler) →
      step handle u c = some v →
      ∃ ops, operations v.trace = operations s.trace ++ ops ∧
        Run.exec (answer handle) s.handler ops = some v.handler := by
    rintro u c v ⟨ops, htrace, hops⟩ hcall
    obtain ⟨more, hmore, hnext⟩ := operations_step (step_cases hcall)
    refine ⟨ops ++ more, ?_, Run.exec_append_eq_some.mpr ⟨u.handler, hops, hnext⟩⟩
    rw [hmore, htrace, List.append_assoc]
  exact Run.exec_invariant hkeep ⟨[], by simp, rfl⟩ hrun

/-! ## One connection

A client sees only its own part of the trace. The invariant says that this part is the answers to
what it has sent, as far as whole messages go. -/

/-- The events of a connection tell its exchanges. -/
theorem exchangeEvents_injective {fd : Nat} {xs : List Exchange} :
    ∀ {ys : List Exchange},
      xs.flatMap (exchangeEvents fd) = ys.flatMap (exchangeEvents fd) → xs = ys := by
  induction xs with
  | nil =>
    intro ys h
    cases ys with
    | nil => rfl
    | cons y ys => simp [exchangeEvents] at h
  | cons x xs ih =>
    intro ys h
    cases ys with
    | nil => simp [exchangeEvents] at h
    -- each exchange begins with a request, so the first two go together
    | cons y ys =>
      simp only [List.flatMap_cons, exchangeEvents, List.cons_append, List.nil_append,
        List.cons.injEq, TcpEvent.handled.injEq, TcpEvent.sent.injEq, Option.some.injEq,
        SendOutcome.accepted.injEq, true_and] at h
      obtain ⟨⟨hrequest, hreply⟩, ⟨-, htaken⟩, hrest⟩ := h
      have hx : x = y := by
        cases x
        cases y
        simp_all
      rw [hx, ih hrest]

/-- The connection `fd` has been removed, or everything received on it was answered and the answers
are on the wire, as far as the kernel has taken them. -/
def Conversing (fd : Nat) (base : List TcpEvent) (bytes : Bytes) (s : TcpServer η) : Prop :=
  s.clients.lookup fd = none ∨
    Reached fd base (TcpSerializer.framing.parse bytes).1 (TcpSerializer.framing.parse bytes).2 s ∧
      Delivering fd base s

/-- A call that leaves the client and the events of the connection alone. -/
theorem Reached.congr {fd : Nat} {base : List TcpEvent} {frames : List Message} {tail : Bytes}
    (h : Reached fd base frames tail s) (hclients : s'.clients.lookup fd = s.clients.lookup fd)
    (hsame : s'.eventsOn fd = s.eventsOn fd) : Reached fd base frames tail s' := by
  cases h with
  | all exchanges client hrequests hevents hlookup hbuffer =>
    exact .all exchanges client hrequests (hsame.trans hevents) (hclients.trans hlookup) hbuffer
  | broke exchanges breakage rest hrequests hevents hlookup =>
    exact .broke exchanges breakage rest hrequests (hsame.trans hevents) (hclients.trans hlookup)

/-- Without another connection of the same descriptor, a removed client stays removed. -/
theorem removed_step {fd : Nat} {c : ServerCall} (hsound : s.Sound) (haccept : NoAccept fd c)
    (hnone : s.clients.lookup fd = none) (hstep : Step handle s c s') :
    s'.clients.lookup fd = none := by
  -- a removed connection delivers after whatever events one asks for
  have hstart : Delivering fd (.closed 0 :: s'.eventsOn fd) s := .removed hnone
  cases delivering_step hsound hstart haccept hstep with
  | removed hnone' => exact hnone'
  | registered client exchanges hlookup hevents hwire =>
    have hlength := congrArg List.length hevents
    simp only [List.length_append, List.length_cons] at hlength
    omega

/-- What a call delivers to other connections is not received on this one. -/
theorem received_of_not_concerns {fd : Nat} {c : ServerCall}
    (hother : ¬ ServerCall.concerns fd c) : received fd [c] = [] := by
  cases c with
  | handleClientData g outcome sends =>
    have hgf : g ≠ fd := hother
    cases outcome <;> simp [received, hgf]
  | _ => rfl

/-- **One call, for one connection.** The bytes that it delivers are answered, or the client is
removed. -/
theorem conversing_step {fd : Nat} {base : List TcpEvent} {bytes : Bytes} {c : ServerCall}
    (hsound : s.Sound) (h : Conversing fd base bytes s) (haccept : NoAccept fd c)
    (hstep : Step handle s c s') : Conversing fd base (bytes ++ received fd [c]) s' := by
  -- a client that is gone stays gone
  rcases h with hnone | ⟨hreached, hdelivering⟩
  · exact .inl (removed_step hsound haccept hnone hstep)
  have hdelivering' := delivering_step hsound hdelivering haccept hstep
  -- a call about another descriptor leaves this one as it was
  by_cases hconcerns : ServerCall.concerns fd c
  · cases c with
    | start _ => exact hconcerns.elim
    | stopAccepting => exact hconcerns.elim
    | acceptNewClient outcome =>
      cases outcome with
      | connected g temporary => exact absurd hconcerns haccept
      | _ => exact hconcerns.elim
    | stop =>
      cases hstep with
      | admin _ _ clients hadmits honly =>
        obtain ⟨closes, htrace⟩ := honly.trace
        have hsame : s'.eventsOn fd = s.eventsOn fd := by simp [eventsOn, htrace]
        rcases hadmits with rfl | rfl
        · -- the server was not running
          have hclients : s'.clients.lookup fd = s.clients.lookup fd := by rw [honly.clients]
          have hnothing : received fd [.stop] = [] := rfl
          rw [hnothing, List.append_nil]
          exact .inr ⟨hreached.congr hclients hsame, hdelivering'⟩
        · -- `stop` removes every client
          exact .inl (by simp [honly.clients])
    | handleClientData g outcome sends =>
      obtain rfl : g = fd := hconcerns
      have hremoved : ∀ {clients : UnorderedMap Nat ClientContext}, clients = s.clients.erase g →
          OnlyClients s s' clients → s'.clients.lookup g = none := by
        intro clients herase honly
        rw [honly.clients, herase, AList.lookup_erase]
      cases outcome with
      -- an exception of the call removes the client, whatever had been read
      | throws =>
        cases hstep with
        | admin _ _ _ hadmits _ => exact hadmits.elim
        | unknown _ _ _ hnone => exact .inl hnone
        | removed _ _ _ _ _ _ _ honly => exact .inl (hremoved rfl honly)
      | packet data peekIsZero =>
        have hbytes : received g [.handleClientData g (.packet data peekIsZero) sends] = data := by
          simp [received]
        rw [hbytes]
        -- no bytes: the client was closed by its peer, or nothing was there to read
        by_cases hdata : data = []
        · subst hdata
          rw [List.append_nil]
          cases hstep with
          | admin _ _ _ hadmits _ => exact hadmits.elim
          | unknown _ _ _ hnone => exact .inl hnone
          | nothing _ _ _ _ => exact .inr ⟨hreached, hdelivering⟩
          | removed _ _ _ _ _ _ _ honly => exact .inl (hremoved rfl honly)
          | served _ _ _ _ _ _ _ _ hdata _ => exact absurd rfl hdata
          | broken _ _ _ _ _ _ _ _ _ _ _ hdata _ _ _ _ => exact absurd rfl hdata
        · exact .inr ⟨reached_data hsound hdata hreached hstep, hdelivering'⟩
  · rw [received_of_not_concerns hconcerns, List.append_nil]
    exact .inr ⟨reached_other hsound hreached hconcerns hstep, hdelivering'⟩

/-- **A connection after any run**, in terms of all bytes received on it. -/
theorem conversing_exec {fd : Nat} {base : List TcpEvent} {calls : List ServerCall}
    (hsound : s.Sound) (h : Conversing fd base [] s) (hcalls : ∀ c ∈ calls, NoAccept fd c)
    (hrun : Run.exec (step handle) s calls = some s') :
    Conversing fd base (received fd calls) s' := by
  have hkeep : ∀ (done : List ServerCall) (u : TcpServer η) (c : ServerCall) (v : TcpServer η),
      u.Sound ∧ Conversing fd base (received fd done) u → NoAccept fd c →
      step handle u c = some v → v.Sound ∧ Conversing fd base (received fd (done ++ [c])) v := by
    intro done u c v hu haccept hcall
    have hstep := step_cases hcall
    rw [received_append]
    exact ⟨sound_step hu.1 hstep, conversing_step hu.1 hu.2 haccept hstep⟩
  have hstart : s.Sound ∧ Conversing fd base (received fd []) s := ⟨hsound, h⟩
  have halong : Run.Along (step handle) (fun _ c => NoAccept fd c) s calls :=
    Run.along_of_forall (fun c hc _ => hcalls c hc) s
  exact (Run.exec_invariant_history hkeep hstart halong hrun).2

/-- The kernel has taken exactly the answers if `::send` cut none short, and the peer can tell. -/
theorem parse_wire_iff {exchanges : List Exchange}
    (hreplies : ∀ x ∈ exchanges, x.reply.WellFormed) :
    TcpSerializer.framing.parse (exchanges.flatMap Exchange.delivered)
        = (exchanges.map Exchange.reply, []) ↔ ∀ x ∈ exchanges, x.Whole := by
  -- the answers are well-formed messages, so their bytes parse back into them
  have hwf : ∀ m ∈ exchanges.map Exchange.reply, TcpSerializer.framing.WellFormed m := by
    intro m hm
    obtain ⟨x, hx, rfl⟩ := List.mem_map.mp hm
    exact hreplies x hx
  have hresponses : exchanges.flatMap Exchange.response
      = (exchanges.map Exchange.reply).flatMap TcpSerializer.framing.frame := by
    rw [List.flatMap_map]
    rfl
  rw [← flatMap_delivered_eq_iff]
  constructor
  · -- to the right: what parses as these answers is their bytes, all of them
    intro hparse
    obtain ⟨hsplit, -, -⟩ :=
      TcpSerializer.framing.parse_spec (exchanges.flatMap Exchange.delivered)
    rw [hparse, List.append_nil] at hsplit
    rw [hsplit, hresponses]
  · intro hdelivered
    have hnone : TcpSerializer.framing.decode [] = none := rfl
    have hstream := TcpSerializer.framing.parse_stream hwf hnone
    rw [List.append_nil] at hstream
    rw [hdelivered, hresponses, hstream]

/-! ## The result

The order of all operations and the parts of the clients, put together. -/

/-- **The command clients share one handler, and each can tell its part.** For every reachable
state, every client accepted there and every continuation in which its descriptor is not given to
another connection: the operations of the whole server, in the order in which they were carried
out, are a run of the handler alone, and those of the first part of the run come first. If the
client is still registered, its exchanges are exactly the messages in the bytes that it has sent,
each with its answer in that run; and if these answers are well-formed, what it can read on its side
is these answers and nothing else if and only if `::send` took all bytes of each. -/
theorem linearized {handler : η} {socket : Nat} {before calls : List ServerCall}
    {s₀ : TcpServer η} {fd : Nat}
    (hreach : Run.exec (step handle) (constructed handler socket) before = some s₀)
    (haccepted : s₀.clients.lookup fd = some (freshClient fd))
    (hcalls : ∀ c ∈ calls, NoAccept fd c)
    (hrun : Run.exec (step handle) s₀ calls = some s) :
    (operations s₀.trace <+: operations s.trace ∧
      Run.exec (answer handle) handler (operations s.trace) = some s.handler) ∧
    ∀ client, s.clients.lookup fd = some client → ∃ exchanges : List Exchange,
      s.eventsOn fd = s₀.eventsOn fd ++ exchanges.flatMap (exchangeEvents fd) ∧
      TcpSerializer.framing.parse (received fd calls)
        = (exchanges.map Exchange.request, client.readBuffer) ∧
      ((∀ x ∈ exchanges, x.reply.WellFormed) →
        (TcpSerializer.framing.parse client.socket.wire = (exchanges.map Exchange.reply, []) ↔
          ∀ x ∈ exchanges, x.Whole)) := by
  obtain ⟨ops₀, htrace₀, hops₀⟩ := exec_operations hreach
  obtain ⟨ops, htrace, hops⟩ := exec_operations hrun
  have hempty : operations (constructed handler socket).trace = [] := rfl
  refine ⟨⟨?_, ?_⟩, fun client hclient => ?_⟩
  · rw [htrace]
    exact List.prefix_append _ _
  · rw [htrace, htrace₀, hempty, List.nil_append]
    exact Run.exec_append_eq_some.mpr ⟨s₀.handler, hops₀, hops⟩
  · have hsound : s₀.Sound := sound_exec (sound_constructed handler socket) hreach
    have hnone : TcpSerializer.framing.decode [] = none := rfl
    -- nothing has been received, asked or answered on the new connection
    have hstart : Conversing fd (s₀.eventsOn fd) [] s₀ := by
      rw [Conversing, TcpSerializer.framing.parse_of_none hnone]
      exact .inr ⟨.all [] (freshClient fd) rfl (by simp) haccepted rfl,
        .registered (freshClient fd) [] haccepted (by simp) rfl⟩
    rcases conversing_exec hsound hstart hcalls hrun with hgone | ⟨hreached, hdelivering⟩
    · simp [hclient] at hgone
    cases hreached with
    | broke _ _ _ _ _ hgone => simp [hclient] at hgone
    | all exchanges client₁ hrequests hevents hlookup₁ hbuffer =>
      cases hdelivering with
      | removed hgone => simp [hclient] at hgone
      | registered client₂ exchanges₂ hlookup₂ hevents₂ hwire =>
        obtain rfl : client = client₁ := Option.some.inj (hclient.symm.trans hlookup₁)
        obtain rfl : client = client₂ := Option.some.inj (hclient.symm.trans hlookup₂)
        have hsame : exchanges = exchanges₂ :=
          exchangeEvents_injective (List.append_cancel_left (hevents.symm.trans hevents₂))
        subst hsame
        refine ⟨exchanges, hevents, ?_, fun hreplies => ?_⟩
        · rw [hrequests, hbuffer]
        · rw [hwire]
          exact parse_wire_iff hreplies

/-- Two messages in three chunks, with whole replies: the peer reads back both answers. -/
theorem linearized_threeChunks : ∃ s₀ s client,
    Run.exec (step echo) (constructed () 3) acceptOne = some s₀ ∧
      Run.exec (step echo) s₀ threeChunks = some s ∧ s.clients.lookup 5 = some client ∧
      TcpSerializer.framing.parse client.socket.wire = ([shortMessage, longMessage], []) := by
  have hreads : ∀ {s₀ s client}, Run.exec (step echo) (constructed () 3) acceptOne = some s₀ →
      s₀.clients.lookup 5 = some (freshClient 5) → s₀.eventsOn 5 = [] →
      Run.exec (step echo) s₀ threeChunks = some s → s.clients.lookup 5 = some client →
      s.eventsOn 5 = [⟨shortMessage, shortMessage, 7⟩, ⟨longMessage, longMessage, 9⟩].flatMap
        (exchangeEvents 5) →
      TcpSerializer.framing.parse client.socket.wire = ([shortMessage, longMessage], []) := by
    intro s₀ s client hreach haccepted hnone hrun hclient hevents
    have hcalls : ∀ c ∈ threeChunks, NoAccept 5 c := by simp [threeChunks, NoAccept]
    obtain ⟨exchanges, hexchanges, -, hread⟩ :=
      (linearized hreach haccepted hcalls hrun).2 client hclient
    rw [hnone, List.nil_append, hevents] at hexchanges
    obtain rfl := exchangeEvents_injective hexchanges
    refine (hread ?_).mpr ?_
    · simp [Message.WellFormed, shortMessage, longMessage]
    · simp [Exchange.Whole, Exchange.response, shortMessage, longMessage,
        TcpSerializer.length_serializer, headerSize]
  exact ⟨_, _, _, rfl, rfl, rfl, hreads rfl rfl rfl rfl rfl rfl⟩

end TcpServer
end Pgw
