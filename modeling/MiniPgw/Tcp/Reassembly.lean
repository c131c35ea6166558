import MiniPgw.Tcp.Safety

/-!
# Reassembly of the TCP stream

What the server does on one connection depends only on the bytes received on it, not on how they
are cut into chunks or on what happens on other connections. `Reached fd base frames tail s` says
where the connection `fd` stands: the messages `frames` have been handled in order, each with one
reply, and `tail` is left in the buffer; or the handler or a `send` failed on one of them, nothing
after it was handled, and the client is gone.

* **`reached_data`**, **`reached_other`** — what one call does to it;
* **`reached_exec`** — where a connection stands after any run, in terms of all its bytes;
* **`reassembled`** — the result for streams of well-formed frames.

## The architecture

* **`eventsOn`** — the part of the trace that is about one connection; **`frame_step`** says that
  the calls for other connections do not add to it.
* **`Registered`**, **`sound_step`** — each client has its own descriptor, and in its buffer there
  is no complete message.
* **`Reached`** — an inductive predicate with a case for a connection in order and one for a
  broken one, so that a broken connection is carried along in every induction.
* **`reached_data`** — one chunk: the buffer and the chunk are parsed as the whole stream would
  be, by the lemmas of `Lib.Framing`.
-/

namespace Pgw

open Protocol Effects

/-- A message handled or a reply sent on the connection `fd`. -/
def TcpEvent.isOn (fd : Nat) : TcpEvent → Bool
  | .handled g _ _ => g = fd
  | .sent g _ _ => g = fd
  | .closed _ => false

namespace TcpServer

variable {η : Type} {handle : Message → EStateM Fault η Message} {s s' : TcpServer η}

/-- The messages handled and the replies sent on the connection `fd`. -/
def eventsOn (fd : Nat) (s : TcpServer η) : List TcpEvent :=
  s.trace.filter (TcpEvent.isOn fd)

/-- The events of one client: no close is one of them, -/
@[simp] theorem filter_closes (fd : Nat) (closes : List Nat) :
    (closes.map TcpEvent.closed).filter (TcpEvent.isOn fd) = [] := by
  simp [TcpEvent.isOn]

/-- the exchanges are those of the client whose data were read, -/
@[simp] theorem filter_exchangeEvents (fd g : Nat) (exchanges : List Exchange) :
    (exchanges.flatMap (exchangeEvents g)).filter (TcpEvent.isOn fd)
      = if g = fd then exchanges.flatMap (exchangeEvents g) else [] := by
  have hon : ∀ e ∈ exchanges.flatMap (exchangeEvents g), TcpEvent.isOn fd e = decide (g = fd) := by
    intro e he
    obtain ⟨x, -, hx⟩ := List.mem_flatMap.mp he
    simp only [exchangeEvents, List.mem_cons, List.not_mem_nil, or_false] at hx
    rcases hx with rfl | rfl <;> rfl
  by_cases hg : g = fd
  · rw [if_pos hg, List.filter_eq_self]
    exact fun e he => (hon e he).trans (decide_eq_true hg)
  · rw [if_neg hg, List.filter_eq_nil_iff]
    exact fun e he hfilter => hg (of_decide_eq_true ((hon e he).symm.trans hfilter))

/-- and so is what was broken off. -/
@[simp] theorem filter_breakageEvents (fd g : Nat) (breakage : Breakage) :
    (breakageEvents g breakage).filter (TcpEvent.isOn fd)
      = if g = fd then breakageEvents g breakage else [] := by
  by_cases hg : g = fd
  · cases breakage <;> simp [breakageEvents, TcpEvent.isOn, hg]
  · cases breakage <;> simp [breakageEvents, TcpEvent.isOn, hg]

/-! ## The registered clients

Between the calls no buffer holds a whole message, since a call goes on until there is none. -/

/-- A client stands under its own descriptor, its buffer holds no complete message, and nothing is
queued for writing. -/
structure Registered (fd : Nat) (client : ClientContext) : Prop where
  descriptor : client.socket.fd = fd
  incomplete : TcpSerializer.deserializer client.readBuffer = none
  unqueued : client.writeBuffer = []

/-- Every client of the server is `Registered`. -/
def Sound (s : TcpServer η) : Prop :=
  ∀ fd client, s.clients.lookup fd = some client → Registered fd client

/-- A client that has just been accepted has empty buffers and its own socket. -/
theorem registered_freshClient (fd : Nat) : Registered fd (freshClient fd) :=
  ⟨rfl, rfl, rfl⟩

/-- A new server has no clients. -/
theorem sound_constructed (handler : η) (socket : Nat) : (constructed handler socket).Sound := by
  intro fd client h
  simp [constructed] at h

/-- Every step keeps the server sound. -/
theorem sound_step (h : s.Sound) {c : ServerCall} (hstep : Step handle s c s') : s'.Sound := by
  intro g client hg
  cases hstep with
  | admin _ _ clients hadmits honly =>
    rw [honly.clients] at hg
    -- the clients are as before, gone, or joined by a fresh one
    have hcases : clients = s.clients ∨ clients = ∅ ∨
        ∃ fd, clients = s.clients.insert fd (freshClient fd) := by
      cases c with
      | stop =>
        rcases hadmits with hsame | hnone
        · exact .inl hsame
        · exact .inr (.inl hnone)
      | acceptNewClient outcome =>
        rcases hadmits with hsame | ⟨fd, _, _, hinsert⟩
        · exact .inl hsame
        · exact .inr (.inr ⟨fd, hinsert⟩)
      | handleClientData _ _ _ => exact hadmits.elim
      | start _ => exact .inl hadmits
      | stopAccepting => exact .inl hadmits
    rcases hcases with rfl | rfl | ⟨fd, rfl⟩
    · exact h g client hg
    · simp at hg
    · by_cases hgf : g = fd
      · subst hgf
        rw [AList.lookup_insert] at hg
        cases hg
        exact registered_freshClient g
      · rw [AList.lookup_insert_ne hgf] at hg
        exact h g client hg
  | unknown _ _ _ _ => exact h g client hg
  | nothing _ _ _ _ => exact h g client hg
  | removed fd _ _ _ _ _ _ honly =>
    rw [honly.clients] at hg
    by_cases hgf : g = fd
    · rw [hgf, AList.lookup_erase] at hg
      cases hg
    · rw [AList.lookup_erase_ne hgf] at hg
      exact h g client hg
  | served fd data _ _ client' _ _ hlookup _ _ =>
    by_cases hgf : g = fd
    · subst hgf
      rw [UnorderedMap.lookup_replace_self hlookup] at hg
      cases hg
      have hold := h g client' hlookup
      exact ⟨hold.descriptor, (TcpSerializer.framing.parse_spec _).2.2, hold.unqueued⟩
    · rw [UnorderedMap.lookup_replace_ne s.clients hgf] at hg
      exact h g client hg
  | broken fd _ _ _ _ _ _ _ _ _ _ _ _ hclients _ _ =>
    rw [hclients] at hg
    split at hg
    · cases hg
    · exact h g client hg

/-- Different keys are different descriptors. -/
theorem Sound.descriptor_ne (h : s.Sound) {fd g : Nat} {client : ClientContext}
    (hlookup : s.clients.lookup g = some client) (hgf : fd ≠ g) : client.socket.fd ≠ fd := by
  rw [(h g client hlookup).descriptor]
  exact hgf.symm

/-! ## One connection

Only the calls about its own descriptor, and `stop`, concern a connection. `Reached` says how far
its bytes have been served. -/

/-- The connection `fd` has reached the end of `frames`, or it broke on the way. -/
inductive Reached (fd : Nat) (base : List TcpEvent) (frames : List Message) (tail : Bytes)
    (s : TcpServer η) : Prop where
  /-- Every frame was handled and got one reply, and the tail is left in the buffer. -/
  | all (exchanges : List Exchange) (client : ClientContext)
      (hrequests : exchanges.map Exchange.request = frames)
      (hevents : s.eventsOn fd = base ++ exchanges.flatMap (exchangeEvents fd))
      (hlookup : s.clients.lookup fd = some client) (hbuffer : client.readBuffer = tail)
  /-- The handler or the `send` failed on one frame: it was the last one, and the client has been
  removed. -/
  | broke (exchanges : List Exchange) (breakage : Breakage) (rest : List Message)
      (hrequests : frames = exchanges.map Exchange.request ++ breakage.request :: rest)
      (hevents : s.eventsOn fd = base ++ exchanges.flatMap (exchangeEvents fd)
        ++ breakageEvents fd breakage)
      (hlookup : s.clients.lookup fd = none)

/-- The calls that can change something about the connection `fd`. -/
def ServerCall.concerns (fd : Nat) : ServerCall → Prop
  | .handleClientData g _ _ => g = fd
  | .acceptNewClient (.connected g _) => g = fd
  | .stop => True
  | _ => False

/-- Other calls leave the connection alone. -/
theorem frame_step {fd : Nat} {c : ServerCall} (hsound : s.Sound)
    (hother : ¬ ServerCall.concerns fd c) (hstep : Step handle s c s') :
    s'.clients.lookup fd = s.clients.lookup fd ∧ s'.eventsOn fd = s.eventsOn fd := by
  cases hstep with
  | admin _ _ clients hadmits honly =>
    obtain ⟨closes, htrace⟩ := honly.trace
    refine ⟨?_, by simp [eventsOn, htrace]⟩
    rw [honly.clients]
    cases c with
    | stop => exact absurd trivial hother
    | acceptNewClient outcome =>
      rcases hadmits with rfl | ⟨g, temporary, rfl, rfl⟩
      · rfl
      · exact AList.lookup_insert_ne fun hgf => hother hgf.symm
    | handleClientData _ _ _ => exact hadmits.elim
    | start _ => rw [hadmits]
    | stopAccepting => rw [hadmits]
  | unknown _ _ _ _ => exact ⟨rfl, rfl⟩
  | nothing _ _ _ _ => exact ⟨rfl, rfl⟩
  | removed g _ _ _ _ _ _ honly =>
    obtain ⟨closes, htrace⟩ := honly.trace
    have hgf : fd ≠ g := fun heq => hother heq.symm
    exact ⟨by rw [honly.clients, AList.lookup_erase_ne hgf], by simp [eventsOn, htrace]⟩
  | served g _ _ _ client _ _ hlookup _ _ =>
    have hgf : fd ≠ g := fun heq => hother heq.symm
    -- the events of the call are those of another descriptor
    have hne : client.socket.fd ≠ fd := hsound.descriptor_ne hlookup hgf
    exact ⟨UnorderedMap.lookup_replace_ne s.clients hgf _, by simp [eventsOn, hne]⟩
  | broken g _ _ _ _ client _ _ _ closes hlookup _ _ hclients _ htrace =>
    have hgf : fd ≠ g := fun heq => hother heq.symm
    have hne : client.socket.fd ≠ fd := hsound.descriptor_ne hlookup hgf
    exact ⟨by rw [hclients, if_neg hgf], by simp [eventsOn, htrace, hne]⟩

/-- A connection stands where it stood after a call that does not concern it. -/
theorem reached_other {fd : Nat} {base : List TcpEvent} {frames : List Message} {tail : Bytes}
    {c : ServerCall} (hsound : s.Sound) (h : Reached fd base frames tail s)
    (hother : ¬ ServerCall.concerns fd c) (hstep : Step handle s c s') :
    Reached fd base frames tail s' := by
  obtain ⟨hclients, hevents'⟩ := frame_step hsound hother hstep
  cases h with
  | all exchanges client hrequests hevents hlookup hbuffer =>
    exact .all exchanges client hrequests (hevents'.trans hevents) (hclients.trans hlookup) hbuffer
  | broke exchanges breakage rest hrequests hevents hlookup =>
    exact .broke exchanges breakage rest hrequests (hevents'.trans hevents)
      (hclients.trans hlookup)

/-- **A chunk of data takes the connection on** to the frames of all bytes received so far. -/
theorem reached_data {fd : Nat} {base : List TcpEvent} {bytes data : Bytes} {peekIsZero : Bool}
    {sends : Nat → SendOutcome} (hsound : s.Sound) (hdata : data ≠ [])
    (h : Reached fd base (TcpSerializer.framing.parse bytes).1
      (TcpSerializer.framing.parse bytes).2 s)
    (hstep : Step handle s (.handleClientData fd (.packet data peekIsZero) sends) s') :
    Reached fd base (TcpSerializer.framing.parse (bytes ++ data)).1
      (TcpSerializer.framing.parse (bytes ++ data)).2 s' := by
  rw [TcpSerializer.framing.parse_append bytes data]
  cases h with
  | all exchanges client hrequests hevents hlookup hbuffer =>
    cases hstep with
    | admin _ _ _ hadmits _ => exact hadmits.elim
    | unknown _ _ _ hunknown => simp [hlookup] at hunknown
    | nothing _ _ _ _ => exact absurd rfl hdata
    | removed _ _ _ _ _ _ hreceived _ =>
      rcases hreceived with hthrows | hempty
      · cases hthrows
      · cases hempty
        exact absurd rfl hdata
    | served _ _ _ _ client' exchanges' h' hlookup' _ hconversation =>
      -- the new frames are those of the old residue and the chunk, handled in order
      obtain rfl : client = client' := Option.some.inj (hlookup.symm.trans hlookup')
      have hfd := (hsound fd client hlookup).descriptor
      have hnew := conversation_requests handle sends
        (TcpSerializer.framing.parse (client.readBuffer ++ data)).1 0 s.handler
      rw [hconversation] at hnew
      dsimp only at hnew
      rw [← hbuffer]
      refine .all (exchanges ++ exchanges') _ ?_ ?_ (UnorderedMap.lookup_replace_self hlookup) rfl
      · rw [List.map_append, hrequests, ← hnew]
      · rw [eventsOn, List.filter_append, filter_exchangeEvents, if_pos hfd]
        rw [eventsOn] at hevents
        rw [hevents, hfd]
        simp
    | broken _ _ _ _ _ client' exchanges' h' breakage closes hlookup' _ hconversation hclients _
        htrace =>
      obtain rfl : client = client' := Option.some.inj (hlookup.symm.trans hlookup')
      have hfd := (hsound fd client hlookup).descriptor
      have hnew := conversation_requests handle sends
        (TcpSerializer.framing.parse (client.readBuffer ++ data)).1 0 s.handler
      rw [hconversation] at hnew
      obtain ⟨rest, hnew⟩ := hnew
      rw [← hbuffer]
      refine .broke (exchanges ++ exchanges') breakage rest ?_ ?_ (by rw [hclients, if_pos rfl])
      · simp only [hnew, ← hrequests, List.map_append, List.append_assoc]
      · rw [eventsOn] at hevents
        simp [eventsOn, htrace, List.filter_append, hevents, hfd]
  | broke exchanges breakage rest hrequests hevents hlookup =>
    -- the client is gone: nothing happens
    have hsame : s' = s := by
      cases hstep with
      | admin _ _ _ hadmits _ => exact hadmits.elim
      | unknown _ _ _ _ => rfl
      | nothing _ _ _ hlookup' => rfl
      | removed _ _ _ _ _ hlookup' _ _ => simp [hlookup] at hlookup'
      | served _ _ _ _ _ _ _ hlookup' _ _ => simp [hlookup] at hlookup'
      | broken _ _ _ _ _ _ _ _ _ _ hlookup' _ _ _ _ _ => simp [hlookup] at hlookup'
    subst hsame
    refine .broke exchanges breakage
      (rest ++ (TcpSerializer.framing.parse ((TcpSerializer.framing.parse bytes).2 ++ data)).1) ?_
      hevents hlookup
    simp [hrequests]

/-! ## Whole runs

The bytes of all chunks, one after the other, are what is parsed. Where the cuts are does not
matter, nor which other clients come in between. -/

/-- The bytes received on the connection `fd`. -/
def received (fd : Nat) (calls : List ServerCall) : Bytes :=
  calls.flatMap fun
    | .handleClientData g (.packet data _) _ => if g = fd then data else []
    | _ => []

/-- The only thing that the call can do to the connection `fd` is deliver data. -/
def OnlyData (fd : Nat) (c : ServerCall) : Prop :=
  ServerCall.concerns fd c →
    ∃ data peekIsZero sends, c = .handleClientData fd (.packet data peekIsZero) sends ∧ data ≠ []

/-- So every run does. -/
theorem sound_exec {calls : List ServerCall} (h : s.Sound)
    (hrun : Run.exec (step handle) s calls = some s') : s'.Sound :=
  Run.exec_invariant (fun _ _ _ hs hstep => sound_step hs (step_cases hstep)) h hrun

/-- What a client has received in two parts of a run. -/
theorem received_append (fd : Nat) (calls calls' : List ServerCall) :
    received fd (calls ++ calls') = received fd calls ++ received fd calls' :=
  List.flatMap_append

/-- **Where a connection stands after a run**, in terms of all bytes received on it. Induction on
the run: a chunk takes the connection on, and other calls leave it alone. -/
theorem reached_exec {fd : Nat} {base : List TcpEvent} {calls : List ServerCall} :
    ∀ {s : TcpServer η} {bytes : Bytes}, s.Sound → (∀ c ∈ calls, OnlyData fd c) →
      Reached fd base (TcpSerializer.framing.parse bytes).1
        (TcpSerializer.framing.parse bytes).2 s →
      Run.exec (step handle) s calls = some s' →
      Reached fd base (TcpSerializer.framing.parse (bytes ++ received fd calls)).1
        (TcpSerializer.framing.parse (bytes ++ received fd calls)).2 s' := by
  induction calls with
  | nil =>
    intro s bytes _ _ h hrun
    cases hrun
    simpa [received] using h
  | cons c calls ih =>
    intro s bytes hsound hcalls h hrun
    obtain ⟨u, hu, hrest⟩ := Run.exec_cons_eq_some.mp hrun
    have hstep := step_cases hu
    have hsound' := sound_step hsound hstep
    have hrestcalls : ∀ c' ∈ calls, OnlyData fd c' := fun c' hc' => hcalls c' (by simp [hc'])
    have hcons : received fd (c :: calls) = received fd [c] ++ received fd calls :=
      received_append fd [c] calls
    rw [hcons, ← List.append_assoc]
    -- data for the client extends its conversation, and any other call leaves it alone
    by_cases hconcerns : ServerCall.concerns fd c
    · obtain ⟨data, peekIsZero, sends, rfl, hdata⟩ := hcalls c (by simp) hconcerns
      have hbytes : received fd [.handleClientData fd (.packet data peekIsZero) sends] = data := by
        simp [received]
      rw [hbytes]
      exact ih hsound' hrestcalls (reached_data hsound hdata h hstep) hrest
    · have hbytes : received fd [c] = [] := by
        cases c with
        | handleClientData g outcome sends =>
          have hgf : g ≠ fd := hconcerns
          cases outcome <;> simp [received, hgf]
        | _ => rfl
      rw [hbytes, List.append_nil]
      exact ih hsound' hrestcalls (reached_other hsound h hconcerns hstep) hrest

/-- A client that `acceptNewClient` has returned is registered with empty buffers, whatever was
registered under its descriptor before. -/
theorem accepted_fresh {outcome : AcceptOutcome} {clientFd : Int}
    (hrun : (acceptNewClient outcome).run s = .ok clientFd s') (hnew : clientFd ≠ -1) :
    ∃ fd temporary, outcome = .connected fd temporary ∧ clientFd = fd ∧
      s'.clients.lookup fd = some (freshClient fd) := by
  rcases (acceptNewClient_ensures outcome).of_run_ok hrun with
    ⟨hnone, -⟩ | ⟨fd, temporary, houtcome, hfd, honly⟩
  · exact absurd hnone hnew
  · refine ⟨fd, temporary, houtcome, hfd, ?_⟩
    rw [honly.clients]
    exact AList.lookup_insert _

/-- **The TCP stream is reassembled, however its bytes arrive.** In a server that has not been
stopped, a client has just been accepted. In whatever calls its bytes arrive, and whatever happens
on other connections in between: if these bytes are the frames of the messages `frames` and a part
of one more, then all of `frames` are handled in order, with one reply sent for each, and that part
is what the buffer holds; or, if the handler or a `send` fails on one of them, the messages handled
are exactly those up to this one, and the client is removed. A client accepted later starts with an
empty buffer, also under the same descriptor. -/
theorem reassembled (hhandle : Defined handle) {handler : η} {socket : Nat}
    {before calls : List ServerCall} {s₀ : TcpServer η}
    (hbefore : Run.exec (step handle) (constructed handler socket) before = some s₀)
    (hrunning : ServerCall.stop ∉ before) {fd : Nat} {client : ClientContext}
    (hlookup : s₀.clients.lookup fd = some client) (hempty : client.readBuffer = [])
    {frames : List Message} {last : Message} {tail : Bytes}
    (hframes : ∀ m ∈ frames, m.WellFormed) (hlast : last.WellFormed)
    (htail : tail <+: TcpSerializer.serializer last) (hcut : tail ≠ TcpSerializer.serializer last)
    (hcalls : ∀ c ∈ calls, OnlyData fd c)
    (hstream : received fd calls = frames.flatMap TcpSerializer.serializer ++ tail) :
    (∃ s, Run.exec (step handle) s₀ calls = some s ∧
      Reached fd (s₀.eventsOn fd) frames tail s) ∧
    ∀ (u v : TcpServer η) (temporary : Nat) (clientFd : Int),
      (acceptNewClient (.connected fd temporary)).run u = .ok clientFd v → clientFd ≠ -1 →
      v.clients.lookup fd = some (freshClient fd) := by
  have hsound : s₀.Sound := sound_exec (sound_constructed handler socket) hbefore
  have husable : s₀.Usable := by
    obtain ⟨u, hu, husable⟩ := exec_defined hhandle hrunning (usable_constructed handler socket)
    rw [hbefore] at hu
    cases hu
    exact husable
  have hstop : ServerCall.stop ∉ calls := by
    intro hmem
    obtain ⟨_, _, _, hc, -⟩ := hcalls _ hmem trivial
    cases hc
  obtain ⟨s, hrun, -⟩ := exec_defined hhandle hstop husable
  refine ⟨⟨s, hrun, ?_⟩, fun u v temporary clientFd haccept hnew => ?_⟩
  -- at the start nothing has been received, and the empty stream parses to no frame
  · have hnone : TcpSerializer.framing.decode [] = none := rfl
    have hstart : Reached fd (s₀.eventsOn fd) (TcpSerializer.framing.parse []).1
        (TcpSerializer.framing.parse []).2 s₀ := by
      rw [TcpSerializer.framing.parse_of_none hnone]
      exact .all [] client rfl (by simp) hlookup hempty
    have hend := reached_exec hsound hcalls hstart hrun
    have hstream' : TcpSerializer.framing.parse ([] ++ received fd calls) = (frames, tail) := by
      rw [List.nil_append, hstream]
      exact TcpSerializer.framing.parse_stream hframes
        (TcpSerializer.framing.decode_strict_prefix hlast htail hcut)
    rw [hstream'] at hend
    exact hend
  · obtain ⟨g, _, houtcome, -, hfresh⟩ := accepted_fresh haccept hnew
    cases houtcome
    exact hfresh

/-- A handler that replies with the request. -/
def echo (request : Message) : EStateM Fault Unit Message :=
  pure request

/-- A request without data, -/
def shortMessage : Message := ⟨⟨PROTOCOL_VERSION, .GET_STATS, .OK, 0⟩, []⟩

/-- and one with two bytes of it. -/
def longMessage : Message := ⟨⟨PROTOCOL_VERSION, .START_SESSION, .OK, 2⟩, [0x7b, 0x7d]⟩

/-- The server is started and accepts one client. -/
def acceptOne : List ServerCall := [.start true, .acceptNewClient (.connected 5 6)]

/-- Two messages and the first byte of a third, cut inside a header. -/
def threeChunks : List ServerCall :=
  [.handleClientData 5 (.packet [1, 1, 1] false) fun _ => .accepted 7,
    .handleClientData 5 (.packet [0, 0, 0, 0, 1, 4, 1, 2, 0] false) fun _ => .accepted 7,
    .handleClientData 5 (.packet [0, 0, 0x7b, 0x7d, 1] false) fun _ => .accepted 9]

/-- Two requests, cut in the middle of the header and in the middle of the data. -/
theorem reassembled_threeChunks : ∃ s₀,
    Run.exec (step echo) (constructed () 3) acceptOne = some s₀ ∧
      ((∃ s, Run.exec (step echo) s₀ threeChunks = some s ∧
        Reached 5 (s₀.eventsOn 5) [shortMessage, longMessage] [1] s) ∧
      ∀ (u v : TcpServer Unit) (temporary : Nat) (clientFd : Int),
        (acceptNewClient (.connected 5 temporary)).run u = .ok clientFd v → clientFd ≠ -1 →
        v.clients.lookup 5 = some (freshClient 5)) := by
  have hcalls : ∀ c ∈ threeChunks, OnlyData 5 c := by
    intro c hc _
    simp only [threeChunks, List.mem_cons, List.not_mem_nil, or_false] at hc
    rcases hc with rfl | rfl | rfl <;> exact ⟨_, _, _, rfl, by simp⟩
  have hwf : ∀ m ∈ [shortMessage, longMessage], m.WellFormed := by
    intro m hm
    simp only [List.mem_cons, List.not_mem_nil, or_false] at hm
    rcases hm with rfl | rfl <;> exact ⟨rfl, rfl⟩
  have hecho : Defined echo := by
    intro m h h' hrun
    cases hrun
  refine ⟨_, rfl, ?_⟩
  exact reassembled hecho (show Run.exec (step echo) (constructed () 3) acceptOne = _ from rfl)
    (by simp [acceptOne]) rfl rfl hwf (hwf shortMessage (by simp)) ⟨_, rfl⟩ (by decide) hcalls rfl

end TcpServer
end Pgw
