import MiniPgw.Tcp.Reassembly

/-!
# What a connection keeps and what it delivers

Two properties that a connection has only under a condition.

* **`unwedged_iff`** — after a chunk, the client has been removed or its buffer can still become a
  message, exactly if the handling of a complete message fails, or everything received is frames
  of well-formed messages with a part of one more. Other bytes stay in the buffer for ever:
  `deserializer` says "no message yet" to them as well.
* **`delivered_iff`** — the peer has got all replies, exactly if `::send` took all bytes of each:
  the number of bytes it took is not looked at.

## The architecture

* **`Breaks`**, **`LeadingFrameBreaks`**, **`leadingFrameBreaks_iff`** — a conversation that
  breaks, as a property of the bytes in the buffer.
* **`Completable`**, **`completable_parse_iff`** — a rest of which a message can still become.
* **`unwedged_iff`** — from the two: what a chunk leaves of a connection.
* **`Delivering`**, **`delivering_step`**, **`delivering_exec`** — the account of one connection:
  what was answered is in the trace, and what waits is in the buffer.
* **`flatMap_delivered_eq_iff`**, **`delivered_iff`** — the account against the replies as they
  should be.
-/

namespace Pgw

open Protocol

/-- The bytes of the reply. -/
def Exchange.response (x : Exchange) : Bytes :=
  TcpSerializer.serializer x.reply

/-- `::send` took all bytes of the reply. -/
def Exchange.Whole (x : Exchange) : Prop :=
  x.response.length ≤ x.taken

/-- All of a reply is delivered exactly if `::send` takes all of it. -/
theorem Exchange.delivered_eq_iff (x : Exchange) : x.delivered = x.response ↔ x.Whole :=
  List.take_eq_self_iff _

namespace TcpServer

variable {η : Type} {handle : Message → EStateM Fault η Message} {s s' : TcpServer η}

/-! ## Malformed bytes

A buffer is parsed from its front only. If what is there can be no message, nothing that arrives
later changes that, and the buffer grows for ever. -/

/-- The handler or the `send` of the reply fails on one of the messages. -/
def Breaks (handle : Message → EStateM Fault η Message) (sends : Nat → SendOutcome) :
    Nat → η → List Message → Prop
  | _, _, [] => False
  | i, h, request :: requests =>
    match (handle request).run h with
    | .error _ _ => True
    | .ok _ h' => sends i = .failed ∨ Breaks handle sends (i + 1) h' requests

/-- A conversation is broken if one of its messages breaks it. -/
theorem broken_iff {sends : Nat → SendOutcome} (requests : List Message) :
    ∀ (i : Nat) (h : η), (conversation handle sends i h requests).broken ≠ none ↔
      Breaks handle sends i h requests := by
  induction requests with
  | nil => simp [conversation, Breaks]
  | cons request requests ih =>
    intro i h
    rw [conversation, Breaks]
    cases (handle request).run h with
    | error e h' => simp
    | ok reply h' =>
      cases hsend : sends i with
      | failed => simp
      | accepted taken => simpa using ih (i + 1) h'

/-- Requests that come later do not undo a break. -/
theorem Breaks.append {sends : Nat → SendOutcome} {requests : List Message} :
    ∀ {i : Nat} {h : η}, Breaks handle sends i h requests → ∀ more,
      Breaks handle sends i h (requests ++ more) := by
  induction requests with
  | nil => exact fun h => h.elim
  | cons request requests ih =>
    intro i h hbreaks more
    rw [List.cons_append, Breaks]
    rw [Breaks] at hbreaks
    cases hrun : (handle request).run h with
    | error e h' => trivial
    | ok reply h' =>
      rw [hrun] at hbreaks
      exact hbreaks.imp_right fun hrest => ih hrest more

/-- The bytes begin with frames of well-formed messages, and handling these fails. -/
def LeadingFrameBreaks (handle : Message → EStateM Fault η Message) (sends : Nat → SendOutcome)
    (h : η) (bytes : Bytes) : Prop :=
  ∃ (frames : List Message) (rest : Bytes), (∀ m ∈ frames, Message.WellFormed m) ∧
    bytes = frames.flatMap TcpSerializer.serializer ++ rest ∧ Breaks handle sends 0 h frames

/-- The bytes are frames of well-formed messages and a strict prefix of one more. -/
def FramesAndPart (bytes : Bytes) : Prop :=
  ∃ (frames : List Message) (tail : Bytes) (last : Message),
    (∀ m ∈ frames, Message.WellFormed m) ∧ last.WellFormed ∧
    bytes = frames.flatMap TcpSerializer.serializer ++ tail ∧
    tail <+: TcpSerializer.serializer last ∧ tail ≠ TcpSerializer.serializer last

/-- The buffer can still become a message. -/
def Completable (buffer : Bytes) : Prop :=
  ∃ c, TcpSerializer.deserializer (buffer ++ c) ≠ none

/-- A frame at the front of the buffer breaks exactly if the conversation about it does. -/
theorem leadingFrameBreaks_iff {sends : Nat → SendOutcome} (h : η) (bytes : Bytes) :
    LeadingFrameBreaks handle sends h bytes ↔
      (conversation handle sends 0 h (TcpSerializer.framing.parse bytes).1).broken ≠ none := by
  rw [broken_iff]
  constructor
  · rintro ⟨frames, rest, hframes, rfl, hbreaks⟩
    have hparse := TcpSerializer.framing.parse_frames hframes rest
    exact (congrArg Prod.fst hparse) ▸ hbreaks.append _
  · intro hbreaks
    obtain ⟨hsplit, hframes, -⟩ := TcpSerializer.framing.parse_spec bytes
    exact ⟨_, _, hframes, hsplit, hbreaks⟩

/-- What is left in the buffer can become a message exactly if the bytes were frames and a part of
one more. -/
theorem completable_parse_iff (bytes : Bytes) :
    Completable (TcpSerializer.framing.parse bytes).2 ↔ FramesAndPart bytes := by
  obtain ⟨hsplit, hframes, hnone⟩ := TcpSerializer.framing.parse_spec bytes
  unfold Completable
  rw [TcpSerializer.completable_iff hnone]
  constructor
  · rintro ⟨last, hlast, htail, hcut⟩
    exact ⟨_, _, last, hframes, hlast, hsplit, htail, hcut⟩
  · rintro ⟨frames, tail, last, hframes', hlast, rfl, htail, hcut⟩
    have hparse : TcpSerializer.framing.parse (frames.flatMap TcpSerializer.serializer ++ tail)
        = (frames, tail) := TcpSerializer.framing.parse_stream hframes'
      (TcpSerializer.framing.decode_strict_prefix hlast htail hcut)
    rw [hparse]
    exact ⟨last, hlast, htail, hcut⟩

/-- After the call, the client `fd` has been removed, or its buffer can still become a message. -/
def Unwedged (fd : Nat) (s : TcpServer η) : Prop :=
  s.clients.lookup fd = none ∨
    ∃ client, s.clients.lookup fd = some client ∧ Completable client.readBuffer

/-- **When a chunk leaves no wedged connection.** For every reachable state, every registered
client and every result of its `receive`: afterwards the client is removed or its buffer can still
become a message, if and only if the peer has closed the connection, or the handling of a complete
message in front fails, or all bytes received are frames of well-formed messages and a part of one
more. -/
theorem unwedged_iff {handler : η} {socket : Nat} {before : List ServerCall} {fd : Nat}
    {client : ClientContext} {data : Bytes} {peekIsZero : Bool} {sends : Nat → SendOutcome}
    (hreach : Run.exec (step handle) (constructed handler socket) before = some s)
    (hlookup : s.clients.lookup fd = some client)
    (hstep : step handle s (.handleClientData fd (.packet data peekIsZero) sends) = some s') :
    Unwedged fd s' ↔
      (data = [] ∧ peekIsZero = true) ∨
      (data ≠ [] ∧ LeadingFrameBreaks handle sends s.handler (client.readBuffer ++ data)) ∨
      FramesAndPart (client.readBuffer ++ data) := by
  have hregistered := sound_exec (sound_constructed handler socket) hreach fd client hlookup
  rw [← completable_parse_iff, leadingFrameBreaks_iff]
  cases step_cases hstep with
  | admin _ _ _ hadmits _ => exact hadmits.elim
  | unknown _ _ _ hunknown => simp [hlookup] at hunknown
  -- the buffer is as it was, and holds no complete message
  | nothing _ _ _ _ =>
    have hparse : TcpSerializer.framing.parse client.readBuffer = ([], client.readBuffer) :=
      TcpSerializer.framing.parse_of_none hregistered.incomplete
    simp [Unwedged, hlookup, hparse]
  | removed _ _ _ _ _ _ hreceived honly =>
    have hgone : s'.clients.lookup fd = none := by
      rw [honly.clients, AList.lookup_erase]
    rcases hreceived with hthrows | hempty
    · cases hthrows
    · cases hempty
      simp [Unwedged, hgone]
  | served _ _ _ _ client' exchanges h' hlookup' hdata hconversation =>
    obtain rfl : client = client' := Option.some.inj (hlookup.symm.trans hlookup')
    simp [Unwedged, UnorderedMap.lookup_replace_self hlookup, hconversation, hdata]
  | broken _ _ _ _ _ client' exchanges h' breakage closes hlookup' hdata hconversation
      hclients _ _ =>
    obtain rfl : client = client' := Option.some.inj (hlookup.symm.trans hlookup')
    simp [Unwedged, hclients, hconversation, hdata]

/-- A chunk with a whole message. -/
theorem unwedged_shortMessage : ∃ s s',
    Run.exec (step echo) (constructed () 3) acceptOne = some s ∧
      step echo s (.handleClientData 5 (.packet [1, 1, 1, 0, 0, 0, 0] false) fun _ => .accepted 7)
        = some s' ∧ Unwedged 5 s' := by
  have hframes : FramesAndPart ([] ++ [1, 1, 1, 0, 0, 0, 0]) :=
    ⟨[shortMessage], [], shortMessage, by simp; exact ⟨rfl, rfl⟩, ⟨rfl, rfl⟩, rfl, List.nil_prefix,
      by decide⟩
  have hlaw : ∀ {s s'}, Run.exec (step echo) (constructed () 3) acceptOne = some s →
      s.clients.lookup 5 = some (freshClient 5) →
      step echo s (.handleClientData 5 (.packet [1, 1, 1, 0, 0, 0, 0] false) fun _ => .accepted 7)
        = some s' → Unwedged 5 s' :=
    fun hreach hlookup hstep =>
      (unwedged_iff hreach hlookup hstep).mpr (.inr (.inr hframes))
  exact ⟨_, _, rfl, rfl, hlaw rfl rfl rfl⟩

/-- Bytes that begin with another version never become a message. -/
theorem not_completable_cons {byte : UInt8} (hbyte : byte ≠ PROTOCOL_VERSION) (rest : Bytes) :
    ¬ Completable (byte :: rest) := by
  rintro ⟨c, hc⟩
  obtain ⟨msg, hmsg⟩ := Option.ne_none_iff_exists'.mp hc
  obtain ⟨hwf, t, ht⟩ := (TcpSerializer.deserializer_eq_some _ _).mp hmsg
  have hhead : msg.header.version = byte := by
    have hcons := congrArg List.head? ht
    simpa [TcpSerializer.serializer, TcpSerializer.headerBytes] using hcons
  exact hbyte (hhead.symm.trans hwf.1)

/-- A byte that is not the protocol version stays in the buffer, and no continuation makes it a
message. -/
theorem wedged_wrongVersion : ∃ s s' client,
    Run.exec (step echo) (constructed () 3) acceptOne = some s ∧
      step echo s (.handleClientData 5 (.packet [2] false) fun _ => .accepted 7) = some s' ∧
      s'.clients.lookup 5 = some client ∧ client.readBuffer = [2] ∧ ¬ Unwedged 5 s' := by
  refine ⟨_, _, _, rfl, rfl, rfl, rfl, ?_⟩
  rintro (hnone | ⟨client, hclient, hcompletable⟩)
  · cases hnone
  · cases hclient
    exact not_completable_cons (by decide) [] hcompletable

/-! ## Whole replies

The result of `::send` is not looked at. A reply that the kernel takes in part is neither continued
nor reported. -/

/-- The replies arrive as a whole exactly if every one of them does. Induction on the exchanges:
what is missing from one reply is missing from all bytes. -/
theorem flatMap_delivered_eq_iff (exchanges : List Exchange) :
    exchanges.flatMap Exchange.delivered = exchanges.flatMap Exchange.response ↔
      ∀ x ∈ exchanges, x.Whole := by
  have hle : ∀ x : Exchange, x.delivered.length ≤ x.response.length :=
    fun x => List.length_take_le' _ _
  have hsum : ∀ xs : List Exchange,
      (xs.flatMap Exchange.delivered).length ≤ (xs.flatMap Exchange.response).length := by
    intro xs
    induction xs with
    | nil => simp
    | cons x xs ih =>
      have hx := hle x
      simp only [List.flatMap_cons, List.length_append]
      omega
  induction exchanges with
  | nil => simp
  | cons x exchanges ih =>
    rw [List.flatMap_cons, List.flatMap_cons, List.forall_mem_cons]
    constructor
    · intro heq
      -- no reply is longer on the wire than it is, so equal sums are equal term by term
      have hlength := congrArg List.length heq
      simp only [List.length_append] at hlength
      have hx := hle x
      have hrest := hsum exchanges
      obtain ⟨hfirst, hothers⟩ := List.append_inj heq (by omega)
      exact ⟨x.delivered_eq_iff.mp hfirst, ih.mp hothers⟩
    · rintro ⟨hx, hrest⟩
      rw [x.delivered_eq_iff.mpr hx, ih.mpr hrest]

/-- The call does not accept a connection with the descriptor `fd`. -/
def NoAccept (fd : Nat) : ServerCall → Prop
  | .acceptNewClient (.connected g _) => g ≠ fd
  | _ => True

/-- What the connection `fd` has delivered since the events `base`, as long as it is registered. -/
inductive Delivering (fd : Nat) (base : List TcpEvent) (s : TcpServer η) : Prop where
  | registered (client : ClientContext) (exchanges : List Exchange)
      (hlookup : s.clients.lookup fd = some client)
      (hevents : s.eventsOn fd = base ++ exchanges.flatMap (exchangeEvents fd))
      (hwire : client.socket.wire = exchanges.flatMap Exchange.delivered)
  | removed (hlookup : s.clients.lookup fd = none)

/-- One call keeps the account of a client: what was answered is in the trace, and what waits is in
the buffer. -/
theorem delivering_step {fd : Nat} {base : List TcpEvent} {c : ServerCall} (hsound : s.Sound)
    (h : Delivering fd base s) (haccept : NoAccept fd c) (hstep : Step handle s c s') :
    Delivering fd base s' := by
  by_cases hconcerns : ServerCall.concerns fd c
  · cases hstep with
    | admin _ _ clients hadmits honly =>
      cases c with
      | stop =>
        rcases hadmits with rfl | rfl
        · -- a server that is not running does not stop
          obtain ⟨closes, htrace⟩ := honly.trace
          have hevents' : s'.eventsOn fd = s.eventsOn fd := by simp [eventsOn, htrace]
          cases h with
          | removed hnone => exact .removed (by rw [honly.clients]; exact hnone)
          | registered client exchanges hlookup hevents hwire =>
            exact .registered client exchanges (by rw [honly.clients]; exact hlookup)
              (hevents'.trans hevents) hwire
        · exact .removed (by simp [honly.clients])
      | acceptNewClient outcome =>
        cases outcome with
        | connected g temporary => exact absurd hconcerns haccept
        | _ => exact hconcerns.elim
      | handleClientData _ _ _ => exact hadmits.elim
      | start _ => exact hconcerns.elim
      | stopAccepting => exact hconcerns.elim
    | unknown _ _ _ _ => exact h
    | nothing _ _ _ _ => exact h
    | removed g _ _ _ _ _ _ honly =>
      obtain rfl : g = fd := hconcerns
      exact .removed (by rw [honly.clients, AList.lookup_erase])
    | served g data _ _ client exchanges h' hlookup _ _ =>
      obtain rfl : g = fd := hconcerns
      cases h with
      | removed hnone => simp [hlookup] at hnone
      | registered client' before hlookup' hevents hwire =>
        obtain rfl : client = client' := Option.some.inj (hlookup.symm.trans hlookup')
        have hfd := (hsound g client hlookup).descriptor
        refine .registered _ (before ++ exchanges) (UnorderedMap.lookup_replace_self hlookup) ?_ ?_
        · rw [eventsOn] at hevents
          simp [eventsOn, List.filter_append, hevents, hfd]
        · simp [hwire]
    | broken g _ _ _ _ _ _ _ _ _ _ _ _ hclients _ _ =>
      obtain rfl : g = fd := hconcerns
      exact .removed (by rw [hclients, if_pos rfl])
  -- the call concerns other connections
  · obtain ⟨hclients, hevents'⟩ := frame_step hsound hconcerns hstep
    cases h with
    | removed hnone => exact .removed (hclients.trans hnone)
    | registered client exchanges hlookup hevents hwire =>
      exact .registered client exchanges (hclients.trans hlookup) (hevents'.trans hevents) hwire

/-- So every run does in which the client is not accepted anew. -/
theorem delivering_exec {fd : Nat} {base : List TcpEvent} {calls : List ServerCall}
    (hsound : s.Sound) (h : Delivering fd base s) (hcalls : ∀ c ∈ calls, NoAccept fd c)
    (hrun : Run.exec (step handle) s calls = some s') : Delivering fd base s' := by
  have hstep : ∀ (u : TcpServer η) (c : ServerCall) (v : TcpServer η),
      u.Sound ∧ Delivering fd base u → NoAccept fd c → step handle u c = some v →
        v.Sound ∧ Delivering fd base v :=
    fun u c v hu hc hcall => ⟨sound_step hu.1 (step_cases hcall),
      delivering_step hu.1 hu.2 hc (step_cases hcall)⟩
  exact (Run.exec_invariant_along hstep ⟨hsound, h⟩
    (Run.along_of_forall (fun c hc _ => hcalls c hc) s) hrun).2

/-- The peer has got, or the server still holds for it, every reply of these exchanges. -/
def DeliversAll (client : ClientContext) (exchanges : List Exchange) : Prop :=
  client.socket.wire ++ client.writeBuffer = exchanges.flatMap Exchange.response

/-- **When replies reach the peer whole.** A client has been accepted in a reachable state, and
calls follow in which its descriptor is not given to another connection. Whenever the client is
still registered, the bytes delivered to it and those queued for it are all its replies in order,
if and only if every `::send` on its socket took all bytes it was offered. -/
theorem delivered_iff {handler : η} {socket : Nat} {before calls : List ServerCall}
    {s₀ s : TcpServer η} {fd : Nat} {client : ClientContext}
    (hreach : Run.exec (step handle) (constructed handler socket) before = some s₀)
    (haccepted : s₀.clients.lookup fd = some (freshClient fd))
    (hcalls : ∀ c ∈ calls, NoAccept fd c)
    (hrun : Run.exec (step handle) s₀ calls = some s)
    (hlookup : s.clients.lookup fd = some client) :
    ∃ exchanges : List Exchange,
      s.eventsOn fd = s₀.eventsOn fd ++ exchanges.flatMap (exchangeEvents fd) ∧
      (DeliversAll client exchanges ↔ ∀ x ∈ exchanges, x.Whole) := by
  have hsound : s₀.Sound := sound_exec (sound_constructed handler socket) hreach
  have hstart : Delivering fd (s₀.eventsOn fd) s₀ :=
    .registered (freshClient fd) [] haccepted (by simp) rfl
  cases delivering_exec hsound hstart hcalls hrun with
  | removed hnone => simp [hlookup] at hnone
  | registered client' exchanges hlookup' hevents hwire =>
    obtain rfl : client = client' := Option.some.inj (hlookup.symm.trans hlookup')
    have hregistered := sound_exec hsound hrun fd client hlookup
    refine ⟨exchanges, hevents, ?_⟩
    rw [DeliversAll, hregistered.unqueued, List.append_nil, hwire, flatMap_delivered_eq_iff]

/-- A message arrives, and `::send` takes the first `taken` bytes of the reply. -/
def replyTaken (taken : Nat) : List ServerCall :=
  [.handleClientData 5 (.packet [1, 1, 1, 0, 0, 0, 0] false) fun _ => .accepted taken]

/-- One request, and how many bytes of its reply `::send` takes. -/
theorem delivered_replyTaken : ∃ s₀ s client,
    Run.exec (step echo) (constructed () 3) acceptOne = some s₀ ∧
      Run.exec (step echo) s₀ (replyTaken 7) = some s ∧ s.clients.lookup 5 = some client ∧
      ∃ exchanges : List Exchange,
        s.eventsOn 5 = s₀.eventsOn 5 ++ exchanges.flatMap (exchangeEvents 5) ∧
        (DeliversAll client exchanges ↔ ∀ x ∈ exchanges, x.Whole) := by
  have hlaw : ∀ {s₀ s client}, Run.exec (step echo) (constructed () 3) acceptOne = some s₀ →
      s₀.clients.lookup 5 = some (freshClient 5) →
      Run.exec (step echo) s₀ (replyTaken 7) = some s → s.clients.lookup 5 = some client →
      ∃ exchanges : List Exchange,
        s.eventsOn 5 = s₀.eventsOn 5 ++ exchanges.flatMap (exchangeEvents 5) ∧
        (DeliversAll client exchanges ↔ ∀ x ∈ exchanges, x.Whole) :=
    fun hreach haccepted hrun hlookup =>
      delivered_iff hreach haccepted (by simp [replyTaken, NoAccept]) hrun hlookup
  exact ⟨_, _, _, rfl, rfl, rfl, hlaw rfl rfl rfl rfl⟩

/-- The kernel takes 3 of the 7 bytes of the only reply: the rest is neither delivered nor queued,
and the client stays registered. -/
theorem truncated_replyTaken : ∃ s₀ s client,
    Run.exec (step echo) (constructed () 3) acceptOne = some s₀ ∧
      Run.exec (step echo) s₀ (replyTaken 3) = some s ∧ s.clients.lookup 5 = some client ∧
      s.eventsOn 5 = exchangeEvents 5 ⟨shortMessage, shortMessage, 3⟩ ∧
      client.socket.wire = [1, 1, 1] ∧
      ¬ DeliversAll client [⟨shortMessage, shortMessage, 3⟩] := by
  refine ⟨_, _, _, rfl, rfl, rfl, rfl, rfl, fun hall => ?_⟩
  exact absurd (congrArg List.length hall) (by decide)

end TcpServer
end Pgw
