import MiniPgw.Tcp.HandlerSafety

/-!
# The replies of the command handler

Every command that the handler knows is answered through `createJsonMsg`, which fills in the whole
header (`handle_answers`). The `default` branch of `handle` fills in a header by hand and leaves its
version uninitialised, so the peer can read that reply only if the version happens to be right
(`readable_iff`).

## The architecture

* **`Answers`** — the last call of a handler is `createJsonMsg`; it goes through binds and
  branches, so that there is a line for each handler.
* **`handle_answers`**, **`handle_run_unknown`** — the known commands, and the `default` branch.
* **`readable_of_wellFormed`** — the decoder finds a well-formed reply in its own bytes.
* **`readable_iff`** — the two branches together.
-/

namespace Pgw

open Protocol TcpSerializer Effects

namespace TcpHandler

variable {json : JsonLib} {around : Surroundings} {h h' : TcpHandler} {request response : Message}

/-- The commands of `handle`. -/
def Known (command : Command) : Prop :=
  command = .GET_STATS ∨ command = .GET_SESSIONS ∨ command = .GET_CDR ∨
    command = .START_SESSION ∨ command = .STOP_SESSION ∨ command = .SHUTDOWN

/-- The computation answers with a message of `createJsonMsg`. -/
def Answers (command : Command) (x : Method Message) : Prop :=
  ∀ h, Ensures x h (fun r _ => ∃ status data, r = jsonMsg command status data) fun _ _ => True

/-- `createJsonMsg` puts the command that it is given into a well-formed message. -/
theorem createJsonMsg_answers (command : Command) (status : Status) (reply : Json) :
    Answers command (createJsonMsg json command status reply) := by
  intro h
  unfold createJsonMsg
  split
  · exact ⟨status, [], rfl⟩
  · cases json.dump reply with
    | none => trivial
    | some data => exact ⟨status, data, rfl⟩

/-- Only the last call of a handler builds the reply. -/
theorem Answers.bind {α : Type} {command : Command} {x : Method α} {f : α → Method Message}
    (hf : ∀ a, Answers command (f a)) : Answers command (x >>= f) :=
  fun _ => ensures_bind_of_forall (fun a t => hf a t) fun _ _ => trivial

/-- Both branches have to answer. -/
theorem Answers.ite {command : Command} {c : Prop} {_ : Decidable c} {x y : Method Message}
    (hx : Answers command x) (hy : Answers command y) :
    Answers command (if c then x else y) := by
  split
  · exact hx
  · exact hy

/-- `GET_CDR` answers with its own command, with records and without. -/
theorem handleGetCdr_answers (params : Json) :
    Answers .GET_CDR (handleGetCdr json around params) := by
  refine Answers.bind fun h => Answers.ite (createJsonMsg_answers _ _ _)
    (Answers.bind fun limit => ?_)
  intro t
  cases around.getRecentRecords limit with
  | error e => trivial
  | ok records => exact createJsonMsg_answers _ _ _ t

/-- **A known command is answered by a message of `createJsonMsg`.** -/
theorem handle_answers (h : Known request.header.command) :
    Answers request.header.command (handle json around request) := by
  unfold handle
  rcases h with hc | hc | hc | hc | hc | hc <;> rw [hc]
  · exact Answers.bind fun _ => createJsonMsg_answers _ _ _
  · exact Answers.bind fun _ => createJsonMsg_answers _ _ _
  · exact handleGetCdr_answers _
  · exact Answers.bind fun _ => Answers.ite (createJsonMsg_answers _ _ _)
      (Answers.bind fun _ => createJsonMsg_answers _ _ _)
  · exact Answers.bind fun _ => Answers.ite (createJsonMsg_answers _ _ _)
      (Answers.bind fun _ => createJsonMsg_answers _ _ _)
  · exact Answers.bind fun _ => createJsonMsg_answers _ _ _

/-- Any other command gets a reply whose version is whatever was there. -/
theorem handle_run_unknown (hunknown : ¬ Known request.header.command) :
    (handle json around request).run h =
      .ok ⟨⟨around.uninitialised, request.header.command, .INVALID_COMMAND, 0⟩, []⟩ h := by
  simp only [Known, not_or] at hunknown
  obtain ⟨h₁, h₂, h₃, h₄, h₅, h₆⟩ := hunknown
  simp [handle, h₁, h₂, h₃, h₄, h₅, h₆]

/-- The peer can decode the reply, and it is one to this request. -/
structure Readable (request response : Message) : Prop where
  decoded : deserializer (serializer response) = some response
  version : response.header.version = PROTOCOL_VERSION
  length : response.header.length.toNat = response.data.length
  command : response.header.command = request.header.command

/-- A well-formed reply is found at the front of its bytes. -/
theorem readable_of_wellFormed (hwf : response.WellFormed)
    (hcommand : response.header.command = request.header.command) : Readable request response where
  decoded := (deserializer_eq_some _ _).mpr ⟨hwf, List.prefix_refl _⟩
  version := hwf.1
  length := hwf.2
  command := hcommand

/-- **Which replies the peer can read.** For every state of the handler and every request that is
answered: the reply can be read if and only if the command is a known one or the version that the
`default` branch leaves uninitialised is the right one. -/
theorem readable_iff (hrun : (handle json around request).run h = .ok response h')
    (hshort : response.data.length < 2 ^ 32) :
    Readable request response ↔
      Known request.header.command ∨ around.uninitialised = PROTOCOL_VERSION := by
  by_cases hknown : Known request.header.command
  · obtain ⟨status, data, rfl⟩ := (handle_answers hknown h).of_run_ok hrun
    have hlength : (UInt32.ofNat data.length).toNat = data.length := by
      rw [UInt32.toNat_ofNat']
      exact Nat.mod_eq_of_lt hshort
    exact iff_of_true (readable_of_wellFormed ⟨rfl, hlength⟩ rfl) (.inl hknown)
  · rw [handle_run_unknown hknown] at hrun
    cases hrun
    constructor
    · exact fun hread => .inr hread.version
    · rintro (hcommand | hversion)
      · exact absurd hcommand hknown
      · exact readable_of_wellFormed ⟨hversion, rfl⟩ rfl

/-- The reply to a session command can be read. -/
theorem readable_startRequest : ∃ response h',
    (handle sampleJson sampleSurroundings (startRequest samplePayload)).run newHandler
        = .ok response h' ∧ Readable (startRequest samplePayload) response := by
  have hknown : Known (startRequest samplePayload).header.command := by
    unfold Known
    decide
  have hrun : (handle sampleJson sampleSurroundings (startRequest samplePayload)).run newHandler
      = .ok _ _ := rfl
  exact ⟨_, _, hrun, (readable_iff hrun (by decide)).mpr (.inl hknown)⟩

/-- A request with the command 0x77, while the uninitialised version is 0. -/
def unknownRequest : Message :=
  ⟨⟨PROTOCOL_VERSION, ⟨0x77⟩, .OK, 0⟩, []⟩

/-- The reply is sent, and the peer waits for more bytes for ever. -/
theorem not_readable_unknownRequest : ∃ response,
    (handle sampleJson sampleSurroundings unknownRequest).run newHandler = .ok response newHandler ∧
      ¬ Readable unknownRequest response := by
  refine ⟨_, rfl, fun hread => ?_⟩
  exact absurd hread.version (by decide)

end TcpHandler
end Pgw
