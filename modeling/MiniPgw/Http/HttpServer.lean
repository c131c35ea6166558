import MiniPgw.Http.Httplib
import MiniPgw.Session.SessionManager

/-!
# HttpServer — the requests of the operators

`pgw/server/HttpServer.cpp`: the handlers, as `setRoutes` installs them in the library server.

The error handler says `Not Found` to whatever it is given. The library gives it every response of
status 400 or more, so that it also replaces what the other handlers have decided.
`deliversAnswer_iff` says when a client gets the answer meant for it.

## The architecture

* **`setRoutes`** — the handlers as values of the library's types, so that the model of the
  library dispatches to them.
* **`answer`** — what the client should get, by the route alone.
* **`respond_eq`**, **`respond_spec`** — the response before the error handler is that answer.
* **`answer_stays_iff`**, **`isOf_process_iff`** — the error handler replaces it unless it is a
  success.
* **`serve_spec`**, **`shutdownRequest_iff`** — the flag that the route of the shutdown sets, over
  one request and over any number of them.
-/

namespace Pgw

open Httplib

/-- What the handlers of an `HttpServer` see of it. -/
structure HttpServer where
  sessionManager : SessionManager
  running : Bool
  shutdownRequest : Bool

namespace HttpServer

/-- The codes of `Status` that the handlers set. -/
inductive Status where
  | OK
  | BAD_REQUEST
  | NOT_FOUND
  | SERVICE_UNAVAILABLE
  deriving DecidableEq, Repr

def Status.code : Status → Int
  | .OK => 200
  | .BAD_REQUEST => 400
  | .NOT_FOUND => 404
  | .SERVICE_UNAVAILABLE => 503

/-! ## The handlers

The handlers as they are registered, with their texts. The error handler sees every response whose
status is an error, also an error that a route has set itself. -/

/-- `res.set_content(content, "text/plain")` and then the status. -/
def replyWith (c : Context HttpServer) (content : Bytes) (status : Status) : Context HttpServer :=
  (c.setContent content (ascii "text/plain")).setStatus status.code

/-- Before the routes: is the server running at all? -/
def preRoutingHandler : Request → Context HttpServer → HandlerResponse × Context HttpServer :=
  fun _ c =>
    if !c.app.running then (.Handled, c.setStatus Status.SERVICE_UNAVAILABLE.code)
    else (.Unhandled, c)

def handleSubscriberCheck : Handler HttpServer := fun req c =>
  let imsi := req.getParamValue (ascii "imsi")
  if imsi = [] then replyWith c (ascii "Request error: no imsi") .BAD_REQUEST
  else
    let status :=
      if c.app.sessionManager.hasSession imsi then ascii "active" else ascii "not active"
    replyWith c status .OK

def handleShutdown : Handler HttpServer := fun _ c =>
  replyWith { c with app.shutdownRequest := true } (ascii "Graceful shutdown request set") .OK

def handleHealth : Handler HttpServer := fun _ c =>
  replyWith c (ascii "OK") .OK

def errorHandler : Handler HttpServer := fun _ c =>
  replyWith c (ascii "Not Found") .NOT_FOUND

def setRoutes : Httplib.Server HttpServer where
  preRoutingHandler := preRoutingHandler
  routes := [
    ⟨.Get, ascii "/check_subscriber", handleSubscriberCheck⟩,
    ⟨.Post, ascii "/stop", handleShutdown⟩,
    ⟨.Get, ascii "/health", handleHealth⟩]
  errorHandler := errorHandler

/-! ## What a client should get

What was meant for the client: the answer of the pre-routing handler or of the route, before the
error handler. -/

/-- The part of a response that a client goes by. -/
structure Answer where
  status : Status
  body : Bytes
  deriving DecidableEq, Repr

/-- The client gets this answer. -/
def Answer.IsOf (a : Answer) (res : Response) : Prop :=
  res.status = a.status.code ∧ res.body = a.body

section
variable (fits : Verb → Bytes → Request → Bool) (s : HttpServer) (req : Request)

/-- The answer to a check of a subscriber. -/
def subscriberAnswer : Answer :=
  if req.getParamValue (ascii "imsi") = [] then ⟨.BAD_REQUEST, ascii "Request error: no imsi"⟩
  else if s.sessionManager.hasSession (req.getParamValue (ascii "imsi")) then ⟨.OK, ascii "active"⟩
  else ⟨.OK, ascii "not active"⟩

/-- The answer meant for the client: that of the pre-routing handler, else that of the route, and
`Not Found` without one. -/
def answer : Answer :=
  if s.running = false then ⟨.SERVICE_UNAVAILABLE, []⟩
  else if fits .Get (ascii "/check_subscriber") req then subscriberAnswer s req
  else if fits .Post (ascii "/stop") req then ⟨.OK, ascii "Graceful shutdown request set"⟩
  else if fits .Get (ascii "/health") req then ⟨.OK, ascii "OK"⟩
  else ⟨.NOT_FOUND, ascii "Not Found"⟩

/-- The client gets the answer meant for it. -/
def DeliversAnswer : Prop :=
  (answer fits s req).IsOf (setRoutes.process fits req s).response

end

variable {fits : Verb → Bytes → Request → Bool} {s : HttpServer} {req : Request}

/-! ## What the handlers decide

Status and body of each response as a function of the request and the state. -/

theorem Status.code_injective {a b : Status} (h : a.code = b.code) : a = b := by
  cases a <;> cases b <;> first | rfl | cases h

/-- The codes from 400 on are those of the errors. -/
theorem Status.code_lt_iff (status : Status) : status.code < 400 ↔ status = .OK := by
  cases status <;> decide

theorem Answer.isOf_unique {a b : Answer} {res : Response} (ha : a.IsOf res) (hb : b.IsOf res) :
    a = b := by
  obtain ⟨hstatus, hbody⟩ := ha
  obtain ⟨hstatus', hbody'⟩ := hb
  cases a
  cases b
  rw [Answer.mk.injEq]
  exact ⟨Status.code_injective (hstatus.symm.trans hstatus'), hbody.symm.trans hbody'⟩

theorem isOf_replyWith (c : Context HttpServer) (content : Bytes) (status : Status) :
    (Answer.mk status content).IsOf (replyWith c content status).response :=
  ⟨rfl, rfl⟩

/-- A handler that has set one of the codes has set the status. -/
theorem orStatus_replyWith (c : Context HttpServer) (content : Bytes) (status : Status)
    (default : Int) :
    (replyWith c content status).orStatus default = replyWith c content status := by
  refine Context.orStatus_of_set ?_
  show status.code ≠ -1
  cases status <;> decide

theorem handleSubscriberCheck_eq (req : Request) (c : Context HttpServer) :
    handleSubscriberCheck req c =
      replyWith c (subscriberAnswer c.app req).body (subscriberAnswer c.app req).status := by
  unfold handleSubscriberCheck subscriberAnswer
  by_cases himsi : req.getParamValue (ascii "imsi") = []
  · simp [himsi]
  · cases hactive : c.app.sessionManager.hasSession (req.getParamValue (ascii "imsi")) <;>
      simp [himsi, hactive]

/-- The routes in the order of their registration. -/
theorem routeOf_setRoutes (fits : Verb → Bytes → Request → Bool) (req : Request) :
    setRoutes.routeOf fits req =
      if fits .Get (ascii "/check_subscriber") req then
        some ⟨.Get, ascii "/check_subscriber", handleSubscriberCheck⟩
      else if fits .Post (ascii "/stop") req then some ⟨.Post, ascii "/stop", handleShutdown⟩
      else if fits .Get (ascii "/health") req then some ⟨.Get, ascii "/health", handleHealth⟩
      else none := by
  unfold Server.routeOf setRoutes
  rw [List.find?_cons, List.find?_cons, List.find?_cons, List.find?_nil]
  cases fits .Get (ascii "/check_subscriber") req <;> cases fits .Post (ascii "/stop") req <;>
    cases fits .Get (ascii "/health") req <;> rfl

/-- What the handler of the route replies with is the response. -/
theorem dispatch_eq {route : Route HttpServer} {c c' : Context HttpServer} {content : Bytes}
    {status : Status} (hroute : setRoutes.routeOf fits req = some route)
    (hreply : route.handler req c = replyWith c' content status) :
    setRoutes.dispatch fits req c = replyWith c' content status := by
  rw [Server.dispatch_of_some hroute, hreply, orStatus_replyWith]

/-- **Before the error handler**: the pre-routing handler, else the route, else the library. -/
theorem respond_eq :
    setRoutes.respond fits req s =
      if s.running = false then
        (⟨.fresh, s⟩ : Context HttpServer).setStatus Status.SERVICE_UNAVAILABLE.code
      else if fits .Get (ascii "/check_subscriber") req then
        replyWith ⟨.fresh, s⟩ (subscriberAnswer s req).body (subscriberAnswer s req).status
      else if fits .Post (ascii "/stop") req then
        replyWith ⟨.fresh, { s with shutdownRequest := true }⟩
          (ascii "Graceful shutdown request set") .OK
      else if fits .Get (ascii "/health") req then replyWith ⟨.fresh, s⟩ (ascii "OK") .OK
      else (⟨.fresh, s⟩ : Context HttpServer).setStatus Status.NOT_FOUND.code := by
  by_cases hstopped : s.running = false
  · have hhandled : setRoutes.preRoutingHandler req ⟨.fresh, s⟩ =
        (.Handled,
          (⟨.fresh, s⟩ : Context HttpServer).setStatus Status.SERVICE_UNAVAILABLE.code) := by
      simp [setRoutes, preRoutingHandler, hstopped]
    rw [if_pos hstopped, Server.respond_of_handled hhandled]
    exact Context.orStatus_of_set Int.noConfusion
  have hunhandled : setRoutes.preRoutingHandler req ⟨.fresh, s⟩ = (.Unhandled, ⟨.fresh, s⟩) := by
    simp [setRoutes, preRoutingHandler, hstopped]
  rw [if_neg hstopped, Server.respond_of_unhandled hunhandled]
  have hroute := routeOf_setRoutes fits req
  by_cases hcheck : fits .Get (ascii "/check_subscriber") req = true
  · rw [if_pos hcheck] at hroute ⊢
    exact dispatch_eq hroute (handleSubscriberCheck_eq req ⟨.fresh, s⟩)
  rw [if_neg hcheck] at hroute ⊢
  by_cases hstop : fits .Post (ascii "/stop") req = true
  · rw [if_pos hstop] at hroute ⊢
    exact dispatch_eq hroute rfl
  rw [if_neg hstop] at hroute ⊢
  by_cases hhealth : fits .Get (ascii "/health") req = true
  · rw [if_pos hhealth] at hroute ⊢
    exact dispatch_eq hroute rfl
  rw [if_neg hhealth] at hroute ⊢
  -- no route fits: the library sets the status
  rw [Server.dispatch_of_none hroute]
  rfl

/-- The answer to a request without a route. -/
def notFound : Answer :=
  ⟨.NOT_FOUND, ascii "Not Found"⟩

/-- The response is the answer, but for the body of an error. -/
theorem respond_spec (fits : Verb → Bytes → Request → Bool) (s : HttpServer)
    (req : Request) :
    (setRoutes.respond fits req s).response.status = (answer fits s req).status.code ∧
      ((answer fits s req).status = .OK →
        (setRoutes.respond fits req s).response.body = (answer fits s req).body) := by
  rw [respond_eq]
  unfold answer
  split_ifs
  · exact ⟨rfl, fun _ => rfl⟩
  · exact ⟨rfl, fun _ => rfl⟩
  · exact ⟨rfl, fun _ => rfl⟩
  · exact ⟨rfl, fun _ => rfl⟩
  -- without a route the body is still empty, but the status is that of an error
  · refine ⟨rfl, fun hok => ?_⟩
    cases hok

/-! ## What the client gets

The error handler replaces the body of every error and sets its own status. -/

/-- What the client gets: the error handler decides unless the answer is a success. -/
def delivered (fits : Verb → Bytes → Request → Bool) (s : HttpServer) (req : Request) : Answer :=
  if (answer fits s req).status = .OK then answer fits s req else notFound

theorem isOf_process_iff (a : Answer) :
    a.IsOf (setRoutes.process fits req s).response ↔ a = delivered fits s req := by
  have hdelivered : (delivered fits s req).IsOf (setRoutes.process fits req s).response := by
    obtain ⟨hstatus, hbody⟩ := respond_spec fits s req
    have hlt := Status.code_lt_iff (answer fits s req).status
    unfold delivered
    by_cases hok : (answer fits s req).status = .OK
    · rw [if_pos hok, Server.process_of_lt (hstatus ▸ hlt.mpr hok)]
      exact ⟨hstatus, hbody hok⟩
    · -- the error handler replaces status and body
      have hle : 400 ≤ (setRoutes.respond fits req s).response.status := by
        rw [hstatus]
        exact not_lt.mp (hlt.not.mpr hok)
      rw [if_neg hok, Server.process_of_le hle]
      exact isOf_replyWith _ _ _
  constructor
  · exact fun ha => Answer.isOf_unique ha hdelivered
  · rintro rfl
    exact hdelivered

/-- Which answers survive: successes, and what the error handler says anyway. -/
theorem answer_stays_iff :
    ((answer fits s req).status = .OK ∨ answer fits s req = notFound) ↔
      s.running = true ∧ ¬ (fits .Get (ascii "/check_subscriber") req = true ∧
        req.getParamValue (ascii "imsi") = []) := by
  unfold answer subscriberAnswer notFound
  cases s.running with
  | false => simp
  | true =>
    cases fits .Get (ascii "/check_subscriber") req with
    | true =>
      by_cases himsi : req.getParamValue (ascii "imsi") = []
      · simp [himsi]
      · cases s.sessionManager.hasSession (req.getParamValue (ascii "imsi")) <;> simp [himsi]
    | false =>
      cases fits .Post (ascii "/stop") req <;> cases fits .Get (ascii "/health") req <;> simp

/-- **When the client gets the answer meant for it.** For every request, every state of the session
manager and whichever route the library finds: exactly when the server is running and the request is
not a check of a subscriber without an IMSI. -/
theorem deliversAnswer_iff (fits : Verb → Bytes → Request → Bool) (s : HttpServer)
    (req : Request) :
    DeliversAnswer fits s req ↔ s.running = true ∧
      ¬ (fits .Get (ascii "/check_subscriber") req = true ∧
        req.getParamValue (ascii "imsi") = []) := by
  unfold DeliversAnswer
  rw [isOf_process_iff, ← answer_stays_iff]
  unfold delivered
  by_cases hok : (answer fits s req).status = .OK
  · rw [if_pos hok]
    exact iff_of_true rfl (.inl hok)
  · rw [if_neg hok, or_iff_right hok]

/-- How the library matches a pattern without special characters: a GET route also takes HEAD. -/
def fitsExactly (verb : Verb) (pattern : Bytes) (req : Request) : Bool :=
  req.path == pattern &&
    match verb with
    | .Get => req.method == ascii "GET" || req.method == ascii "HEAD"
    | .Post => req.method == ascii "POST"

def withoutSessions (running : Bool) : HttpServer :=
  ⟨.constructed ⟨[], 0, fun _ => false⟩ ∅ 30 10 0, running, false⟩

def checkWithoutImsi : Request :=
  ⟨ascii "GET", ascii "/check_subscriber", []⟩

/-- The client is told `Not Found` instead of what is wrong with the request, and also when the
server has been stopped. -/
theorem checkWithoutImsi_notFound :
    notFound.IsOf (setRoutes.process fitsExactly checkWithoutImsi (withoutSessions true)).response ∧
      ¬ DeliversAnswer fitsExactly (withoutSessions true) checkWithoutImsi ∧
      ¬ DeliversAnswer fitsExactly (withoutSessions false) checkWithoutImsi := by
  refine ⟨⟨rfl, rfl⟩, fun hdelivers => ?_, fun hdelivers => ?_⟩
  · have hstatus : Status.NOT_FOUND.code = Status.BAD_REQUEST.code := hdelivers.1
    cases hstatus
  · have hstatus : Status.NOT_FOUND.code = Status.SERVICE_UNAVAILABLE.code := hdelivers.1
    cases hstatus

/-! ## Requests for a shutdown

Besides answering, a request can set one flag. -/

section
variable (fits : Verb → Bytes → Request → Bool)

/-- The server after a request. -/
def serve (s : HttpServer) (req : Request) : HttpServer :=
  (setRoutes.process fits req s).app

/-- The client is told that the shutdown has been requested. -/
def Acknowledged (s : HttpServer) (req : Request) : Prop :=
  (Answer.mk .OK (ascii "Graceful shutdown request set")).IsOf
    (setRoutes.process fits req s).response

end

/-- The error handler touches nothing but the response. -/
theorem process_app : (setRoutes.process fits req s).app = (setRoutes.respond fits req s).app := by
  unfold Server.process
  dsimp only
  split
  · rfl
  · rfl

/-- The client is told so exactly by the route of the shutdown. -/
theorem acknowledged_iff : Acknowledged fits s req ↔ s.running = true ∧
    fits .Get (ascii "/check_subscriber") req = false ∧ fits .Post (ascii "/stop") req = true := by
  have hactive : ascii "Graceful shutdown request set" ≠ ascii "active" := by decide
  have hnotActive : ascii "Graceful shutdown request set" ≠ ascii "not active" := by decide
  have hhealthy : ascii "Graceful shutdown request set" ≠ ascii "OK" := by decide
  unfold Acknowledged
  rw [isOf_process_iff]
  unfold delivered answer subscriberAnswer notFound
  split_ifs <;> simp_all

/-- **The step lemma**: a request changes at most the flag, and sets it as it tells the client. -/
theorem serve_spec (fits : Verb → Bytes → Request → Bool) (s : HttpServer)
    (req : Request) :
    (serve fits s req).running = s.running ∧
    (serve fits s req).sessionManager = s.sessionManager ∧
    ((serve fits s req).shutdownRequest = true ↔
      s.shutdownRequest = true ∨ Acknowledged fits s req) := by
  rw [acknowledged_iff]
  unfold serve
  rw [process_app, respond_eq]
  split_ifs <;> simp_all [replyWith, Context.setContent, Context.setStatus]

/-- **Over any sequence of requests**, a shutdown has been requested exactly if some client has been
told so. -/
theorem shutdownRequest_iff (requests : List Request) : ∀ (s : HttpServer),
    (requests.foldl (serve fits) s).shutdownRequest = true ↔
      s.shutdownRequest = true ∨ ∃ req ∈ requests, Acknowledged fits s req := by
  induction requests with
  | nil => exact fun s => by simp
  | cons req requests ih =>
    intro s
    obtain ⟨hrunning, -, hflag⟩ := serve_spec fits s req
    have hlater (later : Request) :
        Acknowledged fits (serve fits s req) later ↔ Acknowledged fits s later := by
      rw [acknowledged_iff, acknowledged_iff, hrunning]
    rw [List.foldl_cons, ih, hflag, or_assoc]
    simp only [hlater, List.exists_mem_cons_iff]

end HttpServer
end Pgw
