import MiniPgw.Common

/-!
# How the HTTP library handles a request

The part of `httplib::Server` that `HttpServer` relies on. A request that the pre-routing handler
has handled is not routed; otherwise the handler of the first route that fits the request is
called, and without one the status is 404. The error handler comes last, on every response whose
status is 400 or more. Which route fits a request is a parameter `fits`: the patterns of the
library are regular expressions.

`σ` is what the handlers have access to besides the request and the response.
-/

namespace Pgw
namespace Httplib

structure Request where
  method : Bytes
  path : Bytes
  params : List (Bytes × Bytes)
  deriving DecidableEq, Repr

/-- The first value of the parameter, or an empty string. -/
def Request.getParamValue (req : Request) (key : Bytes) : Bytes :=
  match req.params.find? fun param => param.1 = key with
  | some param => param.2
  | none => []

structure Response where
  status : Int
  body : Bytes
  contentType : Bytes
  deriving DecidableEq, Repr

/-- The response that the handlers are given: its status is not set. -/
def Response.fresh : Response :=
  ⟨-1, [], []⟩

/-- What a handler may change. -/
structure Context (σ : Type) where
  response : Response
  app : σ

inductive HandlerResponse where
  | Handled
  | Unhandled
  deriving DecidableEq, Repr

/-- The methods that routes are registered for. -/
inductive Verb where
  | Get
  | Post
  deriving DecidableEq, Repr

abbrev Handler (σ : Type) := Request → Context σ → Context σ

structure Route (σ : Type) where
  verb : Verb
  pattern : Bytes
  handler : Handler σ

structure Server (σ : Type) where
  preRoutingHandler : Request → Context σ → HandlerResponse × Context σ
  /-- In the order of their registration. -/
  routes : List (Route σ)
  errorHandler : Handler σ

variable {σ : Type}

namespace Context

def setContent (c : Context σ) (content contentType : Bytes) : Context σ :=
  { c with response.body := content, response.contentType := contentType }

def setStatus (c : Context σ) (status : Int) : Context σ :=
  { c with response.status := status }

/-- A status that no handler has set. -/
def orStatus (c : Context σ) (status : Int) : Context σ :=
  if c.response.status = -1 then c.setStatus status else c

theorem orStatus_of_set {c : Context σ} {status : Int} (h : c.response.status ≠ -1) :
    c.orStatus status = c :=
  if_neg h

end Context

section
variable (fits : Verb → Bytes → Request → Bool) (server : Server σ) (req : Request) (app : σ)

/-- The route that a request is dispatched to. -/
def Server.routeOf : Option (Route σ) :=
  server.routes.find? fun route => fits route.verb route.pattern req

def Server.dispatch (c : Context σ) : Context σ :=
  match server.routeOf fits req with
  | some route => (route.handler req c).orStatus 200
  | none => c.orStatus 404

/-- The response before the error handler. -/
def Server.respond : Context σ :=
  match server.preRoutingHandler req ⟨.fresh, app⟩ with
  | (.Handled, c) => c.orStatus 200
  | (.Unhandled, c) => server.dispatch fits req c

/-- The response that the client gets, and what the handlers leave. -/
def Server.process : Context σ :=
  let c := server.respond fits req app
  if 400 ≤ c.response.status then server.errorHandler req c else c

end

variable {fits : Verb → Bytes → Request → Bool} {server : Server σ} {req : Request} {app : σ}

/-- A handled request is not routed. -/
theorem Server.respond_of_handled {c : Context σ}
    (h : server.preRoutingHandler req ⟨.fresh, app⟩ = (.Handled, c)) :
    server.respond fits req app = c.orStatus 200 := by
  unfold Server.respond
  rw [h]

/-- Any other request goes to its route. -/
theorem Server.respond_of_unhandled {c : Context σ}
    (h : server.preRoutingHandler req ⟨.fresh, app⟩ = (.Unhandled, c)) :
    server.respond fits req app = server.dispatch fits req c := by
  unfold Server.respond
  rw [h]

theorem Server.dispatch_of_some {route : Route σ} (h : server.routeOf fits req = some route)
    (c : Context σ) : server.dispatch fits req c = (route.handler req c).orStatus 200 := by
  unfold Server.dispatch
  rw [h]

theorem Server.dispatch_of_none (h : server.routeOf fits req = none) (c : Context σ) :
    server.dispatch fits req c = c.orStatus 404 := by
  unfold Server.dispatch
  rw [h]

/-- The answer of a handler that reports success stays. -/
theorem Server.process_of_lt (h : (server.respond fits req app).response.status < 400) :
    server.process fits req app = server.respond fits req app :=
  if_neg (not_le.mpr h)

/-- Any other answer is in the hands of the error handler. -/
theorem Server.process_of_le (h : 400 ≤ (server.respond fits req app).response.status) :
    server.process fits req app = server.errorHandler req (server.respond fits req app) :=
  if_pos h

end Httplib
end Pgw
