import MiniPgw.Lib.Interleaving
import MiniPgw.Session.Laws

/-!
# Different subscribers do not interfere

While the manager does not drain, what an operation on an IMSI answers depends only on whether this
IMSI is active and whether it is blacklisted (`Subscriber.serve`), and it changes nothing else
(`answer_run`). So a list of operations runs as a family of independent components, one for every
IMSI, and two interleavings of the same operations cannot be told apart: by the answers, the tables
and the records of each IMSI, and, since they write the same records up to their order, by the
counters either (`interleavings_agree`).

## The architecture

* **`Subscriber.serve`** — the abstract component: one subscriber, without table, clock and
  counters.
* **`Serves`**, **`answer_run`** — one operation of the manager is that of its component; the
  three operations are proved apart, over what `serves_of_serve` leaves to be shown.
* **`Logged`**, **`CachedSince`** — what the calls have done to the log and to the counters, which
  is shared by all components.
* **`answerAll_run`** — a list of operations, by induction: the component of each IMSI runs
  through its own part of the list.
* **`interleavings_agree`** — two lists with the same parts have the same components, and records
  that are the same up to their order.
-/

namespace Pgw

open History

/-! ## One subscriber

What the manager does for one subscriber, as an automaton of its own: blacklisted or not, in a
session or not. -/

/-- What the manager knows of one IMSI. -/
structure Subscriber where
  active : Bool
  blacklisted : Bool
  deriving DecidableEq, Repr

/-- An operation on an IMSI. -/
inductive Request where
  | createSession
  | terminateSession
  | addToBlacklist
  deriving DecidableEq, Repr

/-- What the caller gets. -/
inductive Answer where
  | created (result : CreateResult)
  | terminated (done : Bool)
  | blacklisted (inserted : Bool)
  deriving DecidableEq, Repr

/-- An operation on `imsi`, as far as this IMSI is concerned. -/
def Subscriber.serve (imsi : Imsi) (s : Subscriber) : Request → Subscriber × Answer
  | .createSession =>
    if s.blacklisted then (s, .created .REJECTED_BLACKLIST)
    else if s.active then (s, .created .ALREADY_EXISTS)
    else ({ s with active := true }, .created .CREATED)
  | .terminateSession =>
    if s.active then ({ s with active := false }, .terminated true) else (s, .terminated false)
  | .addToBlacklist =>
    if Validation.isValidImsi imsi then
      ({ s with blacklisted := true }, .blacklisted (!s.blacklisted))
    else (s, .blacklisted false)

/-- The record that is written with an answer. -/
def Answer.mark : Answer → Option Mark
  | .created .CREATED => some .created
  | .created .REJECTED_BLACKLIST => some .rejected
  | .terminated true => some .deleted
  | _ => none

/-- Requests with their answers, in the order of the calls. -/
abbrev Trace := List (Imsi × Request × Answer)

/-- The records of a trace. -/
def Trace.marks (trace : Trace) : List (Imsi × Mark) :=
  trace.filterMap fun e => e.2.2.mark.map fun mark => (e.1, mark)

/-- The records of two parts of a trace. -/
theorem Trace.marks_append (trace trace' : Trace) :
    Trace.marks (trace ++ trace') = Trace.marks trace ++ Trace.marks trace' :=
  List.filterMap_append

/-- The first call writes first. -/
theorem Trace.marks_cons (e : Imsi × Request × Answer) (trace : Trace) :
    Trace.marks (e :: trace) = Trace.marks [e] ++ Trace.marks trace :=
  Trace.marks_append [e] trace

/-- The records of one IMSI are those of its own requests. -/
theorem Trace.ofKey_marks (imsi : Imsi) (trace : Trace) :
    ofKey Prod.fst imsi trace.marks = Trace.marks (ofKey Prod.fst imsi trace) := by
  induction trace with
  | nil => rfl
  | cons e trace ih =>
    have hone : ofKey Prod.fst imsi (Trace.marks [e]) = Trace.marks (ofKey Prod.fst imsi [e]) := by
      obtain ⟨x, request, a⟩ := e
      by_cases hx : x = imsi <;> cases hmark : a.mark <;> simp [Trace.marks, ofKey, hx, hmark]
    have hsplit : ofKey Prod.fst imsi (e :: trace)
        = ofKey Prod.fst imsi [e] ++ ofKey Prod.fst imsi trace := ofKey_append _ _ [e] trace
    rw [Trace.marks_cons, ofKey_append, hone, ih, hsplit, Trace.marks_append]

namespace SessionManager

variable {m m' m'' : SessionManager}

/-! ## The operations

The calls of the manager, each with a reading of the clock and a new order of the table. Neither is
seen in the answers. -/

/-- An operation on an IMSI, with the reading of the clock that it makes. An operation may rehash
the table: from then on it is iterated in the order `order`. -/
structure Call where
  imsi : Imsi
  request : Request
  now : Time
  order : List SessionEntry

/-- What the caller says, without the clock and the order of the table. -/
def Call.input (c : Call) : Imsi × Request :=
  (c.imsi, c.request)

/-- The call of the manager. -/
def answer (c : Call) : Method Answer :=
  match c.request with
  | .createSession => do
    let result ← createSession c.imsi c.now
    pure (.created result)
  | .terminateSession => do
    let done ← terminateSession c.imsi
    pure (.terminated done)
  | .addToBlacklist => do
    let inserted ← addToBlacklist c.imsi
    pure (.blacklisted inserted)

/-- The table is iterated in another order. -/
def rehashed (m : SessionManager) (order : List SessionEntry) : SessionManager :=
  { m with sessions := m.sessions.reordered order }

/-- The calls one after the other, each of which may rehash the table. -/
def answerAll : List Call → Method Trace
  | [] => pure []
  | c :: calls => do
    let a ← answer c
    modify fun m => m.rehashed c.order
    let rest ← answerAll calls
    pure ((c.imsi, c.request, a) :: rest)

/-- What the manager knows of the IMSI. -/
def subscriber (m : SessionManager) (imsi : Imsi) : Subscriber where
  active := m.hasSession imsi
  blacklisted := imsi ∈ m.blacklist

/-- The table is as it was, or the cached number of sessions is that of the table. -/
def CachedSince (m m' : SessionManager) (marks : List (Imsi × Mark)) : Prop :=
  if marks.all (fun e => e.2 = .rejected) then
    m'.stats.activeSessions = m.stats.activeSessions ∧ m'.sessions.size = m.sessions.size
  else m'.stats.activeSessions = m'.sessions.size

/-- The manager `m'` has written the records `marks` since `m`. -/
structure Logged (m m' : SessionManager) (marks : List (Imsi × Mark)) : Prop where
  reliable : m'.cdrWriter.Reliable
  draining : m'.draining = false
  startTime : m'.startTime = m.startTime
  entries : m'.cdrWriter.entries = m.cdrWriter.entries ++ marks.map Ledger.entry
  created : m'.stats.createdSessions = m.stats.createdSessions + Ledger.marked .created marks
  rejected : m'.stats.rejectedSessions = m.stats.rejectedSessions + Ledger.marked .rejected marks
  terminated : m'.stats.terminateSessions
    = m.stats.terminateSessions + Ledger.marked .deleted marks
  total : m'.stats.totalSessions = m.stats.totalSessions
    + (Ledger.marked .created marks + Ledger.marked .rejected marks)
  expired : m'.stats.expiredSessions = m.stats.expiredSessions
  uptime : m'.stats.uptimeSeconds = m.stats.uptimeSeconds
  cached : CachedSince m m' marks

/-- Nothing has been written yet. -/
theorem Logged.refl (hreliable : m.cdrWriter.Reliable) (hdraining : m.draining = false) :
    Logged m m [] := by
  constructor <;> simp [Ledger.marked, CachedSince, hreliable, hdraining]

/-- What has been written since is written in two parts. -/
theorem Logged.trans {marks marks' : List (Imsi × Mark)} (h : Logged m m' marks)
    (h' : Logged m' m'' marks') : Logged m m'' (marks ++ marks') where
  reliable := h'.reliable
  draining := h'.draining
  startTime := h'.startTime.trans h.startTime
  entries := by rw [h'.entries, h.entries, List.map_append, List.append_assoc]
  created := by rw [h'.created, h.created, Ledger.marked_append]; omega
  rejected := by rw [h'.rejected, h.rejected, Ledger.marked_append]; omega
  terminated := by rw [h'.terminated, h.terminated, Ledger.marked_append]; omega
  total := by rw [h'.total, h.total, Ledger.marked_append, Ledger.marked_append]; omega
  expired := h'.expired.trans h.expired
  uptime := h'.uptime.trans h.uptime
  cached := by
    have hfirst := h.cached
    have hsecond := h'.cached
    unfold CachedSince at hfirst hsecond ⊢
    rw [List.all_append]
    cases hall : marks.all fun e => e.2 = .rejected with
    | true =>
      rw [hall, if_pos rfl] at hfirst
      cases hall' : marks'.all fun e => e.2 = .rejected with
      | true =>
        rw [hall', if_pos rfl] at hsecond
        exact ⟨hsecond.1.trans hfirst.1, hsecond.2.trans hfirst.2⟩
      | false =>
        rw [hall', if_neg Bool.false_ne_true] at hsecond
        exact hsecond
    | false =>
      rw [hall, if_neg Bool.false_ne_true] at hfirst
      rw [Bool.false_and, if_neg Bool.false_ne_true]
      split at hsecond
      -- only rejections follow: the table and the cached number stay as they are
      · rw [hsecond.1, hsecond.2, hfirst]
      · exact hsecond

/-- A new session writes one record and raises two counters, -/
theorem logged_created (hreliable : m.cdrWriter.Reliable) (hdraining : m.draining = false)
    (imsi : Imsi) (now : Time) : Logged m (m.created imsi now) [(imsi, .created)] := by
  constructor <;>
    simp [SessionManager.created, wrote, Ledger.marked, CachedSince, Ledger.entry, Mark.action,
      hdraining]
  exact hreliable

/-- so does a rejection, but the table stays as it was, -/
theorem logged_rejected (hreliable : m.cdrWriter.Reliable) (hdraining : m.draining = false)
    (imsi : Imsi) : Logged m (m.rejected imsi) [(imsi, .rejected)] := by
  constructor <;>
    simp [SessionManager.rejected, wrote, Ledger.marked, CachedSince, Ledger.entry, Mark.action,
      hdraining]
  exact hreliable

/-- and a termination counts as one. -/
theorem logged_terminated (hreliable : m.cdrWriter.Reliable) (hdraining : m.draining = false)
    (imsi : Imsi) : Logged m (m.terminated imsi) [(imsi, .deleted)] := by
  constructor <;>
    simp [SessionManager.terminated, deleted, wrote, Ledger.marked, CachedSince, Ledger.entry,
      Mark.action, hdraining]
  exact hreliable

/-- `addToBlacklist` writes no record, -/
theorem logged_blacklisted (hreliable : m.cdrWriter.Reliable) (hdraining : m.draining = false)
    (imsi : Imsi) : Logged m { m with blacklist := insert imsi m.blacklist } [] := by
  constructor <;> simp [Ledger.marked, CachedSince, hdraining]
  exact hreliable

/-- and neither does a rehash. -/
theorem logged_rehashed (hreliable : m.cdrWriter.Reliable) (hdraining : m.draining = false)
    (order : List SessionEntry) : Logged m (m.rehashed order) [] := by
  constructor <;>
    simp [rehashed, Ledger.marked, CachedSince, UnorderedMap.size_reordered, hdraining]
  exact hreliable

/-- The order of the table says nothing about a subscriber. -/
theorem subscriber_rehashed (m : SessionManager) (order : List SessionEntry) :
    (m.rehashed order).subscriber = m.subscriber := by
  funext imsi
  have hkeys : imsi ∈ (m.rehashed order).sessions ↔ imsi ∈ m.sessions := by
    rw [rehashed, ← UnorderedMap.mem_keySet, UnorderedMap.keySet_reordered,
      UnorderedMap.mem_keySet]
  rw [subscriber, subscriber, Subscriber.mk.injEq]
  exact ⟨decide_eq_decide.mpr hkeys, rfl⟩

/-! ## One operation

An operation on one IMSI answers what the automaton of this IMSI answers, and leaves those of the
others where they are. -/

/-- What a manager of which only the subscriber `imsi` changed knows. -/
theorem subscriber_eq_update {imsi : Imsi} {s : Subscriber}
    (hactive : m'.hasSession imsi = s.active)
    (hblack : decide (imsi ∈ m'.blacklist) = s.blacklisted)
    (hothers : ∀ x, x ≠ imsi → m'.subscriber x = m.subscriber x) :
    m'.subscriber = Function.update m.subscriber imsi s := by
  funext x
  by_cases hx : x = imsi
  · subst hx
    rw [Function.update_self, subscriber, hactive, hblack]
  · rw [Function.update_of_ne hx, hothers x hx]

/-- The operation answers what the subscriber alone decides, and changes nothing else. -/
def Serves (m : SessionManager) (c : Call) (m' : SessionManager) : Prop :=
  let served := Subscriber.serve c.imsi (m.subscriber c.imsi) c.request
  (answer c).run m = .ok served.2 m' ∧
    m'.subscriber = Function.update m.subscriber c.imsi served.1 ∧
    Logged m m' (Trace.marks [(c.imsi, c.request, served.2)])

/-- An operation serves its caller if the three parts of `Serves` hold for what `Subscriber.serve`
decides. -/
theorem serves_of_serve {c : Call} {served : Subscriber × Answer}
    (hserve : Subscriber.serve c.imsi (m.subscriber c.imsi) c.request = served)
    (hrun : (answer c).run m = .ok served.2 m')
    (hupdate : m'.subscriber = Function.update m.subscriber c.imsi served.1)
    (hlogged : Logged m m' (Trace.marks [(c.imsi, c.request, served.2)])) : Serves m c m' := by
  unfold Serves
  rw [hserve]
  exact ⟨hrun, hupdate, hlogged⟩

/-- An operation that has nothing to do writes no record either. -/
theorem serves_of_unchanged (hreliable : m.cdrWriter.Reliable) (hdraining : m.draining = false)
    {c : Call} {a : Answer} (hmark : a.mark = none)
    (hserve : Subscriber.serve c.imsi (m.subscriber c.imsi) c.request = (m.subscriber c.imsi, a))
    (hrun : (answer c).run m = .ok a m) : Serves m c m := by
  refine serves_of_serve hserve hrun (Function.update_eq_self _ _).symm ?_
  have hmarks : Trace.marks [(c.imsi, c.request, a)] = [] := by simp [Trace.marks, hmark]
  rw [hmarks]
  exact Logged.refl hreliable hdraining

/-- **`createSession`** looks at the blacklist first, then at the table, and answers one of three
results. -/
theorem createSession_serves (hreliable : m.cdrWriter.Reliable) (hdraining : m.draining = false)
    (imsi : Imsi) (now : Time) (order : List SessionEntry) :
    ∃ m', Serves m ⟨imsi, .createSession, now, order⟩ m' := by
  have hrun := createSession_run (hreliable _) imsi now
  rw [hdraining] at hrun
  by_cases hblack : imsi ∈ m.blacklist
  · have hserve : Subscriber.serve imsi (m.subscriber imsi) .createSession
        = (m.subscriber imsi, .created .REJECTED_BLACKLIST) := by
      simp [Subscriber.serve, subscriber, hblack]
    refine ⟨m.rejected imsi, serves_of_serve hserve ?_ ?_ ?_⟩
    · simp [answer, hrun, hblack]
    · exact (Function.update_eq_self imsi m.subscriber).symm
    · exact logged_rejected hreliable hdraining imsi
  by_cases himsi : imsi ∈ m.sessions
  · have hserve : Subscriber.serve imsi (m.subscriber imsi) .createSession
        = (m.subscriber imsi, .created .ALREADY_EXISTS) := by
      simp [Subscriber.serve, subscriber, hasSession, hblack, himsi]
    refine ⟨m, serves_of_unchanged hreliable hdraining rfl hserve ?_⟩
    simp [answer, hrun, hblack, himsi]
  -- a new session changes its own subscriber and no other
  · have hserve : Subscriber.serve imsi (m.subscriber imsi) .createSession
        = ({ m.subscriber imsi with active := true }, .created .CREATED) := by
      simp [Subscriber.serve, subscriber, hasSession, hblack, himsi]
    refine ⟨m.created imsi now, serves_of_serve hserve ?_ ?_ ?_⟩
    · simp [answer, hrun, hblack, himsi]
    · refine subscriber_eq_update ?_ rfl (fun x hx => ?_)
      · simp [hasSession, SessionManager.created, wrote]
      · rw [subscriber, subscriber, Subscriber.mk.injEq]
        exact ⟨by simp [hasSession, SessionManager.created, wrote, hx], rfl⟩
    · exact logged_created hreliable hdraining imsi now

/-- **`terminateSession`** writes a record only if there was a session. -/
theorem terminateSession_serves (hreliable : m.cdrWriter.Reliable)
    (hdraining : m.draining = false) (imsi : Imsi) (now : Time) (order : List SessionEntry) :
    ∃ m', Serves m ⟨imsi, .terminateSession, now, order⟩ m' := by
  by_cases himsi : imsi ∈ m.sessions
  · have hserve : Subscriber.serve imsi (m.subscriber imsi) .terminateSession
        = ({ m.subscriber imsi with active := false }, .terminated true) := by
      simp [Subscriber.serve, subscriber, hasSession, himsi]
    refine ⟨m.terminated imsi, serves_of_serve hserve ?_ ?_ ?_⟩
    · simp [answer, terminateSession_run (hreliable _) himsi]
    · refine subscriber_eq_update ?_ rfl (fun x hx => ?_)
      · simp [hasSession, SessionManager.terminated, deleted, wrote]
      · rw [subscriber, subscriber, Subscriber.mk.injEq]
        exact ⟨by simp [hasSession, SessionManager.terminated, deleted, wrote, hx], rfl⟩
    · exact logged_terminated hreliable hdraining imsi
  · have hserve : Subscriber.serve imsi (m.subscriber imsi) .terminateSession
        = (m.subscriber imsi, .terminated false) := by
      simp [Subscriber.serve, subscriber, hasSession, himsi]
    refine ⟨m, serves_of_unchanged hreliable hdraining rfl hserve ?_⟩
    simp [answer, terminateSession_run_none himsi]

/-- **`addToBlacklist`** says whether the IMSI is new on the blacklist; one that is not valid is not
put there. -/
theorem addToBlacklist_serves (hreliable : m.cdrWriter.Reliable)
    (hdraining : m.draining = false) (imsi : Imsi) (now : Time) (order : List SessionEntry) :
    ∃ m', Serves m ⟨imsi, .addToBlacklist, now, order⟩ m' := by
  by_cases hvalid : Validation.isValidImsi imsi = true
  · have hserve : Subscriber.serve imsi (m.subscriber imsi) .addToBlacklist
        = ({ m.subscriber imsi with blacklisted := true },
          .blacklisted (decide (imsi ∉ m.blacklist))) := by
      simp [Subscriber.serve, subscriber, hvalid]
    refine ⟨{ m with blacklist := insert imsi m.blacklist }, serves_of_serve hserve ?_ ?_ ?_⟩
    · simp [answer, SessionManager.addToBlacklist, hvalid]
    · refine subscriber_eq_update rfl ?_ (fun x hx => ?_)
      · simp
      · simp [subscriber, hasSession, hx]
    · exact logged_blacklisted hreliable hdraining imsi
  · have hserve : Subscriber.serve imsi (m.subscriber imsi) .addToBlacklist
        = (m.subscriber imsi, .blacklisted false) := by
      simp [Subscriber.serve, hvalid]
    refine ⟨m, serves_of_unchanged hreliable hdraining rfl hserve ?_⟩
    simp [answer, SessionManager.addToBlacklist, hvalid]

/-- **One operation** answers what its subscriber alone decides, whatever the table and the clock
are. -/
theorem answer_run (hreliable : m.cdrWriter.Reliable) (hdraining : m.draining = false)
    (c : Call) : ∃ m', Serves m c m' := by
  obtain ⟨imsi, request, now, order⟩ := c
  cases request with
  | createSession => exact createSession_serves hreliable hdraining imsi now order
  | terminateSession => exact terminateSession_serves hreliable hdraining imsi now order
  | addToBlacklist => exact addToBlacklist_serves hreliable hdraining imsi now order

/-! ## Lists of operations

By induction, a list of calls is served as if each subscriber had the manager for itself. -/

/-- **The manager serves every subscriber by itself.** Induction on the calls. -/
theorem answerAll_run (calls : List Call) :
    ∀ {m : SessionManager}, m.cdrWriter.Reliable → m.draining = false →
      ∃ m' trace, (answerAll calls).run m = .ok trace m' ∧
        Interleaving.run Subscriber.serve m.subscriber (calls.map Call.input)
          = (m'.subscriber, trace) ∧
        Logged m m' (Trace.marks trace) := by
  induction calls with
  | nil => exact fun hreliable hdraining => ⟨_, [], rfl, rfl, Logged.refl hreliable hdraining⟩
  | cons c calls ih =>
    intro m hreliable hdraining
    obtain ⟨m₁, hanswer, hupdate, hlogged⟩ := answer_run hreliable hdraining c
    generalize hserved : Subscriber.serve c.imsi (m.subscriber c.imsi) c.request = served
      at hanswer hupdate hlogged
    -- a new order of the table between two calls changes no subscriber
    have hrehash := logged_rehashed hlogged.reliable hlogged.draining c.order
    obtain ⟨m', trace, hrun, hcomponents, hrest⟩ := ih hrehash.reliable hrehash.draining
    rw [subscriber_rehashed, hupdate] at hcomponents
    have hmodify : (modify fun m => m.rehashed c.order : Method Unit).run m₁
        = .ok () (m₁.rehashed c.order) := rfl
    refine ⟨m', (c.imsi, c.request, served.2) :: trace, ?_, ?_, ?_⟩
    · simp [answerAll, hanswer, hmodify, hrun]
    · simp [Interleaving.run, Call.input, hserved, hcomponents]
    · rw [Trace.marks_cons]
      simpa using hlogged.trans (hrehash.trans hrest)

/-! ## Two interleavings

Two orders of the same requests agree for each subscriber, and so in all that is a sum over the
subscribers. -/

/-- The calls on each IMSI are those of the family, in the order that the family gives. -/
def Interleaves (family : Imsi → List Request) (calls : List Call) : Prop :=
  ∀ imsi, (ofKey Call.imsi imsi calls).map Call.request = family imsi

/-- An interleaving has for each IMSI the requests of its component. -/
theorem Interleaves.inputsOf {family : Imsi → List Request} {calls : List Call}
    (h : Interleaves family calls) (imsi : Imsi) :
    Interleaving.inputsOf imsi (calls.map Call.input) = family imsi := by
  rw [← h imsi, Interleaving.inputsOf, ofKey_map, List.map_map]
  rfl

/-- What was cached depends on the records only up to their order. -/
theorem Logged.activeSessions_eq {m₁ m₂ : SessionManager} {marks marks' : List (Imsi × Mark)}
    (h : Logged m m₁ marks) (h' : Logged m m₂ marks') (hperm : marks.Perm marks')
    (hsize : m₁.sessions.size = m₂.sessions.size) :
    m₁.stats.activeSessions = m₂.stats.activeSessions := by
  have hcached := h.cached
  have hcached' := h'.cached
  unfold CachedSince at hcached hcached'
  rw [hperm.all_eq] at hcached
  split at hcached
  · next hall =>
    rw [if_pos hall] at hcached'
    rw [hcached.1, hcached'.1]
  · next hall =>
    rw [if_neg hall] at hcached'
    rw [hcached, hcached', hsize]

/-- Two managers that have written the same records since, in any order, and have tables of the same
size, have the same counters. -/
theorem Logged.stats_eq {m₁ m₂ : SessionManager} {marks marks' : List (Imsi × Mark)}
    (h : Logged m m₁ marks) (h' : Logged m m₂ marks') (hperm : marks.Perm marks')
    (hsize : m₁.sessions.size = m₂.sessions.size) : m₁.stats = m₂.stats := by
  have hmarked : ∀ mark, Ledger.marked mark marks = Ledger.marked mark marks' :=
    fun mark => hperm.countP_eq _
  refine (Statistics.mk.injEq ..).mpr ⟨h.activeSessions_eq h' hperm hsize, ?_, ?_, ?_, ?_, ?_, ?_⟩
  · rw [h.created, h'.created, hmarked]
  · rw [h.rejected, h'.rejected, hmarked]
  · rw [h.expired, h'.expired]
  · rw [h.terminated, h'.terminated, hmarked]
  · rw [h.total, h'.total, hmarked, hmarked]
  · rw [h.uptime, h'.uptime]

/-- The records of one IMSI are those of before and those of its own requests. -/
theorem Logged.ofKey_entries {trace : Trace} (h : Logged m m' trace.marks) (imsi : Imsi) :
    ofKey CdrEntry.imsi imsi m'.cdrWriter.entries
      = ofKey CdrEntry.imsi imsi m.cdrWriter.entries
        ++ (Trace.marks (ofKey Prod.fst imsi trace)).map Ledger.entry := by
  have hkey : CdrEntry.imsi ∘ Ledger.entry = Prod.fst := rfl
  rw [h.entries, ofKey_append, ofKey_map, hkey, Trace.ofKey_marks]

/-- The traces and the managers of two runs that cannot be told apart. -/
structure Agree (trace trace' : Trace) (m₁ m₂ : SessionManager) : Prop where
  answers : ∀ imsi, ofKey Prod.fst imsi trace = ofKey Prod.fst imsi trace'
  active : m₁.sessions.keySet = m₂.sessions.keySet
  blacklist : m₁.blacklist = m₂.blacklist
  stats : m₁.stats = m₂.stats
  getStatistics : ∀ now, m₁.getStatistics now = m₂.getStatistics now
  records : ∀ imsi, ofKey CdrEntry.imsi imsi m₁.cdrWriter.entries
    = ofKey CdrEntry.imsi imsi m₂.cdrWriter.entries

/-- **Different subscribers do not interfere.** -/
theorem interleavings_agree {family : Imsi → List Request} {calls calls' : List Call}
    (hreliable : m.cdrWriter.Reliable) (hdraining : m.draining = false)
    (hcalls : Interleaves family calls) (hcalls' : Interleaves family calls') :
    ∃ trace trace' m₁ m₂, (answerAll calls).run m = .ok trace m₁ ∧
      (answerAll calls').run m = .ok trace' m₂ ∧ Agree trace trace' m₁ m₂ := by
  obtain ⟨m₁, trace, hrun, hcomponents, hlogged⟩ := answerAll_run calls hreliable hdraining
  obtain ⟨m₂, trace', hrun', hcomponents', hlogged'⟩ := answerAll_run calls' hreliable hdraining
  have hinputs : ∀ imsi, Interleaving.inputsOf imsi (calls.map Call.input)
      = Interleaving.inputsOf imsi (calls'.map Call.input) := fun imsi => by
    rw [hcalls.inputsOf, hcalls'.inputsOf]
  obtain ⟨hstates, hanswers⟩ :=
    Interleaving.run_eq_of_inputsOf Subscriber.serve hinputs m.subscriber
  rw [hcomponents, hcomponents'] at hstates hanswers
  have hsubscriber : ∀ imsi, m₁.subscriber imsi = m₂.subscriber imsi := congrFun hstates
  have hactive : m₁.sessions.keySet = m₂.sessions.keySet := by
    ext imsi
    have himsi := congrArg Subscriber.active (hsubscriber imsi)
    rw [UnorderedMap.mem_keySet, UnorderedMap.mem_keySet]
    exact decide_eq_decide.mp himsi
  have hsize : m₁.sessions.size = m₂.sessions.size := by
    rw [← UnorderedMap.card_keySet, ← UnorderedMap.card_keySet, hactive]
  -- the records of each IMSI are the same, so all of them are, up to their order
  have hmarks : ∀ imsi, ofKey Prod.fst imsi trace.marks = ofKey Prod.fst imsi trace'.marks := by
    intro imsi
    rw [Trace.ofKey_marks, Trace.ofKey_marks, hanswers imsi]
  have hstats := hlogged.stats_eq hlogged' (perm_of_ofKey hmarks) hsize
  refine ⟨trace, trace', m₁, m₂, hrun, hrun', hanswers, hactive, ?_, hstats, fun now => ?_,
    fun imsi => ?_⟩
  · ext imsi
    exact decide_eq_decide.mp (congrArg Subscriber.blacklisted (hsubscriber imsi))
  · rw [SessionManager.getStatistics, SessionManager.getStatistics, hstats, hsize,
      hlogged.startTime, hlogged'.startTime]
  · rw [hlogged.ofKey_entries, hlogged'.ofKey_entries, hanswers imsi]

/-- Two subscribers whose IMSIs -/
def firstSubscriber : Imsi := ascii "001010123456789"

/-- differ in the last digit. -/
def secondSubscriber : Imsi := ascii "001010123456780"

/-- A subscriber that comes and goes, and one that is blacklisted while its session is active. -/
def twoSubscribers (imsi : Imsi) : List Request :=
  if imsi = firstSubscriber then [.createSession, .terminateSession]
  else if imsi = secondSubscriber then [.createSession, .addToBlacklist, .createSession]
  else []

/-- One after the other. -/
def serialCalls : List Call :=
  [⟨firstSubscriber, .createSession, 1, []⟩, ⟨firstSubscriber, .terminateSession, 2, []⟩,
    ⟨secondSubscriber, .createSession, 3, []⟩, ⟨secondSubscriber, .addToBlacklist, 4, []⟩,
    ⟨secondSubscriber, .createSession, 5, []⟩]

/-- In turn. -/
def parallelCalls : List Call :=
  [⟨secondSubscriber, .createSession, 1, []⟩, ⟨firstSubscriber, .createSession, 2, []⟩,
    ⟨secondSubscriber, .addToBlacklist, 3, []⟩, ⟨firstSubscriber, .terminateSession, 4, []⟩,
    ⟨secondSubscriber, .createSession, 5, []⟩]

/-- One subscriber after the other, -/
theorem serialCalls_interleaves : Interleaves twoSubscribers serialCalls := by
  intro imsi
  by_cases hfirst : imsi = firstSubscriber
  · subst hfirst
    decide
  by_cases hsecond : imsi = secondSubscriber
  · subst hsecond
    decide
  · simp [twoSubscribers, serialCalls, ofKey, hfirst, hsecond, Ne.symm hfirst, Ne.symm hsecond]

/-- and both in turn: two interleavings of the same requests. -/
theorem parallelCalls_interleaves : Interleaves twoSubscribers parallelCalls := by
  intro imsi
  by_cases hfirst : imsi = firstSubscriber
  · subst hfirst
    decide
  by_cases hsecond : imsi = secondSubscriber
  · subst hsecond
    decide
  · simp [twoSubscribers, parallelCalls, ofKey, hfirst, hsecond, Ne.symm hfirst, Ne.symm hsecond]

/-- They end with the same answers, tables, records and counters. -/
theorem interleavings_agree_twoSubscribers :
    ∃ trace trace' m₁ m₂,
      (answerAll serialCalls).run (constructed freshWriter ∅ 30 10 0) = .ok trace m₁ ∧
      (answerAll parallelCalls).run (constructed freshWriter ∅ 30 10 0) = .ok trace' m₂ ∧
      Agree trace trace' m₁ m₂ :=
  interleavings_agree (fun _ => rfl) rfl serialCalls_interleaves parallelCalls_interleaves

end SessionManager
end Pgw
