import LogLite.Http.QueryRequest
import LogLite.Stats.Query
import LogLite.Lib.Run
import LogLite.Lib.Utf8

/-!
# A connection

`Server::HandleConnection` reads requests one after another and answers each before it reads
the next one.  A response is a JSON text, and `dump` throws for a string that is not UTF-8.
An exception that leaves a handler ends the connection, and the client gets no answer.

The JSON library, the clock and the database are parameters; beast hands over the requests.
What the answers to `/settings`, `/schema` and `/version` say is left open.

## Main definitions

* `Request`, `Response`, `makeJSONResponse` — messages, and how answers are made.
* `handleInsert`, `handleGet`, `dispatch` — the handlers and their table.
* `HttpConnection`, `HttpServer.Step` — `HandleConnection`.
* `Answers` — what the answer to a request should be.
* `Conversation` — requests are answered in order, and what is posted is added.

## Main results

* `connection_answers` — **every run of a connection is such a conversation.**
-/

namespace LogLite

open Transition

/-! ### Messages -/

/-- The method of a request. -/
inductive Verb where
  | get
  | post
  | options
  | other (name : Bytes)
  deriving DecidableEq

/-- A request. -/
structure Request where
  version : ℕ
  keepAlive : Bool
  method : Verb
  target : Bytes
  body : Bytes

/-- A response, with the header fields that the program sets. -/
structure Response where
  status : ℕ
  version : ℕ
  headers : List (Bytes × Bytes)
  keepAlive : Bool
  body : Bytes

/-- The path of a request. -/
def Request.path (req : Request) : Bytes := (splitURLTarget req.target).1

/-- The parameters of a request. -/
def Request.params (req : Request) : List (Bytes × Bytes) :=
  parseQueryString (splitURLTarget req.target).2

/-- What `parse` throws. -/
inductive ParseFailure where
  | parseError (what : Bytes)
  /-- A number is out of range. -/
  | outOfRange (what : Bytes)

/-- What the server is configured with, and the libraries it uses.  `dumpError` is the
message of `dump` for a value with a string that is not UTF-8. -/
structure HttpServer where
  allowOrigin : Bytes
  parse : Bytes → Except ParseFailure Json
  dumpError : Json → Bytes
  platform : Platform
  dateLib : DateLib
  settings : Json
  schema : Json
  version : Bytes

mutual

/-- All strings of the value are UTF-8, so that `dump` can write it. -/
def Json.encodable : Json → Bool
  | .string s => Utf8.wellFormed s
  | .array xs => encodableItems xs
  | .object kvs => encodableMembers kvs
  | _ => true

/-- The same of the items of an array. -/
def encodableItems : List Json → Bool
  | [] => true
  | x :: xs => x.encodable && encodableItems xs

/-- The same of the members of an object. -/
def encodableMembers : List (Bytes × Json) → Bool
  | [] => true
  | (k, x) :: kvs => Utf8.wellFormed k && x.encodable && encodableMembers kvs

end

namespace HttpServer

variable (srv : HttpServer)

/-- The fields of every response that let pages of other origins read it. -/
def corsHeaders : List (Bytes × Bytes) :=
  [(lit "Access-Control-Allow-Origin", srv.allowOrigin),
    (lit "Access-Control-Allow-Methods", lit "GET, POST, OPTIONS"),
    (lit "Access-Control-Allow-Headers", lit "Content-Type")]

/-- `MakeJSONResponse`, or what `dump` throws. -/
def makeJSONResponse (status : ℕ) (body : Json) (req : Request) : Except Bytes Response :=
  if body.encodable then
    .ok ⟨status, req.version, (lit "Content-Type", lit "application/json") :: srv.corsHeaders,
      req.keepAlive, body.dump srv.platform⟩
  else .error (srv.dumpError body)

/-- `MakeOKResp`. -/
def makeOKResp (body : Json) (req : Request) : Except Bytes Response :=
  srv.makeJSONResponse 200 body req

/-- `MakeFailResp`. -/
def makeFailResp (status : ℕ) (msg : Bytes) (req : Request) : Except Bytes Response :=
  srv.makeJSONResponse status (.object [(lit "error", .string msg)]) req

/-- `MakeNotAvailableResp`. -/
def makeNotAvailableResp (body : Json) (req : Request) : Except Bytes Response :=
  srv.makeJSONResponse 503 body req

/-- The answer to a preflight request. -/
def preflight (req : Request) : Response :=
  ⟨204, req.version, srv.corsHeaders, req.keepAlive, []⟩

/-! ### Handlers -/

/-- What `HandleInsert` makes of the body: the entries to be added, or the answer. -/
def handleInsert (req : Request) : List Json ⊕ Except Bytes Response :=
  match srv.parse req.body with
  | .ok (.array xs) => .inl xs
  | .ok (.object kvs) => .inl [.object kvs]
  | .ok _ => .inr (srv.makeFailResp 400 (lit "Body must be a JSON object or array") req)
  | .error (.parseError what) => .inr (srv.makeFailResp 400 (lit "Invalid JSON: " ++ what) req)
  | .error (.outOfRange what) => .inr (.error what)

/-- The answer of `HandleInsert` when all entries have been added. -/
def accepted (req : Request) : Except Bytes Response :=
  srv.makeOKResp (.object [(lit "status", .string (lit "accepted"))]) req

end HttpServer

/-- What a handler that waits for the database gets.  `params` are the parameters of the
request in the order of the multimap. -/
structure Served where
  params : List (Bytes × Bytes)
  query : QueryRequest → Except Bytes Json
  ping : Except Bytes Bool
  activity : List StatsRow
  database : List StatsRow
  uptime : ℤ

/-- The routes that are answered with `GET`. -/
inductive GetRoute where
  | query
  | health
  | version
  | stats
  | settings
  | schema
  deriving DecidableEq

/-- The routes. -/
inductive Route where
  | insert
  | get (route : GetRoute)
  deriving DecidableEq

/-- `kRoutes`. -/
def routes : List (Bytes × Verb × Route) :=
  [(lit "/logs", .post, .insert), (lit "/logs", .get, .get .query),
    (lit "/health", .get, .get .health), (lit "/version", .get, .get .version),
    (lit "/stats", .get, .get .stats), (lit "/settings", .get, .get .settings),
    (lit "/schema", .get, .get .schema)]

/-- `Dispatch`, up to the call of the handler. -/
def dispatch (path : Bytes) (method : Verb) : Option Route :=
  (routes.find? fun route => path == route.1 && method == route.2.1).map fun route => route.2.2

/-- The JSON of a table of statistics. -/
def StatsQueryResult.json (result : StatsQueryResult) : Json :=
  .object [(lit "data", .array (result.data.map .array)),
    (lit "fields", .array (result.fields.map .string))]

namespace HttpServer

variable (srv : HttpServer)

/-- An answer that is made inside of a `try`: if that throws, the answer is the message. -/
def answerOr500 (body : Json) (req : Request) : Except Bytes Response :=
  match srv.makeOKResp body req with
  | .ok res => .ok res
  | .error what => srv.makeFailResp 500 what req

/-- The handlers of the routes that are answered with `GET`. -/
def handleGet (req : Request) (served : Served) : GetRoute → Except Bytes Response
  | .query =>
    match handleQuery served.query served.params with
    | .error failure => srv.makeFailResp failure.1 failure.2 req
    | .ok result => srv.answerOr500 result req
  | .stats =>
    match handleStats srv.platform srv.dateLib (activityStats served.activity)
      (databaseStats served.database) served.params with
    | .error failure => srv.makeFailResp failure.1 failure.2 req
    | .ok (activities, databases) =>
      srv.answerOr500 (.object [(lit "activities", activities.json),
        (lit "database", databases.json), (lit "uptime", .integer served.uptime)]) req
  | .health =>
    match served.ping with
    | .error what => .error what
    | .ok true => srv.makeOKResp (.object [(lit "status", .string (lit "ok"))]) req
    | .ok false => srv.makeNotAvailableResp (.object [(lit "status", .string (lit "error"))]) req
  | .version => srv.makeOKResp (.object [(lit "version", .string srv.version)]) req
  | .settings => srv.makeOKResp srv.settings req
  | .schema => srv.makeOKResp srv.schema req

end HttpServer

/-! ### `HandleConnection` -/

/-- Where the coroutine of a connection is.  `closed` has what was thrown, if something
was. -/
inductive ConnectionPhase where
  | reading
  | adding (req : Request) (left : List Json)
  | handling (req : Request) (route : GetRoute)
  | writing (req : Request) (res : Response)
  | streaming (req : Request)
  | closed (thrown : Option Bytes)

/-- A connection: the requests that were read, those that were answered, and the entries
that were added to the backlog. -/
structure HttpConnection where
  phase : ConnectionPhase
  requests : List Request
  exchanges : List (Request × Response)
  added : List Json

/-- What happens on a connection. -/
inductive ConnectionEvent where
  | read (req : Request)
  | readFailed
  | add
  | answer (served : Served)
  | written
  | writeFailed

/-- A new connection. -/
def HttpConnection.start : HttpConnection := ⟨.reading, [], [], []⟩

/-- Where an answer leads to. -/
def ConnectionPhase.respond (req : Request) : Except Bytes Response → ConnectionPhase
  | .ok res => .writing req res
  | .error what => .closed (some what)

namespace HttpServer

variable (srv : HttpServer)

/-- Where a request leads to. -/
def received (req : Request) : ConnectionPhase :=
  if req.method = .options then .writing req (srv.preflight req)
  else if req.path = lit "/logs/sse" ∧ req.method = .get then .streaming req
  else
    match dispatch req.path req.method with
    | none => .respond req (srv.makeFailResp 404 (lit "not found") req)
    | some (.get route) => .handling req route
    | some .insert =>
      match srv.handleInsert req with
      | .inl entries => .adding req entries
      | .inr answer => .respond req answer

/-- One step of a connection. -/
inductive Step : HttpConnection → ConnectionEvent → HttpConnection → Prop
  | read {s : HttpConnection} (req : Request) (hs : s.phase = .reading) :
      Step s (.read req) { s with phase := srv.received req, requests := s.requests ++ [req] }
  | readFailed {s : HttpConnection} (hs : s.phase = .reading) :
      Step s .readFailed { s with phase := .closed none }
  /-- `ctx.backlog.Add(std::move(entry))`. -/
  | add {s : HttpConnection} {req : Request} {entry : Json} {left : List Json}
      (hs : s.phase = .adding req (entry :: left)) :
      Step s .add { s with phase := .adding req left, added := s.added ++ [entry] }
  | accept {s : HttpConnection} {req : Request} (served : Served) (hs : s.phase = .adding req []) :
      Step s (.answer served) { s with phase := .respond req (srv.accepted req) }
  | answer {s : HttpConnection} {req : Request} {route : GetRoute} (served : Served)
      (hs : s.phase = .handling req route) (hparams : served.params.Perm req.params) :
      Step s (.answer served) { s with phase := .respond req (srv.handleGet req served route) }
  /-- The next request is read, unless the client or its version wants the connection to be
  closed. -/
  | written {s : HttpConnection} {req : Request} {res : Response}
      (hs : s.phase = .writing req res) :
      Step s .written { s with
        phase := if res.keepAlive then .reading else .closed none
        exchanges := s.exchanges ++ [(req, res)] }
  | writeFailed {s : HttpConnection} {req : Request} {res : Response}
      (hs : s.phase = .writing req res) :
      Step s .writeFailed { s with phase := .closed none }

end HttpServer

/-! ### What should be answered -/

namespace HttpServer

variable (srv : HttpServer)

/-- `POST /logs`. -/
def Posted (req : Request) : Prop := req.method = .post ∧ req.path = lit "/logs"

instance (req : Request) : Decidable (Posted req) := inferInstanceAs (Decidable (_ ∧ _))

/-- The entries in a body: those of an array, or an object. -/
def logsOf (body : Bytes) : Option (List Json) :=
  match srv.parse body with
  | .ok (.array xs) => some xs
  | .ok (.object kvs) => some [.object kvs]
  | _ => none

/-- The entries that a request has for the backlog. -/
def entriesOf (req : Request) : List Json :=
  if Posted req then (srv.logsOf req.body).getD [] else []

/-- A response answers a request. -/
structure Answers (req : Request) (res : Response) : Prop where
  version : res.version = req.version
  keepAlive : res.keepAlive = req.keepAlive
  cors : ∀ field ∈ srv.corsHeaders, field ∈ res.headers
  /-- The body is the text of a JSON value, but for preflight requests. -/
  body : if req.method = .options then res.status = 204 ∧ res.body = []
    else ∃ v : Json, v.encodable = true ∧ res.body = v.dump srv.platform
  /-- Entries are accepted if and only if the body has some. -/
  posted : Posted req → res.status = if (srv.logsOf req.body).isSome then 200 else 400
  notFound : req.method ≠ .options → dispatch req.path req.method = none → res.status = 404

/-- The answer that would be made of a failure, if its message is UTF-8. -/
def failure (msg : Bytes) : Json := .object [(lit "error", .string msg)]

/-- What the server says of itself. -/
def describes : GetRoute → Option Json
  | .version => some (.object [(lit "version", .string srv.version)])
  | .settings => some srv.settings
  | .schema => some srv.schema
  | _ => none

/-- The handler of a request throws, for one of these reasons. -/
inductive Throws (req : Request) : Bytes → Prop
  /-- `HandleInsert` catches `parse_error` and nothing else. -/
  | outOfRange {what : Bytes} (hpost : Posted req)
      (hparse : srv.parse req.body = .error (.outOfRange what)) : Throws req what
  /-- The message quotes the body. -/
  | parseError {what : Bytes} (hpost : Posted req)
      (hparse : srv.parse req.body = .error (.parseError what))
      (hmsg : Utf8.wellFormed (lit "Invalid JSON: " ++ what) = false) :
      Throws req (srv.dumpError (failure (lit "Invalid JSON: " ++ what)))
  /-- The message quotes the key of a parameter from which no filter was read. -/
  | filterKey {p : Bytes × Bytes} (hroute : dispatch req.path req.method = some (.get .query))
      (hp : p ∈ req.params) (hnil : parseQueryFilters p.1 p.2 = [])
      (hkey : Utf8.wellFormed p.1 = false) :
      Throws req (srv.dumpError (failure (invalidFilter p.1)))
  | query {served : Served} {request : QueryRequest} {msg : Bytes}
      (hroute : dispatch req.path req.method = some (.get .query))
      (hthrown : served.query request = .error msg) (hmsg : Utf8.wellFormed msg = false) :
      Throws req (srv.dumpError (failure msg))
  /-- The message quotes a field that a table of statistics does not have. -/
  | statsField {p : Bytes × Bytes} {field : ColumnName} {msg : Bytes}
      (hroute : dispatch req.path req.method = some (.get .stats)) (hp : p ∈ req.params)
      (hfield : field ∈ splitFields p.2) (hutf8 : Utf8.wellFormed field = false) :
      Throws req (srv.dumpError (failure msg))
  /-- `HandleHealth` has no `try`. -/
  | health {served : Served} {what : Bytes}
      (hroute : dispatch req.path req.method = some (.get .health))
      (hping : served.ping = .error what) : Throws req what
  /-- What the server says of itself has a string that is not UTF-8. -/
  | payload {route : GetRoute} {body : Json}
      (hroute : dispatch req.path req.method = some (.get route))
      (hbody : srv.describes route = some body) (h : body.encodable = false) :
      Throws req (srv.dumpError body)

/-- What a connection is doing: the request that has no answer yet, and the entries it has
added so far. -/
inductive Doing : ConnectionPhase → List Request → List Json → Prop
  | reading : Doing .reading [] []
  | adding {req : Request} {part left : List Json} (hpost : Posted req)
      (hlogs : srv.logsOf req.body = some (part ++ left)) : Doing (.adding req left) [req] part
  | handling {req : Request} {route : GetRoute}
      (hroute : dispatch req.path req.method = some (.get route))
      (hoptions : req.method ≠ .options) : Doing (.handling req route) [req] []
  | writing {req : Request} {res : Response} (hanswer : srv.Answers req res) :
      Doing (.writing req res) [req] (srv.entriesOf req)
  | streaming {req : Request} : Doing (.streaming req) [req] []
  | closed : Doing (.closed none) [] []
  /-- The answer could not be written. -/
  | lost {req : Request} {res : Response} (hanswer : srv.Answers req res) :
      Doing (.closed none) [req] (srv.entriesOf req)
  | thrown {req : Request} {what : Bytes} (h : srv.Throws req what) :
      Doing (.closed (some what)) [req] []

/-- Requests are answered one after another, and what they have for the backlog is added in
their order. -/
structure Conversation (s : HttpConnection) (unanswered : List Request) (part : List Json) :
    Prop where
  requests : s.requests = s.exchanges.map Prod.fst ++ unanswered
  added : s.added = (s.exchanges.flatMap fun x => srv.entriesOf x.1) ++ part
  doing : srv.Doing s.phase unanswered part
  answers : ∀ x ∈ s.exchanges, srv.Answers x.1 x.2
  /-- Only the last answer closes the connection. -/
  keepAlive : ∀ x ∈ s.exchanges, x.1.keepAlive = true ∨
    (s.phase = .closed none ∧ unanswered = [] ∧ s.exchanges.getLast? = some x)

/-! ### The handlers -/

variable {srv} {req : Request} {res : Response}

theorem makeJSONResponse_ok {status : ℕ} {body : Json}
    (h : srv.makeJSONResponse status body req = .ok res) :
    body.encodable = true ∧ res.status = status ∧ res.version = req.version ∧
      res.keepAlive = req.keepAlive ∧ (∀ field ∈ srv.corsHeaders, field ∈ res.headers) ∧
      res.body = body.dump srv.platform := by
  unfold makeJSONResponse at h
  split at h
  · next hbody =>
    cases h
    exact ⟨hbody, rfl, rfl, rfl, fun _ hfield => List.mem_cons_of_mem _ hfield, rfl⟩
  · cases h

/-- A JSON response answers a request, if its status is the right one. -/
theorem Answers.of_json {status : ℕ} {body : Json}
    (h : srv.makeJSONResponse status body req = .ok res) (hoptions : req.method ≠ .options)
    (hposted : Posted req → status = if (srv.logsOf req.body).isSome then 200 else 400)
    (hfound : dispatch req.path req.method = none → status = 404) : srv.Answers req res := by
  obtain ⟨hbody, hstatus, hversion, hkeep, hcors, htext⟩ := makeJSONResponse_ok h
  refine ⟨hversion, hkeep, hcors, ?_, fun hpost => ?_, fun _ hnone => ?_⟩
  · rw [if_neg hoptions]
    exact ⟨body, hbody, htext⟩
  · rw [hstatus, hposted hpost]
  · rw [hstatus, hfound hnone]

/-- The message of a failure is all that can keep it from being sent. -/
theorem makeFailResp_error {status : ℕ} {msg what : Bytes}
    (h : srv.makeFailResp status msg req = .error what) :
    Utf8.wellFormed msg = false ∧ what = srv.dumpError (failure msg) := by
  unfold makeFailResp makeJSONResponse at h
  split at h
  · cases h
  · next hbody =>
    have herror : Utf8.wellFormed (lit "error") = true := by decide
    cases h
    exact ⟨by simpa [Json.encodable, encodableMembers, herror] using hbody, rfl⟩

theorem makeJSONResponse_error {status : ℕ} {body : Json} {what : Bytes}
    (h : srv.makeJSONResponse status body req = .error what) :
    body.encodable = false ∧ what = srv.dumpError body := by
  unfold makeJSONResponse at h
  split at h
  · cases h
  · next hbody =>
    cases h
    exact ⟨by simpa using hbody, rfl⟩

theorem dispatch_posted (h : Posted req) : dispatch req.path req.method = some .insert := by
  rw [h.1, h.2]
  decide

theorem posted_of_dispatch (h : dispatch req.path req.method = some .insert) : Posted req := by
  obtain ⟨route, hfind, hinsert⟩ := Option.map_eq_some_iff.mp h
  have hmem := List.mem_of_find?_eq_some hfind
  have hmatch := List.find?_some hfind
  rw [Bool.and_eq_true, beq_iff_eq, beq_iff_eq] at hmatch
  have hfirst : route = (lit "/logs", .post, .insert) := by
    simp only [routes, List.mem_cons, List.not_mem_nil, or_false] at hmem
    rcases hmem with rfl | rfl | rfl | rfl | rfl | rfl | rfl
    · rfl
    all_goals cases hinsert
  subst hfirst
  exact ⟨hmatch.2, hmatch.1⟩

theorem not_posted_of_get {route : GetRoute}
    (h : dispatch req.path req.method = some (.get route)) : ¬ Posted req := by
  intro hpost
  cases h.symm.trans (dispatch_posted hpost)

/-- Requests that are not posted add nothing. -/
theorem entriesOf_of_not_posted (h : ¬ Posted req) : srv.entriesOf req = [] := if_neg h

theorem entriesOf_posted (h : Posted req) : srv.entriesOf req = (srv.logsOf req.body).getD [] :=
  if_pos h

/-- `HandleInsert` adds the entries of the body. -/
theorem logsOf_of_handleInsert {logs : List Json} (h : srv.handleInsert req = .inl logs) :
    srv.logsOf req.body = some logs := by
  unfold handleInsert at h
  unfold logsOf
  split at h
  all_goals cases h
  all_goals simp_all

/-- `HandleInsert` answers at once if there are none. -/
theorem logsOf_of_handleInsert_inr {answer : Except Bytes Response}
    (h : srv.handleInsert req = .inr answer) : srv.logsOf req.body = none := by
  unfold handleInsert at h
  unfold logsOf
  cases hparse : srv.parse req.body with
  | error failure => rfl
  | ok v =>
    rw [hparse] at h
    cases v with
    | array xs => cases h
    | object kvs => cases h
    | _ => rfl

theorem handleInsert_ok (h : srv.handleInsert req = .inr (.ok res)) :
    ∃ body, srv.makeJSONResponse 400 body req = .ok res := by
  unfold handleInsert at h
  split at h
  · cases h
  · cases h
  · exact ⟨_, Sum.inr.inj h⟩
  · exact ⟨_, Sum.inr.inj h⟩
  · cases h

theorem handleInsert_error (hpost : Posted req) {what : Bytes}
    (h : srv.handleInsert req = .inr (.error what)) : srv.Throws req what := by
  unfold handleInsert at h
  cases hparse : srv.parse req.body with
  | error failure =>
    rw [hparse] at h
    cases failure with
    | parseError what' =>
      obtain ⟨hmsg, rfl⟩ := makeFailResp_error (Sum.inr.inj h)
      exact .parseError hpost hparse hmsg
    | outOfRange what' =>
      cases h
      exact .outOfRange hpost hparse
  | ok v =>
    rw [hparse] at h
    have hmsg : Utf8.wellFormed (lit "Body must be a JSON object or array") = true := by decide
    cases v with
    | array xs => cases h
    | object kvs => cases h
    | _ => exact absurd ((makeFailResp_error (Sum.inr.inj h)).1.symm.trans hmsg) (by decide)

/-- The answers of the `GET` routes are JSON. -/
theorem answerOr500_ok {body : Json} (h : srv.answerOr500 body req = .ok res) :
    ∃ status body', srv.makeJSONResponse status body' req = .ok res := by
  unfold answerOr500 at h
  split at h
  · next hok => exact ⟨_, _, hok.trans h⟩
  · exact ⟨_, _, h⟩

/-- What a library throws is reported. -/
theorem answerOr500_ne_error (hdump : ∀ v, Utf8.wellFormed (srv.dumpError v) = true) {body : Json}
    {what : Bytes} : srv.answerOr500 body req ≠ .error what := by
  intro h
  unfold answerOr500 at h
  split at h
  · cases h
  · next what' hwhat =>
    obtain ⟨-, rfl⟩ := makeJSONResponse_error hwhat
    exact absurd ((makeFailResp_error h).1.symm.trans (hdump body)) (by decide)

theorem handleGet_ok {route : GetRoute} {served : Served}
    (h : srv.handleGet req served route = .ok res) :
    ∃ status body, srv.makeJSONResponse status body req = .ok res := by
  cases route with
  | query =>
    unfold handleGet at h
    dsimp only at h
    split at h
    · exact ⟨_, _, h⟩
    · exact answerOr500_ok h
  | stats =>
    unfold handleGet at h
    dsimp only at h
    split at h
    · exact ⟨_, _, h⟩
    · exact answerOr500_ok h
  | health =>
    unfold handleGet at h
    dsimp only at h
    split at h
    · cases h
    · exact ⟨_, _, h⟩
    · exact ⟨_, _, h⟩
  | version | settings | schema => exact ⟨_, _, h⟩

theorem quote_ascii : ∀ b ∈ lit "'", b < 0x80 := by
  intro b hb
  rw [List.mem_singleton.mp (show b ∈ [39] from hb)]
  decide

/-- A message in which a text is quoted is UTF-8 if the text is. -/
theorem wellFormed_quote {before text after : Bytes} (hbefore : Utf8.wellFormed before = true)
    (hafter : ∀ b ∈ after, b < 0x80) :
    Utf8.wellFormed (before ++ text ++ after) = Utf8.wellFormed text := by
  rw [Utf8.wellFormed_append_ascii hafter, Utf8.wellFormed_append hbefore]

/-- The messages of `HandleQuery`. -/
theorem handleQuery_error {query : QueryRequest → Except Bytes Json}
    {params : List (Bytes × Bytes)} {failed : ℕ × Bytes}
    (h : handleQuery query params = .error failed) : Utf8.wellFormed failed.2 = true ∨
      (∃ p ∈ params, parseQueryFilters p.1 p.2 = [] ∧ failed.2 = invalidFilter p.1) ∨
      ∃ request, query request = .error failed.2 := by
  unfold handleQuery at h
  split at h
  · next failed' hrequest =>
    cases h
    unfold queryRequest at hrequest
    split at hrequest
    · next p hp =>
      cases hrequest
      have hall : ∀ p ∈ requiredParams, Utf8.wellFormed (missingParam p) = true := by decide
      exact .inl (hall p (List.mem_of_find?_eq_some hp))
    · dsimp only at hrequest
      split at hrequest
      · cases hcollect : collectFilters params with
        | ok filters => rw [hcollect] at hrequest; cases hrequest
        | error failed'' =>
          rw [hcollect] at hrequest
          cases hrequest
          obtain ⟨p, hp, -, hnil, rfl⟩ := collectFilters_error hcollect
          exact .inr (.inl ⟨p, hp, hnil, rfl⟩)
      · cases hrequest
        exact .inl (by decide)
  · next request _ =>
    split at h
    · next what hwhat =>
      cases h
      exact .inr (.inr ⟨request, hwhat⟩)
    · cases h

/-- What a query for statistics throws. -/
theorem queryStats_error {P : Platform} {t : StatsTable} {sinceStr untilStr ordering msg : Bytes}
    {fields : List ColumnName} (h : queryStats P t sinceStr untilStr fields ordering = .error msg) :
    ∃ field ∈ fields, msg = t.unknownField field := by
  unfold queryStats at h
  dsimp only at h
  split at h
  · next field hfield =>
    cases h
    have hmem := List.mem_of_find?_eq_some hfield
    unfold StatsTable.resolved at hmem
    split at hmem
    · next hall =>
      have hnot := List.find?_some hfield
      rw [List.contains_iff_mem.mpr hmem] at hnot
      cases hnot
    · exact ⟨field, hmem, rfl⟩
  · cases h

/-- A parameter that is there. -/
theorem mem_of_lookup {params : List (Bytes × Bytes)} {required : List Bytes} (name : Bytes)
    (h : (required.find? fun p => (params.lookup p).isNone) = none) (hname : name ∈ required) :
    ∃ p ∈ params, p.2 = (params.lookup name).getD [] := by
  have hsome := List.find?_eq_none.mp h name hname
  cases hvalue : params.lookup name with
  | none => rw [hvalue] at hsome; exact absurd rfl hsome
  | some value =>
    obtain ⟨before, after, hparams, -⟩ := List.lookup_eq_some_iff.mp hvalue
    exact ⟨(name, value), by simp [hparams], rfl⟩

/-- The messages of `HandleStats`. -/
theorem handleStats_error {P : Platform} {lib : DateLib} {activity database : List StatsRow}
    {params : List (Bytes × Bytes)} {failed : ℕ × Bytes}
    (h : handleStats P lib (activityStats activity) (databaseStats database) params =
      .error failed) : Utf8.wellFormed failed.2 = true ∨
      ∃ p ∈ params, ∃ field ∈ splitFields p.2,
        Utf8.wellFormed failed.2 = Utf8.wellFormed field := by
  unfold handleStats at h
  dsimp only at h
  split at h
  · next name hname =>
    cases h
    have hmem := List.mem_of_find?_eq_some hname
    have hall : ∀ p ∈ [lit "since", lit "until", lit "activity_stats_fields",
      lit "database_stats_fields"], Utf8.wellFormed (missingParam p) = true := by decide
    exact .inl (hall name hmem)
  · next hrequired =>
    split at h
    · cases h
      exact .inl (by decide)
    · split at h
      · next what hwindow =>
        cases h
        refine .inl ?_
        unfold statsWindow at hwindow
        split at hwindow
        · split at hwindow
          · cases hwindow
            decide
          · split at hwindow
            · cases hwindow
              decide
            · cases hwindow
        · cases hwindow
          decide
      · split at h
        · cases h
        · next what hactivity =>
          cases h
          have hname : Utf8.wellFormed (lit "Unknown " ++ lit "activity_stats" ++ lit " field: '") =
            true := by decide
          obtain ⟨field, hfield, rfl⟩ := queryStats_error hactivity
          obtain ⟨p, hp, hvalue⟩ := mem_of_lookup (lit "activity_stats_fields") hrequired
            (by decide)
          refine .inr ⟨p, hp, field, hvalue ▸ hfield, ?_⟩
          exact wellFormed_quote hname quote_ascii
        · next what hdatabase _ =>
          cases h
          have hname : Utf8.wellFormed (lit "Unknown " ++ lit "database_stats" ++ lit " field: '") =
            true := by decide
          obtain ⟨field, hfield, rfl⟩ := queryStats_error hdatabase
          obtain ⟨p, hp, hvalue⟩ := mem_of_lookup (lit "database_stats_fields") hrequired
            (by decide)
          refine .inr ⟨p, hp, field, hvalue ▸ hfield, ?_⟩
          exact wellFormed_quote hname quote_ascii

/-- A handler of a `GET` route throws for one of the reasons. -/
theorem handleGet_error (hdump : ∀ v, Utf8.wellFormed (srv.dumpError v) = true) {route : GetRoute}
    (hroute : dispatch req.path req.method = some (.get route)) {served : Served}
    (hparams : served.params.Perm req.params) {what : Bytes}
    (h : srv.handleGet req served route = .error what) : srv.Throws req what := by
  cases route with
  | query =>
    unfold handleGet at h
    dsimp only at h
    split at h
    · next hfailed =>
      obtain ⟨hmsg, rfl⟩ := makeFailResp_error h
      rcases handleQuery_error hfailed with hfine | ⟨p, hp, hnil, hkey⟩ | ⟨request, hthrown⟩
      · cases hfine.symm.trans hmsg
      · rw [hkey] at hmsg ⊢
        refine .filterKey hroute (hparams.mem_iff.mp hp) hnil ?_
        rwa [invalidFilter, wellFormed_quote (by decide) quote_ascii] at hmsg
      · exact .query hroute hthrown hmsg
    · exact absurd h (answerOr500_ne_error hdump)
  | stats =>
    unfold handleGet at h
    dsimp only at h
    split at h
    · next hfailed =>
      obtain ⟨hmsg, rfl⟩ := makeFailResp_error h
      rcases handleStats_error hfailed with hfine | ⟨p, hp, field, hfield, hutf8⟩
      · cases hfine.symm.trans hmsg
      · exact .statsField hroute (hparams.mem_iff.mp hp) hfield (hutf8.symm.trans hmsg)
    · exact absurd h (answerOr500_ne_error hdump)
  | health =>
    unfold handleGet at h
    dsimp only at h
    split at h
    · next hping =>
      cases h
      exact .health hroute hping
    all_goals exact absurd (makeJSONResponse_error h).1 (by decide)
  | version | settings | schema =>
    obtain ⟨hbody, rfl⟩ := makeJSONResponse_error h
    exact .payload hroute rfl hbody

/-! ### Runs -/

/-- A handler has ended. -/
theorem Doing.respond {answer : Except Bytes Response}
    (hok : ∀ res, answer = .ok res → srv.Answers req res)
    (hthrown : ∀ what, answer = .error what → srv.Throws req what ∧ srv.entriesOf req = []) :
    srv.Doing (.respond req answer) [req] (srv.entriesOf req) := by
  cases answer with
  | ok res => exact .writing (hok res rfl)
  | error what =>
    obtain ⟨hthrows, hnone⟩ := hthrown what rfl
    rw [hnone]
    exact .thrown hthrows

/-- The answer to a preflight request. -/
theorem answers_preflight (h : req.method = .options) : srv.Answers req (srv.preflight req) where
  version := rfl
  keepAlive := rfl
  cors := fun _ hfield => hfield
  body := by rw [if_pos h]; exact ⟨rfl, rfl⟩
  posted := fun hpost => by cases h.symm.trans hpost.1
  notFound := fun hne => absurd h hne

/-- The answer to a request for a path that is not known. -/
theorem answers_notFound (hoptions : req.method ≠ .options)
    (hnone : dispatch req.path req.method = none)
    (h : srv.makeFailResp 404 (lit "not found") req = .ok res) : srv.Answers req res := by
  refine .of_json h hoptions (fun hpost => ?_) fun _ => rfl
  cases hnone.symm.trans (dispatch_posted hpost)

/-- The answer to a request for which a route has a handler. -/
theorem answers_get {route : GetRoute} (hroute : dispatch req.path req.method = some (.get route))
    (hoptions : req.method ≠ .options) {status : ℕ} {body : Json}
    (h : srv.makeJSONResponse status body req = .ok res) : srv.Answers req res := by
  refine .of_json h hoptions (fun hpost => absurd hpost (not_posted_of_get hroute)) fun hnone => ?_
  cases hnone.symm.trans hroute

/-- The answer to a request with entries, or without. -/
theorem answers_posted (hpost : Posted req) {status : ℕ} {body : Json}
    (hstatus : status = if (srv.logsOf req.body).isSome then 200 else 400)
    (h : srv.makeJSONResponse status body req = .ok res) : srv.Answers req res := by
  refine .of_json h (fun hoptions => ?_) (fun _ => hstatus) fun hnone => ?_
  · cases hoptions.symm.trans hpost.1
  · cases hnone.symm.trans (dispatch_posted hpost)

/-- **A request is taken up**, and nothing has been added yet. -/
theorem doing_received (req : Request) : srv.Doing (srv.received req) [req] [] := by
  unfold received
  split
  · next hoptions =>
    have hnone : srv.entriesOf req = [] :=
      entriesOf_of_not_posted fun hpost => by cases hoptions.symm.trans hpost.1
    rw [← hnone]
    exact .writing (answers_preflight hoptions)
  · next hoptions =>
    split
    · exact .streaming
    · split
      · next hroute =>
        have hnone : srv.entriesOf req = [] :=
          entriesOf_of_not_posted fun hpost => by cases hroute.symm.trans (dispatch_posted hpost)
        rw [← hnone]
        refine .respond (fun res hres => answers_notFound hoptions hroute hres) fun what hwhat => ?_
        exact absurd (makeFailResp_error hwhat).1 (by decide)
      · next route hroute => exact .handling hroute hoptions
      · next hroute =>
        have hpost := posted_of_dispatch hroute
        split
        · next entries hentries => exact .adding hpost (logsOf_of_handleInsert hentries)
        · next answer hanswer =>
          have hlogs := logsOf_of_handleInsert_inr hanswer
          have hnone : srv.entriesOf req = [] := by rw [entriesOf_posted hpost, hlogs]; rfl
          rw [← hnone]
          refine .respond (fun res hres => ?_) fun what hwhat => ?_
          · subst hres
            obtain ⟨body, hbody⟩ := handleInsert_ok hanswer
            exact answers_posted hpost (by rw [hlogs]; rfl) hbody
          · subst hwhat
            exact ⟨handleInsert_error hpost hanswer, hnone⟩

/-- **One step of a connection.** -/
theorem Conversation.step (hdump : ∀ v, Utf8.wellFormed (srv.dumpError v) = true)
    {s t : HttpConnection} {event : ConnectionEvent} {unanswered : List Request}
    {part : List Json} (h : srv.Conversation s unanswered part) (hstep : srv.Step s event t) :
    ∃ unanswered' part', srv.Conversation t unanswered' part' := by
  obtain ⟨hrequests, hadded, hdoing, hanswers, hkeep⟩ := h
  -- all answers so far keep the connection open, unless it is closed
  have hopen : s.phase ≠ .closed none → ∀ x ∈ s.exchanges, x.1.keepAlive = true := fun hne x hx =>
    (hkeep x hx).resolve_right fun hclosed => hne hclosed.1
  cases hstep with
  | read req hs =>
    rw [hs] at hdoing
    cases hdoing
    refine ⟨[req], [], ?_, hadded, doing_received req, hanswers, fun x hx => .inl ?_⟩
    · rw [hrequests, List.append_nil]
    · exact hopen (by rw [hs]; nofun) x hx
  | readFailed hs =>
    rw [hs] at hdoing
    cases hdoing
    exact ⟨[], [], hrequests, hadded, .closed, hanswers, fun x hx => .inl
      (hopen (by rw [hs]; nofun) x hx)⟩
  | @add req entry left hs =>
    rw [hs] at hdoing
    cases hdoing with
    | adding hpost hlogs =>
      refine ⟨[req], part ++ [entry], hrequests, ?_, .adding hpost ?_, hanswers, fun x hx => .inl
        (hopen (by rw [hs]; nofun) x hx)⟩
      · rw [hadded, List.append_assoc]
      · rw [hlogs, List.append_assoc]
        rfl
  | @accept req served hs =>
    rw [hs] at hdoing
    cases hdoing with
    | adding hpost hlogs =>
      rw [List.append_nil] at hlogs
      have hall : srv.entriesOf req = part := by rw [entriesOf_posted hpost, hlogs]; rfl
      have hok : 200 = if (srv.logsOf req.body).isSome then 200 else 400 := by rw [hlogs]; rfl
      refine ⟨[req], part, hrequests, hadded, ?_, hanswers, fun x hx => .inl
        (hopen (by rw [hs]; nofun) x hx)⟩
      rw [← hall]
      show srv.Doing (.respond req (srv.accepted req)) _ _
      refine .respond (fun res hres => ?_) fun what hwhat => ?_
      · rw [accepted, makeOKResp] at hres
        exact answers_posted hpost hok hres
      rw [accepted, makeOKResp] at hwhat
      exact absurd (makeJSONResponse_error hwhat).1 (by decide)
  | @answer req route served hs hparams =>
    rw [hs] at hdoing
    cases hdoing with
    | handling hroute hoptions =>
      have hnone : srv.entriesOf req = [] := entriesOf_of_not_posted (not_posted_of_get hroute)
      refine ⟨[req], [], hrequests, hadded, ?_, hanswers, fun x hx => .inl
        (hopen (by rw [hs]; nofun) x hx)⟩
      rw [← hnone]
      refine .respond (fun res hres => ?_) fun what hwhat =>
        ⟨handleGet_error hdump hroute hparams hwhat, hnone⟩
      obtain ⟨status, body, hbody⟩ := handleGet_ok hres
      exact answers_get hroute hoptions hbody
  | @written req res hs =>
    have hopen := hopen (by rw [hs]; nofun)
    rw [hs] at hdoing
    cases hdoing with
    | writing hanswer =>
      refine ⟨[], [], ?_, ?_, ?_, ?_, fun x hx => ?_⟩
      · rw [hrequests, List.map_append, List.append_nil]
        rfl
      · rw [hadded, List.flatMap_append, List.append_nil]
        simp
      · dsimp only
        split
        · exact .reading
        · exact .closed
      · rw [List.forall_mem_append]
        exact ⟨hanswers, by simpa using hanswer⟩
      · rcases List.mem_append.mp hx with hx | hx
        · exact .inl (hopen x hx)
        · obtain rfl := List.mem_singleton.mp hx
          dsimp only
          rw [hanswer.keepAlive]
          cases hkeep : req.keepAlive with
          | true => exact .inl rfl
          | false => exact .inr ⟨rfl, rfl, List.getLast?_concat⟩
  | @writeFailed req res hs =>
    rw [hs] at hdoing
    cases hdoing with
    | writing hanswer =>
      exact ⟨[req], _, hrequests, hadded, .lost hanswer, hanswers, fun x hx => .inl
        (hopen (by rw [hs]; nofun) x hx)⟩

/-- **In every run of a connection the requests are answered in order**, one answer each,
but for the last one if it is not answered yet or cannot be: then the answer could not be
written or the handler threw for one of the known reasons.  The entries added are those of
the requests in their order; what is accepted has been added, and what has thrown has added
nothing. -/
theorem connection_answers (hdump : ∀ v, Utf8.wellFormed (srv.dumpError v) = true)
    {s : HttpConnection} {events : List ConnectionEvent} (h : Run srv.Step .start events s) :
    ∃ unanswered part, srv.Conversation s unanswered part := by
  refine Run.invariant (I := fun s => ∃ unanswered part, srv.Conversation s unanswered part)
    (fun _ _ _ hconv hstep => ?_) h ⟨[], [], rfl, rfl, .reading, nofun, nofun⟩
  obtain ⟨_, _, hconv⟩ := hconv
  exact hconv.step hdump hstep

/-- A server whose library reads one text. -/
def oneTextServer : HttpServer where
  allowOrigin := lit "*"
  parse := fun s => if s = lit "[1,2]" then .ok (.array [.integer 1, .integer 2])
    else .error (.parseError (lit "syntax error"))
  dumpError := fun _ => lit "invalid UTF-8 byte"
  platform := ⟨fun _ => lit "0.0", fun _ => .finite 0, fun _ => lit "0.0"⟩
  dateLib := ⟨fun _ _ => none, fun _ _ _ _ h => by cases h⟩
  settings := .null
  schema := .null
  version := lit "1"

/-- Two entries are posted, and the client closes the connection. -/
def twoPosted : Request := ⟨11, false, .post, lit "/logs", lit "[1,2]"⟩

/-- The answer to it. -/
def twoAccepted : Response :=
  ⟨200, 11, (lit "Content-Type", lit "application/json") :: oneTextServer.corsHeaders, false,
    lit "\x7b\"status\":\"accepted\"\x7d"⟩

/-- Nothing is read from the database. -/
def nothingServed : Served where
  params := []
  query := fun _ => .error []
  ping := .ok true
  activity := []
  database := []
  uptime := 0

/-- Both entries are added, and the request is answered. -/
theorem connection_answers_two : ∃ unanswered part, oneTextServer.Conversation
    ⟨.closed none, [twoPosted], [(twoPosted, twoAccepted)], [.integer 1, .integer 2]⟩
    unanswered part := by
  have hread : oneTextServer.Step .start (.read twoPosted)
      ⟨.adding twoPosted [.integer 1, .integer 2], [twoPosted], [], []⟩ := .read twoPosted rfl
  have hfirst : oneTextServer.Step
      ⟨.adding twoPosted [.integer 1, .integer 2], [twoPosted], [], []⟩ .add
      ⟨.adding twoPosted [.integer 2], [twoPosted], [], [.integer 1]⟩ := .add rfl
  have hsecond : oneTextServer.Step
      ⟨.adding twoPosted [.integer 2], [twoPosted], [], [.integer 1]⟩ .add
      ⟨.adding twoPosted [], [twoPosted], [], [.integer 1, .integer 2]⟩ := .add rfl
  have haccept : oneTextServer.Step
      ⟨.adding twoPosted [], [twoPosted], [], [.integer 1, .integer 2]⟩ (.answer nothingServed)
      ⟨.writing twoPosted twoAccepted, [twoPosted], [], [.integer 1, .integer 2]⟩ :=
    .accept nothingServed rfl
  have hwritten : oneTextServer.Step
      ⟨.writing twoPosted twoAccepted, [twoPosted], [], [.integer 1, .integer 2]⟩ .written
      ⟨.closed none, [twoPosted], [(twoPosted, twoAccepted)], [.integer 1, .integer 2]⟩ :=
    @Step.written _ ⟨.writing twoPosted twoAccepted, _, _, _⟩ _ _ rfl
  have hdump : ∀ v, Utf8.wellFormed (oneTextServer.dumpError v) = true := by
    intro v
    show Utf8.wellFormed (lit "invalid UTF-8 byte") = true
    decide
  exact connection_answers hdump
    (.cons hread (.cons hfirst (.cons hsecond (.cons haccept (.cons hwritten (.nil _))))))

end HttpServer

end LogLite
