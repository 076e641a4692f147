/-
The middleware in front of the admin routes.  The rate limiter and the CSRF check hand an
admitted request on to `SecurityAudit`, which logs an event and never calls the route
handler behind it.
-/
import Aegion.TrustedProxy
import Mathlib.Order.Defs.LinearOrder
import Mathlib.Algebra.Group.Defs

namespace Aegion.AdminSecurity

open Go Http

section Writer

/-- The codes that `WriteHeader` accepts. -/
abbrev StatusCode := {code : Nat // 100 ≤ code ∧ code ≤ 999}

def StatusCode.informational (code : StatusCode) : Bool :=
  code.val < 200 && code.val ≠ 101

/-- What a handler can do with a `http.ResponseWriter`. -/
inductive WriterOp where
  | setHeader (name value : String)
  | addHeader (name value : String)
  | delHeader (name : String)
  | writeHeader (code : StatusCode)
  | write (data : List UInt8)

/-- The writer of `net/http`: the header map, what was sent of it with which status, and
the body. -/
structure Response where
  header : Header
  sent : Option (StatusCode × Header)
  body : List UInt8

def statusOK : StatusCode := ⟨200, by decide⟩

def Response.blank : Response := ⟨fun _ => [], none, []⟩

/-- Only the first final status counts, and the header is sent with it. -/
def Response.writeHeader (code : StatusCode) (w : Response) : Response :=
  if w.sent.isSome || code.informational then w else { w with sent := some (code, w.header) }

def Response.apply (w : Response) : WriterOp → Response
  | .setHeader name value => { w with header := set w.header name value }
  | .addHeader name value =>
      { w with
        header := Function.update w.header (canonicalKey name)
          (w.header (canonicalKey name) ++ [value]) }
  | .delHeader name => { w with header := del w.header name }
  | .writeHeader code => w.writeHeader code
  | .write data =>
      let w := w.writeHeader statusOK
      { w with body := w.body ++ data }

/-- What the client gets once the handlers have returned. -/
def Response.received (w : Response) : (StatusCode × Header) × List UInt8 :=
  (w.sent.getD (statusOK, w.header), w.body)

def Response.status (w : Response) : StatusCode := w.received.1.1

def textBytes (text : String) : List UInt8 := text.toUTF8.toList

/-- `http.Error`. -/
def httpError (message : String) (code : StatusCode) : List WriterOp :=
  [.delHeader "Content-Length", .setHeader "Content-Type" "text/plain; charset=utf-8",
    .setHeader "X-Content-Type-Options" "nosniff", .writeHeader code,
    .write (textBytes (message ++ "\n"))]

end Writer

section Limiter

variable {F : Type} [Add F] [Sub F] [Mul F] [Zero F] [One F] [LT F] [DecidableLT F]

structure TokenBucket (F : Type) where
  capacity : F
  tokens : F
  refill : F
  lastFill : Int

def newTokenBucket (capacity refill : F) (now : Int) : TokenBucket F :=
  ⟨capacity, capacity, refill, now⟩

def minFloat (a b : F) : F := if a < b then a else b

/-- `take`, with the function that makes seconds of durations. -/
def TokenBucket.take (seconds : Int → F) (now : Int) (b : TokenBucket F) : Bool × TokenBucket F :=
  let elapsed := seconds (now - b.lastFill)
  let b := if 0 < elapsed then
      { b with tokens := minFloat b.capacity (b.tokens + elapsed * b.refill), lastFill := now }
    else b
  if b.tokens < 1 then (false, b) else (true, { b with tokens := b.tokens - 1 })

structure RateLimiter (F : Type) where
  rps : F
  burst : Int
  buckets : String → Option (TokenBucket F)

def RateLimiter.allow (seconds ofInt : Int → F) (now : Int) (key : String)
    (limiter : RateLimiter F) : Bool × RateLimiter F :=
  let bucket := (limiter.buckets key).getD
    (newTokenBucket (ofInt limiter.burst) limiter.rps now)
  let (taken, bucket) := bucket.take seconds now
  (taken, { limiter with buckets := Function.update limiter.buckets key (some bucket) })

end Limiter

section Requests

/-- A request as the middleware sees it, with the cookies that `net/http` has parsed and
the request id in its context. -/
structure AdminRequest extends Http.Request where
  method : String
  path : String
  cookies : List (String × String)
  contextID : String

/-- `r.Cookie`: the first cookie of the name. -/
def AdminRequest.cookie (r : AdminRequest) (name : String) : Option String :=
  r.cookies.lookup name

def csrfHeaderName : String := "X-CSRF-Token"

def csrfCookieName : String := "aegion_admin_csrf"

def isSafeMethod (method : String) : Bool :=
  method = "GET" || method = "HEAD" || method = "OPTIONS"

def isAPIKeyAuth (r : AdminRequest) : Bool :=
  hasPrefix (trimSpace (get r.header "Authorization")) "Bearer aegion_"

def validateCSRFToken (r : AdminRequest) (token : String) : Bool :=
  match r.cookie csrfCookieName with
  | none => false
  | some value =>
      if value = "" then false
      else if value.utf8ByteSize ≠ token.utf8ByteSize then false
      else value = token

end Requests

/-- The process environment and the packages that the middleware calls. -/
structure Environment (F : Type) where
  net : TrustedProxy.Net
  cache : TrustedProxy.CIDRCache net
  getenv : String → String
  tables : CaseTables
  /-- `Duration.Seconds`, and the conversion of an integer to `float64`. -/
  seconds : Int → F
  ofInt : Int → F
  now : Int
  /-- `generateCSRFToken`, which fails if no random bytes can be read. -/
  csrfToken : Option String
  /-- The `Set-Cookie` line of a CSRF token. -/
  cookieLine : (secure : Bool) → (token : String) → String
  statusText : StatusCode → String
  hashIP : String → String

structure SecurityEvent where
  requestID : String
  method : String
  path : String
  statusCode : StatusCode
  decision : String
  reason : String
  outcome : String
  userAgent : String
  clientIPHash : String

/-- What serving a request changes: the response, what the handler works on, the limiter,
how often the handler was called, and the events logged. -/
structure Exchange (F σ : Type) where
  response : Response
  backend : σ
  limiter : RateLimiter F
  handled : Nat
  events : List SecurityEvent

/-- `http.Handler`. -/
abbrev Handler (F σ : Type) := AdminRequest → Exchange F σ → Exchange F σ

/-- A route handler: it reads the request, the header map of the response and the backend,
and may write anything in any order. -/
abbrev RouteHandler (σ : Type) := AdminRequest → Header → σ → List WriterOp × σ

section Middleware

variable {F σ : Type} [Add F] [Sub F] [Mul F] [Zero F] [One F] [LT F] [DecidableLT F]
  (env : Environment F)

def Exchange.write (x : Exchange F σ) (ops : List WriterOp) : Exchange F σ :=
  { x with response := ops.foldl Response.apply x.response }

/-- The route handler itself, counting its calls. -/
def mounted (handler : RouteHandler σ) : Handler F σ := fun r x =>
  let (ops, backend) := handler r x.response.header x.backend
  { x.write ops with backend := backend, handled := x.handled + 1 }

def isProduction : Bool :=
  let name := env.tables.toLower (trimSpace (env.getenv "AEGION_ENV"))
  let name := if name = "" then
      env.tables.toLower (trimSpace (env.getenv "AEGION_ENVIRONMENT")) else name
  name = "prod" || name = "production"

def allowAdminForwardedHeaders : Bool :=
  env.tables.toLower (trimSpace (env.getenv "AEGION_ADMIN_TRUST_FORWARDED_HEADERS")) ∈
    ["1", "true", "yes", "on"]

def getClientIP (r : AdminRequest) : String :=
  (TrustedProxy.clientIP env.net env.getenv env.cache (some r.toRequest)
    (allowAdminForwardedHeaders env) "AEGION_ADMIN_TRUSTED_PROXY_CIDRS").1

def rateLimitKey (r : AdminRequest) : String := "ip:" ++ getClientIP env r

def rateLimitAdmin (next : Handler F σ) : Handler F σ := fun r x =>
  let (allowed, limiter) :=
    x.limiter.allow env.seconds env.ofInt env.now (rateLimitKey env r)
  let x := { x with limiter := limiter }
  if allowed = false then
    x.write (.setHeader "Retry-After" "1" ::
      httpError "Rate limit exceeded" ⟨429, by decide⟩)
  else next r x

/-- `ensureCSRFCookie`: the token, and what it writes. -/
def ensureCSRFCookie (r : AdminRequest) : Option (String × List WriterOp) :=
  match (r.cookie csrfCookieName).filter (· ≠ "") with
  | some value => some (value, [])
  | none => env.csrfToken.map fun token =>
      (token, [.addHeader "Set-Cookie" (env.cookieLine (isProduction env) token)])

def csrfProtection (next : Handler F σ) : Handler F σ := fun r x =>
  if isSafeMethod r.method then
    match ensureCSRFCookie env r with
    | none => x.write (httpError "Failed to initialize CSRF token" ⟨500, by decide⟩)
    | some (token, ops) => next r (x.write (ops ++ [.setHeader csrfHeaderName token]))
  else if isAPIKeyAuth r then next r x
  else
    let token := get r.header csrfHeaderName
    if token = "" then x.write (httpError "CSRF token required" ⟨403, by decide⟩)
    else if validateCSRFToken r token = false then
      x.write (httpError "Invalid CSRF token" ⟨403, by decide⟩)
    else next r x

/-- `responseWriter`: a writer that remembers the last status. -/
structure ResponseWriter where
  writer : Response
  statusCode : StatusCode

def ResponseWriter.apply (rw : ResponseWriter) : WriterOp → ResponseWriter
  | .writeHeader code => ⟨rw.writer.writeHeader code, code⟩
  | op => { rw with writer := rw.writer.apply op }

def logSecurityEvent (r : AdminRequest) (statusCode : StatusCode) (x : Exchange F σ) :
    Exchange F σ :=
  let denied := 400 ≤ statusCode.val
  let event : SecurityEvent :=
    { requestID := if r.contextID = "" then get r.header "X-Request-ID" else r.contextID
      method := r.method
      path := r.path
      statusCode := statusCode
      decision := if denied then "deny" else "allow"
      reason := env.statusText statusCode
      outcome := if denied then "rejected" else "success"
      userAgent := get r.header "User-Agent"
      clientIPHash := env.hashIP (getClientIP env r) }
  { x with events := event :: x.events }

/-- `SecurityAudit`: the handler is not called, and the wrapper not used by anyone. -/
def securityAudit (_next : Handler F σ) : Handler F σ := fun r x =>
  let wrapped : ResponseWriter := ⟨x.response, statusOK⟩
  logSecurityEvent env r wrapped.statusCode x

/-- The route group of the admin server. -/
def adminRoute (handler : RouteHandler σ) : Handler F σ :=
  rateLimitAdmin env (csrfProtection env (securityAudit env (mounted handler)))

end Middleware

section Outcome

variable {F σ : Type} [Add F] [Sub F] [Mul F] [Zero F] [One F] [LT F] [DecidableLT F]
  (env : Environment F)

/-- What the CSRF check writes for a request that it hands on. -/
def csrfWrites (r : AdminRequest) : Option (List WriterOp) :=
  if isSafeMethod r.method then
    (ensureCSRFCookie env r).map fun (token, ops) => ops ++ [.setHeader csrfHeaderName token]
  else if isAPIKeyAuth r then some []
  else
    let token := get r.header csrfHeaderName
    if token ≠ "" ∧ validateCSRFToken r token then some [] else none

/-- The exchange in which a request arrives behind the rate limiter and the CSRF check, if
they let it through. -/
def admitted (r : AdminRequest) (x : Exchange F σ) : Option (Exchange F σ) :=
  let (allowed, limiter) :=
    x.limiter.allow env.seconds env.ofInt env.now (rateLimitKey env r)
  if allowed then (csrfWrites env r).map { x with limiter := limiter }.write else none

/-- The handler ran once, the client gets what it wrote, and one event was logged with its
status. -/
structure Executed (handler : RouteHandler σ) (r : AdminRequest)
    (before after : Exchange F σ) : Prop where
  once : after.handled = before.handled + 1
  response : after.response.received = (mounted handler r before).response.received
  audited : ∃ event, after.events = event :: before.events ∧
    event.statusCode = (mounted handler r before).response.status

end Outcome

section CSRF

variable {F σ : Type} {env : Environment F} {r : AdminRequest} {x : Exchange F σ}

theorem csrf_of_writes {ops : List WriterOp} (hops : csrfWrites env r = some ops)
    (next : Handler F σ) : csrfProtection env next r x = next r (x.write ops) := by
  unfold csrfWrites at hops
  unfold csrfProtection
  split at hops
  · rename_i hsafe
    obtain ⟨⟨token, written⟩, hcookie, rfl⟩ := Option.map_eq_some_iff.mp hops
    rw [if_pos hsafe, hcookie]
  · rename_i hsafe
    rw [if_neg hsafe]
    split at hops
    · rename_i hkey
      cases hops
      rw [if_pos hkey]
      rfl
    · rename_i hkey
      rw [if_neg hkey]
      dsimp only at hops ⊢
      split at hops
      · rename_i hvalid
        cases hops
        rw [if_neg hvalid.1, if_neg (by simp [hvalid.2])]
        rfl
      · cases hops

end CSRF

section Gates

variable {F σ : Type} [Add F] [Sub F] [Mul F] [Zero F] [One F] [LT F] [DecidableLT F]
  {env : Environment F} {r : AdminRequest} {x y : Exchange F σ}

/-- The gates hand an admitted request on to whatever stands behind them. -/
theorem gates_of_admitted (hadmitted : admitted env r x = some y) (next : Handler F σ) :
    rateLimitAdmin env (csrfProtection env next) r x = next r y := by
  unfold admitted at hadmitted
  unfold rateLimitAdmin
  generalize x.limiter.allow env.seconds env.ofInt env.now (rateLimitKey env r) = outcome
    at hadmitted ⊢
  obtain ⟨allowed, limiter⟩ := outcome
  cases allowed with
  | false => cases hadmitted
  | true =>
      obtain ⟨ops, hops, rfl⟩ := Option.map_eq_some_iff.mp hadmitted
      dsimp only
      rw [if_neg (by decide)]
      exact csrf_of_writes hops next

/-- Passing the gates changes neither the count of calls nor the log. -/
theorem counts_of_admitted (hadmitted : admitted env r x = some y) :
    y.handled = x.handled ∧ y.events = x.events := by
  unfold admitted at hadmitted
  generalize x.limiter.allow env.seconds env.ofInt env.now (rateLimitKey env r) = outcome
    at hadmitted
  obtain ⟨allowed, limiter⟩ := outcome
  cases allowed with
  | false => cases hadmitted
  | true =>
      obtain ⟨ops, -, rfl⟩ := Option.map_eq_some_iff.mp hadmitted
      exact ⟨rfl, rfl⟩

/-- Whatever handler is mounted, an admitted request never reaches it: the client gets
what the gates have written, and the one event that is logged says 200. -/
theorem never_executed (env : Environment F) (handler : RouteHandler σ) (r : AdminRequest)
    (x y : Exchange F σ) (hadmitted : admitted env r x = some y) :
    ¬ Executed handler r y (adminRoute env handler r x) ∧
      (adminRoute env handler r x).handled = x.handled ∧
      (adminRoute env handler r x).response = y.response ∧
      ∃ event, (adminRoute env handler r x).events = event :: x.events ∧
        event.statusCode = statusOK := by
  have hroute : adminRoute env handler r x = logSecurityEvent env r statusOK y :=
    gates_of_admitted hadmitted _
  obtain ⟨hhandled, hevents⟩ := counts_of_admitted hadmitted
  rw [hroute]
  refine ⟨fun hexecuted => ?_, hhandled, rfl, _, congrArg _ hevents, rfl⟩
  exact absurd hexecuted.once (Nat.ne_of_lt (Nat.lt_succ_self y.handled))

end Gates

section Sample

def sampleEnvironment : Environment Int where
  net := TrustedProxy.sampleNet
  cache := ⟨[], List.forall_mem_nil _⟩
  getenv _ := ""
  tables := ⟨id, id⟩
  seconds n := n
  ofInt n := n
  now := 0
  csrfToken := some "token"
  cookieLine _ token := csrfCookieName ++ "=" ++ token
  statusText _ := ""
  hashIP ip := ip

/-- A request with an API key. -/
def sampleRequest : AdminRequest where
  remoteAddr := "9.9.9.9:1"
  host := "admin"
  tls := true
  header := set (fun _ => []) "Authorization" "Bearer aegion_key"
  method := "POST"
  path := "/scim/tokens"
  cookies := []
  contextID := "1"

def freshExchange : Exchange Int Nat := ⟨.blank, 0, ⟨5, 20, fun _ => none⟩, 0, []⟩

/-- A handler that creates something. -/
def creating : RouteHandler Nat := fun _ _ created =>
  ([.writeHeader ⟨201, by decide⟩, .write (textBytes "created")], created + 1)

theorem creating_not_executed :
    (adminRoute sampleEnvironment creating sampleRequest freshExchange).handled = 0 := by
  cases hadmitted : admitted sampleEnvironment sampleRequest freshExchange with
  | none =>
      have hsome : (admitted sampleEnvironment sampleRequest freshExchange).isSome = true := by
        decide +kernel
      rw [hadmitted] at hsome
      cases hsome
  | some y =>
      exact (never_executed sampleEnvironment creating sampleRequest freshExchange y hadmitted).2.1

/-- The client is told 200 with an empty body, and so is the log. -/
theorem creating_lost :
    (mounted creating sampleRequest freshExchange).response.status.val = 201 ∧
      (adminRoute sampleEnvironment creating sampleRequest freshExchange).response.status.val =
        200 ∧
      (adminRoute sampleEnvironment creating sampleRequest freshExchange).response.body = [] ∧
      (adminRoute sampleEnvironment creating sampleRequest freshExchange).backend = 0 ∧
      (adminRoute sampleEnvironment creating sampleRequest freshExchange).events.map
        (·.statusCode.val) = [200] := by
  decide +kernel

end Sample

end Aegion.AdminSecurity
