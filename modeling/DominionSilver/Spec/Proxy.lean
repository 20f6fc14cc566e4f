import DominionSilver.Library.Traces

/-! The Lazer proxy of the public app (`app/api/lazer/route.ts`): the state of one warm instance and
the requests that interleave on it. What runs between two `await`s is one step, and reads the clock
once. A `number` is a rational; `none` for a timestamp is `NaN` or an infinity. -/

namespace DominionSilver

namespace LazerProxy

abbrev SILV_FEED_ID : ℚ := 3154
abbrev CACHE_TTL_MS : ℤ := 2000
abbrev MIN_UPSTREAM_INTERVAL_MS : ℤ := 1000
abbrev BUCKET_BURST : ℚ := 30
abbrev BUCKET_RATE_PER_SEC : ℚ := 5
abbrev MAX_UPSTREAM_FAILURES : ℕ := 2
abbrev FORWARD_TOLERANCE_US : ℚ := 3600000000

def ATTEMPTS (fresh : Bool) : ℕ := if fresh then 1 else 3

/-- A value in a request's body, as far as the handler tells values apart. -/
inductive JsValue
  | undefined
  | number (value : ℚ)
  | boolean (value : Bool)
  | other
deriving DecidableEq

/-- A body that does not parse has neither field. -/
structure RequestBody where
  feedId : JsValue
  fresh : JsValue
deriving DecidableEq

/-- `P` is the displayed price, which is floating point. -/
structure SilvPayload (P : Type) where
  envelopeBase64 : String
  price : Option P
deriving DecidableEq

inductive Content (P : Type)
  | payload (payload : SilvPayload P) (contended : Option Bool)
  | error (error : String) (message : Option String)
deriving DecidableEq

structure Response (P : Type) where
  status : ℕ
  content : Content P
  retryAfter : Option String
deriving DecidableEq

section Responses

variable {P : Type}

def served (payload : SilvPayload P) (contended : Option Bool) : Response P :=
  ⟨200, .payload payload contended, none⟩

def notConfigured : Response P :=
  ⟨503, .error "lazer_not_configured" (some "Pyth Lazer API key not set."), none⟩

def feedNotAllowed : Response P :=
  ⟨400, .error "feed_not_allowed" (some "This proxy serves feed 3154 only."), none⟩

def rateLimited : Response P :=
  ⟨429, .error "rate_limited" (some "Too many price requests. Retry shortly."), some "2"⟩

def unreachable : Response P :=
  ⟨502, .error "lazer_unreachable" (some "Upstream price request failed. Retry shortly."), some "1"⟩

def noPayload : Response P := ⟨502, .error "lazer_no_payload" none, none⟩

end Responses

/-! What upstream answers. -/

/-- `price` is computed from the feed's own `price` where it has one. -/
structure PriceFeed (P : Type) where
  price : Option P
  feedUpdateTimestamp : Option ℚ
deriving DecidableEq

/-- A field that is not a string is `none`. -/
structure SolanaMessage where
  encoding : Option String
  data : Option String
deriving DecidableEq

structure LatestPrice (P : Type) where
  solana : Option SolanaMessage
  feed : Option (PriceFeed P)
deriving DecidableEq

inductive Upstream (P : Type)
  /-- The connection fails or times out. -/
  | failed
  /-- `data` is `none` where the body is not JSON. -/
  | response (ok : Bool) (data : Option (LatestPrice P))
deriving DecidableEq

/-- The payload and the raw feed timestamp; `none` throws. -/
def Upstream.read {P : Type} : Upstream P → Option (SilvPayload P × Option ℚ)
  | .failed => none
  | .response ok data => do
    guard ok
    let data ← data
    let solana ← data.solana
    guard (solana.encoding = some "base64")
    let envelope ← solana.data
    guard (envelope ≠ "")
    return (⟨envelope, data.feed.bind (·.price)⟩, data.feed.bind (·.feedUpdateTimestamp))

/-! The module's state and what runs on it without an `await`. -/

structure Cached (P : Type) where
  /-- `at` in the source. -/
  writtenAt : ℤ
  payload : SilvPayload P
  feedTsUs : ℚ
deriving DecidableEq

/-- Upstream calls are numbered as they start; `inflight` is the one whose promise is stored. -/
structure Instance (P : Type) where
  silvCache : Option (Cached P)
  lastClaimedFeedTsUs : ℚ
  tokens : ℚ
  lastRefill : ℤ
  inflight : Option ℕ
  nextCall : ℕ
deriving DecidableEq

/-- The local variables of a request in its loop. -/
structure Caller where
  fresh : Bool
  attempt : ℕ
  upstreamFailures : ℕ
deriving DecidableEq

def Caller.next (c : Caller) : Caller := { c with attempt := c.attempt + 1 }

def Caller.failed (c : Caller) : Caller := { c with upstreamFailures := c.upstreamFailures + 1 }

inductive Next (P : Type)
  | answer (response : Response P)
  /-- `await shared`. -/
  | join (c : Caller) (call : ℕ)
  /-- `await inflight`. -/
  | await (c : Caller) (call : ℕ)
deriving DecidableEq

/-- What a request does up to its next `await`: whether it takes a token, the call it starts. -/
structure Turn (P : Type) where
  inst : Instance P
  charged : Bool
  opened : Option ℕ
  next : Next P
deriving DecidableEq

section Handler

variable {P : Type} (now : ℤ) (i : Instance P)

def allowRequest : Bool × Instance P :=
  let tokens :=
    min BUCKET_BURST (i.tokens + ((now - i.lastRefill : ℤ) : ℚ) / 1000 * BUCKET_RATE_PER_SEC)
  if tokens < 1 then (false, { i with tokens := tokens, lastRefill := now })
  else (true, { i with tokens := tokens - 1, lastRefill := now })

def claimFresh : Option (Instance P × Response P) :=
  match i.silvCache with
  | none => none
  | some e =>
    if e.feedTsUs ≤ i.lastClaimedFeedTsUs then none
    else some ({ i with lastClaimedFeedTsUs := e.feedTsUs }, served e.payload (some false))

/-- The timestamp that a claim may use; `0` is never claimed. -/
def boundedFeedTs (rawFeedTs : Option ℚ) : ℚ :=
  match rawFeedTs with
  | some ts => if 0 < ts ∧ ts < now * 1000 + FORWARD_TOLERANCE_US then ts else 0
  | none => 0

/-- The end of an upstream call; `none` throws and writes nothing. -/
def fetchAndCache (answer : Upstream P) : Option (Instance P) := do
  let (payload, rawFeedTs) ← answer.read
  return { i with silvCache := some ⟨now, payload, boundedFeedTs now rawFeedTs⟩ }

def cacheHit (fresh : Bool) : Option (Response P) :=
  match i.silvCache with
  | none => none
  | some e =>
    if ¬ fresh ∧ now - e.writtenAt < CACHE_TTL_MS then some (served e.payload none) else none

def respond (r : Response P) : Turn P := ⟨i, false, none, .answer r⟩

def claimOr (otherwise : Turn P) : Turn P :=
  match claimFresh i with
  | some (i, r) => respond i r
  | none => otherwise

/-- Behind the loop. -/
def exhausted (c : Caller) : Turn P :=
  match i.silvCache with
  | some e => respond i (if c.fresh then served e.payload (some true) else noPayload)
  | none => respond i noPayload

/-- The rest of a pass from the charge on. -/
def openOrAwait (c : Caller) : Turn P :=
  match i.inflight with
  | some call => ⟨i, false, none, .await c call⟩
  | none =>
    match allowRequest now i with
    | (false, i) => respond i rateLimited
    | (true, i) =>
      ⟨{ i with inflight := some i.nextCall, nextCall := i.nextCall + 1 }, true, some i.nextCall,
        .await c i.nextCall⟩

/-- The head of the loop and the pass that starts there. -/
def pass (c : Caller) : Turn P :=
  if ATTEMPTS c.fresh ≤ c.attempt then exhausted i c
  else
    match cacheHit now i c.fresh with
    | some r => respond i r
    | none =>
      match i.inflight with
      | some call => ⟨i, false, none, .join c call⟩
      | none => openOrAwait now i c

/-- From `await shared` on. -/
def afterShared (c : Caller) (ok : Bool) : Turn P :=
  if ok then
    match cacheHit now i c.fresh with
    | some r => respond i r
    | none => if c.fresh then claimOr i (pass now i c.next) else openOrAwait now i c
  else if c.failed.upstreamFailures < MAX_UPSTREAM_FAILURES then pass now i c.failed.next
  else respond i unreachable

/-- From `await inflight` on. -/
def afterInflight (c : Caller) (ok : Bool) : Turn P :=
  if ok then
    if c.fresh then claimOr i (pass now i c.next)
    else
      match i.silvCache with
      | some e => respond i (served e.payload none)
      | none => pass now i c.next
  else if c.failed.upstreamFailures < MAX_UPSTREAM_FAILURES ∧ c.attempt + 1 < ATTEMPTS c.fresh then
    pass now i c.failed.next
  else respond i unreachable

/-- `POST` once the body is read. -/
def serve (body : RequestBody) : Turn P :=
  let fresh : Bool := body.fresh = .boolean true
  if body.feedId ≠ .undefined ∧ body.feedId ≠ .number SILV_FEED_ID then respond i feedNotAllowed
  else
    match cacheHit now i fresh, i.silvCache with
    | some r, _ => respond i r
    | none, some e =>
      if fresh ∧ now - e.writtenAt < MIN_UPSTREAM_INTERVAL_MS then
        claimOr i (respond i (served e.payload (some true)))
      else pass now i ⟨fresh, 0, 0⟩
    | none, none => pass now i ⟨fresh, 0, 0⟩

end Handler

/-! The event loop. -/

/-- The promise of an upstream call. -/
inductive Progress
  | pending
  /-- `fetchAndCache` is over, its `finally` has yet to run. -/
  | finishing (ok : Bool)
  | settled (ok : Bool)
deriving DecidableEq

inductive Request
  /-- The body is being read. -/
  | parsing
  | joined (c : Caller) (call : ℕ)
  | awaiting (c : Caller) (call : ℕ)
  | answered
deriving DecidableEq

structure Proxy (P : Type) where
  now : ℤ
  apiKey : Option String
  inst : Instance P
  promises : ℕ → Option Progress
  requests : ℕ → Option Request

/-- The module as it is loaded. -/
def boot {P : Type} (now : ℤ) (apiKey : Option String) : Proxy P where
  now
  apiKey
  inst := ⟨none, 0, BUCKET_BURST, now, none, 0⟩
  promises := fun _ => none
  requests := fun _ => none

inductive Event (P : Type)
  | tick (now : ℤ)
  | arrive (request : ℕ)
  | parsed (request : ℕ) (body : RequestBody)
  | upstream (call : ℕ) (answer : Upstream P)
  /-- The `finally` of a call's creator. -/
  | release (call : ℕ)
  /-- A request whose call has settled runs on. -/
  | resume (request : ℕ)
deriving DecidableEq

/-- What a step does besides changing the state. -/
structure Output (P : Type) where
  charged : Bool
  opened : Option ℕ
  response : Option (Response P)
deriving DecidableEq

section Loop

variable {P : Type}

def Output.silent : Output P := ⟨false, none, none⟩

def Next.request : Next P → Request
  | .answer _ => .answered
  | .join c call => .joined c call
  | .await c call => .awaiting c call

def Next.response : Next P → Option (Response P)
  | .answer r => some r
  | .join _ _ | .await _ _ => none

/-- `request` has taken a turn. -/
def Proxy.after (p : Proxy P) (request : ℕ) (t : Turn P) : Proxy P × Output P :=
  ({ p with
      inst := t.inst
      promises := match t.opened with
        | some call => Function.update p.promises call (some .pending)
        | none => p.promises
      requests := Function.update p.requests request (some t.next.request) },
    ⟨t.charged, t.opened, t.next.response⟩)

/-- `!apiKey` holds of the empty string too. -/
def Proxy.configured (p : Proxy P) : Bool :=
  match p.apiKey with
  | some key => key ≠ ""
  | none => false

/-- One step of the event loop; `none` where the event cannot happen. -/
def step (p : Proxy P) : Event P → Option (Proxy P × Output P)
  | .tick now => some ({ p with now }, .silent)
  | .arrive request =>
    match p.requests request with
    | some _ => none
    | none =>
      if p.configured then
        some ({ p with requests := Function.update p.requests request (some .parsing) }, .silent)
      else some (p.after request (respond p.inst notConfigured))
  | .parsed request body =>
    match p.requests request with
    | some .parsing => some (p.after request (serve p.now p.inst body))
    | _ => none
  | .upstream call answer =>
    match p.promises call with
    | some .pending =>
      match fetchAndCache p.now p.inst answer with
      | some i =>
        some ({ p with
          inst := i
          promises := Function.update p.promises call (some (.finishing true)) }, .silent)
      | none =>
        some ({ p with
          promises := Function.update p.promises call (some (.finishing false)) }, .silent)
    | _ => none
  | .release call =>
    match p.promises call with
    | some (.finishing ok) =>
      some ({ p with
        inst := { p.inst with inflight := none }
        promises := Function.update p.promises call (some (.settled ok)) }, .silent)
    | _ => none
  | .resume request =>
    match p.requests request with
    | some (.joined c call) =>
      match p.promises call with
      | some (.settled ok) => some (p.after request (afterShared p.now p.inst c ok))
      | _ => none
    | some (.awaiting c call) =>
      match p.promises call with
      | some (.settled ok) => some (p.after request (afterInflight p.now p.inst c ok))
      | _ => none
    | _ => none

/-- A step as a run records it: the event and what came out of it. -/
def Step (p : Proxy P) (e : Event P × Output P) (p' : Proxy P) : Prop := step p e.1 = some (p', e.2)

/-- A run of one instance from its load, with what happened in it. -/
abbrev Run (loaded : ℤ) (apiKey : Option String) :=
  Trace (Step (P := P)) (boot loaded apiKey)

end Loop

end LazerProxy

end DominionSilver
