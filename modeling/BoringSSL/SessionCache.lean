import BoringSSL.Lhash
import BoringSSL.Lib.DoublyLinked
import Mathlib.Data.List.DropRight

/-!
# The session cache of `ssl/ssl_session.cc`

A context has its sessions in a hash table, by their IDs, and in a doubly linked list whose ends are
the addresses of two fields of the context.  A session is known by its address, of any type `S`.
`none` is what following a pointer to no session, or giving up a reference there is none of, leads
to.  Callbacks are inputs.  An allocation may fail in any call.
-/

namespace BoringSSL.SessionCache

open ByteLib

/-- `ssl_session_st`, as the cache uses it. -/
structure Session (S : Type) where
  sessionId : Bytes
  time : ℕ
  timeout : ℕ
  references : ℕ
  next : Link S
  prev : Link S
  deriving DecidableEq

/-- The sessions in memory, and the list of a context. -/
structure SessionList (S : Type) where
  session : S → Session S
  sessionCacheHead : Option S
  sessionCacheTail : Option S

/-- The bits of `session_cache_mode`. -/
structure CacheMode where
  client : Bool
  server : Bool
  noAutoClear : Bool
  noInternalLookup : Bool
  noInternalStore : Bool
  deriving DecidableEq, Repr

/-- `SSL_CTX`, as far as the cache goes. -/
structure SslCtx (S : Type) extends SessionList S where
  sessions : Lhash S
  sessionCacheSize : ℕ
  sessionCacheMode : CacheMode
  handshakesSinceCacheFlush : ℕ

variable {S : Type}

/-- The first four bytes, least significant first. -/
def sslHashSessionId (sessionId : Bytes) : UInt32 :=
  (sessionId.getD 0 0).toUInt32 ||| (sessionId.getD 1 0).toUInt32 <<< 8 |||
    (sessionId.getD 2 0).toUInt32 <<< 16 ||| (sessionId.getD 3 0).toUInt32 <<< 24

namespace SessionList

variable (st : SessionList S)

def sslSessionHash (s : S) : UInt32 :=
  sslHashSessionId (st.session s).sessionId

def sslSessionCmp (a b : S) : ℤ :=
  if (st.session a).sessionId = (st.session b).sessionId then 0 else 1

variable [DecidableEq S]

def setSession (s : S) (v : Session S) : SessionList S :=
  { st with session := Function.update st.session s v }

def setNext (s : S) (l : Link S) : SessionList S :=
  st.setSession s { st.session s with next := l }

def setPrev (s : S) (l : Link S) : SessionList S :=
  st.setSession s { st.session s with prev := l }

def sslSessionUpRef (s : S) : SessionList S :=
  st.setSession s { st.session s with references := (st.session s).references + 1 }

def sslSessionFree : Option S → Option (SessionList S)
  | none => some st
  | some s =>
    if (st.session s).references = 0 then none
    else some
      (st.setSession s { st.session s with references := (st.session s).references - 1 })

def follow : Link S → Option S
  | .node s => some s
  | _ => none

def sslSessionListRemove (s : S) : Option (SessionList S) :=
  let next := (st.session s).next
  let prev := (st.session s).prev
  if next = .null ∨ prev = .null then
    some st
  else do
    let st ←
      if next = .back then
        if prev = .front then
          some { st with sessionCacheHead := none, sessionCacheTail := none }
        else do
          let p ← follow prev
          some ({ st with sessionCacheTail := some p }.setNext p .back)
      else
        if prev = .front then do
          let n ← follow next
          some ({ st with sessionCacheHead := some n }.setPrev n .front)
        else do
          let n ← follow next
          let p ← follow prev
          some ((st.setPrev n prev).setNext p next)
    some ((st.setPrev s .null).setNext s .null)

def sslSessionListAdd (s : S) : Option (SessionList S) := do
  let st ←
    if (st.session s).next ≠ .null ∧ (st.session s).prev ≠ .null then sslSessionListRemove st s
    else some st
  match st.sessionCacheHead with
  | none =>
    some ({ st with sessionCacheHead := some s, sessionCacheTail := some s }.setPrev s .front
      |>.setNext s .back)
  | some first =>
    some { ((st.setNext s (.node first)).setPrev first (.node s)).setPrev s .front with
      sessionCacheHead := some s }

end SessionList

namespace SslCtx

variable [DecidableEq S] (ctx : SslCtx S)

def onList (f : SessionList S → Option (SessionList S)) : Option (SslCtx S) :=
  (f ctx.toSessionList).map fun st => { ctx with toSessionList := st }

def upRef (s : S) : SslCtx S :=
  { ctx with toSessionList := ctx.toSessionList.sslSessionUpRef s }

def removeSession (session : Option S) (allocOk : Bool) : Option (Bool × SslCtx S) :=
  match session with
  | none => some (false, ctx)
  | some s =>
    if (ctx.session s).sessionId = [] then
      some (false, ctx)
    else if ctx.sessions.lhRetrieve ctx.sslSessionHash ctx.sslSessionCmp s = some s then do
      let (sessions, foundSession) :=
        ctx.sessions.lhDelete ctx.sslSessionHash ctx.sslSessionCmp s allocOk
      let ctx ← { ctx with sessions }.onList (·.sslSessionListRemove s)
      let ctx ← ctx.onList (·.sslSessionFree foundSession)
      some (true, ctx)
    else
      some (false, ctx)

/-- The loop that enforces the cache size limit; `fuel` counts the passes left, of which one more
than there are sessions is enough. -/
def enforceLimit (allocOk : ℕ → Bool) : ℕ → SslCtx S → Option (SslCtx S)
  | 0, _ => none
  | fuel + 1, ctx =>
    if ctx.sessions.numItems > ctx.sessionCacheSize then do
      let (removed, ctx) ← ctx.removeSession ctx.sessionCacheTail (allocOk fuel)
      if removed then enforceLimit allocOk fuel ctx else some ctx
    else
      some ctx

def enforceCacheSize (allocOk : ℕ → Bool) : Option (SslCtx S) :=
  if ctx.sessionCacheSize > 0 then enforceLimit allocOk (ctx.sessions.numItems + 1) ctx
  else some ctx

/-- Takes over a reference to `s`.  `itemOk` and `allocOk` are for the allocations of the table. -/
def addSessionLocked (s : S) (itemOk : Bool) (allocOk : ℕ → Bool) : Option (Bool × SslCtx S) :=
  let (sessions, ok, oldSession) := ctx.sessions.lhInsert ctx.sslSessionHash ctx.sslSessionCmp s
    itemOk (allocOk (ctx.sessions.numItems + 2))
  if !ok then do
    let ctx ← ctx.onList (·.sslSessionFree (some s))
    some (false, ctx)
  else if oldSession = some s then do
    let ctx ← { ctx with sessions }.onList (·.sslSessionFree (some s))
    some (false, ctx)
  else do
    let ctx ← { ctx with sessions }.onList fun st =>
      match oldSession with
      | none => some st
      | some old => st.sslSessionListRemove old
    let ctx ← ctx.onList (·.sslSessionListAdd s)
    let ctx ← ctx.enforceCacheSize allocOk
    let ctx ← ctx.onList (·.sslSessionFree oldSession)
    some (true, ctx)

def sslCtxAddSession (s : S) (itemOk : Bool) (allocOk : ℕ → Bool) : Option (Bool × SslCtx S) :=
  (ctx.upRef s).addSessionLocked s itemOk allocOk

def sslCtxRemoveSession (s : Option S) (allocOk : Bool) : Option (Bool × SslCtx S) :=
  ctx.removeSession s allocOk

def expired (st : SessionList S) (time : ℕ) (s : S) : Bool :=
  let deadline := ((st.session s).time + (st.session s).timeout) % 2 ^ 64
  time = 0 || deadline < (st.session s).time || time > deadline

/-- Deletes the session it is called for, or leaves it alone. -/
def timeoutDoallArg (time : ℕ) : Lhash.Callback S (Option (SessionList S)) := fun _ arg s =>
  match arg with
  | none => (none, false)
  | some st =>
    if expired st time s then
      (do (← st.sslSessionListRemove s).sslSessionFree (some s), true)
    else
      (some st, false)

def sslCtxFlushSessions (time : ℕ) (allocOk : Bool) : Option (SslCtx S) :=
  let (sessions, st, _) := ctx.sessions.lhDoallArg ctx.sslSessionHash ctx.sslSessionCmp
    (timeoutDoallArg time) allocOk (some ctx.toSessionList)
  st.map fun st => { ctx with toSessionList := st, sessions }

/-- The internal session cache is flushed every 255 connections. -/
def autoClear (now : ℕ) (allocOk : Bool) : Option (SslCtx S) :=
  if ctx.sessionCacheMode.noAutoClear then some ctx
  else if ctx.handshakesSinceCacheFlush + 1 ≥ 255 then
    sslCtxFlushSessions { ctx with handshakesSinceCacheFlush := 0 } now allocOk
  else some { ctx with handshakesSinceCacheFlush := ctx.handshakesSinceCacheFlush + 1 }

/-- The internal cache, which clients never use. -/
def updateInternal (session : S) (server : Bool) (now : ℕ) (itemOk : Bool) (allocOk : ℕ → Bool) :
    Option (SslCtx S) :=
  if server && !ctx.sessionCacheMode.noInternalStore then do
    let (_, ctx) ← (ctx.upRef session).addSessionLocked session itemOk allocOk
    ctx.autoClear now (allocOk 0)
  else some ctx

/-- `session` is the established session, and `newSessionCb` what the callback returns if there is
one: whether it keeps its reference. -/
def sslUpdateCache (session : S) (server resumable : Bool) (now : ℕ) (itemOk : Bool)
    (allocOk : ℕ → Bool) (newSessionCb : Option Bool) : Option (SslCtx S) :=
  let mode := if server then ctx.sessionCacheMode.server else ctx.sessionCacheMode.client
  if !resumable || !mode then
    some ctx
  else do
    let ctx ← ctx.updateInternal session server now itemOk allocOk
    match newSessionCb with
    | none => some ctx
    | some true => some (ctx.upRef session)
    | some false => (ctx.upRef session).onList (·.sslSessionFree (some session))

/-- What `get_session_cb` returns; with `copy`, it keeps its own reference to the session. -/
inductive External (S : Type) where
  | null
  | pending
  | found (s : S) (copy : Bool)
  deriving DecidableEq

/-- What a lookup finds. -/
inductive LookupResult (S : Type) where
  | ok (outSession : Option S)
  | pendingSession
  deriving DecidableEq

def sslSessionIsTimeValid (st : SessionList S) (now : ℕ) (s : S) : Bool :=
  if now < (st.session s).time then false
  else (st.session s).timeout > now - (st.session s).time

/-- The end of a lookup that found a session. -/
def lookupFound (s : S) (now : ℕ) (allocOk : ℕ → Bool) : Option (LookupResult S × SslCtx S) :=
  if sslSessionIsTimeValid ctx.toSessionList now s then
    some (.ok (some s), ctx)
  else do
    let (_, ctx) ← ctx.sslCtxRemoveSession (some s) (allocOk 0)
    let ctx ← ctx.onList (·.sslSessionFree (some s))
    some (.ok none, ctx)

/-- An externally cached session is added to the internal cache, if necessary. -/
def storeExternal (s : S) (itemOk : Bool) (allocOk : ℕ → Bool) : Option (SslCtx S) :=
  if ctx.sessionCacheMode.noInternalStore then some ctx
  else (ctx.sslCtxAddSession s itemOk allocOk).map (·.2)

/-- The internal cache, if it is to be tried. -/
def lookupInternal (sessionId : Bytes) : Option S :=
  if ctx.sessionCacheMode.noInternalLookup then none
  else ctx.sessions.lhRetrieveKey (sslHashSessionId sessionId) fun s =>
    if sessionId = (ctx.session s).sessionId then 0 else 1

/-- `getSessionCb` is what the callback returns, if there is one. -/
def sslLookupSession (sessionId : Bytes) (getSessionCb : Option (External S)) (now : ℕ)
    (itemOk : Bool) (allocOk : ℕ → Bool) : Option (LookupResult S × SslCtx S) :=
  if sessionId = [] ∨ sessionId.length > 32 then
    some (.ok none, ctx)
  else
    match ctx.lookupInternal sessionId with
    | some s => (ctx.upRef s).lookupFound s now allocOk
    | none =>
      match getSessionCb with
      | none => some (.ok none, ctx)
      | some .null => some (.ok none, ctx)
      | some .pending => some (.pendingSession, ctx)
      | some (.found s copy) => do
        let ctx ← (if copy then ctx.upRef s else ctx).storeExternal s itemOk allocOk
        ctx.lookupFound s now allocOk

end SslCtx

/-- A context, and how many references to each session are held by others than the context. -/
structure World (S : Type) where
  ctx : SslCtx S
  owned : S → ℕ
  /-- The sessions that have been inserted, each once, the last insertion first. -/
  log : List S

/-- The calls on the cache. -/
inductive Op (S : Type) where
  | addSession (s : S) (itemOk : Bool) (allocOk : ℕ → Bool)
  | removeSession (s : Option S) (allocOk : Bool)
  | flushSessions (time : ℕ) (allocOk : Bool)
  | updateCache (s : S) (server resumable : Bool) (now : ℕ) (itemOk : Bool) (allocOk : ℕ → Bool)
      (newSessionCb : Option Bool)
  | lookup (sessionId : Bytes) (getSessionCb : Option (SslCtx.External S)) (now : ℕ) (itemOk : Bool)
      (allocOk : ℕ → Bool)
  | configure (size : ℕ) (mode : CacheMode)
  | create (s : S) (sessionId : Bytes) (time timeout : ℕ)
  | retain (s : S)
  | release (s : S)
  | change (s : S) (sessionId : Bytes) (time timeout : ℕ)

namespace World

variable [DecidableEq S] (w : World S)

def cached (s : S) : Bool := s ∈ w.ctx.sessions.elements

/-- The session has not been freed. -/
def live (s : S) : Prop := 0 < w.owned s ∨ w.cached s

/-- What may be done: sessions are only used while there is a reference to them, references are only
given up by those who hold them, and the ID of a session that is cached stays as it is. -/
def Allowed : Op S → Prop
  | .addSession s _ _ => w.live s
  | .removeSession s _ => ∀ t ∈ s, w.live t
  | .flushSessions _ _ => True
  | .updateCache s _ _ _ _ _ _ => w.live s
  | .lookup _ cb _ _ _ =>
    ∀ s copy, cb = some (.found s copy) → if copy then w.live s else 0 < w.owned s
  | .configure _ _ => True
  | .create s _ _ _ => ¬ w.live s
  | .retain s => w.live s
  | .release s => 0 < w.owned s
  | .change s sessionId _ _ => w.live s ∧ (w.cached s → sessionId = (w.ctx.session s).sessionId)

def addOwned (s : S) (n : ℕ) : World S :=
  { w with owned := Function.update w.owned s (w.owned s + n) }

def takeOwned (s : S) : World S :=
  { w with owned := Function.update w.owned s (w.owned s - 1) }

/-- The context after a call that may have inserted `s`. -/
def after (s : S) (ctx : SslCtx S) : World S :=
  { w with
    ctx
    log := if !w.cached s ∧ s ∈ ctx.sessions.elements then s :: w.log.erase s else w.log }

/-- The context after a lookup.  The callback is called only if the session is not found in the
table; unless it asks for a copy, it hands over its own reference. -/
def handOver (sessionId : Bytes) (getSessionCb : Option (SslCtx.External S)) (ctx : SslCtx S) :
    World S :=
  match getSessionCb with
  | some (.found s copy) =>
    if (sessionId ≠ [] ∧ sessionId.length ≤ 32) ∧ w.ctx.lookupInternal sessionId = none then
      if copy then w.after s ctx else (w.after s ctx).takeOwned s
    else { w with ctx }
  | _ => { w with ctx }

/-- The session that was looked up is the handshake's. -/
def receive : SslCtx.LookupResult S → World S
  | .ok (some s) => w.addOwned s 1
  | _ => w

def step : Op S → Option (World S)
  | .addSession s itemOk allocOk => do
    let (_, ctx) ← w.ctx.sslCtxAddSession s itemOk allocOk
    some (w.after s ctx)
  | .removeSession s allocOk => do
    let (_, ctx) ← w.ctx.sslCtxRemoveSession s allocOk
    some { w with ctx }
  | .flushSessions time allocOk => do
    let ctx ← w.ctx.sslCtxFlushSessions time allocOk
    some { w with ctx }
  | .updateCache s server resumable now itemOk allocOk newSessionCb => do
    let ctx ← w.ctx.sslUpdateCache s server resumable now itemOk allocOk newSessionCb
    let called := resumable && (if server then w.ctx.sessionCacheMode.server
      else w.ctx.sessionCacheMode.client)
    some ((w.after s ctx).addOwned s (if called && newSessionCb = some true then 1 else 0))
  | .lookup sessionId getSessionCb now itemOk allocOk => do
    let (out, ctx) ← w.ctx.sslLookupSession sessionId getSessionCb now itemOk allocOk
    some ((w.handOver sessionId getSessionCb ctx).receive out)
  | .configure size mode =>
    some { w with ctx := { w.ctx with sessionCacheSize := size, sessionCacheMode := mode } }
  | .create s sessionId time timeout =>
    let session := ⟨sessionId, time, timeout, 1, .null, .null⟩
    some ({ w with ctx := { w.ctx with
      toSessionList := w.ctx.toSessionList.setSession s session } }.addOwned s 1)
  | .retain s => some ({ w with ctx := w.ctx.upRef s }.addOwned s 1)
  | .release s => do
    let ctx ← w.ctx.onList (·.sslSessionFree (some s))
    some ({ w with ctx }.takeOwned s)
  | .change s sessionId time timeout =>
    let session := { w.ctx.session s with sessionId, time, timeout }
    some { w with ctx := { w.ctx with
      toSessionList := w.ctx.toSessionList.setSession s session } }

end World

end BoringSSL.SessionCache
