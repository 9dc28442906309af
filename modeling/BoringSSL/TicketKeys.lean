import BoringSSL.Lib.Bytes

/-!
# Session tickets under the built-in keys, `ssl/ssl_session.cc` and `ssl/extensions.cc`

A context without a ticket callback makes its own keys: one that encrypts, and the one before it
that still decrypts.  Each call that needs a key first rotates them by the clock.  HMAC and the
cipher are parameters, random bytes are inputs of the calls, and an allocation may fail in any of
them.
-/

namespace BoringSSL.Tickets

open ByteLib

def rotationInterval : ℕ := 2 * 24 * 60 * 60

def sslTicketKeyNameLen : ℕ := 16

/-- Sixteen bytes. -/
abbrev Block := { b : Bytes // b.length = 16 }

/-- The random parts of a key. -/
structure KeyMaterial where
  name : Block
  hmacKey : Block
  aesKey : Block
  deriving DecidableEq

/-- A key and when it is to be replaced. -/
structure TicketKey extends KeyMaterial where
  nextRotationTvSec : ℕ
  deriving DecidableEq

/-- The ticket keys of a context. -/
structure SslCtx where
  ticketKeyCurrent : Option TicketKey
  ticketKeyPrev : Option TicketKey
  deriving DecidableEq

/-- `clock` is the `tv_sec` the clock shows. -/
def sslCtxGetCurrentTime (clock : Int64) : ℕ :=
  if clock.toInt < 0 then 0 else clock.toInt.toNat

variable (ctx : SslCtx)

def SslCtx.upToDate (now : ℕ) : Bool :=
  (match ctx.ticketKeyCurrent with
    | none => false
    | some key => key.nextRotationTvSec == 0 || key.nextRotationTvSec > now) &&
  match ctx.ticketKeyPrev with
    | none => true
    | some key => key.nextRotationTvSec > now

/-- The current key has not been initialized or it is expired. -/
def SslCtx.needsKey (now : ℕ) : Bool :=
  match ctx.ticketKeyCurrent with
  | none => true
  | some key => key.nextRotationTvSec != 0 && key.nextRotationTvSec ≤ now

def SslCtx.addKey (now : ℕ) (m : KeyMaterial) : SslCtx where
  ticketKeyCurrent := some ⟨m, (now + rotationInterval) % 2 ^ 64⟩
  ticketKeyPrev :=
    match ctx.ticketKeyCurrent with
    | none => ctx.ticketKeyPrev
    | some key =>
      some { key with nextRotationTvSec := (key.nextRotationTvSec + rotationInterval) % 2 ^ 64 }

def SslCtx.dropPrev (now : ℕ) : SslCtx :=
  match ctx.ticketKeyPrev with
  | none => ctx
  | some key => if key.nextRotationTvSec ≤ now then { ctx with ticketKeyPrev := none } else ctx

/-- `newKey` is what a new key is filled with, or `none` if it cannot be allocated. -/
def sslCtxRotateTicketEncryptionKey (now : ℕ) (newKey : Option KeyMaterial) : Bool × SslCtx :=
  if ctx.upToDate now then
    (true, ctx)
  else if ctx.needsKey now then
    match newKey with
    | none => (false, ctx)
    | some m => (true, (ctx.addKey now m).dropPrev now)
  else
    (true, ctx.dropPrev now)

/-- HMAC with SHA-256, and AES in CBC mode with padding to whole blocks. -/
structure Crypto where
  hmac : Block → Bytes → Bytes
  cbcEncrypt : Block → Bytes → Bytes → Bytes
  cbcDecrypt : Block → Bytes → Bytes → Option Bytes
  hmac_length : ∀ key data, (hmac key data).length = 32
  cbcEncrypt_length : ∀ key iv data, (cbcEncrypt key iv data).length = 16 * (data.length / 16 + 1)
  cbcDecrypt_cbcEncrypt : ∀ key iv data, cbcDecrypt key iv (cbcEncrypt key iv data) = some data

/-- `kMaxTicketOverhead`: 16, `EVP_MAX_IV_LENGTH`, `EVP_MAX_BLOCK_LENGTH` and `EVP_MAX_MD_SIZE`. -/
def maxTicketOverhead : ℕ := 16 + 16 + 32 + 64

/-- How making a ticket ends. -/
inductive EncryptResult where
  | failed
  /-- What was written to `out`, which is nothing if no ticket is to be sent. -/
  | wrote (out : Bytes)
  | crashed
  deriving DecidableEq

variable (cr : Crypto)

def sslEncryptTicketWithCipherCtx (ctx : SslCtx) (now : ℕ) (newKey : Option KeyMaterial)
    (iv : Block) (sessionBuf : Bytes) : EncryptResult × SslCtx :=
  if sessionBuf.length > 0xffff - maxTicketOverhead then
    (.wrote [], ctx)
  else
    match sslCtxRotateTicketEncryptionKey ctx now newKey with
    | (false, ctx) => (.failed, ctx)
    | (true, ctx) =>
      match ctx.ticketKeyCurrent with
      | none => (.crashed, ctx)
      | some key =>
        let out := key.name.1 ++ iv.1 ++ cr.cbcEncrypt key.aesKey iv.1 sessionBuf
        (.wrote (out ++ cr.hmac key.hmacKey out), ctx)

/-- `ssl_ticket_aead_result_t`, with what is decrypted. -/
inductive TicketAeadResult where
  | success (plaintext : Bytes)
  | ignoreTicket
  | error
  deriving DecidableEq

def intMax : ℕ := 2 ^ 31 - 1

/-- `bufferOk` says whether the buffer for the plaintext can be allocated. -/
def decryptTicketWithCipherCtx (key : TicketKey) (iv ticket : Bytes) (bufferOk : Bool) :
    TicketAeadResult :=
  if ticket.length < sslTicketKeyNameLen + 16 + 1 + 32 then
    .ignoreTicket
  else
    let ticketMac := ticket.drop (ticket.length - 32)
    let ticket := ticket.take (ticket.length - 32)
    if cr.hmac key.hmacKey ticket ≠ ticketMac then
      .ignoreTicket
    else
      let ciphertext := ticket.drop (sslTicketKeyNameLen + 16)
      if ciphertext.length ≥ intMax then
        .ignoreTicket
      else if !bufferOk then
        .error
      else
        match cr.cbcDecrypt key.aesKey iv ciphertext with
        | none => .ignoreTicket
        | some plaintext => .success plaintext

/-- The key a ticket names. -/
def SslCtx.findKey (name : Bytes) : Option TicketKey :=
  match ctx.ticketKeyCurrent.filter fun key => name == key.name.1 with
  | some key => some key
  | none => ctx.ticketKeyPrev.filter fun key => name == key.name.1

def sslDecryptTicketWithTicketKeys (ctx : SslCtx) (now : ℕ) (newKey : Option KeyMaterial)
    (bufferOk : Bool) (ticket : Bytes) : TicketAeadResult × SslCtx :=
  match sslCtxRotateTicketEncryptionKey ctx now newKey with
  | (false, ctx) => (.error, ctx)
  | (true, ctx) =>
    match ctx.findKey (ticket.take sslTicketKeyNameLen) with
    | none => (.ignoreTicket, ctx)
    | some key =>
      (decryptTicketWithCipherCtx cr key ((ticket.drop sslTicketKeyNameLen).take 16) ticket
        bufferOk, ctx)

/-- The part of `ssl_process_ticket` that decrypts, in a context with its own keys. -/
def sslProcessTicket (ctx : SslCtx) (now : ℕ) (newKey : Option KeyMaterial) (bufferOk : Bool)
    (ticket : Bytes) : TicketAeadResult × SslCtx :=
  if ticket.length < sslTicketKeyNameLen + 16 then
    (.ignoreTicket, ctx)
  else
    sslDecryptTicketWithTicketKeys cr ctx now newKey bufferOk ticket

/-- The calls that use the keys. -/
inductive Call where
  | encrypt (clock : Int64) (newKey : Option KeyMaterial) (iv : Block) (sessionBuf : Bytes)
  | decrypt (clock : Int64) (newKey : Option KeyMaterial) (bufferOk : Bool) (ticket : Bytes)

namespace Call

def now : Call → ℕ
  | encrypt clock _ _ _ => sslCtxGetCurrentTime clock
  | decrypt clock _ _ _ => sslCtxGetCurrentTime clock

def next (cr : Crypto) (ctx : SslCtx) : Call → SslCtx
  | encrypt clock newKey iv sessionBuf =>
    (sslEncryptTicketWithCipherCtx cr ctx (sslCtxGetCurrentTime clock) newKey iv sessionBuf).2
  | decrypt clock newKey bufferOk ticket =>
    (sslProcessTicket cr ctx (sslCtxGetCurrentTime clock) newKey bufferOk ticket).2

/-- Whether the call comes to the rotation. -/
def rotates : Call → Bool
  | encrypt _ _ _ sessionBuf => sessionBuf.length ≤ 0xffff - maxTicketOverhead
  | decrypt _ _ _ ticket => ticket.length ≥ sslTicketKeyNameLen + 16

def newKey : Call → Option KeyMaterial
  | encrypt _ newKey _ _ => newKey
  | decrypt _ newKey _ _ => newKey

/-- The key that the call makes, with the time. -/
def created (ctx : SslCtx) (call : Call) : List (KeyMaterial × ℕ) :=
  if call.rotates && ctx.needsKey call.now then
    (call.newKey.map fun m => (m, call.now)).toList
  else []

end Call

def SslCtx.new : SslCtx := ⟨none, none⟩

def runCalls (ctx : SslCtx) (calls : List Call) : SslCtx :=
  calls.foldl (Call.next cr) ctx

/-- The keys that a run makes, with the times. -/
def createdKeys (cr : Crypto) : SslCtx → List Call → List (KeyMaterial × ℕ)
  | _, [] => []
  | ctx, call :: calls => call.created ctx ++ createdKeys cr (call.next cr ctx) calls

def SslCtx.keys : List TicketKey :=
  ctx.ticketKeyCurrent.toList ++ ctx.ticketKeyPrev.toList

end BoringSSL.Tickets
