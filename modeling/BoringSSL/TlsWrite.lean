import BoringSSL.TlsSeal

/-!
# Writing over TLS, `ssl/s3_pkt.cc`, `ssl/s3_both.cc` and `ssl/ssl_buffer.cc`

Application data and alerts are sealed into the write buffer, handshake messages into the pending
flight.  Both go to the transport in the order they were sealed in, whichever call gets to it, and
what the transport does not accept stays for a later call.
-/

namespace BoringSSL

open ByteLib Prog

instance (b : SslBuffer) (len : ℕ) : Decidable (b.KeepsOffset len) :=
  inferInstanceAs (Decidable (_ ∨ _))

/-- `BIO_write` of so many bytes: how many it accepts. -/
def bioWrite (env : WriteEnv) (size : ℕ) : TlsProg ℕ := do
  let s ← get
  match env.bioWrite s with
  | none => throw .bio
  | some n => pure (min (n + 1) size)

/-- The loop of `tls_write_buffer_flush`; each round accepts a byte or more. -/
def tlsWriteBufferFlush (env : WriteEnv) : ℕ → TlsProg Unit
  | 0 => abort
  | fuel + 1 => do
    let s ← get
    if s.writeBuffer.size = 0 then set { s with writeBuffer := s.writeBuffer.clear }
    else do
      let n ← bioWrite env s.writeBuffer.size.toNat
      let buf ← orAbort (s.writeBuffer.consume n)
      set { s with
        writeBuffer := buf
        wire := s.wire ++ s.writeBuffer.span.take n
        offsetWrapped := s.offsetWrapped || !decide (s.writeBuffer.KeepsOffset n) }
      tlsWriteBufferFlush env fuel

variable (env : WriteEnv)

def sslWriteBufferFlush : TlsProg Unit := do
  if !env.hasWbio then throw .bioNotSet
  else
    let s ← get
    tlsWriteBufferFlush env (s.writeBuffer.size.toNat + 1)

def ensureFlight : TlsProg Bytes := do
  let s ← get
  match s.pendingFlight with
  | some flight => pure flight
  | none =>
    if env.bufMemNew s then do
      set { s with pendingFlight := some [] }
      pure []
    else throw .malloc

def addRecordToFlight (type : UInt8) (data : Bytes) : TlsProg Unit := do
  let flight ← ensureFlight env
  match addSize data.length env.aead.sslMaxSealOverhead with
  | none => throw .overflow
  | some maxOut =>
    match addSize flight.length maxOut with
    | none => throw .overflow
    | some newCap =>
      let s ← get
      if !env.bufMemReserve s newCap then throw .malloc
      else do
        let out ← tlsSealRecord env maxOut type data
        modify fun s => { s with pendingFlight := some (flight ++ out) }

def tlsFlushPendingHsData : TlsProg Unit := do
  let s ← get
  match s.pendingHsData with
  | none => pure ()
  | some data =>
    if data.isEmpty then pure ()
    else do
      set { s with pendingHsData := none }
      addRecordToFlight env ssl3RtHandshake data

/-- The loop of `tls_add_message` before there are keys: each fragment is a record. -/
def addMessageRecords (env : WriteEnv) : ℕ → Bytes → TlsProg Unit
  | 0, _ => abort
  | fuel + 1, rest =>
    if rest.isEmpty then pure ()
    else do
      addRecordToFlight env ssl3RtHandshake (rest.take env.maxSendFragment)
      addMessageRecords env fuel (rest.drop env.maxSendFragment)

/-- Flushes `pending_hs_data` if it is full. -/
def flushFullHsData : TlsProg Unit := do
  let s ← get
  if env.maxSendFragment ≤ (s.pendingHsData.getD []).length then tlsFlushPendingHsData env
  else pure ()

/-- `BUF_MEM_append` to `pending_hs_data`, which is allocated if there is none. -/
def appendHsData (chunk : Bytes) : TlsProg Unit := do
  let s ← get
  if s.pendingHsData.isNone && !env.bufMemNew s then throw .malloc
  else if !env.bufMemAppend s then do
    set { s with pendingHsData := some (s.pendingHsData.getD []) }
    throw .malloc
  else set { s with pendingHsData := some (s.pendingHsData.getD [] ++ chunk) }

/-- The loop of `tls_add_message` once there are keys: messages are packed into records. -/
def addMessagePacked (env : WriteEnv) : ℕ → Bytes → TlsProg Unit
  | 0, _ => abort
  | fuel + 1, rest =>
    if rest.isEmpty then pure ()
    else do
      flushFullHsData env
      let s ← get
      let room := env.maxSendFragment - (s.pendingHsData.getD []).length
      appendHsData env (rest.take room)
      addMessagePacked env fuel (rest.drop room)

/-- `tls_add_message`, as far as the message goes to the flight. -/
def tlsAddMessage (msg : Bytes) : TlsProg Unit :=
  if env.aead.isNullCipher then addMessageRecords env (msg.length + 1) msg
  else addMessagePacked env (msg.length + 1) msg

def tlsAddChangeCipherSpec : TlsProg Unit := do
  tlsFlushPendingHsData env
  addRecordToFlight env ssl3RtChangeCipherSpec [1]

def intMax : ℕ := 2 ^ 31 - 1

/-- The loop of `tls_flush` that writes the pending flight. -/
def writeFlight (env : WriteEnv) (flight : Bytes) : ℕ → TlsProg Unit
  | 0 => abort
  | fuel + 1 => do
    let s ← get
    if s.pendingFlightOffset < flight.length then do
      let n ← bioWrite env (flight.length - s.pendingFlightOffset)
      set { s with
        pendingFlightOffset := s.pendingFlightOffset + n
        wire := s.wire ++ (flight.drop s.pendingFlightOffset).take n }
      writeFlight env flight fuel
    else pure ()

/-- The write buffer goes out before the flight. -/
def flushBeforeFlight : TlsProg Unit := do
  let s ← get
  if s.writeBuffer.size ≠ 0 then sslWriteBufferFlush env else pure ()

def tlsFlush : TlsProg Unit := do
  tlsFlushPendingHsData env
  let s ← get
  match s.pendingFlight with
  | none => pure ()
  | some flight =>
    if s.writeShutdown ≠ .none then throw .protocolIsShutdown
    else if intMax < flight.length then throw .internalError
    else do
      flushBeforeFlight env
      if !env.hasWbio then throw .bioNotSet
      else do
        writeFlight env flight (flight.length + 1)
        if !env.bioFlush then throw .bio
        else modify fun s => { s with pendingFlight := none, pendingFlightOffset := 0 }

def tlsSetWriteState : TlsProg Unit := do
  tlsFlushPendingHsData env
  modify fun s => { s with writeSequence := 0, writeEpoch := s.writeEpoch + 1 }

def TlsWriteState.flightRest (s : TlsWriteState) : Bytes :=
  (s.pendingFlight.getD []).drop s.pendingFlightOffset

def maxOutLen (aead : WriteAead) (flightLen inLen : ℕ) : Option ℕ :=
  if inLen = 0 then some flightLen
  else (addSize inLen aead.sslMaxSealOverhead).bind fun maxCiphertextLen =>
    addSize flightLen maxCiphertextLen

def writeToBuffer (data : Bytes) : TlsProg Unit := do
  let s ← get
  let buf ← orAbort ((s.writeBuffer.store data).didWrite data.length)
  set { s with writeBuffer := buf }

def copyFlight (flight : Bytes) : TlsProg Unit := do
  if flight.isEmpty then pure ()
  else do
    modify fun s => { s with pendingFlight := none, pendingFlightOffset := 0 }
    writeToBuffer flight

/-- Seals the data, if there is any, into the write buffer. -/
def sealToBuffer (type : UInt8) (data : Bytes) : TlsProg Unit := do
  if data.isEmpty then pure ()
  else do
    let s ← get
    let out ← tlsSealRecord env (s.writeBuffer.cap.toNat - s.writeBuffer.size.toNat) type data
    writeToBuffer out

/-- The part of `do_tls_write` that writes the flight and the data, once nothing is left before. -/
def writeRecord (type : UInt8) (addr : ℕ) (data : Bytes) : TlsProg ℕ := do
  let s ← get
  let flight := s.flightRest
  match maxOutLen env.aead flight.length data.length with
  | none => throw .overflow
  | some maxOut =>
    if maxOut = 0 then pure 0
    else
      let r := s.writeBuffer.ensureCap
        (UInt64.ofNat (flight.length + env.aead.tlsSealAlignPrefixLen)) maxOut
        (env.malloc s) env.fill
      if !r.1 then throw (if maxOut > 0xffff then .internalError else .malloc)
      else do
        set { s with writeBuffer := r.2 }
        copyFlight flight
        sealToBuffer env type data
        modify fun s => { s with keyUpdatePending := false }
        onError (sslWriteBufferFlush env) fun s =>
          if data.isEmpty then s
          else { s with pendingWrite := ⟨addr, data.length⟩, pendingWriteType := type }
        pure data.length

/-- `do_tls_write`, with the number of bytes it counts as written. -/
def doTlsWrite (type : UInt8) (addr : ℕ) (data : Bytes) : TlsProg ℕ := do
  let s ← get
  -- A retry must be consistent with the pending write.
  if s.pendingWrite.len ≠ 0 ∧ (data.length < s.pendingWrite.len
      ∨ (env.movingWriteBuffer = false ∧ s.pendingWrite.addr ≠ addr)
      ∨ s.pendingWriteType ≠ type) then
    throw .badWriteRetry
  else do
    sslWriteBufferFlush env
    let s ← get
    if s.pendingWrite.len ≠ 0 then do
      set { s with pendingWrite := ⟨0, 0⟩ }
      pure s.pendingWrite.len
    else if ssl3RtMaxPlainLength < data.length ∨ s.writeBuffer.size ≠ 0 then throw .internalError
    else do
      tlsFlushPendingHsData env
      writeRecord env type addr data

/-- How much goes in one record.  `early` is the limit on early data while it is written. -/
def fragmentLimit (early : Option UInt32) (s : TlsWriteState) : ℕ :=
  match early with
  | none => env.maxSendFragment
  | some limit => min env.maxSendFragment (limit - s.earlyDataWritten.toUInt32).toNat

/-- Whether the early data is used up. -/
def earlyDataFull (early : Option UInt32) (s : TlsWriteState) : Bool :=
  match early with
  | none => false
  | some limit => decide (limit ≤ s.earlyDataWritten.toUInt32)

/-- The loop of `tls_write_app_data`, `total` bytes into the caller's buffer. -/
def writeAppData (env : WriteEnv) (early : Option UInt32) (addr : ℕ) : ℕ → ℕ → Bytes → TlsProg ℕ
  | 0, _, _ => abort
  | fuel + 1, total, data => do
    let s ← get
    if earlyDataFull early s then do
      set { s with unreportedBytesWritten := total, canEarlyWrite := false }
      throw .needsHandshake
    else do
      let n ← onError
        (doTlsWrite env ssl3RtApplicationData (addr + total)
          (data.take (fragmentLimit env early s)))
        fun s => { s with unreportedBytesWritten := total }
      modify fun s => { s with
        earlyDataWritten := if early.isSome then s.earlyDataWritten + UInt16.ofNat n
          else s.earlyDataWritten }
      if (data.drop n).isEmpty || env.partialWrite then do
        modify fun s => { s with unreportedBytesWritten := 0 }
        pure (total + n)
      else writeAppData env early addr fuel (total + n) (data.drop n)

/-- `tls_write_app_data` of a buffer at `addr`, with the number of bytes it reports. -/
def tlsWriteAppData (addr : ℕ) (data : Bytes) : TlsProg ℕ := do
  let s ← get
  if s.writeShutdown ≠ .none then throw .protocolIsShutdown
  else if data.length < s.unreportedBytesWritten then throw .badLength
  else
    let rest := data.drop s.unreportedBytesWritten
    writeAppData env (if s.canEarlyWrite then env.ticketMaxEarlyData else none) addr
      (rest.length + 1) s.unreportedBytesWritten rest

def ssl3AlWarning : UInt8 := 1

def sslAdCloseNotify : UInt8 := 0

/-- `tls_dispatch_alert`; `addr` is where `send_alert` is.  After a fatal alert it calls `BIO_flush`
and does not look at the result. -/
def tlsDispatchAlert (addr : ℕ) : TlsProg Unit := do
  let s ← get
  let _ ← doTlsWrite env ssl3RtAlert addr [s.sendAlert.1, s.sendAlert.2]
  modify fun s => { s with alertDispatch := false }

def sslSendAlert (addr : ℕ) (level desc : UInt8) : TlsProg Unit := do
  let s ← get
  if s.writeShutdown ≠ .none then throw .protocolIsShutdown
  else do
    set { s with
      writeShutdown :=
        if level = ssl3AlWarning ∧ desc = sslAdCloseNotify then .closeNotify else .error
      alertDispatch := true
      sendAlert := (level, desc) }
    if s.writeBuffer.size = 0 then tlsDispatchAlert env addr else throw .alertDeferred

/-- The calls besides `tls_write_app_data`. -/
inductive WriteCall
  | addMessage (msg : Bytes)
  | addChangeCipherSpec
  | setWriteState
  | flush
  | sendAlert (addr : ℕ) (level desc : UInt8)
  | dispatchAlert (addr : ℕ)

def WriteCall.prog : WriteCall → TlsProg Unit
  | addMessage msg => tlsAddMessage env msg
  | addChangeCipherSpec => tlsAddChangeCipherSpec env
  | setWriteState => tlsSetWriteState env
  | flush => tlsFlush env
  | sendAlert addr level desc => sslSendAlert env addr level desc
  | dispatchAlert addr => tlsDispatchAlert env addr

/-- What a call of `tls_write_app_data` tells the caller was written. -/
def reportedBytes : Except WriteError ℕ → ℕ
  | .ok n => n
  | .error _ => 0

/-- The runs of a caller that has `stream` to write, with how much of it was reported as written.
Each attempt passes as much as it likes of what was not reported yet, from any address, so that a
retry extends the attempt before it. -/
inductive WriteRun (stream : Bytes) : TlsWriteState → ℕ → Prop
  | start (fill : UInt8) : WriteRun stream (.new fill) 0
  | write {s s' reported} (env : WriteEnv) (addr : ℕ) (data : Bytes) (r : Except WriteError ℕ) :
    WriteRun stream s reported → data <+: stream.drop reported →
    (tlsWriteAppData env addr data).run.run s = some (r, s') →
    WriteRun stream s' (reported + reportedBytes r)
  | call {s s' reported} (env : WriteEnv) (c : WriteCall) (r : Except WriteError Unit) :
    WriteRun stream s reported → (c.prog env).run.run s = some (r, s') → WriteRun stream s' reported

def sealedBytes (records : List TlsSealed) : Bytes := records.flatMap TlsSealed.bytes

def TlsSealed.appData (r : TlsSealed) : Bytes :=
  if r.type = ssl3RtApplicationData then r.plaintext else []

def appData (records : List TlsSealed) : Bytes := records.flatMap TlsSealed.appData

/-- The records the transport has accepted all of. -/
def TlsWriteState.accepted (s : TlsWriteState) : List TlsSealed :=
  complete (fun r : TlsSealed => r.bytes.length) s.wire.length s.records

/-- The application data sealed in the pending write. -/
def TlsWriteState.pendingAppLen (s : TlsWriteState) : ℕ :=
  if s.pendingWriteType = ssl3RtApplicationData then s.pendingWrite.len else 0

end BoringSSL
