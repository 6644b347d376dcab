import Rnet.Transport.Slots

/-! # Control retransmission on UDP and record queueing on KCP

The wire carries complete records. Raw UDP keeps one unanswered control record per peer and the
last control input with its response; KCP queues records into the peer's engine within byte budgets
that reserve room for controls. The KCP library is not modelled beyond what the adapter asks of it:
a message takes `⌈len / mss⌉` segments and is refused from 128 segments on. -/

namespace Rnet.Transport.Wire

open Rnet.Core Lib.BigEndian Protocol.Records Security.Cipher Config Slots

variable {N : Noise}

section

variable (setup : Setup N) (call : Call N) (l : Local N) (record : Record) (max : ℕ)

/-- Interval between two transmissions of a control record, in milliseconds. -/
def retryInterval : ℕ := 100

/-- Sends of a control record before the peer is given up. -/
def maxRetryAttempts : ℕ := 50

/-- `RnetError::from` of the socket's error. -/
def ioFailure : RnetError := ⟨.ioError, call.sendError⟩

/-! ### KCP engines -/

def kcpOverhead : ℕ := 24

def mss (c : RuntimeConfig) : ℕ := c.maxDatagramSize - kcpOverhead

def fragments (c : RuntimeConfig) (len : ℕ) : ℕ :=
  if len ≤ mss c then 1 else (len + mss c - 1) / mss c

/-- Bytes an engine counts for. -/
def queuedBytes (c : RuntimeConfig) (e : KcpEngine) : ℕ := e.waitSnd * mss c

/-- Bytes a message will count for. -/
def queuedBytesFor (c : RuntimeConfig) (len : ℕ) : ℕ := (len + mss c - 1) / mss c * mss c

/-- `RustKcpEngine::new_with_limits`; the library refuses an MTU outside its range. -/
def newEngine (c : RuntimeConfig) (conv : ℕ) : Result KcpEngine :=
  if c.maxSessionQueuedBytes = 0 then
    .error ⟨.invalidArgument, "KCP queued-byte limit must be positive"⟩
  else if c.maxDatagramSize < 50 ∨ 65535 < c.maxDatagramSize then
    .error ⟨.protocolError, "invalid mtu " ++ toString c.maxDatagramSize⟩
  else .ok ⟨conv, 0, false, []⟩

/-- Hands a record to the engine. -/
def kcpSend (c : RuntimeConfig) (e : KcpEngine) (bytes : Bytes) : Result KcpEngine :=
  if e.failed then .error ⟨.protocolError, "KCP engine was isolated after malformed input"⟩
  else if c.maxSessionQueuedBytes < queuedBytes c e + queuedBytesFor c bytes.length then
    .error ⟨.wouldBlock, "KCP unacknowledged-byte budget is full"⟩
  else if 128 ≤ fragments c bytes.length then
    .error ⟨.messageTooLarge, "user's send buffer is too big"⟩
  else
    .ok { e with
      waitSnd := e.waitSnd + fragments c bytes.length
      queued := e.queued ++ [bytes] }

/-- Runtime budget left to data: a sixteenth, at most 64 KiB, is kept for controls. -/
def dataRuntimeLimit (c : RuntimeConfig) : ℕ :=
  c.maxRuntimeQueuedBytes - min (c.maxRuntimeQueuedBytes / 16) (64 * 1024)

/-- Session budget left to data: a sixteenth, at most 4 KiB, is kept for controls. -/
def dataSessionLimit (c : RuntimeConfig) : ℕ :=
  c.maxSessionQueuedBytes - min (c.maxSessionQueuedBytes / 16) (4 * 1024)

def runtimeLimit (c : RuntimeConfig) (control : Bool) : ℕ :=
  if control then c.maxRuntimeQueuedBytes else dataRuntimeLimit c

def sessionLimit (c : RuntimeConfig) (control : Bool) : ℕ :=
  if control then c.maxSessionQueuedBytes else dataSessionLimit c

/-- `engine`: the peer's engine, created from its authorization if there is none. The
authorization is spent before the peer limit is checked. -/
def engine : Local N × Result KcpEngine :=
  match l.slot.engine with
  | some e => (l, .ok e)
  | none =>
    match l.slot.authorized with
    | none => (l, .error ⟨.authRejected, "KCP preflight authorization required"⟩)
    | some conv =>
      let l := { l with slot := { l.slot with authorized := none } }
      if l.shared.config.maxSessionsPerEndpoint ≤ call.others.engines then
        (l, .error ⟨.rateLimited, "KCP peer limit reached"⟩)
      else
        match newEngine l.shared.config conv with
        | .error e => (l, .error e)
        | .ok e => ({ l with slot := { l.slot with engine := some e } }, .ok e)

/-- Queues a record within both budgets. -/
def queueKcp (bytes : Bytes) (control : Bool) : Local N × Result Unit :=
  let c := l.shared.config
  match engine call l with
  | (l, .error e) => (l, .error e)
  | (l, .ok e) =>
    let before := queuedBytes c e
    let added := queuedBytesFor c bytes.length
    if runtimeLimit c control < l.kcpQueuedBytes + added ∨
        sessionLimit c control < before + added then
      (l, .error ⟨.wouldBlock, "KCP unacknowledged-byte budget is full"⟩)
    else
      match kcpSend c e bytes with
      | .error err => (l, .error err)
      | .ok e =>
        ({ l with
          slot := { l.slot with engine := some e }
          kcpQueuedBytes := l.kcpQueuedBytes - before + queuedBytes c e }, .ok ())

/-! ### Sending records -/

def sendTo (bytes : Bytes) : Local N × Result Unit :=
  if call.sendOk then ({ l with sent := l.sent ++ [bytes] }, .ok ()) else (l, .error (ioFailure call))

/-- Whether an address may take or keep an entry in the response cache. -/
def seenRoom : Bool :=
  l.slot.seen.isSome || call.others.seen < l.shared.config.maxSessionsPerEndpoint

/-- Caches `bytes` as the response to the input being processed. -/
def cacheResponse (bytes : Bytes) : Local N :=
  match l.slot.activeInput with
  | none => l
  | some request =>
    if seenRoom call l then { l with slot := { l.slot with seen := some ⟨request, some bytes⟩ } }
    else l

/-- `send`: application data, once on UDP or into the KCP stream. -/
def send : Local N × Result Unit :=
  match encodeRecord record (if setup.kind = .kcp then u32Max else max) with
  | .error e => (l, .error e)
  | .ok bytes => if setup.kind = .kcp then queueKcp call l bytes false else sendTo call l bytes

/-- `send_reliable`: on UDP the record is kept for retransmission until it is answered. -/
def sendReliable : Local N × Result Unit :=
  match encodeRecord record max with
  | .error e => (l, .error e)
  | .ok bytes =>
    if setup.kind = .kcp then queueKcp call l bytes true
    else if l.slot.pending.isNone && l.shared.config.maxSessionsPerEndpoint ≤ call.others.pending
    then (l, .error ⟨.rateLimited, "UDP control limit reached"⟩)
    else
      match sendTo call l bytes with
      | (l, .error e) => (l, .error e)
      | (l, .ok ()) =>
        (cacheResponse call { l with slot := { l.slot with
          pending := some ⟨bytes, call.now, 1⟩ } } bytes, .ok ())

/-- `send_response`: a terminal response, which waits for no answer. -/
def sendResponse : Local N × Result Unit :=
  match encodeRecord record max with
  | .error e => (l, .error e)
  | .ok bytes =>
    if setup.kind = .kcp then queueKcp call l bytes true
    else
      match sendTo call l bytes with
      | (l, .error e) => (l, .error e)
      | (l, .ok ()) => (cacheResponse call l bytes, .ok ())

/-! ### Control input -/

/-- `begin_input`: a duplicate is reported with its cached response; any other input becomes the
active one together with the control record it may answer. -/
def beginInput (bytes : Bytes) : Local N × Bool × Option Bytes :=
  if setup.kind = .kcp then (l, false, none)
  else
    match l.slot.seen.filter (fun seen => seen.request = bytes) with
    | some seen => (l, true, seen.response)
    | none =>
      ({ l with slot := { l.slot with
        seen := if seenRoom call l then some ⟨bytes, none⟩ else l.slot.seen
        activeInput := some bytes
        activePending := l.slot.pending.map PendingRecord.bytes } }, false, none)

/-- `end_input`: after a success the control record that was pending when the input arrived counts
as answered, unless it was replaced meanwhile. -/
def endInput (success : Bool) : Local N :=
  let answered := success && l.slot.activePending.isSome &&
    l.slot.pending.map PendingRecord.bytes = l.slot.activePending
  { l with slot := { l.slot with
    pending := if answered then none else l.slot.pending
    activeInput := none
    activePending := none } }

/-- The wire forgets the address. -/
def removePeer : Local N :=
  { l with
    slot := { l.slot with
      engine := none
      authorized := none
      pending := none
      seen := none
      activeInput := none
      activePending := none }
    kcpQueuedBytes :=
      match l.slot.engine with
      | none => l.kcpQueuedBytes
      | some e => l.kcpQueuedBytes - queuedBytes l.shared.config e }

/-- One peer of `retry`: a due control record is sent again, or expires. The second component says
whether it expired. -/
def retry : Local N × Bool :=
  if setup.kind = .kcp then (l, false)
  else
    match l.slot.pending with
    | none => (l, false)
    | some p =>
      if call.now - p.lastSent < retryInterval then (l, false)
      else if maxRetryAttempts ≤ p.attempts then
        ({ l with slot := { l.slot with pending := none } }, true)
      else
        -- a failed retransmission is ignored
        let l := (sendTo call l p.bytes).1
        ({ l with slot := { l.slot with
          pending := some { p with lastSent := call.now, attempts := p.attempts + 1 } } }, false)

/-! ### What the wire leaves alone

Everything the wire owns is its retransmission table, its engines and the socket; the peer state,
the deferred messages and what is shared with the application belong to the driver. -/

/-- The driver's part of the local state is the same. -/
structure SameDriver (l l' : Local N) : Prop where
  shared : l'.shared = l.shared
  peer : l'.slot.peer = l.slot.peer
  deferred : l'.slot.deferred = l.slot.deferred
  deferredCount : l'.deferredCount = l.deferredCount
  handed : l'.handed = l.handed
  rekey : l'.slot.rekey = l.slot.rekey

end

namespace SameDriver

theorem refl (l : Local N) : SameDriver l l := ⟨rfl, rfl, rfl, rfl, rfl, rfl⟩

theorem trans (h : SameDriver l₁ l₂) (h' : SameDriver l₂ l₃) : SameDriver l₁ l₃ :=
  ⟨h'.shared.trans h.shared, h'.peer.trans h.peer, h'.deferred.trans h.deferred,
    h'.deferredCount.trans h.deferredCount, h'.handed.trans h.handed, h'.rekey.trans h.rekey⟩

end SameDriver

section

variable (call : Call N) (l : Local N) (bytes : Bytes)

theorem sameDriver_sendTo : SameDriver l (sendTo call l bytes).1 := by
  unfold sendTo
  split_ifs <;> exact ⟨rfl, rfl, rfl, rfl, rfl, rfl⟩

theorem sameDriver_engine : SameDriver l (engine call l).1 := by
  unfold engine
  split
  · exact .refl l
  split
  · exact .refl l
  simp only
  split_ifs
  · exact ⟨rfl, rfl, rfl, rfl, rfl, rfl⟩
  · split <;> exact ⟨rfl, rfl, rfl, rfl, rfl, rfl⟩

theorem sameDriver_queueKcp (control : Bool) : SameDriver l (queueKcp call l bytes control).1 := by
  have h := sameDriver_engine call l
  unfold queueKcp
  simp only
  split <;> rename_i he <;> rw [he] at h
  · exact h
  split
  · exact h
  split
  · exact h
  · exact h.trans ⟨rfl, rfl, rfl, rfl, rfl, rfl⟩

theorem sameDriver_cacheResponse : SameDriver l (cacheResponse call l bytes) := by
  unfold cacheResponse
  split
  · exact .refl l
  · split_ifs <;> exact ⟨rfl, rfl, rfl, rfl, rfl, rfl⟩

end

section

variable (setup : Setup N) (call : Call N) (l : Local N) (record : Record) (max : ℕ)

theorem sameDriver_send : SameDriver l (send setup call l record max).1 := by
  unfold send
  split
  · exact .refl l
  split_ifs
  · exact sameDriver_queueKcp ..
  · exact sameDriver_sendTo ..

theorem sameDriver_sendReliable : SameDriver l (sendReliable setup call l record max).1 := by
  unfold sendReliable
  split
  · exact .refl l
  rename_i bytes _
  have h := sameDriver_sendTo call l bytes
  split_ifs
  · exact sameDriver_queueKcp ..
  · exact .refl l
  split <;> rename_i he <;> rw [he] at h
  · exact h
  · refine SameDriver.trans ?_ (sameDriver_cacheResponse call _ bytes)
    exact h.trans ⟨rfl, rfl, rfl, rfl, rfl, rfl⟩

theorem sameDriver_sendResponse : SameDriver l (sendResponse setup call l record max).1 := by
  unfold sendResponse
  split
  · exact .refl l
  rename_i bytes _
  have h := sameDriver_sendTo call l bytes
  split_ifs
  · exact sameDriver_queueKcp ..
  split <;> rename_i he <;> rw [he] at h
  · exact h
  · exact h.trans (sameDriver_cacheResponse _ _ _)

end

theorem sameDriver_beginInput (setup : Setup N) (call : Call N) (l : Local N) (bytes : Bytes) :
    SameDriver l (beginInput setup call l bytes).1 := by
  unfold beginInput
  split
  · exact .refl l
  · split <;> exact ⟨rfl, rfl, rfl, rfl, rfl, rfl⟩

theorem sameDriver_endInput (l : Local N) (success : Bool) : SameDriver l (endInput l success) :=
  ⟨rfl, rfl, rfl, rfl, rfl, rfl⟩

theorem sameDriver_removePeer (l : Local N) : SameDriver l (removePeer l) :=
  ⟨rfl, rfl, rfl, rfl, rfl, rfl⟩

theorem sameDriver_retry (setup : Setup N) (call : Call N) (l : Local N) :
    SameDriver l (retry setup call l).1 := by
  unfold retry
  split_ifs
  · exact .refl l
  split
  · exact .refl l
  rename_i p _
  split_ifs
  · exact .refl l
  · exact ⟨rfl, rfl, rfl, rfl, rfl, rfl⟩
  · exact (sameDriver_sendTo call l p.bytes).trans ⟨rfl, rfl, rfl, rfl, rfl, rfl⟩

end Rnet.Transport.Wire
