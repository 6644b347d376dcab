import Rnet.Transport.Process

/-! # Application sends, timers and cleanup of a datagram peer

The rest of what the worker does for one address: a message taken from the write queue
(`takeOutbound`), the deferred messages a tick releases (`flushDeferred`), authorization, timeouts
and server-led transitions (`driveServer`), an asynchronous cleanup request (`cleanupPeer`), a
received record (`receiveRecord`) and an expired control record (`expirePeer`).

`handed` grows by one entry whenever a message was encoded with a session's transport and controller
and the wire took the record. -/

namespace Rnet.Transport.Maintenance

open Rnet.Core Lib.BigEndian Protocol.Records Security.Cipher Security.Controller Config State Slots
open Codec Wire Session Process

variable {N : Noise}

/-! ### Application sends -/

variable (setup : Setup N) (remote : Option SocketAddr) (call : Call N)
  (initialSession : Option Handle)

def encodeOutbound (t : DatagramTransport N) (c : SecurityController) (o : Outbound) (max : ℕ) :
    DatagramTransport N × Result Record :=
  match o.kind with
  | .data => dataRecord t c o.bytes max
  | .gameControl => protectedRecord t c.epoch .gameControl o.bytes max

/-- What follows a message the wire took: the hand-over is noted, and encrypted bytes count
towards the automatic rekey. -/
def noteHanded (l : Local N) (session : Handle) (c : SecurityController) (o : Outbound) : Local N :=
  { l with
    handed := l.handed ++ [⟨call.peer, session, o⟩]
    slot := { l.slot with
      rekey :=
        if c.mode = .encrypted ∨ o.kind = .gameControl then
          l.slot.rekey.map fun r => r.recordEncryptedBytes o.bytes.length
        else l.slot.rekey } }

def defer (l : Local N) (o : Outbound) : Local N :=
  { l with
    slot := { l.slot with deferred := l.slot.deferred ++ [o] }
    deferredCount := l.deferredCount + 1 }

/-- Closes a session whose peer is not put back. -/
def dropSession (l : Local N) (session : Handle) (e : RnetError) : Local N :=
  { l with shared := l.shared.removeSessionWithError session e }

/-- The write-queue branch at an established peer that may send. -/
def sendOutbound (l : Local N) (session : Handle) (t : DatagramTransport N) (c : SecurityController)
    (commands : Bool) (lastActivity : Instant) (deadline : Option Instant) (o : Outbound) :
    Local N :=
  match l.shared.resolveLatest o with
  | (shared, none) =>
    setPeer { l with shared := shared }
      (some (.established session t c commands lastActivity deadline))
  | (shared, some o) =>
    let l := { l with shared := shared }
    match encodeOutbound t c o l.shared.config.maxBodyLen with
    | (_, .error e) => dropSession l session e
    | (t, .ok record) =>
      match send setup call l record l.shared.config.maxDatagramSize with
      | (l, .ok ()) =>
        setPeer (noteHanded call l session c o)
          (some (.established session t c commands call.now deadline))
      | (l, .error e) =>
        if e.code = .wouldBlock then
          setPeer (defer l o) (some (.established session t c commands lastActivity deadline))
        else dropSession l session e

/-- The write-queue branch: a message for an address without an established, active session is
dropped, and one for a session in transition waits. -/
def takeOutbound (l : Local N) (o : Outbound) : Local N :=
  match l.slot.peer with
  | some (.established session t c commands lastActivity deadline) =>
    if l.shared.sessionActive session then
      if c.isTransitioning then defer l o
      else sendOutbound setup call (setPeer l none) session t c commands lastActivity deadline o
    else l
  | _ => l

def clearDeferred (l : Local N) : Local N :=
  { l with
    slot := { l.slot with deferred := [] }
    deferredCount := l.deferredCount - l.slot.deferred.length }

/-- One peer of `flush_deferred`: at most one deferred message is released. -/
def flushDeferred (l : Local N) : Local N :=
  match l.slot.peer, l.slot.deferred with
  | some (.established session t c commands lastActivity deadline), o :: rest =>
    if !l.shared.sessionActive session || c.isTransitioning then l
    else
      let l := { l with
        slot := { l.slot with deferred := rest }
        deferredCount := l.deferredCount - 1 }
      match l.shared.resolveLatest o with
      | (shared, none) => { l with shared := shared }
      | (shared, some o) =>
        let l := { l with shared := shared }
        match encodeOutbound t c o l.shared.config.maxBodyLen with
        | (_, .error e) => clearDeferred (removePeer (setPeer (dropSession l session e) none))
        | (t, .ok record) =>
          match send setup call l record l.shared.config.maxDatagramSize with
          | (l, .ok ()) =>
            setPeer (noteHanded call l session c o)
              (some (.established session t c commands call.now deadline))
          | (l, .error e) =>
            if e.code = .wouldBlock then
              setPeer { l with
                slot := { l.slot with deferred := o :: l.slot.deferred }
                deferredCount := l.deferredCount + 1 }
                (some (.established session t c commands lastActivity deadline))
            else clearDeferred (removePeer (setPeer (dropSession l session e) none))
  | _, _ => l

/-! ### Timers -/

def takeCommand (l : Local N) (session : Handle) (c : SecurityController) (commands : Bool) :
    Local N × SecurityController × Option Control :=
  if commands && !c.isTransitioning then
    match l.shared.commands.lookup session with
    | some (command :: rest) =>
      let l := { l with shared := { l.shared with
        commands := l.shared.commands.insert session rest } }
      match command with
      | .setMode mode => (l, (c.beginSwitch mode).1, (c.beginSwitch mode).2.toOption)
      | .rekey =>
        ({ l with slot := { l.slot with
            rekey := l.slot.rekey.map fun r => r.markStarted call.now } },
          c.beginRekey.1, c.beginRekey.2.toOption)
    | _ => (l, c, none)
  else (l, c, none)

/-- An automatic rekey, if no command started a transition and one is due. -/
def autoRekey (commands : Bool) (taken : Local N × SecurityController × Option Control) :
    Local N × SecurityController × Option Control :=
  match taken with
  | (l, c, some control) => (l, c, some control)
  | (l, c, none) =>
    if commands && c.mode = .encrypted && !c.isTransitioning &&
        l.slot.rekey.any (fun r => r.isDue call.now) then
      match c.beginRekey with
      | (c, .error _) => (l, c, none)
      | (c, .ok control) =>
        ({ l with slot := { l.slot with
          rekey := l.slot.rekey.map fun r => r.markStarted call.now } }, c, some control)
    else (l, c, none)

/-- `drive_server` at an established peer within its deadlines. -/
def driveEstablished (l : Local N) (session : Handle) (t : DatagramTransport N)
    (c : SecurityController) (commands : Bool) (lastActivity : Instant) (deadline : Option Instant) :
    Local N :=
  match autoRekey call commands (takeCommand call l session c commands) with
  | (l, c, none) => setPeer l (some (.established session t c commands lastActivity deadline))
  | (l, c, some control) =>
    match sendProtected setup call l t c.epoch .control (encodeControl control) 64 with
    | (l, _, .error e) => dropSession l session e
    | (l, t, .ok ()) =>
      setPeer l (some (.established session t c commands lastActivity
        (some (call.now + l.shared.config.handshakeTimeout))))

/-- The decision of the application at a peer that waits for it. -/
def applyDecision (l : Local N) (session : Handle) (t : DatagramTransport N) (mode : SecurityMode)
    (accepted : Bool) : Local N :=
  match sendProtected setup call l t initialEpoch .authDecision
    [if accepted then 1 else 0, mode.toByte] 64 with
  | (l, _, .error e) => dropSession l session e
  | (l, t, .ok ()) =>
    match accepted, l.shared.markSessionEstablished session with
    | true, (shared, .ok ()) =>
      match pushEvent call { l with shared := shared }
        (sessionEvent .sessionOpened setup.endpoint session) with
      | (l, .error _) => l
      | (l, .ok ()) =>
        setPeer { l with slot := { l.slot with
            rekey := some (l.slot.rekey.getD (.new l.shared.config.securityPolicy call.now)) } }
          (some (.established session t (.new .server mode initialEpoch) true call.now none))
    | _, _ =>
      setPeer { l with shared := l.shared.removeSessionWithReason session .authRejected }
        (some (.serverReject (call.now + l.shared.config.handshakeTimeout)))

/-- Timers of a peer: expiry, decisions and transitions. -/
def driveServer (l : Local N) : Local N :=
  let timeout := l.shared.config.handshakeTimeout
  match l.slot.peer with
  | some (.cookie expiresAt) =>
    if expiresAt ≤ call.now then removePeer (setPeer l none) else l
  | some (.serverReject expiresAt) =>
    if expiresAt ≤ call.now then removePeer (setPeer l none) else l
  | some (.serverFirst _ started) =>
    if timeout ≤ call.now - started then removePeer (setPeer l none) else l
  | some (.serverFinish _ started) =>
    if timeout ≤ call.now - started then removePeer (setPeer l none) else l
  | some (.serverAuth session t mode authStarted) =>
    if timeout ≤ call.now - authStarted then
      removePeer (dropSession (setPeer l none) session
        ⟨.timeout, "application authorization decision timed out"⟩)
    else
      match l.shared.authDecisions.lookup session with
      | none => l
      | some accepted =>
        applyDecision setup call
          { setPeer l none with shared := { l.shared with
            authDecisions := l.shared.authDecisions.erase session } } session t mode accepted
  | some (.established session t c commands lastActivity deadline) =>
    if l.shared.config.datagramIdleTimeout ≤ call.now - lastActivity then
      removePeer (dropSession (setPeer l none) session
        ⟨.timeout, "datagram session idle timeout"⟩)
    else if deadline.any (fun d => d ≤ call.now) then
      removePeer (dropSession (setPeer l none) session
        ⟨.timeout, "security acknowledgement timed out"⟩)
    else driveEstablished setup call (setPeer l none) session t c commands lastActivity deadline
  | _ => l

/-! ### Cleanup and expiry -/

/-- `cleanup_peer`, and the permit and rekey the loop releases with it. -/
def cleanupPeer (l : Local N) (session : Handle) : Local N :=
  let keep : Bool :=
    match l.slot.peer with
    | some (.serverReject _) => true
    | some current => current.session ≠ some session
    | none => false
  let l := if keep then l else removePeer (clearDeferred (setPeer l none))
  { l with slot := { l.slot with permit := false, rekey := none } }

/-- What the loop does with a peer whose control record expired; the second component is the
session of a client that was still joining, whose endpoint fails. -/
def expirePeer (l : Local N) : Local N × Option Handle :=
  match l.slot.peer with
  | none => (l, none)
  | some state =>
    let l := clearDeferred (setPeer l none)
    match state.session with
    | none => (l, none)
    | some session =>
      if remote = some call.peer ∧ !state.isEstablished then (l, some session)
      else (dropSession l session ⟨.timeout, "datagram control retry limit reached"⟩, none)

/-! ### Received records -/

/-- Closes the session of a failed address if it is still registered. -/
def dropActive (l : Local N) (session : Option Handle) (e : RnetError) : Local N :=
  match session with
  | none => l
  | some s => if l.shared.sessionActive s then dropSession l s e else l

def release (l : Local N) : Local N :=
  let l := removePeer (clearDeferred l)
  { l with slot := { l.slot with permit := false, rekey := none } }

/-- What the loop does after `process` failed and left no peer: the second component is the
session and error with which a joining client's endpoint fails. -/
def discardFailed (call : Call N) (l : Local N) (prior : Option Handle) (joining : Bool)
    (e : RnetError) : Local N × Option (Option Handle × RnetError) :=
  let session := prior.or (if remote = some call.peer then initialSession else none)
  if remote = some call.peer ∧ joining then (l, some (session, e))
  else (release (dropActive l session e), none)

/-- After `process`: the automatic rekey of an established server peer is created, a failure
without a peer is cleaned up, and the control input ends. -/
def afterProcess (call : Call N) (prior : Option Handle) (joining : Bool)
    (processed : Local N × Result Unit) : Local N × Option (Option Handle × RnetError) :=
  match processed with
  | (l, .ok ()) =>
    let l :=
      match l.slot.peer with
      | some (.established _ _ _ true _ _) =>
        { l with slot := { l.slot with
          rekey := some (l.slot.rekey.getD (.new l.shared.config.securityPolicy call.now)) } }
      | _ => l
    (endInput l true, none)
  | (l, .error e) =>
    match l.slot.peer with
    | some _ => (endInput l false, none)
    | none =>
      match discardFailed remote initialSession call l prior joining e with
      | (l, some failure) => (l, some failure)
      | (l, none) => (endInput l false, none)

/-- Largest record payload the loop decodes. -/
def recordLimit (c : RuntimeConfig) : ℕ :=
  if setup.kind = .kcp then c.maxBodyLen + (20 + 64) else c.maxDatagramSize

/-- Whether a hello with a valid cookie needs an admission permit. -/
def needsPermit (l : Local N) (record : Record) : Bool :=
  match setup.security with
  | .adaptiveServer _ _ =>
    record.kind = .clientHello && l.slot.peer.isNone && !l.slot.permit &&
      record.payload.length = cookieLen && call.cookieValid record.payload
  | .adaptiveClient _ => false

/-- A decoded record that may proceed: duplicates of control input are answered from the cache,
everything else is processed. -/
def serveRecord (call : Call N) (l : Local N) (bytes : Bytes) (record : Record) :
    Local N × Option (Option Handle × RnetError) :=
  let prior := l.slot.peer.bind Peer.session
  let joining := l.slot.peer.any fun state => !state.isEstablished
  if record.kind = .plainData then
    afterProcess remote initialSession call prior joining (process setup call l record)
  else
    match beginInput setup call l bytes with
    | (l, true, none) => (l, none)
    | (l, true, some response) => ((sendTo call l response).1, none)
    | (l, false, _) =>
      afterProcess remote initialSession call prior joining (process setup call l record)

/-- One delivered record of the loop. The second component is a fatal failure of a joining client,
after which the endpoint closes. -/
def receiveRecord (call : Call N) (l : Local N) (bytes : Bytes) :
    Local N × Option (Option Handle × RnetError) :=
  match decodeRecord bytes (recordLimit setup l.shared.config) with
  | .error _ => (l, none)
  | .ok record =>
    if needsPermit setup call l record then
      if call.admission then
        serveRecord setup remote initialSession call
          { l with slot := { l.slot with permit := true } } bytes record
      else (l, none)
    else serveRecord setup remote initialSession call l bytes record

/-! ### What a cleanup leaves -/

theorem slot_cleanupPeer_keep {l : Local N} {p : Peer N} (hp : l.slot.peer = some p)
    (hs : p.session ≠ some session) :
    (cleanupPeer l session).slot = { l.slot with permit := false, rekey := none } := by
  unfold cleanupPeer
  rw [hp]
  cases p <;> dsimp only <;> first | rfl | rw [if_pos (decide_eq_true hs)]

theorem slot_cleanupPeer_remove {l : Local N}
    (hpe : ∀ p, l.slot.peer = some p → p.session = some session) :
    (cleanupPeer l session).slot = { (removePeer (clearDeferred (setPeer l none))).slot with
      permit := false, rekey := none } := by
  unfold cleanupPeer
  cases hp : l.slot.peer with
  | none => rfl
  | some p =>
    have hs := hpe p hp
    cases p <;> first
      | cases hs; done
      | (dsimp only; rw [if_neg (by simp [hs])])

theorem slot_cleanupPeer_cases (l : Local N) (session : Handle) :
    (∃ p, l.slot.peer = some p ∧ p.session ≠ some session ∧
      (cleanupPeer l session).slot = { l.slot with permit := false, rekey := none }) ∨
    (cleanupPeer l session).slot = { (removePeer (clearDeferred (setPeer l none))).slot with
      permit := false, rekey := none } := by
  by_cases h : ∃ p, l.slot.peer = some p ∧ p.session ≠ some session
  · obtain ⟨p, hp, hs⟩ := h
    exact .inl ⟨p, hp, hs, slot_cleanupPeer_keep hp hs⟩
  · push Not at h
    exact .inr (slot_cleanupPeer_remove h)

end Rnet.Transport.Maintenance
