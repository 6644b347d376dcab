import Rnet.Transport.Maintenance

/-! # What a routine can do to an address

The routines that serve one address branch on the peer, the record and on whether each call in
between succeeds. Here their branches are listed once: every arm of a joining peer (`Joins`), what
the receive path leaves (`Leaves`), a tick (`Drives`), a message on its way to the wire (`Attempts`,
with `Takes` and `Flushes` around it), and a delivered record (`Receives`, with `Finishes` after it).
What is said of routines elsewhere is said of these lists. -/

namespace Rnet.Transport.Arms

open Rnet.Core Lib.BigEndian Lib.FiniteMap Protocol.Records Security.Cipher Security.Controller
open Config State Slots Codec Wire Session Process Maintenance

variable {N : Noise}

/-! ### Joining peers -/

/-- The end of an arm: the peer is put back if the last call succeeded. -/
def after (s : Local N × Result Unit) (next : Option (Peer N)) : Arm N :=
  (s.1, s.2.map fun _ => next)

/-- An arm that sends a record `r` to move a peer to the next state. -/
inductive Sends (setup : Setup N) (call : Call N) (record : Record) (max : ℕ) :
    Option (Peer N) → Record → ℕ → Peer N → Prop
  | greets (hs : setup.security = .adaptiveServer localKey mode) (hk : record.kind = .clientHello)
    (hr : ∀ d, previous ≠ some (.serverReject d))
    (hc : record.payload.length = cookieLen ∧ call.cookieValid record.payload = true)
    (hv : previous.any (fun state => state.session.isSome) = false) :
    Sends setup call record max previous
      ⟨.serverHello, 0, mode.toByte :: N.publicKey localKey⟩ 128
      (.serverFirst (.new localKey call.seed) call.now)
  | answers (hs : setup.security = .adaptiveClient join) (hk : record.kind = .cookieChallenge) :
    Sends setup call record max (some (.clientHello session started))
      ⟨.clientHello, 0, record.payload⟩ 128 (.clientHello session started)
  | begins (hk : record.kind = .serverHello)
    (hs : setup.security = .adaptiveClient join) :
    Sends setup call record max (some (.clientHello session started))
      ⟨.handshake, 0, handshake.writeFirst⟩ max
      (.clientResponse session handshake join mode started)
  | replies (hr : handshake.readFirst record.payload = .ok handshake')
    (hw : handshake'.writeResponse = .ok response) :
    Sends setup call record max (some (.serverFirst handshake started)) ⟨.handshake, 0, response⟩ max
      (.serverFinish handshake' started)
  | finishes (hk : record.kind = .handshake)
    (hr : handshake.readResponse record.payload = .ok handshake')
    (hf : handshake'.finishDatagram join = .ok (finish, t)) :
    Sends setup call record max (some (.clientResponse session handshake join mode started))
      ⟨.handshake, 0, finish⟩ max (.clientAuth session t mode call.now started)

/-- Whether a record continues the handshake of a peer with operations on its keys. -/
def continues (setup : Setup N) : Option (Peer N) → RecordKind → Bool
  | some (.clientResponse ..), .handshake => true
  | some (.serverFinish ..), .handshake =>
    match setup.security with
    | .adaptiveServer _ _ => true
    | .adaptiveClient _ => false
  | some (.clientAuth ..), .protectedRecord => true
  | _, _ => false

def ack (setup : Setup N) (call : Call N) (l : Local N) (t : DatagramTransport N) :
    Local N × DatagramTransport N × Result Unit :=
  sendProtectedResponse setup call l t initialEpoch .authAck [] 32

def marked (l : Local N) (session : Handle) : Local N :=
  { l with shared := (l.shared.markSessionEstablished session).1 }

/-- **The arms of a joining peer.** -/
inductive Joins (setup : Setup N) (call : Call N) (record : Record) (l : Local N) :
    Option (Peer N) → Arm N → Prop
  | stays (h : continues setup previous record.kind = false) :
    Joins setup call record l previous (l, .ok previous)
  | fails :
    Joins setup call record l previous (l, .error e)
  | challenges (hk : record.kind = .clientHello)
    (hn : next = previous ∨ ∃ d, next = some (previous.getD (.cookie d))) :
    Joins setup call record l previous
      (after (sendResponse setup call l ⟨.cookieChallenge, 0, call.cookieIssue.bytes⟩ 128) next)
  | sends (h : Sends setup call record l.shared.config.maxDatagramSize previous r limit next) :
    Joins setup call record l previous (after (sendReliable setup call l r limit) (some next))
  | unregistered :
    Joins setup call record l previous ({ l with
      shared := (l.shared.insertSessionRoute (acceptedRoute setup l.shared.config call.peer)).1 },
      .error e)
  | registers (hs : setup.security = .adaptiveServer localKey mode)
    (hk : record.kind = .handshake)
    (hf : handshake.finishDatagram record.payload = .ok (join, peerKey, t))
    (hi : l.shared.insertSessionRoute (acceptedRoute setup l.shared.config call.peer) =
      (shared, .ok session)) :
    Joins setup call record l (some (.serverFinish handshake started))
      (after (pushEvent call { l with shared := shared }
        { eventType := .authRequest, endpoint := setup.endpoint, session := session
          data := peerKey ++ join }) (some (.serverAuth session t mode call.now)))
  | unacknowledged (hk : record.kind = .protectedRecord)
    (hd : decrypt t record l.shared.config.maxBodyLen = (t', .ok message))
    (hc : checkDecision mode message = .ok ()) :
    Joins setup call record l (some (.clientAuth session t mode a b))
      ((ack setup call l t').1, .error e)
  | unmarked (hk : record.kind = .protectedRecord)
    (hd : decrypt t record l.shared.config.maxBodyLen = (t', .ok message))
    (hc : checkDecision mode message = .ok ()) :
    Joins setup call record l (some (.clientAuth session t mode a b))
      (marked (ack setup call l t').1 session, .error e)
  | accepts (hk : record.kind = .protectedRecord)
    (hd : decrypt t record l.shared.config.maxBodyLen = (t', .ok message))
    (hc : checkDecision mode message = .ok ()) :
    Joins setup call record l (some (.clientAuth session t mode a b))
      (after (pushEvent call (marked (ack setup call l t').1 session)
        (sessionEvent .sessionOpened setup.endpoint session))
        (some (.established session (ack setup call l t').2.1 (.new .client mode initialEpoch) false
          call.now none)))

section Joining

variable {setup : Setup N} {call : Call N} {l l' : Local N} {record : Record}
  {previous next : Option (Peer N)} {s : Local N × Result Unit}

theorem Joins.of_ok (h : Joins setup call record l previous (after s next)) (hs : s = (l', .ok ())) :
    Joins setup call record l previous (l', .ok next) := by
  rwa [hs] at h

theorem Joins.of_error (h : Joins setup call record l previous (after s next))
    (hs : s = (l', .error e)) : Joins setup call record l previous (l', .error e) := by
  rwa [hs] at h

theorem next_of_after (h : (after s next).2 = .ok next') : next' = next := by
  rcases s with ⟨l, _ | _⟩ <;> cases h
  rfl

variable {mode : SecurityMode} {session : Handle} {started : Instant} {join : Bytes}

theorem joins_clientHello (hs : setup.security = .adaptiveServer localKey mode)
    (hk : record.kind = .clientHello) (hr : ∀ d, previous ≠ some (.serverReject d)) :
    Joins setup call record l previous (clientHello setup call l previous localKey mode record) := by
  have hch : ∀ {next}, (next = previous ∨ ∃ d, next = some (previous.getD (.cookie d))) →
      Joins setup call record l previous _ := Joins.challenges hk
  unfold clientHello
  split_ifs with hc hv
  · unfold challenge
    split <;> rename_i he
    · exact (hch (.inl rfl)).of_error he
    split_ifs
    · exact (hch (.inr ⟨_, rfl⟩)).of_ok he
    · exact (hch (.inl rfl)).of_ok he
  · refine .stays ?_
    unfold continues
    rw [hk]
    split <;> first | rfl | contradiction
  · unfold greet
    split_ifs
    · exact .fails
    have h : Joins setup call record l previous _ :=
      .sends (.greets hs hk hr (by simpa using hc) (by simpa using hv))
    split <;> rename_i he
    · exact h.of_error he
    · exact h.of_ok he

theorem joins_serverHello (hs : setup.security = .adaptiveClient join)
    (hk : record.kind = .serverHello) :
    Joins setup call record l (some (.clientHello session started))
      (serverHello setup call l session started join record) := by
  unfold serverHello
  split_ifs
  · exact .fails
  split
  · exact .fails
  rename_i mode _
  split
  · exact .fails
  split_ifs
  · exact .fails
  split
  · exact .fails
  rename_i handshake _
  have h : Joins setup call record l (some (.clientHello session started)) (after _
      (some (.clientResponse session handshake join mode started))) := .sends (.begins hk hs)
  split <;> rename_i he
  · exact h.of_error he
  · exact h.of_ok he

theorem joins_serverFirst :
    Joins setup call record l (some (.serverFirst handshake started)) (serverFirst setup call l
      handshake started record) := by
  unfold serverFirst
  split
  · exact .fails
  rename_i hr
  split
  · exact .fails
  rename_i hw
  have h : Joins setup call record l (some (.serverFirst handshake started)) _ :=
    .sends (.replies hr hw)
  split <;> rename_i he
  · exact h.of_error he
  · exact h.of_ok he

theorem joins_clientResponse (hk : record.kind = .handshake) :
    Joins setup call record l (some (.clientResponse session handshake join mode started))
      (clientResponse setup call l session handshake join mode started record) := by
  unfold clientResponse
  split
  · exact .fails
  rename_i hr
  split
  · exact .fails
  rename_i hf
  have h : Joins setup call record l (some (.clientResponse session handshake join mode started)) _ :=
    .sends (.finishes hk hr hf)
  split <;> rename_i he
  · exact h.of_error he
  · exact h.of_ok he

theorem joins_serverFinish (hs : setup.security = .adaptiveServer localKey mode)
    (hk : record.kind = .handshake) :
    Joins setup call record l (some (.serverFinish handshake started)) (serverFinish setup call l
      handshake mode record) := by
  unfold serverFinish
  split
  · exact .fails
  rename_i hf
  split <;> rename_i hi
  · rename_i e
    have h : Joins setup call record l (some (.serverFinish handshake started)) (_, .error e) :=
      .unregistered
    rwa [hi] at h
  have h : Joins setup call record l (some (.serverFinish handshake started)) _ :=
    .registers hs hk hf hi
  split <;> rename_i he
  · exact h.of_error he
  · exact h.of_ok he

theorem joins_clientAuth (hk : record.kind = .protectedRecord) :
    Joins setup call record l (some (.clientAuth session t mode a b)) (clientAuth setup call l
      session t mode record) := by
  unfold clientAuth
  split
  · exact .fails
  rename_i t' message hd
  split
  · exact .fails
  rename_i hc
  have hu : ∀ e, Joins setup call record l (some (.clientAuth session t mode a b)) (_, .error e) :=
    fun e => .unacknowledged hk hd hc
  have hm : ∀ e, Joins setup call record l (some (.clientAuth session t mode a b)) (_, .error e) :=
    fun e => .unmarked hk hd hc
  have h : Joins setup call record l (some (.clientAuth session t mode a b)) _ := .accepts hk hd hc
  unfold marked ack at hm h
  unfold ack at hu
  split <;> rename_i he <;> rw [he] at hu hm h
  · exact hu _
  split <;> rename_i hma <;> rw [hma] at hm h
  · exact hm _
  split <;> rename_i he
  · exact h.of_error he
  · exact h.of_ok he

theorem joins_joinArm (setup : Setup N) (call : Call N) (l : Local N) (previous : Option (Peer N))
    (record : Record) : Joins setup call record l previous (joinArm setup call l previous record) := by
  unfold joinArm
  split
  · exact .stays rfl
  · exact joins_clientHello ‹_› ‹_› ‹_›
  · rename_i session started hs hk
    have h : Joins setup call record l (some (.clientHello session started)) _ :=
      .sends (.answers hs hk)
    unfold answerChallenge
    split <;> rename_i he
    · exact h.of_error he
    · exact h.of_ok he
  · exact joins_serverHello ‹_› ‹_›
  · exact joins_serverFirst
  · exact joins_clientResponse ‹_›
  · exact joins_serverFinish ‹_› ‹_›
  · exact joins_clientAuth ‹_›
  · rename_i hr ha _ _ _ hf
    refine .stays ?_
    unfold continues
    split
    · exact (hr _ _ _ _ _ rfl ‹_›).elim
    · split
      · exact (hf _ _ _ _ ‹_› rfl ‹_›).elim
      · rfl
    · exact (ha _ _ _ _ _ rfl ‹_›).elim
    · rfl

end Joining

/-! ### Established peers -/

/-- **What the receive path leaves**: at most a response is sent and an event published. -/
inductive Leaves (setup : Setup N) (call : Call N) (l : Local N) : Local N → Prop
  | same : Leaves setup call l l
  | pushed (event : Event) : Leaves setup call l (pushEvent call l event).1
  | responded (t : DatagramTransport N) (epoch : ℕ) (response : Option Control) :
    Leaves setup call l (respond setup call l t epoch response).1
  | completed (t : DatagramTransport N) (epoch : ℕ) (response : Option Control) (event : Event) :
    Leaves setup call l (pushEvent call (respond setup call l t epoch response).1 event).1

theorem leaves_handleControl (setup : Setup N) (call : Call N) (l : Local N) (session : Handle)
    (t : DatagramTransport N) (c : SecurityController) (epoch : ℕ) (payload : Bytes) :
    Leaves setup call l (handleControl setup call l session t c epoch payload).loc := by
  unfold handleControl
  split
  · exact .same
  split
  · exact .same
  rename_i transition _
  have hr : Leaves setup call l _ :=
    .responded (apply t transition.beforeResponse) epoch transition.response
  have hc : ∀ event, Leaves setup call l _ :=
    .completed (apply t transition.beforeResponse) epoch transition.response
  split <;> rename_i he <;> rw [he] at hr hc
  · exact hr
  unfold finishControl
  split
  · split_ifs
    · exact hr
    · exact hc _
  · exact hr

theorem leaves_handleEstablished (setup : Setup N) (call : Call N) (l : Local N) (session : Handle)
    (t : DatagramTransport N) (c : SecurityController) (record : Record) :
    Leaves setup call l (handleEstablished setup call l session t c record).loc := by
  unfold handleEstablished
  split
  · exact .same
  split
  · exact .same
  unfold dispatch
  split
  · split
    · exact .same
    split
    · exact .same
    · exact .pushed _
  · split
    · split
      · exact .same
      · exact .pushed _
    · exact .same
  · exact leaves_handleControl ..
  · split_ifs <;> exact .same
  · exact .same

/-! ### Received records -/

/-- The address of a decoded record, which takes a permit if the record needs one. -/
def Permitted (setup : Setup N) (call : Call N) (record : Record) (l lp : Local N) : Prop :=
  lp = l ∧ needsPermit setup call l record = false ∨
    lp = { l with slot := { l.slot with permit := true } } ∧
      needsPermit setup call l record = true ∧ call.admission = true

/-- What `process` starts from when a record is not refused and no duplicate: the address may have
taken a permit, and on UDP the input is the active one. -/
structure Begins (setup : Setup N) (call : Call N) (bytes : Bytes) (record : Record)
    (l l₀ : Local N) : Prop extends SameDriver l l₀ where
  engine : l₀.slot.engine = l.slot.engine
  preflight : l₀.slot.preflight = l.slot.preflight
  pending : l₀.slot.pending = l.slot.pending
  sent : l₀.sent = l.sent
  permit : (needsPermit setup call l record = false ∧ l₀.slot.permit = l.slot.permit) ∨
    (needsPermit setup call l record = true ∧ call.admission = true ∧ l₀.slot.permit = true)
  cache : ((record.kind = .plainData ∨ setup.kind = .kcp) ∧ l₀.slot.seen = l.slot.seen ∧
      l₀.slot.activeInput = l.slot.activeInput) ∨
    (record.kind ≠ .plainData ∧ setup.kind ≠ .kcp ∧ l.slot.seen.all (fun s => s.request ≠ bytes) ∧
      l₀.slot.activeInput = some bytes ∧
      l₀.slot.seen = if seenRoom call l then some ⟨bytes, none⟩ else l.slot.seen)

/-- One delivered record is refused, answered from the cache, or processed. -/
inductive Receives (setup : Setup N) (remote : Option SocketAddr) (initialSession : Option Handle)
    (call : Call N) (l : Local N) (bytes : Bytes) :
    Local N × Option (Option Handle × RnetError) → Prop
  | refused (h : ∀ record, decodeRecord bytes (recordLimit setup l.shared.config) = .ok record →
      needsPermit setup call l record = true ∧ call.admission = false) :
    Receives setup remote initialSession call l bytes (l, none)
  | repeated (hd : decodeRecord bytes (recordLimit setup l.shared.config) = .ok record)
    (hp : Permitted setup call record l l₁) (hs : l.slot.seen = some ⟨bytes, response⟩)
    (hl : l' = response.elim l₁ fun b => (sendTo call l₁ b).1) :
    Receives setup remote initialSession call l bytes (l', none)
  | processed (hd : decodeRecord bytes (recordLimit setup l.shared.config) = .ok record)
    (h : Begins setup call bytes record l l₀) :
    Receives setup remote initialSession call l bytes
      (afterProcess remote initialSession call (l.slot.peer.bind Peer.session)
        (l.slot.peer.any fun state => !state.isEstablished) (process setup call l₀ record))

/-- What follows `process`: the input ends, the endpoint of a joining client fails, or everything the
worker holds for the address is released. -/
inductive Finishes (remote : Option SocketAddr) (call : Call N) (joining : Bool) :
    Local N × Result Unit → Local N × Option (Option Handle × RnetError) → Prop
  | settles (hr : r = .ok () ∨ l.slot.peer.isSome) (rekey : Option AutoRekey) (success : Bool) :
    Finishes remote call joining (l, r)
      (endInput { l with slot := { l.slot with rekey := rekey } } success, none)
  | fails (hp : l.slot.peer = none) (hj : remote = some call.peer ∧ joining = true)
    (session : Option Handle) : Finishes remote call joining (l, .error e) (l, some (session, e))
  | releases (hp : l.slot.peer = none) (session : Option Handle) :
    Finishes remote call joining (l, .error e) (endInput (release (dropActive l session e)) false, none)

section Received

variable {setup : Setup N} {remote : Option SocketAddr} {initialSession : Option Handle}
  {call : Call N} {l lp : Local N} {bytes : Bytes} {record : Record}

theorem finishes_afterProcess (prior : Option Handle) (joining : Bool)
    (processed : Local N × Result Unit) :
    Finishes remote call joining processed
      (afterProcess remote initialSession call prior joining processed) := by
  obtain ⟨l, e | ⟨⟩⟩ := processed
  · unfold afterProcess discardFailed
    dsimp only
    cases hp : l.slot.peer with
    | some state => exact .settles (.inr (by rw [hp]; rfl)) l.slot.rekey false
    | none =>
      by_cases hj : remote = some call.peer ∧ joining = true
      · rw [if_pos hj]
        exact .fails hp hj _
      · rw [if_neg hj]
        exact .releases hp _
  · unfold afterProcess
    dsimp only
    split
    · exact .settles (.inl rfl) _ true
    · exact .settles (.inl rfl) l.slot.rekey true

theorem Permitted.same (h : Permitted setup call record l lp) : SameDriver l lp := by
  rcases h with ⟨rfl, -⟩ | ⟨rfl, -⟩ <;> exact ⟨rfl, rfl, rfl, rfl, rfl, rfl⟩

theorem receives_serveRecord
    (hd : decodeRecord bytes (recordLimit setup l.shared.config) = .ok record)
    (hp : Permitted setup call record l lp) :
    Receives setup remote initialSession call l bytes
      (serveRecord setup remote initialSession call lp bytes record) := by
  have hh : (needsPermit setup call l record = false ∧ lp.slot.permit = l.slot.permit) ∨
      (needsPermit setup call l record = true ∧ call.admission = true ∧ lp.slot.permit = true) := by
    rcases hp with ⟨rfl, h⟩ | ⟨rfl, h, h'⟩
    · exact .inl ⟨h, rfl⟩
    · exact .inr ⟨h, h', rfl⟩
  obtain ⟨he, hf, hpe, hse, hs, hi, hr⟩ : lp.slot.engine = l.slot.engine ∧
      lp.slot.preflight = l.slot.preflight ∧ lp.slot.pending = l.slot.pending ∧ lp.sent = l.sent ∧
      lp.slot.seen = l.slot.seen ∧ lp.slot.activeInput = l.slot.activeInput ∧
      seenRoom call lp = seenRoom call l := by
    rcases hp with ⟨rfl, -⟩ | ⟨rfl, -⟩ <;> exact ⟨rfl, rfl, rfl, rfl, rfl, rfl, rfl⟩
  unfold serveRecord
  rw [hp.same.peer]
  by_cases hpl : record.kind = .plainData
  · rw [if_pos hpl]
    exact .processed hd ⟨hp.same, he, hf, hpe, hse, hh, .inl ⟨.inl hpl, hs, hi⟩⟩
  rw [if_neg hpl]
  unfold beginInput
  by_cases hk : setup.kind = .kcp
  · rw [if_pos hk]
    exact .processed hd ⟨hp.same, he, hf, hpe, hse, hh, .inl ⟨.inr hk, hs, hi⟩⟩
  rw [if_neg hk, hs]
  cases hd' : l.slot.seen.filter (fun s => s.request = bytes) with
  | some seen =>
    obtain ⟨request, response⟩ := seen
    obtain ⟨hm, hq⟩ := Option.filter_eq_some_iff.mp hd'
    obtain rfl := of_decide_eq_true hq
    cases response <;> exact .repeated hd hp hm rfl
  | none =>
    refine .processed hd ⟨⟨hp.same.shared, hp.same.peer, hp.same.deferred, hp.same.deferredCount,
        hp.same.handed,
      hp.same.rekey⟩, he, hf, hpe, hse, hh, .inr ⟨hpl, hk, ?_, rfl, ?_⟩⟩
    · have hn := Option.filter_eq_none_iff.mp hd'
      cases hso : l.slot.seen with
      | none => rfl
      | some s => simpa using hn s hso
    · rw [hr]

/-- **One delivered record.** -/
theorem receives_receiveRecord :
    Receives setup remote initialSession call l bytes
      (receiveRecord setup remote initialSession call l bytes) := by
  unfold receiveRecord
  cases hd : decodeRecord bytes (recordLimit setup l.shared.config) with
  | error e => exact .refused fun _ h => nomatch hd.symm.trans h
  | ok record =>
    dsimp only
    by_cases hn : needsPermit setup call l record = true
    · rw [if_pos hn]
      by_cases ha : call.admission = true
      · rw [if_pos ha]
        exact receives_serveRecord hd (.inr ⟨rfl, hn, ha⟩)
      · rw [if_neg ha]
        refine .refused fun _ h => ?_
        cases hd.symm.trans h
        exact ⟨hn, Bool.eq_false_iff.mpr ha⟩
    · rw [if_neg hn]
      exact receives_serveRecord hd (.inl ⟨rfl, Bool.eq_false_iff.mpr hn⟩)

theorem Begins.seen (h : Begins setup call bytes record l l₀) :
    l₀.slot.seen = l.slot.seen ∨ l₀.slot.seen = some ⟨bytes, none⟩ := by
  rcases h.cache with ⟨-, hs, -⟩ | ⟨-, -, -, -, hs⟩
  · exact .inl hs
  · rw [hs]
    split_ifs
    · exact .inr rfl
    · exact .inl rfl

theorem Permitted.repeated (h : Permitted setup call record l lp) (response : Option Bytes) :
    SameDriver l (response.elim lp fun b => (sendTo call lp b).1) := by
  cases response with
  | none => exact h.same
  | some b => exact h.same.trans (sameDriver_sendTo ..)

theorem Permitted.slot (h : Permitted setup call record l lp) (response : Option Bytes) :
    (response.elim lp fun b => (sendTo call lp b).1).slot = l.slot ∨
      (needsPermit setup call l record = true ∧ call.admission = true ∧
        (response.elim lp fun b => (sendTo call lp b).1).slot = { l.slot with permit := true }) := by
  have hs : (response.elim lp fun b => (sendTo call lp b).1).slot = lp.slot := by
    cases response with
    | none => rfl
    | some b =>
      unfold sendTo
      split_ifs <;> rfl
  rw [hs]
  rcases h with ⟨rfl, -⟩ | ⟨rfl, hn, ha⟩
  · exact .inl rfl
  · exact .inr ⟨hn, ha, rfl⟩

theorem slot_dropActive (l : Local N) (session : Option Handle) (e : RnetError) :
    (dropActive l session e).slot = l.slot := by
  unfold dropActive
  split
  · rfl
  · split_ifs <;> rfl

theorem Finishes.peer (h : Finishes remote call joining processed r) :
    r.1.slot.peer = processed.1.slot.peer := by
  cases h with
  | settles | fails => rfl
  | @releases l e _ session =>
    have hd := congrArg Slot.peer (slot_dropActive l session e)
    exact hd

end Received

/-! ### Ticks -/

def deciding (l : Local N) (session : Handle) : Local N :=
  { setPeer l none with shared := { l.shared with
    authDecisions := l.shared.authDecisions.erase session } }

def decision (setup : Setup N) (call : Call N) (l : Local N) (session : Handle)
    (t : DatagramTransport N) (mode : SecurityMode) (accepted : Bool) :
    Local N × DatagramTransport N × Result Unit :=
  sendProtected setup call (deciding l session) t initialEpoch .authDecision
    [if accepted then 1 else 0, mode.toByte] 64

/-- The state in which a server leads a transition: the command is taken, the rekey timer restarted.
-/
def leading (l : Local N) (commands : Table Handle (List SecurityCommand)) (rekey : Option AutoRekey) :
    Local N :=
  { setPeer l none with
    shared := { l.shared with commands := commands }
    slot := { (setPeer l none).slot with rekey := rekey } }

/-- The control with which a tick starts a transition. -/
def leads (call : Call N) (l : Local N) (session : Handle) (c : SecurityController) (commands : Bool) :
    Option Control :=
  (autoRekey call commands (takeCommand call (setPeer l none) session c commands)).2.2

/-- **What a tick does to an address.** -/
inductive Drives (setup : Setup N) (call : Call N) (l : Local N) : Local N → Prop
  | rests : Drives setup call l l
  | expires : Drives setup call l (removePeer (setPeer l none))
  | drops (session : Handle) (e : RnetError) :
    Drives setup call l (removePeer (dropSession (setPeer l none) session e))
  | undecided (hp : l.slot.peer = some (.serverAuth session t mode a))
    (hd : l.shared.authDecisions.lookup session = some accepted)
    (hs : sent = decision setup call l session t mode accepted) :
    Drives setup call l (dropSession sent.1 session e)
  | unopened (hp : l.slot.peer = some (.serverAuth session t mode a))
    (hd : l.shared.authDecisions.lookup session = some true)
    (hs : sent = decision setup call l session t mode true) :
    Drives setup call l (pushEvent call (marked sent.1 session)
      (sessionEvent .sessionOpened setup.endpoint session)).1
  | opens (hp : l.slot.peer = some (.serverAuth session t mode a))
    (hd : l.shared.authDecisions.lookup session = some true)
    (hs : sent = decision setup call l session t mode true)
    (ho : l' = (pushEvent call (marked sent.1 session)
      (sessionEvent .sessionOpened setup.endpoint session)).1) :
    Drives setup call l (setPeer { l' with slot := { l'.slot with rekey := rekey } }
      (some (.established session sent.2.1 (.new .server mode initialEpoch) true call.now none)))
  | rejects (hp : l.slot.peer = some (.serverAuth session t mode a))
    (hd : l.shared.authDecisions.lookup session = some accepted)
    (hs : sent = decision setup call l session t mode accepted) :
    Drives setup call l (setPeer { sent.1 with
      shared := sent.1.shared.removeSessionWithReason session .authRejected }
      (some (.serverReject d)))
  | idles (hp : l.slot.peer = some (.established session t c commands a d)) :
    Drives setup call l (setPeer (leading l queue rekey)
      (some (.established session t c commands a d)))
  | unled (hp : l.slot.peer = some (.established session t c commands a d))
    (hc : leads call l session c commands = some lead)
    (hs : sent = sendProtected setup call (leading l queue rekey) t c.epoch .control
      (encodeControl lead) 64) : Drives setup call l (dropSession sent.1 session e)
  | leads (hp : l.slot.peer = some (.established session t c commands a d))
    (hc : leads call l session c commands = some lead)
    (hs : sent = sendProtected setup call (leading l queue rekey) t c.epoch .control
      (encodeControl lead) 64) (hk : Proposal c c' lead) (ho : sent.2.2 = .ok ()) :
    Drives setup call l (setPeer sent.1 (some (.established session sent.2.1 c' commands a d')))

section Ticks

variable (setup : Setup N) (call : Call N) (l : Local N)

theorem takeCommand_eq (session : Handle) (c : SecurityController) (commands : Bool) :
    ∃ queue rekey c' lead, autoRekey call commands
        (takeCommand call (setPeer l none) session c commands) = (leading l queue rekey, c', lead) ∧
      (c' = c ∧ lead = none ∨ ∃ k, lead = some k ∧ Proposal c c' k) := by
  have hs : ∀ r : SecurityController × Result Control, Starts c r →
      (r.1 = c ∧ r.2.toOption = none) ∨ ∃ k, r.2.toOption = some k ∧ Proposal c r.1 k := by
    rintro r (⟨e, rfl⟩ | ⟨c', k, rfl, hk⟩)
    · exact .inl ⟨rfl, rfl⟩
    · exact .inr ⟨k, rfl, hk⟩
  have ht : ∃ queue rekey c' lead, takeCommand call (setPeer l none) session c commands =
      (leading l queue rekey, c', lead) ∧ (c' = c ∧ lead = none ∨
        ∃ k, lead = some k ∧ Proposal c c' k) := by
    unfold takeCommand
    split_ifs
    · split
      · rename_i command rest _
        cases command with
        | setMode mode => exact ⟨_, _, _, _, rfl, hs _ (starts_beginSwitch c mode)⟩
        | rekey => exact ⟨_, _, _, _, rfl, hs _ (starts_beginRekey c)⟩
      · exact ⟨_, _, _, _, rfl, .inl ⟨rfl, rfl⟩⟩
    · exact ⟨_, _, _, _, rfl, .inl ⟨rfl, rfl⟩⟩
  obtain ⟨queue, rekey, c', lead, ht, hc⟩ := ht
  rw [ht]
  rcases hc with ⟨rfl, rfl⟩ | ⟨k, rfl, hk⟩
  · unfold autoRekey
    dsimp only
    split_ifs
    · obtain ⟨e, he⟩ | ⟨c₁, k, hr, hk⟩ := starts_beginRekey c'
      · rw [he]
        exact ⟨_, _, _, _, rfl, .inl ⟨rfl, rfl⟩⟩
      · rw [hr]
        exact ⟨_, _, _, _, rfl, .inr ⟨k, rfl, hk⟩⟩
    · exact ⟨_, _, _, _, rfl, .inl ⟨rfl, rfl⟩⟩
  · exact ⟨_, _, _, _, rfl, .inr ⟨k, rfl, hk⟩⟩

theorem drives_driveServer : Drives setup call l (driveServer setup call l) := by
  unfold driveServer
  dsimp only
  split
  · split_ifs
    · exact .expires
    · exact .rests
  · split_ifs
    · exact .expires
    · exact .rests
  · split_ifs
    · exact .expires
    · exact .rests
  · split_ifs
    · exact .expires
    · exact .rests
  · rename_i session t mode a hp
    split_ifs
    · exact .drops ..
    split
    · exact .rests
    rename_i accepted hd
    unfold applyDecision
    split <;> rename_i hs
    · exact .undecided hp hd hs.symm
    split
    · rename_i hm
      have hu : Drives setup call l _ := .unopened hp hd hs.symm
      unfold marked at hu
      simp only [hm] at hu
      split <;> rename_i hpu
      · rwa [hpu] at hu
      · refine .opens hp hd hs.symm ?_
        simp only [marked, hm, hpu]
    · exact .rejects hp hd hs.symm
  · rename_i session t c commands a d hp
    split_ifs
    · exact .drops ..
    · exact .drops ..
    unfold driveEstablished
    obtain ⟨queue, rekey, c', lead, ht, ⟨rfl, rfl⟩ | ⟨k, rfl, hk⟩⟩ :=
      takeCommand_eq call l session c commands
    · rw [ht]
      exact .idles hp
    have hc : leads call l session c commands = some k := congrArg (·.2.2) ht
    rw [ht]
    dsimp only
    rw [hk.epoch_eq]
    split <;> rename_i hs
    · exact .unled hp hc hs.symm
    · exact .leads hp hc hs.symm hk rfl
  · exact .rests

end Ticks

/-! ### Application messages -/

/-- Where a message on its way to the wire ends. -/
inductive Fate (N : Noise)
  | empty
  | failed (e : RnetError)
  | handed (t : DatagramTransport N) (o : Outbound)
  | blocked (t : DatagramTransport N) (o : Outbound)

def Fate.message : Fate N → Option Outbound
  | .handed _ o => some o
  | .blocked _ o => some o
  | _ => none

def Fate.next (t : DatagramTransport N) : Fate N → Option (DatagramTransport N)
  | .empty => some t
  | .failed _ => none
  | .handed t _ => some t
  | .blocked t _ => some t

/-- **A message on its way to the wire**: its slot is resolved, it is encoded and sent. -/
inductive Attempts (setup : Setup N) (call : Call N) (l : Local N) (t : DatagramTransport N)
    (c : SecurityController) (o : Outbound) : Local N → Fate N → Prop
  | empty (hr : l.shared.resolveLatest o = (shared, none)) :
    Attempts setup call l t c o { l with shared := shared } .empty
  | refused (hr : l.shared.resolveLatest o = (shared, some o'))
    (he : encodeOutbound t c o' shared.config.maxBodyLen = (t', .error e)) :
    Attempts setup call l t c o { l with shared := shared } (.failed e)
  | failed (hr : l.shared.resolveLatest o = (shared, some o'))
    (he : encodeOutbound t c o' shared.config.maxBodyLen = (t', .ok record))
    (hs : send setup call { l with shared := shared } record shared.config.maxDatagramSize =
      (l', .error e)) (hw : e.code ≠ .wouldBlock) : Attempts setup call l t c o l' (.failed e)
  | blocked (hr : l.shared.resolveLatest o = (shared, some o'))
    (he : encodeOutbound t c o' shared.config.maxBodyLen = (t', .ok record))
    (hs : send setup call { l with shared := shared } record shared.config.maxDatagramSize =
      (l', .error e)) (hw : e.code = .wouldBlock) : Attempts setup call l t c o l' (.blocked t' o')
  | handed (hr : l.shared.resolveLatest o = (shared, some o'))
    (he : encodeOutbound t c o' shared.config.maxBodyLen = (t', .ok record))
    (hs : send setup call { l with shared := shared } record shared.config.maxDatagramSize =
      (l', .ok ())) : Attempts setup call l t c o l' (.handed t' o')

section Attempts

variable {setup : Setup N} {call : Call N} {l l' : Local N} {fate : Fate N}

theorem Attempts.wire (h : Attempts setup call l t c o l' fate) :
    l' = { l with shared := (l.shared.resolveLatest o).1 } ∨ ∃ record max,
      l' = (send setup call { l with shared := (l.shared.resolveLatest o).1 } record max).1 := by
  cases h with
  | empty hr | refused hr => exact .inl (by rw [hr])
  | failed hr he hs | blocked hr he hs | handed hr he hs =>
    rw [hr]
    exact .inr ⟨_, _, (congrArg Prod.fst hs).symm⟩

theorem Attempts.driver (h : Attempts setup call l t c o l' fate) :
    SameDriver { l with shared := (l.shared.resolveLatest o).1 } l' := by
  rcases h.wire with rfl | ⟨record, max, rfl⟩
  · exact .refl _
  · exact sameDriver_send ..

theorem Attempts.message (h : Attempts setup call l t c o l' fate) (hm : fate.message = some o') :
    (l.shared.resolveLatest o).2 = some o' := by
  cases h <;> cases hm <;> simp only [*]

end Attempts

def taken (call : Call N) (session : Handle) (t : DatagramTransport N) (c : SecurityController)
    (commands : Bool) (a : Instant) (d : Option Instant) (l : Local N) : Fate N → Local N
  | .empty => setPeer l (some (.established session t c commands a d))
  | .failed e => dropSession l session e
  | .handed t o =>
    setPeer (noteHanded call l session c o) (some (.established session t c commands call.now d))
  | .blocked t o => setPeer (defer l o) (some (.established session t c commands a d))

def flushed (call : Call N) (session : Handle) (c : SecurityController) (commands : Bool)
    (a : Instant) (d : Option Instant) (l : Local N) : Fate N → Local N
  | .empty => l
  | .failed e => clearDeferred (removePeer (setPeer (dropSession l session e) none))
  | .handed t o =>
    setPeer (noteHanded call l session c o) (some (.established session t c commands call.now d))
  | .blocked t o =>
    setPeer { l with
      slot := { l.slot with deferred := o :: l.slot.deferred }
      deferredCount := l.deferredCount + 1 } (some (.established session t c commands a d))

def popped (l : Local N) (rest : List Outbound) : Local N :=
  { l with
    slot := { l.slot with deferred := rest }
    deferredCount := l.deferredCount - 1 }

/-- **What taking a message from the write queue does to an address.** -/
inductive Takes (setup : Setup N) (call : Call N) (l : Local N) (o : Outbound) : Local N → Prop
  | ignored (hn : ∀ session t c commands a d,
      l.slot.peer = some (.established session t c commands a d) →
        l.shared.sessionActive session = false) : Takes setup call l o l
  | waits (hp : l.slot.peer = some (.established session t c commands a d))
    (ha : l.shared.sessionActive session = true) (ht : c.isTransitioning = true) :
    Takes setup call l o (defer l o)
  | attempts (hp : l.slot.peer = some (.established session t c commands a d))
    (ha : l.shared.sessionActive session = true) (ht : c.isTransitioning = false)
    (h : Attempts setup call (setPeer l none) t c o l' fate) :
    Takes setup call l o (taken call session t c commands a d l' fate)

/-- **What a tick does with the deferred messages of an address.** -/
inductive Flushes (setup : Setup N) (call : Call N) (l : Local N) : Local N → Prop
  | rests (hn : ∀ session t c commands a d o rest,
      l.slot.peer = some (.established session t c commands a d) → l.slot.deferred = o :: rest →
        l.shared.sessionActive session = true → c.isTransitioning = true) : Flushes setup call l l
  | attempts (hp : l.slot.peer = some (.established session t c commands a d))
    (hd : l.slot.deferred = o :: rest) (ha : l.shared.sessionActive session = true)
    (ht : c.isTransitioning = false)
    (h : Attempts setup call (popped l rest) t c o l' fate) :
    Flushes setup call l (flushed call session c commands a d l' fate)

theorem pending_of_stable {c : SecurityController} (h : c.isTransitioning = false) :
    c.pending = none := by
  simpa [SecurityController.isTransitioning] using h

section Messages

variable (setup : Setup N) (call : Call N) (l : Local N)

theorem takes_takeOutbound (o : Outbound) : Takes setup call l o (takeOutbound setup call l o) := by
  unfold takeOutbound
  split
  · rename_i session t c commands a d hp
    split_ifs with ha ht
    · exact .waits hp ha ht
    · have h : ∀ {l' fate}, Attempts setup call (setPeer l none) t c o l' fate →
          Takes setup call l o (taken call session t c commands a d l' fate) :=
        .attempts hp ha (Bool.eq_false_iff.mpr ht)
      unfold sendOutbound
      split <;> rename_i hr
      · exact h (.empty hr)
      dsimp only
      split <;> rename_i he
      · exact h (.refused hr he)
      split <;> rename_i hs
      · exact h (.handed hr he hs)
      split_ifs with hw
      · exact h (.blocked hr he hs hw)
      · exact h (.failed hr he hs hw)
    · exact .ignored fun _ _ _ _ _ _ hp' => by
        cases hp.symm.trans hp'
        exact Bool.eq_false_iff.mpr ha
  · rename_i hp
    exact .ignored fun _ _ _ _ _ _ hp' => (hp _ _ _ _ _ _ hp').elim

theorem flushes_flushDeferred : Flushes setup call l (flushDeferred setup call l) := by
  unfold flushDeferred
  split
  · rename_i session t c commands a d o rest hp hd
    split_ifs with hb
    · refine .rests fun _ _ _ _ _ _ _ _ hp' _ ha => ?_
      cases hp.symm.trans hp'
      rwa [ha, Bool.not_true, Bool.false_or] at hb
    · have h : ∀ {l' fate}, Attempts setup call (popped l rest) t c o l' fate →
          Flushes setup call l (flushed call session c commands a d l' fate) := by
        simp only [Bool.or_eq_true, Bool.not_eq_true', not_or, Bool.not_eq_false,
          Bool.not_eq_true] at hb
        exact .attempts hp hd hb.1 hb.2
      dsimp only
      split <;> rename_i hr
      · exact h (.empty hr)
      split <;> rename_i he
      · exact h (.refused hr he)
      split <;> rename_i hs
      · exact h (.handed hr he hs)
      split_ifs with hw
      · exact h (.blocked hr he hs hw)
      · exact h (.failed hr he hs hw)
  · rename_i hn
    exact .rests fun _ _ _ _ _ _ _ _ hp hd _ => (hn _ _ _ _ _ _ _ _ hp hd).elim

end Messages

end Rnet.Transport.Arms
