import Rnet.Security.NonceLedger
import Rnet.Transport.Emissions
import Rnet.Transport.Moves

/-! # The transport operations of each routine

What a routine does with the transport of its session is read off the code next to it
(`protectedOps`, `controlOps`, `processOps`, …), failing calls included. `Follows` says of a routine
that a ledger which held the transport of the peer before holds it afterwards, when these operations
are entered: a nonce that is reset without a new key, or a transport that is put back as it was before
a call, would show. Every protected record the wire takes is the answer of one of the calls. -/

namespace Rnet.Transport.SealedOps

open Rnet.Core Lib.BigEndian Protocol.Records Security.Cipher Security.Controller Security.Handshake
open Security.NonceLedger Config State Slots Codec Wire Session Process Maintenance KcpPreflight
open Emissions Arms Stages

variable {N : Noise}

/-! ### The operations of each routine -/

section

variable (setup : Setup N) (call : Call N) (l : Local N)

/-- `protected_record` seals what it could encode. -/
def protectedOps (N : Noise) (kind : ProtectedKind) (data : Bytes) (max : ℕ) : List (Op N) :=
  match encodeProtected ⟨kind, data⟩ max with
  | .error _ => []
  | .ok inner => [.encrypt inner]

/-- `data_record` seals in encrypted mode only. -/
def dataOps (N : Noise) (c : SecurityController) (data : Bytes) (max : ℕ) : List (Op N) :=
  match c.mode with
  | .plaintext => []
  | .encrypted => protectedOps N .data data max

def outboundOps (N : Noise) (c : SecurityController) (o : Outbound) (max : ℕ) : List (Op N) :=
  match o.kind with
  | .data => dataOps N c o.bytes max
  | .gameControl => protectedOps N .gameControl o.bytes max

def effectOps (N : Noise) (effect : Effect) : List (Op N) :=
  if effect = .rekey then [.rekeyIncoming, .rekeyOutgoing] else []

def respondOps (N : Noise) : Option Control → List (Op N)
  | none => []
  | some response => protectedOps N .control (encodeControl response) 64

/-- A control: the effect before the response, the response, and the effect after a response that
could be sent. -/
def controlOps (t : DatagramTransport N) (c : SecurityController) (epoch : ℕ) (payload : Bytes) :
    List (Op N) :=
  match decodeControl payload with
  | .error _ => []
  | .ok control =>
    match c.handle control with
    | (_, .error _) => []
    | (_, .ok transition) =>
      effectOps N transition.beforeResponse ++ (respondOps N transition.response ++
        match (respond setup call l (apply t transition.beforeResponse) epoch
          transition.response).2.2 with
        | .error _ => []
        | .ok () => effectOps N transition.afterResponse)

def openOps (N : Noise) (record : Record) : List (Op N) :=
  if record.kind = .protectedRecord then [.decrypt record.payload] else []

def establishedOps (session : Handle) (t : DatagramTransport N) (c : SecurityController)
    (record : Record) : List (Op N) :=
  if !l.shared.sessionActive session || record.epoch ≠ c.epoch then []
  else
    openOps N record ++
      match openMessage (l.shared.config.maxBodyLen + 64) t c record with
      | (_, .error _) => []
      | (t, .ok message) =>
        if message.kind = .control then controlOps setup call l t c record.epoch message.payload
        else []

/-- The client decrypts the decision and acknowledges it. -/
def clientAuthOps (t : DatagramTransport N) (mode : SecurityMode) (record : Record) : List (Op N) :=
  .decrypt record.payload ::
    match decrypt t record l.shared.config.maxBodyLen with
    | (_, .error _) => []
    | (_, .ok message) =>
      match checkDecision mode message with
      | .error _ => []
      | .ok () => protectedOps N .authAck [] 32

/-- A client that reads the second handshake message ends its handshake. -/
def clientResponseOps (handshake : InitiatorHandshake N) (join : Bytes) (record : Record) :
    List (Op N) :=
  match handshake.readResponse record.payload with
  | .error _ => []
  | .ok handshake =>
    match handshake.finishDatagram join with
    | .error _ => []
    | .ok _ => [.begin (.initiator handshake.identity handshake.seed record.payload)]

/-- A server that reads the last handshake message ends its handshake. -/
def serverFinishOps (handshake : ResponderHandshake N) (record : Record) : List (Op N) :=
  match handshake.finishDatagram record.payload with
  | .error _ => []
  | .ok _ =>
    [.begin (.responder handshake.identity handshake.seed (handshake.first.getD []) record.payload)]

def joinOps (previous : Option (Peer N)) (record : Record) : List (Op N) :=
  match previous, record.kind with
  | some (.clientResponse _ handshake join _ _), .handshake =>
    clientResponseOps handshake join record
  | some (.serverFinish handshake _), .handshake =>
    match setup.security with
    | .adaptiveServer _ _ => serverFinishOps handshake record
    | .adaptiveClient _ => []
  | some (.clientAuth _ transport mode _ _), .protectedRecord =>
    clientAuthOps l transport mode record
  | _, _ => []

def processOps (record : Record) : List (Op N) :=
  match l.slot.peer, reachesSession setup record with
  | some (.established session t c _ _ _), true =>
    establishedOps setup call (setPeer l none) session t c record
  | previous, _ => joinOps setup (setPeer l none) previous record

/-- A duplicate is not processed. -/
def serveOps (bytes : Bytes) (record : Record) : List (Op N) :=
  if record.kind = .plainData then processOps setup call l record
  else
    match beginInput setup call l bytes with
    | (_, true, _) => []
    | (l, false, _) => processOps setup call l record

def receiveOps (bytes : Bytes) : List (Op N) :=
  match decodeRecord bytes (recordLimit setup l.shared.config) with
  | .error _ => []
  | .ok record =>
    if needsPermit setup call l record then
      if call.admission then
        serveOps setup call { l with slot := { l.slot with permit := true } } bytes record
      else []
    else serveOps setup call l bytes record

def takeOps (o : Outbound) : List (Op N) :=
  match l.slot.peer with
  | some (.established session _ c _ _ _) =>
    if l.shared.sessionActive session && !c.isTransitioning then
      match (l.shared.resolveLatest o).2 with
      | none => []
      | some o => outboundOps N c o l.shared.config.maxBodyLen
    else []
  | _ => []

def flushOps : List (Op N) :=
  match l.slot.deferred with
  | [] => []
  | o :: _ => takeOps l o

def driveOps : List (Op N) :=
  match l.slot.peer with
  | some (.serverAuth session _ mode authStarted) =>
    if l.shared.config.handshakeTimeout ≤ call.now - authStarted then []
    else
      match l.shared.authDecisions.lookup session with
      | none => []
      | some accepted => protectedOps N .authDecision [if accepted then 1 else 0, mode.toByte] 64
  | some (.established session _ c commands lastActivity deadline) =>
    if l.shared.config.datagramIdleTimeout ≤ call.now - lastActivity then []
    else if deadline.any (fun d => d ≤ call.now) then []
    else
      match (autoRekey call commands (takeCommand call (setPeer l none) session c commands)).2.2 with
      | none => []
      | some control => protectedOps N .control (encodeControl control) 64
  | _ => []

/-! ### Sealed records -/

/-- A protected record is the answer of one of the calls. -/
def Accounted (calls : List (Sealing N)) (b : Bytes) : Prop :=
  ∀ epoch payload, b = recordBytes ⟨.protectedRecord, epoch, payload⟩ →
    ∃ x ∈ calls, x.answer = .ok payload

theorem Accounted.mono (h : Accounted calls b) (hs : calls ⊆ calls') : Accounted calls' b := by
  intro epoch payload hb
  obtain ⟨x, hx, ha⟩ := h epoch payload hb
  exact ⟨x, hs hx, ha⟩

theorem kind_recordBytes (r : Record) : (recordBytes r)[6]? = some r.kind.toByte := rfl

theorem accounted_plain (calls : List (Sealing N)) (h : r.kind ≠ .protectedRecord) :
    Accounted calls (recordBytes r) := by
  intro epoch payload hb
  have hby := congrArg (·[6]?) hb
  rw [kind_recordBytes, kind_recordBytes] at hby
  have hk := congrArg RecordKind.ofByte (Option.some_inj.mp hby)
  rw [RecordKind.ofByte_toByte, RecordKind.ofByte_toByte] at hk
  exact absurd (Except.ok.inj hk) h

theorem accounted_preflight (calls : List (Sealing N)) (rest : Bytes) :
    Accounted calls (KcpPreflight.magic ++ rest) := by
  intro epoch payload hb
  have hby := congrArg (·[2]?) hb
  cases hby

end

section Sealed

variable {g : Ledger N} {t : DatagramTransport N}

variable (h : g.transport = some t)
include h

theorem transport_protectedOps (epoch : ℕ) (kind : ProtectedKind) (data : Bytes) (max : ℕ) :
    (g.perform (protectedOps N kind data max)).transport =
      some (protectedRecord t epoch kind data max).1 := by
  unfold protectedOps protectedRecord
  cases encodeProtected ⟨kind, data⟩ max with
  | error e => exact h
  | ok inner =>
    rw [Ledger.perform_cons, Ledger.perform_nil, Ledger.after_encrypt h]
    dsimp only
    split <;> rename_i he <;> rw [he]

theorem accounted_protectedRecord {max : ℕ}
    (hr : protectedRecord t epoch kind data max = (t', .ok r)) :
    Accounted (g.perform (protectedOps N kind data max)).calls (recordBytes r) := by
  unfold protectedRecord at hr
  split at hr
  · cases hr
  rename_i inner hi
  split at hr
  · cases hr
  rename_i t₁ cipher hs
  cases hr
  unfold protectedOps
  rw [hi]
  rw [Ledger.perform_cons, Ledger.perform_nil, Ledger.after_encrypt h, hs]
  intro epoch' payload hb
  have hp := congrArg (List.drop headerLen) hb
  rw [drop_recordBytes, drop_recordBytes] at hp
  refine ⟨_, List.mem_append_right _ (List.mem_singleton_self _), ?_⟩
  exact congrArg Except.ok hp

theorem transport_effectOps (effect : Effect) :
    (g.perform (effectOps N effect)).transport = some (apply t effect) := by
  unfold effectOps apply
  split
  · rw [Ledger.perform_cons, Ledger.perform_cons, Ledger.perform_nil]
    unfold Ledger.after
    rw [h]
    rfl
  · exact h

theorem transport_dataOps (c : SecurityController) (data : Bytes) (max : ℕ) :
    (g.perform (dataOps N c data max)).transport =
      some (dataRecord t c data max).1 := by
  unfold dataOps dataRecord
  cases c.mode with
  | plaintext => exact h
  | encrypted => exact transport_protectedOps h ..

theorem transport_outboundOps (c : SecurityController) (o : Outbound) (max : ℕ) :
    (g.perform (outboundOps N c o max)).transport =
      some (encodeOutbound t c o max).1 := by
  unfold outboundOps encodeOutbound
  cases o.kind with
  | data => exact transport_dataOps h ..
  | gameControl => exact transport_protectedOps h ..

theorem accounted_outbound {max : ℕ} (hr : encodeOutbound t c o max = (t', .ok r)) :
    Accounted (g.perform (outboundOps N c o max)).calls (recordBytes r) := by
  unfold encodeOutbound at hr
  split at hr <;> rename_i hk <;> unfold outboundOps <;> rw [hk]
  · unfold dataRecord at hr
    split at hr <;> rename_i hm <;> unfold dataOps <;> rw [hm]
    · cases hr
      have hp : RecordKind.plainData ≠ .protectedRecord := by decide
      exact accounted_plain _ hp
    · exact accounted_protectedRecord h hr
  · exact accounted_protectedRecord h hr

end Sealed

/-! ### The receive path of a session -/

/-- After the operations the ledger holds `t'`, and everything the wire took is accounted for. -/
structure Seals (g : Ledger N) (ops : List (Op N)) (o o' : Outbox) (t' : DatagramTransport N) :
    Prop where
  transport : (g.perform ops).transport = some t'
  emits : Emits (Accounted (g.perform ops).calls) o o'

namespace Seals

variable {g : Ledger N} {o o' o'' : Outbox} {t t' t'' : DatagramTransport N} {ops ops' : List (Op N)}

theorem nil (h : g.transport = some t) (o : Outbox) : Seals g [] o o t := ⟨h, .refl _⟩

theorem trans (h : Seals g ops o o' t') (h' : Seals (g.perform ops) ops' o' o'' t'') :
    Seals g (ops ++ ops') o o'' t'' := by
  refine ⟨?_, ?_⟩
  · rw [Ledger.perform_append]
    exact h'.transport
  · rw [Ledger.perform_append]
    exact (h.emits.mono fun b hb => hb.mono (Ledger.calls_subset_perform _ _)).trans h'.emits

theorem of_transport (h : (g.perform ops).transport = some t') (o : Outbox) :
    Seals g ops o o t' := ⟨h, .refl _⟩

end Seals

section Received

variable {g : Ledger N} {t : DatagramTransport N} (setup : Setup N) (call : Call N) (l : Local N)

theorem seals_sendProtected (h : g.transport = some t) (epoch : ℕ) (kind : ProtectedKind)
    (data : Bytes) (max : ℕ) :
    Seals g (protectedOps N kind data max) (outbox l)
      (outbox (sendProtected setup call l t epoch kind data max).1)
      (sendProtected setup call l t epoch kind data max).2.1 := by
  have ht := transport_protectedOps h epoch kind data max
  unfold sendProtected
  split <;> rename_i he <;> rw [he] at ht
  · exact .of_transport ht _
  · exact ⟨ht, emits_sendReliable setup call l _ fun _ => accounted_protectedRecord h he⟩

theorem seals_sendProtectedResponse (h : g.transport = some t) (epoch : ℕ) (kind : ProtectedKind)
    (data : Bytes) (max : ℕ) :
    Seals g (protectedOps N kind data max) (outbox l)
      (outbox (sendProtectedResponse setup call l t epoch kind data max).1)
      (sendProtectedResponse setup call l t epoch kind data max).2.1 := by
  have ht := transport_protectedOps h epoch kind data max
  unfold sendProtectedResponse
  split <;> rename_i he <;> rw [he] at ht
  · exact .of_transport ht _
  · exact ⟨ht, emits_sendResponse setup call l _ fun _ => accounted_protectedRecord h he⟩

theorem seals_respond (h : g.transport = some t) (epoch : ℕ) (response : Option Control) :
    Seals g (respondOps N response) (outbox l)
      (outbox (respond setup call l t epoch response).1)
      (respond setup call l t epoch response).2.1 := by
  cases response with
  | none => exact .nil h _
  | some response =>
    unfold respondOps respond
    dsimp only
    split
    · exact seals_sendProtectedResponse setup call l h ..
    · exact seals_sendProtected setup call l h ..

theorem outcome_finishControl (session : Handle) (c : SecurityController) (kind : ControlKind) :
    (finishControl setup call l session t c kind).transport = t ∧
      outbox (finishControl setup call l session t c kind).loc = outbox l := by
  unfold finishControl
  split
  · split <;> exact ⟨rfl, rfl⟩
  · exact ⟨rfl, rfl⟩

theorem seals_handleControl (h : g.transport = some t) (session : Handle) (c : SecurityController)
    (epoch : ℕ) (payload : Bytes) :
    Seals g (controlOps setup call l t c epoch payload) (outbox l)
      (outbox (handleControl setup call l session t c epoch payload).loc)
      (handleControl setup call l session t c epoch payload).transport := by
  unfold controlOps handleControl
  cases decodeControl payload with
  | error e => exact .nil h _
  | ok control =>
    dsimp only
    rcases c.handle control with ⟨c', e | transition⟩
    · exact .nil h _
    dsimp only
    have hb : Seals g (effectOps N transition.beforeResponse) (outbox l) (outbox l)
        (apply t transition.beforeResponse) := .of_transport (transport_effectOps h _) _
    have hr := seals_respond setup call l hb.transport epoch transition.response
    generalize respond setup call l (apply t transition.beforeResponse) epoch
      transition.response = responded at hr ⊢
    obtain ⟨l₁, t₁, e | _⟩ := responded
    · dsimp only at hr ⊢
      rw [List.append_nil]
      exact hb.trans hr
    · dsimp only at hr ⊢
      obtain ⟨ht, ho⟩ := outcome_finishControl (t := apply t₁
        transition.afterResponse) setup call l₁ session c' control.kind
      refine hb.trans (hr.trans ⟨?_, ?_⟩)
      · rw [ht]
        exact transport_effectOps hr.transport _
      · rw [ho]
        exact .refl _

theorem transport_openOps (h : g.transport = some t) (max : ℕ) (c : SecurityController)
    (record : Record) :
    (g.perform (openOps N record)).transport = some (openMessage max t c record).1 := by
  unfold openOps openMessage
  cases hk : record.kind with
  | protectedRecord =>
    rw [if_pos rfl, Ledger.perform_cons, Ledger.perform_nil]
    unfold Ledger.after Codec.decrypt
    rw [h]
    dsimp only [Option.map_some]
    split <;> rename_i he <;> rw [he]
  | plainData =>
    rw [if_neg (by decide)]
    dsimp only
    split <;> exact h
  | _ =>
    rw [if_neg (by decide)]
    exact h

theorem seals_handleEstablished (h : g.transport = some t) (session : Handle)
    (c : SecurityController) (record : Record) :
    Seals g (establishedOps setup call l session t c record) (outbox l)
      (outbox (handleEstablished setup call l session t c record).loc)
      (handleEstablished setup call l session t c record).transport := by
  unfold establishedOps handleEstablished
  split
  · exact .nil h _
  have ho := transport_openOps h (l.shared.config.maxBodyLen + 64) c record
  generalize openMessage (l.shared.config.maxBodyLen + 64) t c record = opened at ho ⊢
  obtain ⟨t', e | message⟩ := opened
  · dsimp only at ho ⊢
    rw [List.append_nil]
    exact .of_transport ho _
  · dsimp only at ho ⊢
    refine Seals.trans (.of_transport ho _) ?_
    unfold dispatch
    cases hk : message.kind with
    | control =>
      rw [if_pos rfl]
      exact seals_handleControl setup call l ho ..
    | data =>
      rw [if_neg (by decide)]
      dsimp only
      split
      · exact .nil ho _
      split
      · exact .nil ho _
      · exact ⟨ho, .refl _⟩
    | gameControl =>
      rw [if_neg (by decide)]
      dsimp only
      split
      · split
        · exact .nil ho _
        · exact ⟨ho, .refl _⟩
      · exact .nil ho _
    | authAck =>
      rw [if_neg (by decide)]
      dsimp only
      split <;> exact .nil ho _
    | authDecision =>
      rw [if_neg (by decide)]
      exact .nil ho _

end Received

/-! ### The peer of an address -/

def transportOf : Option (Peer N) → Option (DatagramTransport N)
  | some (.serverAuth _ t _ _) => some t
  | some (.clientAuth _ t _ _ _) => some t
  | some (.established _ t _ _ _ _) => some t
  | _ => none

/-- The ledger ends with the transport of the peer, if it has one. -/
def Agrees (g : Ledger N) (p : Option (Peer N)) : Prop :=
  ∀ t, transportOf p = some t → g.transport = some t

variable {g : Ledger N}

theorem Agrees.of_none (h : transportOf p = none) : Agrees g p := by
  intro t ht
  rw [h] at ht
  cases ht

theorem Agrees.of_some (h : transportOf p = some t) (hg : g.transport = some t) : Agrees g p := by
  intro t' ht'
  rw [h] at ht'
  cases ht'
  exact hg

/-- The ledger of an address follows a routine that performs `ops`. -/
structure Follows (g : Ledger N) (ops : List (Op N)) (o : Outbox) (l' : Local N) : Prop where
  peer : Agrees (g.perform ops) l'.slot.peer
  emits : Emits (Accounted (g.perform ops).calls) o (outbox l')

namespace Follows

variable {g : Ledger N} {o o' : Outbox} {l l' l'' : Local N} {ops : List (Op N)}

theorem of_idle (h : Agrees g l.slot.peer)
    (hp : l'.slot.peer = l.slot.peer ∨ transportOf l'.slot.peer = none)
    (he : Emits (Accounted g.calls) o (outbox l')) : Follows g [] o l' := by
  refine ⟨?_, he⟩
  rcases hp with hp | hp
  · rw [hp]
    exact h
  · exact .of_none hp

theorem refl (h : Agrees g l.slot.peer) : Follows g [] (outbox l) l := of_idle h (.inl rfl) (.refl _)

theorem after (h : Follows g ops o l')
    (hp : l''.slot.peer = l'.slot.peer ∨ transportOf l''.slot.peer = none)
    (he : Emits (Accounted (g.perform ops).calls) (outbox l') (outbox l'')) :
    Follows g ops o l'' := by
  refine ⟨?_, h.emits.trans he⟩
  rcases hp with hp | hp
  · rw [hp]
    exact h.peer
  · exact .of_none hp

theorem before (he : Emits (Accounted (g.perform ops).calls) o o') (h : Follows g ops o' l') :
    Follows g ops o l' :=
  ⟨h.peer, he.trans h.emits⟩

theorem of_seals (h : Seals g ops o (outbox l') t')
    (hp : transportOf l'.slot.peer = some t' ∨ transportOf l'.slot.peer = none) :
    Follows g ops o l' := by
  refine ⟨?_, h.emits⟩
  rcases hp with hp | hp
  · exact .of_some hp h.transport
  · exact .of_none hp

end Follows

/-- What an arm that joins leaves: the records it gave to the wire and the peer it wants put back. -/
structure ArmFollows (g : Ledger N) (ops : List (Op N)) (l : Local N) (arm : Arm N) : Prop where
  emits : Emits (Accounted (g.perform ops).calls) (outbox l) (outbox arm.1)
  next : ∀ next, arm.2 = .ok next → Agrees (g.perform ops) next

theorem ArmFollows.of_error (h : Emits (Accounted (g.perform ops).calls) (outbox l) (outbox l')) :
    ArmFollows g ops l (l', .error e) :=
  ⟨h, fun _ hn => by cases hn⟩

theorem ArmFollows.of_after {next : Option (Peer N)}
    (h : Emits (Accounted (g.perform ops).calls) (outbox l) (outbox s.1))
    (hn : Agrees (g.perform ops) next) : ArmFollows g ops l (after s next) := by
  obtain ⟨l', e | ⟨⟩⟩ := s
  · exact .of_error h
  · exact ⟨h, fun next' hn' => by cases hn'; exact hn⟩

section Arms

variable {g : Ledger N} (setup : Setup N) (call : Call N) (l : Local N)

theorem seals_ack (h : g.transport = some t)
    (hd : decrypt t record l.shared.config.maxBodyLen = (t', .ok message))
    (hc : checkDecision mode message = .ok ()) :
    Seals g (clientAuthOps l t mode record) (outbox l) (outbox (ack setup call l t').1) (ack setup
      call l t').2.1 := by
  have ho : (g.after (.decrypt record.payload)).transport =
      some (decrypt t record l.shared.config.maxBodyLen).1 := by
    unfold Ledger.after Codec.decrypt
    rw [h]
    dsimp only [Option.map_some]
    split <;> rename_i he <;> rw [he]
  rw [hd] at ho
  have hs := seals_sendProtectedResponse setup call l ho initialEpoch .authAck [] 32
  unfold clientAuthOps
  rw [hd]
  dsimp only
  rw [hc]
  exact ⟨hs.transport, hs.emits⟩

theorem transport_initiator {handshake handshake' : InitiatorHandshake N}
    (hr : handshake.readResponse payload = .ok handshake')
    (hf : handshake'.finishDatagram join = .ok (finish, t)) :
    t = .ofKeys (Finished.initiator handshake'.identity handshake'.seed payload).keys := by
  unfold InitiatorHandshake.readResponse at hr
  split at hr
  · cases hr
  split_ifs at hr
  cases hr
  unfold InitiatorHandshake.finishDatagram at hf
  dsimp only at hf
  split at hf
  · cases hf
  · cases hf
    rfl

theorem transport_responder {handshake : ResponderHandshake N}
    (h : handshake.finishDatagram payload = .ok (join, key, t)) :
    t = .ofKeys (Finished.responder handshake.identity handshake.seed
      (handshake.first.getD []) payload).keys := by
  unfold ResponderHandshake.finishDatagram at h
  split at h
  · cases h
  rename_i first hfi
  split at h
  · cases h
  · cases h
    rw [hfi]
    rfl

variable {previous : Option (Peer N)} {record : Record}

theorem joinOps_of_continues (h : continues setup previous record.kind = false) :
    joinOps setup l previous record = [] := by
  unfold continues at h
  split at h
  · cases h
  · split at h
    · cases h
    · rename_i hp hk _ _ hs
      unfold joinOps
      rw [hk, hs]
  · cases h
  · rename_i hr hf ha
    unfold joinOps
    split
    · exact (hr _ _ _ _ _ rfl ‹_›).elim
    · exact (hf _ _ rfl ‹_›).elim
    · exact (ha _ _ _ _ _ rfl ‹_›).elim
    · rfl

theorem joinOps_of_kind (hh : record.kind ≠ .handshake)
    (hp : record.kind ≠ .protectedRecord) :
    joinOps setup l previous record = [] := by
  unfold joinOps
  split
  · exact absurd ‹_› hh
  · exact absurd ‹_› hh
  · exact absurd ‹_› hp
  · rfl

theorem agrees_of_sends {max limit : ℕ} (h : Sends setup call record max previous r limit next) :
    Agrees (g.perform (joinOps setup l previous record)) (some next) := by
  cases h with
  | greets | answers | begins | replies => exact .of_none rfl
  | finishes hk hr hf =>
    unfold joinOps
    rw [hk]
    dsimp only
    unfold clientResponseOps
    rw [hr]
    dsimp only
    rw [hf]
    exact .of_some rfl (congrArg some (transport_initiator hr hf).symm)

theorem armFollows_joinArm (h : Agrees g previous) (record : Record) :
    ArmFollows g (joinOps setup l previous record) l (joinArm setup call l previous record) := by
  have hj := joins_joinArm setup call l previous record
  have hp : ∀ {ops : List (Op N)} (record : Record), record.kind ≠ .protectedRecord →
      Accounted (g.perform ops).calls (recordBytes record) := fun r hr => accounted_plain _ hr
  generalize joinArm setup call l previous record = arm at hj
  cases hj with
  | stays hc =>
    rw [joinOps_of_continues setup l hc]
    exact ⟨.refl _, fun next hn => by cases hn; exact h⟩
  | fails | unregistered => exact .of_error (.refl _)
  | challenges hk hn =>
    rw [joinOps_of_kind setup l (by rw [hk]; decide) (by rw [hk]; decide)]
    refine .of_after (emits_sendResponse setup call l 128 fun _ => accounted_plain _ nofun) ?_
    rcases hn with rfl | ⟨d, rfl⟩
    · exact h
    · cases previous
      · exact .of_none rfl
      · exact h
  | sends hs =>
    refine .of_after (emits_sendReliable setup call l _ fun _ => accounted_plain _ ?_)
      (agrees_of_sends setup call l hs)
    cases hs <;> nofun
  | registers hs hk hf hi =>
    refine .of_after (.refl _) ?_
    unfold joinOps
    rw [hk, hs]
    dsimp only
    unfold serverFinishOps
    rw [hf]
    exact .of_some rfl (congrArg some (transport_responder hf).symm)
  | unacknowledged hk hd hc | unmarked hk hd hc =>
    have hs := seals_ack setup call l (h _ rfl) hd hc
    unfold joinOps
    rw [hk]
    exact .of_error hs.emits
  | accepts hk hd hc =>
    have hs := seals_ack setup call l (h _ rfl) hd hc
    unfold joinOps
    rw [hk]
    exact .of_after hs.emits (.of_some rfl hs.transport)

end Arms

/-! ### Received records, messages and ticks -/

section Routines

variable {g : Ledger N} (setup : Setup N) (call : Call N) {l : Local N}

theorem follows_process (h : Agrees g l.slot.peer) (record : Record) :
    Follows g (processOps setup call l record) (outbox l) (process setup call l record).1 := by
  unfold process
  split
  · rename_i session t c commands lastActivity deadline hp hr
    have ht : g.transport = some t := h t (by rw [hp]; rfl)
    have hs := seals_handleEstablished setup call (setPeer l none) ht session c record
    unfold processOps establishedArm
    rw [hp, hr]
    dsimp only
    split
    · exact .of_seals hs (.inl rfl)
    · exact .of_seals hs (.inl rfl)
  · rename_i hj
    have ho : processOps setup call l record =
        joinOps setup (setPeer l none) l.slot.peer record := by
      unfold processOps
      split
      · exact (hj _ _ _ _ _ _ ‹_› ‹_›).elim
      · rfl
    rw [ho]
    obtain ⟨he, hn⟩ := armFollows_joinArm setup call (setPeer l none) h record
    have hp : (joinArm setup call (setPeer l none) l.slot.peer record).1.slot.peer = none :=
      (armMove_joinArm setup call (setPeer l none) l.slot.peer record).kept.peer
    generalize joinArm setup call (setPeer l none) l.slot.peer record = arm at he hn hp ⊢
    obtain ⟨l', e | next⟩ := arm
    · exact ⟨by rw [hp]; exact .of_none rfl, he⟩
    · exact ⟨hn next rfl, he⟩

theorem emits_finishes (h : Finishes remote call joining processed r) :
    Emits F (outbox processed.1) (outbox r.1) := by
  cases h with
  | @settles r l hr rekey success =>
    exact emits_endInput { l with slot := { l.slot with rekey := rekey } } success
  | fails => exact .refl _
  | @releases l e hp session =>
    have hd : outbox (dropActive l session e) = outbox l := by
      unfold dropActive
      split
      · rfl
      · split_ifs <;> rfl
    exact hd ▸ (emits_removePeer (clearDeferred _)).trans (emits_endInput _ false)

theorem follows_serveRecord (h : Agrees g l.slot.peer) (remote : Option SocketAddr)
    (initialSession : Option Handle) (bytes : Bytes) (record : Record) :
    Follows g (serveOps setup call l bytes record) (outbox l)
      (serveRecord setup remote initialSession call l bytes record).1 := by
  have hpr : ∀ {l'}, Agrees g l'.slot.peer → ∀ prior joining,
      Follows g (processOps setup call l' record) (outbox l') (afterProcess remote initialSession
        call prior joining (process setup call l' record)).1 := fun h' prior joining =>
    (follows_process setup call h' record).after (.inl (finishes_afterProcess ..).peer)
      (emits_finishes call (finishes_afterProcess ..))
  unfold serveOps serveRecord
  split
  · exact hpr h _ _
  have hp := (sameDriver_beginInput setup call l bytes).peer
  obtain ⟨he, hk⟩ := emits_beginInput (F := Accounted g.calls) setup call l bytes
  have he' := fun ops : List (Op N) => he.mono fun b hb =>
    hb.mono (g.calls_subset_perform ops)
  generalize beginInput setup call l bytes = begun at hp he hk he' ⊢
  obtain ⟨l', duplicate, response⟩ := begun
  cases duplicate with
  | true =>
    cases response with
    | none => exact .of_idle h (.inl hp) he
    | some response =>
      refine .of_idle h (.inl ?_) (he.trans (emits_sendTo call l' (.inr (hk response rfl))))
      exact (sameDriver_sendTo call l' response).peer.trans hp
  | false => exact .before (he' _) (hpr (hp ▸ h) _ _)

/-- **A received record.** -/
theorem follows_receiveRecord (h : Agrees g l.slot.peer) (remote : Option SocketAddr)
    (initialSession : Option Handle) (bytes : Bytes) :
    Follows g (receiveOps setup call l bytes) (outbox l)
      (receiveRecord setup remote initialSession call l bytes).1 := by
  unfold receiveOps receiveRecord
  cases decodeRecord bytes (recordLimit setup l.shared.config) with
  | error e => exact .refl h
  | ok record =>
    dsimp only
    split
    · split
      · have hp : Agrees g ({ l with slot := { l.slot with permit := true } } :
          Local N).slot.peer := h
        exact follows_serveRecord setup call hp remote initialSession bytes record
      · exact .refl h
    · exact follows_serveRecord setup call h remote initialSession bytes record

variable {t : DatagramTransport N}

def attemptOps (l : Local N) (c : SecurityController) (o : Outbound) : List (Op N) :=
  ((l.shared.resolveLatest o).2.map fun o => outboundOps N c o l.shared.config.maxBodyLen).getD []

theorem takeOps_of_ready (hp : l.slot.peer = some (.established session t c commands a d))
    (ha : l.shared.sessionActive session = true) (ht : c.isTransitioning = false) (o : Outbound) :
    takeOps l o = attemptOps l c o := by
  unfold takeOps attemptOps
  rw [hp]
  dsimp only
  rw [ha, ht]
  cases (l.shared.resolveLatest o).2 <;> rfl

theorem takeOps_of_blocked
    (h : ∀ session t c commands a d, l.slot.peer = some (.established session t c commands a d) →
      l.shared.sessionActive session = true → c.isTransitioning = true) : takeOps l o = [] := by
  unfold takeOps
  split
  · rename_i hp
    rw [if_neg]
    rw [Bool.and_eq_true, Bool.not_eq_true']
    rintro ⟨ha, ht⟩
    rw [h _ _ _ _ _ _ hp ha] at ht
    cases ht
  · rfl

theorem seals_attempts (ht : g.transport = some t) (h : Attempts setup call l t c o l' fate) :
    Emits (Accounted (g.perform (attemptOps l c o)).calls) (outbox l) (outbox l') ∧ (fate = .empty →
      attemptOps l c o = []) ∧ ∀ t' o', fate = .handed t' o' ∨ fate = .blocked t' o' →
      (g.perform (attemptOps l c o)).transport = some t' := by
  have hc := (Shared.kept_resolveLatest l.shared o).1
  have hsend : ∀ {shared o' t' record r}, l.shared.resolveLatest o = (shared, some o') →
      encodeOutbound t c o' shared.config.maxBodyLen = (t', .ok record) →
      send setup call { l with shared := shared } record shared.config.maxDatagramSize = (l', r) →
      Emits (Accounted (g.perform (attemptOps l c o)).calls) (outbox l) (outbox l') ∧
        (g.perform (attemptOps l c o)).transport = some t' := by
    intro shared o' t' record r hr he hs
    have ho : attemptOps l c o = outboundOps N c o' l.shared.config.maxBodyLen := by
      rw [attemptOps, hr]
      rfl
    rw [hr] at hc
    rw [hc] at he
    have htr := transport_outboundOps ht c o' l.shared.config.maxBodyLen
    rw [he] at htr
    obtain rfl : _ = l' := congrArg Prod.fst hs
    rw [ho]
    exact ⟨emits_send setup call { l with shared := shared } _ (accounted_outbound ht he), htr⟩
  cases h with
  | empty hr =>
    refine ⟨.refl _, fun _ => ?_, by rintro _ _ (h | h) <;> cases h⟩
    rw [attemptOps, hr]
    rfl
  | refused => exact ⟨.refl _, nofun, by rintro _ _ (h | h) <;> cases h⟩
  | failed hr he hs => exact ⟨(hsend hr he hs).1, nofun, by rintro _ _ (h | h) <;> cases h⟩
  | blocked hr he hs | handed hr he hs =>
    refine ⟨(hsend hr he hs).1, nofun, ?_⟩
    rintro _ _ (h | h) <;> cases h
    exact (hsend hr he hs).2

/-- **A message taken from the write queue.** -/
theorem follows_takeOutbound (h : Agrees g l.slot.peer) (o : Outbound) :
    Follows g (takeOps l o) (outbox l) (takeOutbound setup call l o) := by
  have hta := takes_takeOutbound setup call l o
  generalize takeOutbound setup call l o = l' at hta
  cases hta with
  | ignored hn =>
    rw [takeOps_of_blocked fun session t c commands a d hp ha => by
      rw [hn _ _ _ _ _ _ hp] at ha; cases ha]
    exact .refl h
  | waits hp ha ht =>
    rw [takeOps_of_blocked fun session t c commands a d hp' _ => by cases hp.symm.trans hp'; exact ht]
    exact .of_idle h (.inl rfl) (.refl _)
  | @attempts session t c _ _ _ l₁ fate hp ha ht hat =>
    have htr : g.transport = some t := h t (by rw [hp]; rfl)
    obtain ⟨he, hem, hfa⟩ := seals_attempts setup call htr hat
    rw [takeOps_of_ready hp ha ht]
    cases fate with
    | empty =>
      refine ⟨.of_some rfl ?_, he⟩
      rw [show attemptOps l c o = [] from hem rfl]
      exact htr
    | failed e => exact ⟨.of_none (congrArg transportOf hat.driver.peer), he⟩
    | handed t' o' => exact ⟨.of_some rfl (hfa t' o' (.inl rfl)), he⟩
    | blocked t' o' => exact ⟨.of_some rfl (hfa t' o' (.inr rfl)), he⟩

/-- **A deferred message.** -/
theorem follows_flushDeferred (h : Agrees g l.slot.peer) :
    Follows g (flushOps l) (outbox l) (flushDeferred setup call l) := by
  have hfl := flushes_flushDeferred setup call l
  generalize flushDeferred setup call l = l' at hfl
  unfold flushOps
  cases hfl with
  | rests hn =>
    cases hd : l.slot.deferred with
    | nil => exact .refl h
    | cons o rest =>
      dsimp only
      rw [takeOps_of_blocked fun session t c commands a d hp => hn _ _ _ _ _ _ _ _ hp hd]
      exact .refl h
  | @attempts session t c _ _ _ o rest l₁ fate hp hd ha ht hat =>
    have htr : g.transport = some t := h t (by rw [hp]; rfl)
    obtain ⟨he, hem, hfa⟩ := seals_attempts setup call htr hat
    rw [hd]
    dsimp only
    rw [takeOps_of_ready hp ha ht]
    cases fate with
    | empty =>
      refine ⟨?_, he⟩
      rw [show attemptOps l c o = [] from hem rfl]
      exact (hat.driver.peer ▸ h :)
    | failed e => exact ⟨.of_none rfl, he.trans (emits_removePeer _)⟩
    | handed t' o' => exact ⟨.of_some rfl (hfa t' o' (.inl rfl)), he⟩
    | blocked t' o' => exact ⟨.of_some rfl (hfa t' o' (.inr rfl)), he⟩

theorem follows_driveEstablished (ht : g.transport = some t) (session : Handle)
    (c : SecurityController) (commands : Bool) (a : Instant) (d : Option Instant) :
    Follows g
      (match (autoRekey call commands (takeCommand call (setPeer l none) session c commands)).2.2 with
        | none => []
        | some control => protectedOps N .control (encodeControl control) 64)
      (outbox l) (driveEstablished setup call (setPeer l none) session t c commands a d) := by
  unfold driveEstablished
  obtain ⟨queue, rekey, c₁, _ | control, hl, -⟩ := takeCommand_eq call l session c commands <;>
    rw [hl]
  · exact ⟨.of_some rfl ht, .refl _⟩
  have hs := seals_sendProtected setup call (leading l queue rekey) ht c₁.epoch .control
    (encodeControl control) 64
  have hp := (sameDriver_sendProtected setup call (leading l queue rekey) t c₁.epoch .control
    (encodeControl control) 64).peer
  dsimp only at hs ⊢
  split <;> rename_i he <;> rw [he] at hs hp
  · exact .of_seals hs (.inr (congrArg transportOf hp))
  · exact .of_seals hs (.inl rfl)

theorem follows_applyDecision (ht : g.transport = some t) (hn : l.slot.peer = none)
    (session : Handle) (mode : SecurityMode) (accepted : Bool) :
    Follows g (protectedOps N .authDecision [if accepted then 1 else 0, mode.toByte] 64)
      (outbox l) (applyDecision setup call l session t mode accepted) := by
  have hs := seals_sendProtected setup call l ht initialEpoch .authDecision
    [if accepted then 1 else 0, mode.toByte] 64
  have hp := (sameDriver_sendProtected setup call l t initialEpoch .authDecision
    [if accepted then 1 else 0, mode.toByte] 64).peer.trans hn
  unfold applyDecision
  generalize sendProtected setup call l t initialEpoch .authDecision
    [if accepted then 1 else 0, mode.toByte] 64 = sent at hs hp ⊢
  generalize protectedOps N .authDecision [if accepted then 1 else 0, mode.toByte] 64 = ops
    at hs ⊢
  obtain ⟨l₁, t₁, e | _⟩ := sent
  · exact .of_seals hs (.inr (congrArg transportOf hp))
  dsimp only at hs hp ⊢
  split
  · rename_i shared _
    have hpu : outbox (pushEvent call { l₁ with shared := shared }
        (sessionEvent .sessionOpened setup.endpoint session)).1 = outbox l₁ := rfl
    have hp' : (pushEvent call { l₁ with shared := shared }
        (sessionEvent .sessionOpened setup.endpoint session)).1.slot.peer = none := hp
    split <;> rename_i hpus <;> rw [hpus] at hpu hp'
    · exact ⟨.of_none (congrArg transportOf hp'), by rw [hpu]; exact hs.emits⟩
    · exact ⟨.of_some rfl hs.transport, by rw [← hpu] at hs; exact hs.emits⟩
  · exact .of_seals hs (.inr rfl)

/-- **A tick.** -/
theorem follows_driveServer (h : Agrees g l.slot.peer) :
    Follows g (driveOps call l) (outbox l) (driveServer setup call l) := by
  have hg : ∀ {l'}, outbox l' = outbox l → l'.slot.peer = none →
      Follows g [] (outbox l) (removePeer l') := fun {l'} ho hp =>
    .of_idle h (.inr (congrArg transportOf hp)) (ho ▸ emits_removePeer l')
  unfold driveServer driveOps
  cases hp : l.slot.peer with
  | none => exact .refl h
  | some p =>
    cases p with
    | cookie expiresAt | serverReject expiresAt
    | serverFirst handshake started | serverFinish handshake started =>
      dsimp only
      split
      · exact hg rfl rfl
      · exact .refl h
    | clientHello | clientResponse | clientAuth => exact .refl h
    | serverAuth session t mode authStarted =>
      have ht : g.transport = some t := h t (by rw [hp]; rfl)
      dsimp only
      split
      · exact hg rfl rfl
      cases l.shared.authDecisions.lookup session with
      | none => exact .refl h
      | some accepted =>
        have hn : ({ setPeer l none with shared := { l.shared with
          authDecisions := l.shared.authDecisions.erase session } } : Local N).slot.peer = none := rfl
        exact follows_applyDecision setup call ht hn session mode accepted
    | established session t c commands lastActivity deadline =>
      have ht : g.transport = some t := h t (by rw [hp]; rfl)
      dsimp only
      split
      · exact hg rfl rfl
      split
      · exact hg rfl rfl
      · exact follows_driveEstablished setup call ht session c commands lastActivity deadline

end Routines

end Rnet.Transport.SealedOps
