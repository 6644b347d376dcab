import Rnet.Transport.Maintenance
import Rnet.Transport.Worker

/-! # What an address gives to the wire

The bytes an address sends are those of records it encodes, and those it has kept: the control record
that waits for its answer, and the cached response. `Emits` says of a routine that everything the
socket or the KCP engine takes from it satisfies a predicate or was kept before, and that it keeps
nothing that was not sent. The lemmas go through the wire and through the routines that encode
unprotected records only; sealing is the subject of the modules that import this one. -/

namespace Rnet.Transport.Emissions

open Rnet.Core Lib.BigEndian Protocol.Records Security.Cipher
open Config Slots Codec Wire Process Maintenance KcpPreflight Worker

variable {N : Noise}

/-- What the wire has of an address: the datagrams the socket took, the records kept for
retransmission and the KCP engine. -/
structure Outbox where
  sent : List Bytes
  pending : Option PendingRecord
  seen : Option SeenRecord
  engine : Option KcpEngine

def outbox (l : Local N) : Outbox := ⟨l.sent, l.slot.pending, l.slot.seen, l.slot.engine⟩

namespace Outbox

def Keeps (o : Outbox) (b : Bytes) : Prop :=
  (∃ p, o.pending = some p ∧ p.bytes = b) ∨ ∃ request, o.seen = some ⟨request, some b⟩

def queued (o : Outbox) : List Bytes := (o.engine.map KcpEngine.queued).getD []

end Outbox

/-- Everything given to the wire satisfies `F` or was kept, and what is kept was sent. -/
structure Emits (F : Bytes → Prop) (o o' : Outbox) : Prop where
  sent : ∃ more, o'.sent = o.sent ++ more ∧ (∀ b ∈ more, F b ∨ o.Keeps b) ∧
    ∀ b, o'.Keeps b → o.Keeps b ∨ b ∈ more
  queued : ∀ b ∈ o'.queued, F b ∨ b ∈ o.queued

variable {F : Bytes → Prop}

namespace Emits

variable {o o' o'' : Outbox}

theorem of_keeps (hs : o'.sent = o.sent) (hk : ∀ b, o'.Keeps b → o.Keeps b)
    (hq : ∀ b ∈ o'.queued, b ∈ o.queued) : Emits F o o' where
  sent := ⟨[], by rw [hs, List.append_nil], nofun, fun b hb => .inl (hk b hb)⟩
  queued b hb := .inr (hq b hb)

theorem refl (o : Outbox) : Emits F o o := .of_keeps rfl (fun _ h => h) fun _ h => h

theorem trans (h : Emits F o o') (h' : Emits F o' o'') : Emits F o o'' where
  sent := by
    obtain ⟨more, hs, hm, hk⟩ := h.sent
    obtain ⟨more', hs', hm', hk'⟩ := h'.sent
    refine ⟨more ++ more', by rw [hs', hs, List.append_assoc], fun b hb => ?_, fun b hb => ?_⟩
    · rcases List.mem_append.mp hb with hb | hb
      · exact hm b hb
      rcases hm' b hb with hb | hb
      · exact .inl hb
      · exact (hk b hb).elim .inr (hm b)
    · rcases hk' b hb with hb | hb
      · exact (hk b hb).imp_right (List.mem_append_left _)
      · exact .inr (List.mem_append_right _ hb)
  queued b hb := (h'.queued b hb).elim .inl (h.queued b)

theorem mono (h : Emits F o o') (hFG : ∀ b, F b → G b) : Emits G o o' where
  sent := by
    obtain ⟨more, hs, hm, hk⟩ := h.sent
    exact ⟨more, hs, fun b hb => (hm b hb).imp_left (hFG b), hk⟩
  queued b hb := (h.queued b hb).imp_left (hFG b)

end Emits

/-! ### The wire -/

section Wire

variable (setup : Setup N) (call : Call N) (l : Local N)

theorem emits_of_sent (hb : F b ∨ o.Keeps b) (hs : o'.sent = o.sent ++ [b])
    (hk : ∀ b', o'.Keeps b' → o.Keeps b' ∨ b' = b) (he : o'.engine = o.engine) : Emits F o o' where
  sent := by
    refine ⟨[b], hs, fun b' hb' => ?_, fun b' hb' => ?_⟩
    · rw [List.mem_singleton.mp hb']
      exact hb
    · exact (hk b' hb').imp_right fun h => List.mem_singleton.mpr h
  queued b' hb' := by
    unfold Outbox.queued at hb' ⊢
    rw [he] at hb'
    exact .inr hb'

variable {bytes : Bytes}

theorem emits_sendTo (hF : F bytes ∨ (outbox l).Keeps bytes) :
    Emits F (outbox l) (outbox (sendTo call l bytes).1) := by
  unfold sendTo
  split
  · exact emits_of_sent hF rfl (fun _ h => .inl h) rfl
  · exact .refl _

theorem emits_engine : Emits F (outbox l) (outbox (engine call l).1) ∧
    ∀ e, (engine call l).2 = .ok e → (outbox (engine call l).1).queued = e.queued := by
  unfold engine
  split
  · rename_i e he
    refine ⟨.refl _, fun e' he' => ?_⟩
    cases he'
    unfold outbox
    rw [he]
    rfl
  · rename_i hn
    split
    · exact ⟨.refl _, nofun⟩
    dsimp only
    split
    · exact ⟨.refl _, nofun⟩
    split
    · exact ⟨.refl _, nofun⟩
    rename_i e he
    have hem : e.queued = [] := by
      unfold newEngine at he
      split_ifs at he
      cases he
      rfl
    refine ⟨.of_keeps rfl (fun _ h => h) fun b hb => ?_, fun e' he' => ?_⟩
    · change b ∈ e.queued at hb
      rw [hem] at hb
      cases hb
    · cases he'
      rfl

theorem queued_kcpSend (h : kcpSend c e bytes = .ok e') : e'.queued = e.queued ++ [bytes] := by
  unfold kcpSend at h
  split_ifs at h
  cases h
  rfl

theorem emits_queueKcp (control : Bool) (hF : F bytes) :
    Emits F (outbox l) (outbox (queueKcp call l bytes control).1) := by
  obtain ⟨he, hq⟩ := emits_engine (F := F) call l
  unfold queueKcp
  dsimp only
  split <;> rename_i heq <;> rw [heq] at he hq
  · exact he
  rename_i l₁ e
  have hq₁ := hq e rfl
  split
  · exact he
  split
  · exact he
  rename_i e' hs
  refine he.trans ⟨⟨[], (List.append_nil _).symm, nofun, fun _ h => .inl h⟩, fun b hb => ?_⟩
  change b ∈ e'.queued at hb
  rw [queued_kcpSend hs, ← hq₁] at hb
  rcases List.mem_append.mp hb with hb | hb
  · exact .inr hb
  · rw [List.mem_singleton.mp hb]
    exact .inl hF

theorem keeps_cacheResponse (h : (outbox (cacheResponse call l bytes)).Keeps b) :
    (outbox l).Keeps b ∨ b = bytes := by
  unfold cacheResponse at h
  split at h
  · exact .inl h
  split_ifs at h
  · rcases h with h | ⟨request, hs⟩
    · exact .inl (.inl h)
    · cases hs
      exact .inr rfl
  · exact .inl h

variable {record : Record}

theorem emits_send (max : ℕ) (hF : F (recordBytes record)) :
    Emits F (outbox l) (outbox (send setup call l record max).1) := by
  unfold send
  split
  · exact .refl _
  rename_i bytes he
  obtain ⟨-, -, rfl⟩ := encodeRecord_eq_ok.mp he
  split
  · exact emits_queueKcp call l false hF
  · exact emits_sendTo call l (.inl hF)

theorem emits_kept (hF : F bytes) (hs : sendTo call l bytes = (l', .ok ()))
    (hse : l''.sent = l'.sent) (hk : ∀ b, (outbox l'').Keeps b → (outbox l').Keeps b ∨ b = bytes)
    (he : l''.slot.engine = l'.slot.engine) : Emits F (outbox l) (outbox l'') := by
  unfold sendTo at hs
  split at hs
  · cases hs
    exact emits_of_sent (.inl hF) hse hk he
  · cases hs

theorem sent_cacheResponse (bytes : Bytes) : (cacheResponse call l bytes).sent = l.sent ∧
    (cacheResponse call l bytes).slot.engine = l.slot.engine := by
  unfold cacheResponse
  split
  · exact ⟨rfl, rfl⟩
  · split_ifs <;> exact ⟨rfl, rfl⟩

theorem emits_sendReliable (max : ℕ) (hF : record.payload.length ≤ max → F (recordBytes record)) :
    Emits F (outbox l) (outbox (sendReliable setup call l record max).1) := by
  unfold sendReliable
  split
  · exact .refl _
  rename_i bytes he
  obtain ⟨hl, -, rfl⟩ := encodeRecord_eq_ok.mp he
  have hF := hF hl
  split
  · exact emits_queueKcp call l true hF
  split
  · exact .refl _
  split <;> rename_i l' hs
  · have h := emits_sendTo call l (.inl hF)
    rwa [hs] at h
  obtain ⟨hse, hen⟩ := sent_cacheResponse call { l' with slot := { l'.slot with
    pending := some ⟨recordBytes record, call.now, 1⟩ } } (recordBytes record)
  refine emits_kept call l hF hs hse (fun b hb => ?_) hen
  rcases keeps_cacheResponse call _ hb with hb | hb
  · rcases hb with ⟨p, hp, rfl⟩ | hb
    · cases hp
      exact .inr rfl
    · exact .inl (.inr hb)
  · exact .inr hb

theorem emits_sendResponse (max : ℕ) (hF : record.payload.length ≤ max → F (recordBytes record)) :
    Emits F (outbox l) (outbox (sendResponse setup call l record max).1) := by
  unfold sendResponse
  split
  · exact .refl _
  rename_i bytes he
  obtain ⟨hl, -, rfl⟩ := encodeRecord_eq_ok.mp he
  have hF := hF hl
  split
  · exact emits_queueKcp call l true hF
  split <;> rename_i l' hs
  · have h := emits_sendTo call l (.inl hF)
    rwa [hs] at h
  · obtain ⟨hse, hen⟩ := sent_cacheResponse call l' (recordBytes record)
    exact emits_kept call l hF hs hse (fun b hb => keeps_cacheResponse call _ hb) hen

theorem emits_beginInput (bytes : Bytes) :
    Emits F (outbox l) (outbox (beginInput setup call l bytes).1) ∧
      ∀ response, (beginInput setup call l bytes).2 = (true, some response) →
        (outbox (beginInput setup call l bytes).1).Keeps response := by
  unfold beginInput
  split
  · exact ⟨.refl _, nofun⟩
  split
  · rename_i seen hs
    refine ⟨.refl _, fun response hr => ?_⟩
    obtain ⟨hso, -⟩ := Option.filter_eq_some_iff.mp hs
    refine .inr ⟨seen.request, ?_⟩
    change l.slot.seen = _
    rw [hso, ← (Prod.mk.inj hr).2]
  · refine ⟨.of_keeps rfl (fun b hb => ?_) fun _ h => h, nofun⟩
    rcases hb with hb | ⟨request, hs⟩
    · exact .inl hb
    split_ifs at hs
    · cases hs
    · exact .inr ⟨request, hs⟩

theorem emits_endInput (success : Bool) : Emits F (outbox l) (outbox (endInput l success)) := by
  refine .of_keeps rfl (fun b hb => ?_) fun _ h => h
  rcases hb with ⟨p, hp, hby⟩ | hb
  · change (if _ then _ else _) = _ at hp
    split_ifs at hp
    exact .inl ⟨p, hp, hby⟩
  · exact .inr hb

theorem emits_removePeer : Emits F (outbox l) (outbox (removePeer l)) := by
  refine .of_keeps rfl (fun b hb => ?_) nofun
  rcases hb with ⟨p, hp, -⟩ | ⟨request, hs⟩
  · cases hp
  · cases hs

theorem emits_retry : Emits F (outbox l) (outbox (retry setup call l).1) := by
  unfold retry
  split
  · exact .refl _
  split
  · exact .refl _
  rename_i p hp
  have hk : (outbox l).Keeps p.bytes := .inl ⟨p, hp, rfl⟩
  split
  · exact .refl _
  split
  · refine .of_keeps rfl (fun b hb => ?_) fun _ h => h
    rcases hb with ⟨q, hq, -⟩ | hb
    · cases hq
    · exact .inr hb
  · have hpe : ∀ (b : Bytes) (l' : Local N), l'.slot.seen = l.slot.seen →
        (outbox { l' with slot := { l'.slot with
          pending := some { p with lastSent := call.now, attempts := p.attempts + 1 } } }).Keeps b →
        (outbox l).Keeps b := by
      rintro b l' hs (⟨q, hq, rfl⟩ | ⟨request, hb⟩)
      · cases hq
        exact hk
      · exact .inr ⟨request, hs.symm.trans hb⟩
    unfold sendTo
    split
    · exact emits_of_sent (.inr hk) rfl (fun b hb => .inl (hpe b _ rfl hb)) rfl
    · exact .of_keeps rfl (fun b hb => hpe b l rfl hb) fun _ h => h

end Wire

/-! ### Routines that seal nothing -/

section Plain

variable (setup : Setup N) (call : Call N) (l : Local N)

theorem emits_expirePeer (remote : Option SocketAddr) :
    Emits F (outbox l) (outbox (expirePeer remote call l).1) := by
  unfold expirePeer
  split
  · exact .refl _
  split
  · exact .refl _
  · split <;> exact .refl _

theorem emits_cleanupPeer (session : Handle) :
    Emits F (outbox l) (outbox (cleanupPeer l session)) := by
  unfold cleanupPeer
  dsimp only
  split_ifs
  · exact .refl _
  · exact emits_removePeer (clearDeferred (setPeer l none))

theorem emits_reclaim (now : Instant) :
    Emits F (outbox l) (outbox (Endpoint.reclaim now l)) := by
  unfold Endpoint.reclaim
  dsimp only
  split_ifs <;> exact .refl _

theorem emits_receiveKcp (input : KcpInput) :
    Emits F (outbox l) (outbox (receiveKcp call l input).1) := by
  have hn : ∀ {c conv e}, newEngine c conv = .ok e →
      e.queued = [] := by
    intro c conv e he
    unfold newEngine at he
    split_ifs at he
    cases he
    rfl
  unfold receiveKcp
  split
  · rename_i e he
    have hs : ∀ l' : Local N, l'.sent = l.sent → l'.slot.pending = l.slot.pending →
        l'.slot.seen = l.slot.seen →
        l'.slot.engine = some { e with waitSnd := input.waitSnd, failed := input.failed } →
        Emits F (outbox l) (outbox l') := by
      intro l' hsen hp hse hen
      refine .of_keeps hsen (fun b hb => ?_) fun b hb => ?_
      · unfold outbox Outbox.Keeps at hb
        rw [hp, hse] at hb
        exact hb
      · unfold outbox Outbox.queued at hb ⊢
        rw [hen] at hb
        rw [he]
        exact hb
    split
    · exact hs _ rfl rfl rfl rfl
    · exact hs _ rfl rfl rfl rfl
    · exact hs _ rfl rfl rfl rfl
  · split
    · exact .refl _
    dsimp only
    split
    · exact .refl _
    split
    · exact .refl _
    rename_i e he
    split
    · exact .refl _
    have hem : ∀ b, b ∉ e.queued := by
      rw [hn he]
      exact fun _ => List.not_mem_nil
    split <;>
      exact .of_keeps rfl (fun _ h => h) fun b hb => absurd hb (hem b)

theorem emits_authorizePeer (conv : ℕ) :
    Emits F (outbox l) (outbox (authorizePeer call l conv).1) := by
  unfold authorizePeer
  split
  · exact .refl _
  split
  · exact .refl _
  split
  · split <;> exact .refl _
  · split <;> exact .refl _

theorem emits_admitHello (conv : ℕ) : Emits F (outbox l) (outbox (admitHello call l conv)) := by
  unfold admitHello
  split
  · exact .refl _
  have h := emits_authorizePeer (F := F) call { l with slot := { l.slot with permit := true } }
    conv
  dsimp only
  split <;> rename_i he <;> rw [he] at h <;> exact h

variable (hplain : ∀ record : Record, record.kind ≠ .protectedRecord → F (recordBytes record))
include hplain

theorem emits_plainReliable (kind : RecordKind) (hk : kind ≠ .protectedRecord) (epoch : ℕ)
    (payload : Bytes) (max : ℕ) :
    Emits F (outbox l) (outbox (sendReliable setup call l ⟨kind, epoch, payload⟩ max).1) :=
  emits_sendReliable setup call l max fun _ => hplain _ hk

theorem emits_handlePreflight (hh : ∀ conv cookie, F (encodeHello conv cookie))
    (hc : ∀ conv cookie, F (encodeChallenge conv cookie)) (remote : Option SocketAddr)
    (packet : Bytes) :
    Emits F (outbox l) (outbox (handlePreflight setup remote call l packet).1) := by
  unfold handlePreflight
  split
  · exact .refl _
  split
  · split
    · exact emits_admitHello call l _
    · exact emits_sendTo call l (.inl (hc _ _))
  · rename_i conv cookie _ _ _
    split
    · have hs := emits_sendTo (F := F) call l (.inl (hh conv cookie))
      split <;> rename_i he <;> rw [he] at hs
      · exact hs
      rename_i l₁
      have ha := hs.trans (emits_authorizePeer call l₁ conv)
      split <;> rename_i he' <;> rw [he'] at ha
      · exact ha
      rename_i l₂
      have h := ha.trans (emits_plainReliable setup call l₂ hplain .clientHello
        (by decide) 0 cookie 128)
      split <;> rename_i he'' <;> rw [he''] at h <;> exact h
    · exact .refl _
  · exact .refl _
  · split <;> exact .refl _

theorem emits_sendClientHello (hh : ∀ conv cookie, F (encodeHello conv cookie)) (conv : ℕ) :
    Emits F (outbox l) (outbox (Endpoint.sendClientHello setup call l conv).1) := by
  unfold Endpoint.sendClientHello
  split
  · exact emits_sendTo call l (.inl (hh conv []))
  · exact emits_plainReliable setup call l hplain .clientHello (by decide) 0 [] 128

end Plain

end Rnet.Transport.Emissions
