import Rnet.Security.Unordered
import Rnet.Transport.Arms

/-! # One end of a UDP session

The routines of the datagram worker for an established UDP peer, as steps of one end of the unordered
barrier. `Wired` says what a routine may hand to the socket: the records it emits, and bytes the
address kept from earlier, a control record that waits for its answer or the cached response to the
last control input. `Leaves` says what becomes of the end: if the address is still established
afterwards, its controller, its keys and what it emitted are as some relation allows. -/

namespace Rnet.Transport.UdpEnd

open Rnet.Core Lib.BigEndian Protocol.Records Security.Cipher Security.Controller Security.Unordered
open Security.Ordered (controlMessage)
open Config State Slots Codec Wire Session Process Maintenance
open Arms hiding Leaves

variable {N : Noise} {again : Prop}

/-! ### What is emitted -/

/-- A ciphertext under a key, with its nonce in front. -/
def Sealed (key : N.Key) (m : ProtectedMessage) (cipher : Bytes) : Prop :=
  m.payload.length ≤ u32Max ∧ ∃ n x, n ≤ u64Max ∧ N.write key n (protectedBytes m) = some x ∧
    cipher = toBytes 8 n ++ x

/-- What a record means to the receiver. -/
inductive Means (key : N.Key) : Record → Option Letter → Prop
  /-- handshake records mean nothing -/
  | joining {r : Record} (hplain : r.kind ≠ .plainData) (hsealed : r.kind ≠ .protectedRecord) :
    Means key r none
  /-- the authorization decision and its acknowledgement -/
  | auth {epoch : ℕ} {m : ProtectedMessage} {cipher : Bytes}
    (hkind : m.kind = .authDecision ∨ m.kind = .authAck) (h : Sealed key m cipher) :
    Means key ⟨.protectedRecord, epoch, cipher⟩ none
  /-- data in the clear -/
  | plain (epoch : ℕ) (data : Bytes) :
    Means key ⟨.plainData, epoch, data⟩ (some (.business epoch .plaintext))
  /-- encrypted data -/
  | data {epoch : ℕ} {payload cipher : Bytes} (h : Sealed key ⟨.data, payload⟩ cipher) :
    Means key ⟨.protectedRecord, epoch, cipher⟩ (some (.business epoch .encrypted))
  /-- a game control, which is encrypted in every mode -/
  | gameControl {epoch : ℕ} {payload cipher : Bytes} (mode : SecurityMode)
    (h : Sealed key ⟨.gameControl, payload⟩ cipher) :
    Means key ⟨.protectedRecord, epoch, cipher⟩ (some (.business epoch mode))
  /-- a control of a transition -/
  | control {epoch : ℕ} {k : Control} {cipher : Bytes} (h : Sealed key (controlMessage k) cipher) :
    Means key ⟨.protectedRecord, epoch, cipher⟩ (some (.control epoch k))

/-- A record with the key it was sealed under and what it means. -/
structure Emission (N : Noise) where
  record : Record
  key : N.Key
  letter : Option Letter

namespace Emission

def bytes (e : Emission N) : Bytes := recordBytes e.record

/-- The record means what it says and can be decoded. -/
structure Valid (e : Emission N) : Prop where
  means : Means e.key e.record e.letter
  epoch_le : e.record.epoch ≤ u64Max
  length_le : e.record.payload.length ≤ u32Max

end Emission

theorem valid_nil : ∀ e ∈ ([] : List (Emission N)), e.Valid := List.forall_mem_nil _

/-! ### What the wire does -/

/-- Bytes an address kept: the control record that waits for its answer, or the cached response. -/
def Keeps (l : Local N) (b : Bytes) : Prop :=
  (∃ p, l.slot.pending = some p ∧ p.bytes = b) ∨ ∃ request, l.slot.seen = some ⟨request, some b⟩

/-- Everything handed to the socket or kept afterwards is `fresh` or was kept before; what was kept is
handed to the socket only by a routine that sends `again`. -/
structure Wired (again : Prop) (l l' : Local N) (fresh : List Bytes) : Prop where
  sent : ∀ b ∈ l'.sent, b ∈ l.sent ∨ b ∈ fresh ∨ (again ∧ Keeps l b)
  keeps : ∀ b, Keeps l' b → b ∈ fresh ∨ Keeps l b

namespace Wired

theorem refl (l : Local N) : Wired again l l [] := ⟨fun _ h => .inl h, fun _ h => .inr h⟩

theorem trans (h : Wired again l₁ l₂ f) (h' : Wired again l₂ l₃ f') :
    Wired again l₁ l₃ (f ++ f') where
  sent b hb := by
    rcases h'.sent b hb with hb | hb | hb
    · exact (h.sent b hb).imp_right fun hb => hb.imp_left fun hb => List.mem_append_left f' hb
    · exact .inr (.inl (List.mem_append_right f hb))
    · exact .inr ((h.keeps b hb.2).imp (fun hb' => List.mem_append_left f' hb') fun hb' => ⟨hb.1, hb'⟩)
  keeps b hb := by
    rcases h'.keeps b hb with hb | hb
    · exact .inl (List.mem_append_right f hb)
    · exact (h.keeps b hb).imp_left fun hb => List.mem_append_left f' hb

theorem trans_nil (h : Wired again l₁ l₂ f) (h' : Wired again l₂ l₃ []) : Wired again l₁ l₃ f := by
  have ha := h.trans h'
  rwa [List.append_nil] at ha

theorem mono (h : Wired again l l' f) (hs : f ⊆ f') : Wired again l l' f' where
  sent b hb := (h.sent b hb).imp_right fun hb => hb.imp_left fun hb => hs hb
  keeps b hb := (h.keeps b hb).imp_left fun hb => hs hb

theorem of_kept (h : Wired True l l' f) (hf : ∀ b ∈ f, Keeps l b) : Wired True l l' [] where
  sent b hb := (h.sent b hb).imp_right fun hb => .inr ⟨trivial, hb.elim (hf b) And.right⟩
  keeps b hb := .inr ((h.keeps b hb).elim (hf b) id)

theorem of_eq (hse : l'.sent = l.sent) (hp : l'.slot.pending = l.slot.pending)
    (hs : l'.slot.seen = l.slot.seen) : Wired again l l' [] where
  sent b hb := .inl (hse ▸ hb)
  keeps b hb := by
    unfold Keeps at hb ⊢
    rw [hp, hs] at hb
    exact .inr hb

end Wired

theorem sendTo_cases (call : Call N) (l : Local N) (bytes : Bytes) :
    (∃ l', sendTo call l bytes = (l', .ok ()) ∧ Wired again l l' [bytes] ∧ l'.slot = l.slot) ∨
      ∃ e, sendTo call l bytes = (l, .error e) := by
  unfold sendTo
  split_ifs
  · refine .inl ⟨_, rfl, ⟨fun b hb => ?_, fun b hb => .inr hb⟩, rfl⟩
    exact (List.mem_append.mp hb).imp_right .inl
  · exact .inr ⟨_, rfl⟩

theorem wired_cacheResponse (call : Call N) (l : Local N) (bytes : Bytes) :
    Wired again l (cacheResponse call l bytes) [bytes] := by
  unfold cacheResponse
  split
  · exact ⟨fun b hb => .inl hb, fun b hb => .inr hb⟩
  split_ifs
  · refine ⟨fun b hb => .inl hb, fun b hb => ?_⟩
    rcases hb with hb | ⟨request, hb⟩
    · exact .inr (.inl hb)
    · cases hb
      exact .inl List.mem_cons_self
  · exact ⟨fun b hb => .inl hb, fun b hb => .inr hb⟩

/-- A record that the wire takes, or refuses without a trace. -/
def Taken (again : Prop) (l : Local N) (record : Record) (r : Local N × Result Unit) : Prop :=
  (∃ l', r = (l', .ok ()) ∧ SameDriver l l' ∧ Wired again l l' [recordBytes record] ∧
    record.payload.length ≤ u32Max) ∨ ∃ e, r = (l, .error e)

section Udp

variable {setup : Setup N} {call : Call N} {l : Local N} {record : Record} {max : ℕ}

theorem taken_send (hk : setup.kind = .udp) : Taken again l record (send setup call l record max) := by
  have hd := sameDriver_send setup call l record max
  unfold send at hd ⊢
  rw [hk] at hd ⊢
  simp only [reduceCtorEq, if_false] at hd ⊢
  cases he : encodeRecord record max with
  | error e => exact .inr ⟨e, rfl⟩
  | ok bytes =>
    obtain ⟨-, hu, rfl⟩ := encodeRecord_eq_ok.mp he
    rw [he] at hd
    dsimp only at hd ⊢
    rcases sendTo_cases call l (recordBytes record) with ⟨l', hs, hwi, -⟩ | ⟨e, hs⟩
    · rw [hs] at hd ⊢
      exact .inl ⟨l', rfl, hd, hwi, hu⟩
    · rw [hs]
      exact .inr ⟨e, rfl⟩

theorem taken_sendReliable (hk : setup.kind = .udp) :
    Taken again l record (sendReliable setup call l record max) := by
  have hd := sameDriver_sendReliable setup call l record max
  unfold sendReliable at hd ⊢
  rw [hk] at hd ⊢
  simp only [reduceCtorEq, if_false] at hd ⊢
  cases he : encodeRecord record max with
  | error e => exact .inr ⟨e, rfl⟩
  | ok bytes =>
    obtain ⟨-, hu, rfl⟩ := encodeRecord_eq_ok.mp he
    rw [he] at hd
    dsimp only at hd ⊢
    split_ifs at hd ⊢
    · exact .inr ⟨_, rfl⟩
    rcases sendTo_cases call l (recordBytes record) with ⟨l', hs, hwi, -⟩ | ⟨e, hs⟩
    · rw [hs] at hd ⊢
      refine .inl ⟨_, rfl, hd, ?_, hu⟩
      have hpe : Wired again l' { l' with slot := { l'.slot with
          pending := some ⟨recordBytes record, call.now, 1⟩ } } [recordBytes record] := by
        refine ⟨fun b hb => .inl hb, fun b hb => ?_⟩
        rcases hb with ⟨p, hp, rfl⟩ | hb
        · cases hp
          exact .inl List.mem_cons_self
        · exact .inr (.inr hb)
      have ha := (hwi.trans hpe).trans (wired_cacheResponse call _ (recordBytes record))
      exact ha.mono (by simp)
    · rw [hs]
      exact .inr ⟨e, rfl⟩

theorem taken_sendResponse (hk : setup.kind = .udp) :
    Taken again l record (sendResponse setup call l record max) := by
  have hd := sameDriver_sendResponse setup call l record max
  unfold sendResponse at hd ⊢
  rw [hk] at hd ⊢
  simp only [reduceCtorEq, if_false] at hd ⊢
  cases he : encodeRecord record max with
  | error e => exact .inr ⟨e, rfl⟩
  | ok bytes =>
    obtain ⟨-, hu, rfl⟩ := encodeRecord_eq_ok.mp he
    rw [he] at hd
    dsimp only at hd ⊢
    rcases sendTo_cases call l (recordBytes record) with ⟨l', hs, hwi, -⟩ | ⟨e, hs⟩
    · rw [hs] at hd ⊢
      refine .inl ⟨_, rfl, hd, ?_, hu⟩
      exact (hwi.trans (wired_cacheResponse call _ (recordBytes record))).mono (by simp)
    · rw [hs]
      exact .inr ⟨e, rfl⟩

end Udp

/-! ### The receive path -/

def endOf (t : DatagramTransport N) (c : SecurityController) : End N.Key := ⟨c, t.outKey, t.inKey⟩

theorem endOf_congr (ho : t'.outKey = t.outKey) (hi : t'.inKey = t.inKey) (c : SecurityController) :
    endOf t' c = endOf t c := by
  rw [endOf, endOf, ho, hi]

theorem endOf_apply (t : DatagramTransport N) (c : SecurityController) (effect : Effect) :
    endOf (apply t effect) c = End.apply N.rekey effect (endOf t c) := by
  unfold apply End.apply
  split_ifs <;> rfl

/-- What becomes of an end that handled a control: without an answer, or whether the answer leaves or
not. -/
def Answers (K : End N.Key → List (Emission N) → Prop) (y : End N.Key) (epoch : ℕ) (tr : Transition) :
    Prop :=
  (tr.response = none ∧ K (End.apply N.rekey tr.afterResponse (y.apply N.rekey tr.beforeResponse)) [])
    ∨ ∃ r, tr.response = some r ∧ K (y.apply N.rekey tr.beforeResponse) [] ∧
      ∀ e : Emission N, e.letter = some (.control epoch r) →
        K (End.apply N.rekey tr.afterResponse (y.apply N.rekey tr.beforeResponse)) [e]

def Handles (again : Prop) (l : Local N) (out : Outcome N)
    (K : End N.Key → List (Emission N) → Prop) : Prop :=
  ∃ es, K (endOf out.transport out.controller) es ∧ (∀ e ∈ es, e.Valid) ∧
    Wired again l out.loc (es.map Emission.bytes)

theorem wired_pushEvent (call : Call N) (l : Local N) (event : Event) :
    Wired again l (pushEvent call l event).1 [] := .of_eq rfl rfl rfl

theorem sealed_of_protectedRecord {max : ℕ}
    (h : protectedRecord t epoch kind data max = (t', .ok r)) :
    ∃ cipher, r = ⟨.protectedRecord, epoch, cipher⟩ ∧ Sealed t.outKey ⟨kind, data⟩ cipher := by
  obtain ⟨-, hu, hn, x, hwr, -, rfl⟩ := protectedRecord_eq_ok.mp h
  exact ⟨_, rfl, hu, _, x, by omega, hwr, rfl⟩

theorem respond_cases {setup : Setup N} {call : Call N} {l : Local N} {t : DatagramTransport N}
    {epoch : ℕ} (hki : setup.kind = .udp) (he : epoch ≤ u64Max) (r : Control) :
    ∃ t', t'.outKey = t.outKey ∧ t'.inKey = t.inKey ∧
      ((∃ (l' : Local N) (e : Emission N), respond setup call l t epoch (some r) =
          (l', t', .ok ()) ∧ SameDriver l l' ∧ e.Valid ∧ e.letter = some (.control epoch r) ∧
        Wired again l l' [e.bytes]) ∨
      ∃ err, respond setup call l t epoch (some r) = (l, t', .error err)) := by
  have hk := protectedRecord_keys t epoch .control (encodeControl r) 64
  have ht : ∀ record out t',
      protectedRecord t epoch .control (encodeControl r) 64 = (t', .ok record) →
      Taken again l record out →
      (∃ (l' : Local N) (e : Emission N),
        ((out.1, t', out.2) : Local N × DatagramTransport N × Result Unit) = (l', t', .ok ()) ∧
        SameDriver l l' ∧ e.Valid ∧ e.letter = some (.control epoch r) ∧ Wired again l l' [e.bytes]) ∨
      ∃ err, ((out.1, t', out.2) : Local N × DatagramTransport N × Result Unit) =
        (l, t', .error err) := by
    intro record out t' hr ht
    obtain ⟨cipher, rfl, hs⟩ := sealed_of_protectedRecord hr
    rcases ht with ⟨l', rfl, hd, hwi, hu⟩ | ⟨err, rfl⟩
    · exact .inl ⟨l', ⟨_, t.outKey, some (.control epoch r)⟩, rfl, hd,
        ⟨.control hs, he, hu⟩, rfl, hwi⟩
    · exact .inr ⟨err, rfl⟩
  unfold respond
  dsimp only
  cases hr : protectedRecord t epoch .control (encodeControl r) 64 with
  | mk t' result =>
    rw [hr] at hk
    refine ⟨t', hk.1, hk.2.1, ?_⟩
    split_ifs
    · unfold sendProtectedResponse
      rw [hr]
      cases result with
      | error err => exact .inr ⟨err, rfl⟩
      | ok record => exact ht record _ t' hr (taken_sendResponse hki)
    · unfold sendProtected
      rw [hr]
      cases result with
      | error err => exact .inr ⟨err, rfl⟩
      | ok record => exact ht record _ t' hr (taken_sendReliable hki)

section Receiving

variable {setup : Setup N} {call : Call N} {l : Local N} {session : Handle}
  {t : DatagramTransport N} {c : SecurityController}
  {K : End N.Key → List (Emission N) → Prop}

theorem handles_finishControl (kind : ControlKind) (hk : K (endOf t' c') es)
    (hv : ∀ e ∈ es, e.Valid) (hwi : Wired again l l' (es.map Emission.bytes)) :
    Handles again l (finishControl setup call l' session t' c' kind) K := by
  unfold finishControl
  split
  · split_ifs
    · exact ⟨es, hk, hv, hwi⟩
    · exact ⟨es, hk, hv, hwi.trans_nil (wired_pushEvent call l' _)⟩
  · exact ⟨es, hk, hv, hwi⟩

theorem handles_handleControl (hki : setup.kind = .udp) (he : epoch ≤ u64Max)
    (hi : K (endOf t c) [])
    (hc : ∀ k c' tr, decodeControl payload = .ok k → c.handle k = (c', .ok tr) →
      Answers K (endOf t c') epoch tr) :
    Handles again l (handleControl setup call l session t c epoch payload) K := by
  unfold handleControl
  cases hd : decodeControl payload with
  | error e => exact ⟨[], hi, valid_nil, .refl l⟩
  | ok k =>
    dsimp only
    cases hh : c.handle k with
    | mk c' result =>
      cases result with
      | error e =>
        rw [handle_error hh]
        exact ⟨[], hi, valid_nil, .refl l⟩
      | ok tr =>
        dsimp only
        rcases hc k c' tr hd hh with ⟨hn, hk⟩ | ⟨r, hso, hlo, hs⟩
        · rw [hn]
          rw [← endOf_apply, ← endOf_apply] at hk
          exact handles_finishControl k.kind hk valid_nil (.refl l)
        · rw [hso]
          obtain ⟨t', ho, hin, ⟨l', e, hr, -, hv, hl, hwi⟩ | ⟨err, hr⟩⟩ :=
            @respond_cases N again setup call l (apply t tr.beforeResponse) epoch hki he r
          · rw [hr]
            have hf := hs e hl
            rw [← endOf_apply, ← endOf_congr ho hin, ← endOf_apply] at hf
            exact handles_finishControl k.kind hf
              (fun e' he' => List.mem_singleton.mp he' ▸ hv) hwi
          · rw [hr]
            refine ⟨[], ?_, valid_nil, .refl l⟩
            rwa [endOf_congr ho hin, endOf_apply]

variable {key : N.Key} {max : ℕ}

theorem opened_of_sealed (ideal : N.Ideal) (h : Sealed key m cipher)
    (ho : openMessage max t c ⟨.protectedRecord, epoch, cipher⟩ = (t', .ok m')) :
    m' = m ∧ key = t.inKey := by
  obtain ⟨hu, n, x, hn, hwr, rfl⟩ := h
  obtain ⟨plain, hd, hde⟩ := decrypt_eq_ok ho
  obtain ⟨-, -, hr, -⟩ := DatagramTransport.decrypt_eq_ok.mp hd
  have hf : field (toBytes 8 n ++ x) 0 8 = n :=
    field_toBytes_append x (by unfold u64Max at hn; omega)
  rw [hf, List.drop_left' (length_toBytes 8 n)] at hr
  obtain ⟨hk, -, rfl⟩ := ideal.read_sealed hn hn hwr hr
  exact ⟨eq_of_decodeProtected hu hde, hk.symm⟩

theorem openMessage_keys (max : ℕ) (t : DatagramTransport N) (c : SecurityController)
    (record : Record) : (openMessage max t c record).1.outKey = t.outKey ∧
      (openMessage max t c record).1.inKey = t.inKey := by
  unfold openMessage
  split
  · split_ifs <;> exact ⟨rfl, rfl⟩
  · exact ⟨(decrypt_keys t record max).1, (decrypt_keys t record max).2.1⟩
  · exact ⟨rfl, rfl⟩

theorem control_of_open (ideal : N.Ideal) (hm : Means key record letter)
    (ho : openMessage max t c record = (t', .ok m)) (hk : m.kind = .control) :
    ∃ k, letter = some (.control record.epoch k) ∧ m.payload = encodeControl k := by
  have hot : ∀ {m' epoch cipher}, Sealed key m' cipher →
      record = ⟨.protectedRecord, epoch, cipher⟩ → m = m' := by
    rintro m' epoch cipher hs rfl
    exact (opened_of_sealed ideal hs ho).1
  cases hm with
  | joining hp hs =>
    unfold openMessage at ho
    split at ho
    · exact absurd ‹_› hp
    · exact absurd ‹_› hs
    · cases ho
  | auth ha hs =>
    rw [hot hs rfl] at hk
    rcases ha with h | h <;> rw [h] at hk <;> cases hk
  | plain epoch data =>
    unfold openMessage at ho
    split_ifs at ho
    · cases ho; cases hk
    · cases ho
  | data hs | gameControl mode hs => rw [hot hs rfl] at hk; cases hk
  | control hs =>
    rw [hot hs rfl]
    exact ⟨_, rfl, rfl⟩

theorem business_of_open (ideal : N.Ideal) (hm : Means key record letter)
    (ho : openMessage max t c record = (t', .ok m)) (hk : m.kind = .data ∨ m.kind = .gameControl) :
    (∃ mode, letter = some (.business record.epoch mode)) ∧ (record.kind = .protectedRecord → key =
      t.inKey) := by
  have hsa : ∀ {m' epoch cipher}, Sealed key m' cipher →
      record = ⟨.protectedRecord, epoch, cipher⟩ → m = m' ∧ key = t.inKey := by
    rintro m' epoch cipher hs rfl
    exact opened_of_sealed ideal hs ho
  cases hm with
  | joining hp hs =>
    unfold openMessage at ho
    split at ho
    · exact absurd ‹_› hp
    · exact absurd ‹_› hs
    · cases ho
  | auth ha hs =>
    rw [(hsa hs rfl).1] at hk
    rcases ha with h | h <;> rw [h] at hk <;> rcases hk with h | h <;> cases h
  | plain epoch data => exact ⟨⟨_, rfl⟩, nofun⟩
  | data hs | gameControl mode hs => exact ⟨⟨_, rfl⟩, fun _ => (hsa hs rfl).2⟩
  | control hs =>
    rw [(hsa hs rfl).1] at hk
    rcases hk with h | h <;> cases h

theorem handles_dispatch (hk : setup.kind = .udp)
    (he : record.epoch ≤ u64Max) (hi : K (endOf t c) [])
    (hc : ∀ k c' tr, m.kind = .control → decodeControl m.payload = .ok k →
      c.handle k = (c', .ok tr) → Answers K (endOf t c') record.epoch tr) :
    Handles again l (dispatch setup call l session t c record m) K := by
  have hs : ∀ {l'} (r : Result Unit), Wired again l l' [] → Handles again l ⟨l', t, c, r⟩ K :=
    fun r h => ⟨[], hi, valid_nil, h⟩
  unfold dispatch
  split
  · split_ifs
    · exact hs _ (.refl l)
    split
    · exact hs _ (.refl l)
    · exact hs _ (wired_pushEvent ..)
  · split_ifs
    · exact hs _ (.refl l)
    · exact hs _ (wired_pushEvent ..)
    · exact hs _ (.refl l)
  · rename_i hm
    exact handles_handleControl hk he hi fun k c' tr => hc k c' tr hm
  · split_ifs <;> exact hs _ (.refl l)
  · exact hs _ (.refl l)

/-- **A record of the other side, whenever it arrives, leaves the end alone or is a control that the
controller handles.** -/
theorem handles_handleEstablished (ideal : N.Ideal) {key : N.Key} {record : Record}
    {letter : Option Letter} (hki : setup.kind = .udp) (hme : Means key record letter)
    (hep : record.epoch ≤ u64Max)
    (hwe : ∀ k, letter = some (.control c.epoch k) → k.WellFormed) (hi : K (endOf t c) [])
    (hc : ∀ k c' tr, letter = some (.control c.epoch k) → c.handle k = (c', .ok tr) →
      Answers K (endOf t c') c.epoch tr) :
    Handles again l (handleEstablished setup call l session t c record) K := by
  unfold handleEstablished
  split_ifs with hg
  · exact ⟨[], hi, valid_nil, .refl l⟩
  have hr : record.epoch = c.epoch := by
    simp only [Bool.or_eq_true, decide_eq_true_eq, not_or, not_not] at hg
    exact hg.2
  have hk := openMessage_keys (l.shared.config.maxBodyLen + 64) t c record
  cases ho : openMessage (l.shared.config.maxBodyLen + 64) t c record with
  | mk t' result =>
    rw [ho] at hk
    have he : ∀ c', endOf t' c' = endOf t c' := endOf_congr hk.1 hk.2
    cases result with
    | error e => exact ⟨[], (he c).symm ▸ hi, valid_nil, .refl l⟩
    | ok m =>
      refine handles_dispatch hki hep ((he c).symm ▸ hi) ?_
      intro k c' tr hm hd hh
      obtain ⟨k', hl, hp⟩ := control_of_open ideal hme ho hm
      rw [hr] at hl ⊢
      rw [hp, decodeControl_encodeControl (hwe k' hl)] at hd
      cases hd
      rw [he]
      exact hc k c' tr hl hh

end Receiving

/-! ### The worker's routines -/

def Holds (l : Local N) (session : Handle) (t : DatagramTransport N) (c : SecurityController) : Prop :=
  ∃ commands lastActivity deadline,
    l.slot.peer = some (.established session t c commands lastActivity deadline)

/-- If the address is still established afterwards, its end and what it emitted are as `K` says. -/
def Leaves (again : Prop) (l l' : Local N) (session : Handle)
    (K : End N.Key → List (Emission N) → Prop) : Prop :=
  ∀ t c, Holds l' session t c → ∃ es, K (endOf t c) es ∧ (∀ e ∈ es, e.Valid) ∧
    Wired again l l' (es.map Emission.bytes)

theorem not_holds (h : l.slot.peer = none) : ¬ Holds l session t c := by
  rintro ⟨_, _, _, hp⟩
  rw [h] at hp
  cases hp

theorem Leaves.of_none (h : l'.slot.peer = none) : Leaves again l l' session K :=
  fun _ _ hh => absurd hh (not_holds h)

section Delivery

variable {setup : Setup N} {call : Call N} {l : Local N} {session : Handle}
  {t : DatagramTransport N} {c : SecurityController}
  {K : End N.Key → List (Emission N) → Prop}

theorem Leaves.of_stay (hh : Holds l session t c) (hp : l'.slot.peer = l.slot.peer)
    (hk : K (endOf t c) es) (hv : ∀ e ∈ es, e.Valid)
    (hwi : Wired again l l' (es.map Emission.bytes)) : Leaves again l l' session K := by
  obtain ⟨_, _, _, h⟩ := hh
  rintro t' c' ⟨_, _, _, h'⟩
  rw [hp, h] at h'
  cases h'
  exact ⟨es, hk, hv, hwi⟩

theorem leaves_hello {record : Record} {localKey : N.Identity} {mode : SecurityMode}
    (hk : setup.kind = .udp) (hs : setup.security = .adaptiveServer localKey mode)
    (hr : record.kind = .clientHello) (hh : Holds l session t c)
    (hem : ∀ es, (∀ e ∈ es, e.letter = none) → K (endOf t c) es) :
    ∃ l₁ result, process setup call l record = (l₁, result) ∧ Leaves again l l₁ session K := by
  obtain ⟨commands, lastActivity, deadline, hp⟩ := hh
  have hre : reachesSession setup record = false := by
    unfold reachesSession
    rw [hs, hr]
  unfold process
  rw [hp, hre]
  unfold joinArm
  rw [hs, hr]
  dsimp only
  unfold clientHello
  have hst := hem [] nofun
  split_ifs
  · unfold challenge
    rcases @taken_sendResponse N again setup call (setPeer l none)
        ⟨.cookieChallenge, 0, call.cookieIssue.bytes⟩
      128 hk with ⟨l', hse, -, hwi, hu⟩ | ⟨err, hse⟩
    · rw [hse]
      dsimp only
      rw [if_neg (by rw [hk]; nofun)]
      refine ⟨_, _, rfl, ?_⟩
      rintro t' c' ⟨_, _, _, h⟩
      cases h
      exact ⟨[⟨⟨.cookieChallenge, 0, call.cookieIssue.bytes⟩, t.outKey, none⟩],
        hem _ (fun e he => by rw [List.mem_singleton.mp he]), fun e he => by
          rw [List.mem_singleton.mp he]
          exact ⟨.joining nofun nofun, Nat.zero_le _, hu⟩, ⟨hwi.sent, hwi.keeps⟩⟩
    · rw [hse]
      exact ⟨_, _, rfl, .of_none rfl⟩
  · refine ⟨_, _, rfl, ?_⟩
    rintro t' c' ⟨_, _, _, h⟩
    cases h
    exact ⟨[], hst, valid_nil, .of_eq rfl rfl rfl⟩
  · exact absurd rfl ‹_›

theorem leaves_process (ideal : N.Ideal) {key : N.Key} {record : Record} {letter : Option Letter}
    (hki : setup.kind = .udp) (hm : Means key record letter) (hep : record.epoch ≤ u64Max)
    (hwe : ∀ k, letter = some (.control c.epoch k) → k.WellFormed) (hh : Holds l session t c)
    (he : ∀ es, (∀ e ∈ es, e.letter = none) → K (endOf t c) es)
    (hc : ∀ k c' tr, letter = some (.control c.epoch k) → c.handle k = (c', .ok tr) →
      Answers K (endOf t c') c.epoch tr) :
    Leaves again l (process setup call l record).1 session K := by
  cases hr : reachesSession setup record with
  | false =>
    unfold reachesSession at hr
    split at hr
    · rename_i hs hre
      obtain ⟨l₁, result, hp, hl⟩ :=
        @leaves_hello N again setup call l session t c K record _ _ hki hs hre hh he
      rw [hp]
      exact hl
    · cases hr
  | true =>
    obtain ⟨commands, lastActivity, deadline, hpe⟩ := hh
    obtain ⟨es, hk, hv, hwi⟩ := @handles_handleEstablished N again setup call (setPeer l none)
      session t c K ideal key record letter hki hm hep hwe (he [] nofun) hc
    unfold process
    rw [hpe, hr]
    unfold establishedArm
    dsimp only
    split <;>
    · rintro t' c' ⟨_, _, _, h⟩
      cases h
      exact ⟨es, hk, hv, hwi.sent, hwi.keeps⟩

theorem wired_endInput (l : Local N) (success : Bool) : Wired again l (endInput l success) [] := by
  refine ⟨fun b hb => .inl hb, fun b hb => .inr ?_⟩
  rcases hb with ⟨p, hp, rfl⟩ | hb
  · unfold endInput at hp
    dsimp only at hp
    split_ifs at hp
    exact .inl ⟨p, hp, rfl⟩
  · exact .inr hb

theorem leaves_finishes (h : Leaves again l₀ processed.1 session K)
    (hf : Finishes remote call joining processed r) : Leaves again l₀ r.1 session K := by
  cases hf with
  | @settles r l hr rekey success =>
    rintro t' c' hh
    obtain ⟨es, hk, hv, hw⟩ := h t' c' hh
    have hr : Wired again l { l with slot := { l.slot with rekey := rekey } } [] := .of_eq rfl rfl rfl
    exact ⟨es, hk, hv, (hw.trans_nil hr).trans_nil (wired_endInput _ success)⟩
  | fails => exact h
  | releases hp session => exact .of_none ((congrArg Slot.peer (slot_dropActive ..)).trans hp)

theorem leaves_sendTo (hh : Holds l session t c) (hc : Keeps l b) (hk : K (endOf t c) []) :
    Leaves True l (sendTo call l b).1 session K := by
  refine .of_stay hh (sameDriver_sendTo call l b).peer hk valid_nil ?_
  rcases sendTo_cases call l b with ⟨l', hs, hwi, -⟩ | ⟨e, hs⟩
  · rw [hs]
    exact hwi.of_kept fun b' hb' => List.mem_singleton.mp hb' ▸ hc
  · rw [hs]
    exact .refl l

/-- **One delivered record.** -/
theorem leaves_receiveRecord (ideal : N.Ideal) {e : Emission N} (remote : Option SocketAddr)
    (initialSession : Option Handle) (hki : setup.kind = .udp) (hva : e.Valid)
    (hwe : ∀ k, e.letter = some (.control c.epoch k) → k.WellFormed) (hh : Holds l session t c)
    (he : ∀ es, (∀ e ∈ es, e.letter = none) → K (endOf t c) es)
    (hc : ∀ k c' tr, e.letter = some (.control c.epoch k) → c.handle k = (c', .ok tr) →
      Answers K (endOf t c') c.epoch tr) :
    Leaves True l (receiveRecord setup remote initialSession call l e.bytes).1 session K := by
  have hi := he [] nofun
  have hr : Receives setup remote initialSession call l e.bytes _ := receives_receiveRecord
  generalize receiveRecord setup remote initialSession call l e.bytes = r at hr
  cases hr with
  | refused => exact .of_stay hh rfl hi valid_nil (.refl l)
  | @repeated record lp response l' hd hp hs hl =>
    have hpe : needsPermit setup call l record = false := by
      obtain ⟨_, _, _, hp⟩ := hh
      unfold needsPermit
      rw [hp]
      split <;> simp
    rcases hp with ⟨rfl, -⟩ | ⟨-, hn, -⟩
    · subst hl
      cases response with
      | none => exact .of_stay hh rfl hi valid_nil (.refl _)
      | some b => exact leaves_sendTo hh (.inr ⟨e.bytes, hs⟩) hi
    · rw [hpe] at hn
      cases hn
  | @processed record l₁ hd hb =>
    cases eq_of_decodeRecord hva.epoch_le hva.length_le hd
    have hwi : Wired True l l₁ [] := by
      refine ⟨fun b h => .inl (hb.sent ▸ h), fun b h => .inr ?_⟩
      rcases h with ⟨p, hp, rfl⟩ | ⟨request, h⟩
      · exact .inl ⟨p, hb.pending ▸ hp, rfl⟩
      rcases hb.seen with hs | hs <;> rw [hs] at h
      · exact .inr ⟨request, h⟩
      · cases h
    obtain ⟨commands, lastActivity, deadline, hp⟩ := hh
    have hpr := @leaves_process N True setup call l₁ session t c K ideal e.key e.record e.letter hki
      hva.means hva.epoch_le hwe
      ⟨commands, lastActivity, deadline, hb.peer.trans hp⟩ he hc
    refine leaves_finishes (fun t' c' hho => ?_) (finishes_afterProcess ..)
    obtain ⟨es, hk, hv, hw⟩ := hpr t' c' hho
    exact ⟨es, hk, hv, hwi.trans hw⟩

end Delivery

section Sending

variable {setup : Setup N} {call : Call N} {l : Local N} {t : DatagramTransport N}
  {c : SecurityController} {K : End N.Key → List (Emission N) → Prop}

variable {o : Outbound}

theorem means_of_encodeOutbound {max : ℕ} (h : encodeOutbound t c o max = (t', .ok r)) :
    (t'.outKey = t.outKey ∧ t'.inKey = t.inKey) ∧
      Means t.outKey r (some (.business c.epoch c.mode)) ∧ r.epoch = c.epoch := by
  have hk : ∀ {kind}, protectedRecord t c.epoch kind o.bytes max = (t', .ok r) →
      t'.outKey = t.outKey ∧ t'.inKey = t.inKey := by
    intro kind hr
    have hk := protectedRecord_keys t c.epoch kind o.bytes max
    rw [hr] at hk
    exact ⟨hk.1, hk.2.1⟩
  unfold encodeOutbound at h
  split at h
  · unfold dataRecord at h
    split at h
    · rename_i hm
      cases h
      rw [hm]
      exact ⟨⟨rfl, rfl⟩, .plain .., rfl⟩
    · rename_i hm
      obtain ⟨cipher, rfl, hs⟩ := sealed_of_protectedRecord h
      rw [hm]
      exact ⟨hk h, .data hs, rfl⟩
  · obtain ⟨cipher, rfl, hs⟩ := sealed_of_protectedRecord h
    exact ⟨hk h, .gameControl c.mode hs, rfl⟩

theorem Leaves.of_put (commands : Bool) (lastActivity : Instant) (deadline : Option Instant)
    (hk : K (endOf t' c) es) (hv : ∀ e ∈ es, e.Valid)
    (hwi : Wired again l l₁ (es.map Emission.bytes)) :
    Leaves again l (setPeer l₁ (some (.established session t' c commands lastActivity deadline)))
      session K := by
  rintro t₁ c₁ ⟨_, _, _, h⟩
  cases h
  exact ⟨es, hk, hv, hwi.sent, hwi.keeps⟩

theorem emits_of_attempts {t' : DatagramTransport N} (hk : setup.kind = .udp) (hep : c.epoch ≤ u64Max)
    (hi : K (endOf t c) []) (hse : ∀ e : Emission N, e.letter = some (.business c.epoch c.mode) →
      e.key = t.outKey → K (endOf t c) [e])
    (h : Attempts setup call l t c o l' fate) (hf : fate.next t = some t') :
    ∃ es, K (endOf t' c) es ∧ (∀ e ∈ es, e.Valid) ∧ Wired again l l' (es.map Emission.bytes) := by
  cases h with
  | empty =>
    cases hf
    exact ⟨[], hi, valid_nil, .of_eq rfl rfl rfl⟩
  | refused | failed => cases hf
  | @blocked shared _ _ record _ _ _ he hs | @handed shared _ _ record _ _ he hs =>
    cases hf
    obtain ⟨⟨ho, hin⟩, hm, hr⟩ := means_of_encodeOutbound he
    rw [endOf_congr ho hin]
    rcases @taken_send N again setup call { l with shared := shared } record
      shared.config.maxDatagramSize hk with ⟨l₁, hs', -, hwi, hu⟩ | ⟨err, hs'⟩ <;>
        cases hs.symm.trans hs'
    all_goals first
      | exact ⟨[], hi, valid_nil, .of_eq rfl rfl rfl⟩
      | refine ⟨[⟨record, t.outKey, some (.business c.epoch c.mode)⟩], hse _ rfl rfl, fun e he => ?_,
          hwi.sent, hwi.keeps⟩
        rw [List.mem_singleton.mp he]
        exact ⟨hm, hr ▸ hep, hu⟩

theorem Holds.inj (h : Holds l session t c)
    (hp : l.slot.peer = some (.established session' t' c' commands a d)) :
    session' = session ∧ t' = t ∧ c' = c := by
  obtain ⟨_, _, _, h⟩ := h
  cases hp.symm.trans h
  exact ⟨rfl, rfl, rfl⟩

theorem leaves_takeOutbound (hki : setup.kind = .udp) (hep : c.epoch ≤ u64Max)
    (hh : Holds l session t c) (hi : K (endOf t c) [])
    (hse : c.pending = none → ∀ e : Emission N, e.letter = some (.business c.epoch c.mode) →
      e.key = t.outKey → K (endOf t c) [e]) :
    Leaves again l (takeOutbound setup call l o) session K := by
  have ht := takes_takeOutbound setup call l o
  generalize takeOutbound setup call l o = l' at ht
  cases ht with
  | ignored => exact .of_stay hh rfl hi valid_nil (.refl l)
  | waits => exact .of_stay hh rfl hi valid_nil (.of_eq rfl rfl rfl)
  | @attempts _ _ _ _ _ _ l₁ fate hp _ ht h =>
    obtain ⟨rfl, rfl, rfl⟩ := hh.inj hp
    have he := fun t' => @emits_of_attempts N again setup call _ _ _ K o l₁ fate t' hki hep hi
      (hse (pending_of_stable ht)) h
    cases fate with
    | failed e => exact .of_none h.driver.peer
    | _ =>
      obtain ⟨es, hk, hv, hw⟩ := he _ rfl
      exact .of_put _ _ _ hk hv ⟨hw.sent, hw.keeps⟩

theorem leaves_flushDeferred (hki : setup.kind = .udp) (hep : c.epoch ≤ u64Max)
    (hh : Holds l session t c) (hi : K (endOf t c) [])
    (hse : c.pending = none → ∀ e : Emission N, e.letter = some (.business c.epoch c.mode) →
      e.key = t.outKey → K (endOf t c) [e]) :
    Leaves again l (flushDeferred setup call l) session K := by
  have ht := flushes_flushDeferred setup call l
  generalize flushDeferred setup call l = l' at ht
  cases ht with
  | rests => exact .of_stay hh rfl hi valid_nil (.refl l)
  | @attempts _ _ _ _ _ _ o rest l₁ fate hp _ _ ht h =>
    obtain ⟨rfl, rfl, rfl⟩ := hh.inj hp
    have he := fun t' => @emits_of_attempts N again setup call _ _ _ K o l₁ fate t' hki hep hi
      (hse (pending_of_stable ht)) h
    cases fate with
    | empty =>
      obtain ⟨es, hk, hv, hw⟩ := he _ rfl
      exact .of_stay hh h.driver.peer hk hv ⟨hw.sent, hw.keeps⟩
    | failed e => exact .of_none rfl
    | _ =>
      obtain ⟨es, hk, hv, hw⟩ := he _ rfl
      exact .of_put _ _ _ hk hv ⟨hw.sent, hw.keeps⟩

theorem Keeps.of_slot
    (h : (l'.slot.pending = l.slot.pending ∧ l'.slot.seen = l.slot.seen) ∨ (l'.slot.pending = none ∧
      l'.slot.seen = none)) (hb : Keeps l' b) : Keeps l b := by
  unfold Keeps at hb ⊢
  rcases h with ⟨hpe, hs⟩ | ⟨hpe, hs⟩
  · rwa [hpe, hs] at hb
  rw [hpe, hs] at hb
  rcases hb with ⟨p, hp, -⟩ | ⟨request, hr⟩
  · cases hp
  · cases hr

theorem slot_of_send {max : ℕ} (hk : setup.kind = .udp) (h : send setup call l record max = r) :
    r.1.slot = l.slot := by
  subst h
  unfold send sendTo
  rw [hk]
  simp only [reduceCtorEq, if_false]
  split
  · rfl
  · split_ifs <;> rfl

theorem slot_of_attempts (hk : setup.kind = .udp) (h : Attempts setup call l t c o l' fate) :
    l'.slot = l.slot := by
  rcases h.wire with rfl | ⟨record, max, rfl⟩
  · rfl
  · exact (slot_of_send hk rfl :)

theorem keeps_takeOutbound (hk : setup.kind = .udp) (h : Keeps (takeOutbound setup call l o) b) :
    Keeps l b := by
  have ht := takes_takeOutbound setup call l o
  generalize takeOutbound setup call l o = l' at ht h
  refine h.of_slot (.inl ?_)
  clear h
  cases ht with
  | ignored | waits => exact ⟨rfl, rfl⟩
  | attempts _ _ _ h =>
    have hs := slot_of_attempts hk h
    cases ‹Fate N› <;> exact ⟨congrArg (·.pending) hs, congrArg (·.seen) hs⟩

theorem keeps_flushDeferred (hk : setup.kind = .udp) (h : Keeps (flushDeferred setup call l) b) :
    Keeps l b := by
  have ht := flushes_flushDeferred setup call l
  generalize flushDeferred setup call l = l' at ht h
  refine h.of_slot ?_
  clear h
  cases ht with
  | rests => exact .inl ⟨rfl, rfl⟩
  | @attempts _ _ _ _ _ _ _ _ _ fate _ _ _ _ h =>
    have hs := slot_of_attempts hk h
    cases fate with
    | failed e => exact .inr ⟨rfl, rfl⟩
    | _ => exact .inl ⟨congrArg (·.pending) hs, congrArg (·.seen) hs⟩

theorem leaves_driveServer (hki : setup.kind = .udp) (hep : c.epoch ≤ u64Max)
    (hh : Holds l session t c) (hi : K (endOf t c) [])
    (hpr : ∀ c' k, Proposal c c' k → ∀ e : Emission N,
      e.letter = some (.control c.epoch k) → K (endOf t c') [e]) :
    Leaves again l (driveServer setup call l) session K := by
  have h := drives_driveServer setup call l
  generalize driveServer setup call l = l' at h
  obtain ⟨_, _, _, hpe⟩ := hh
  cases h with
  | rests => exact .of_stay ⟨_, _, _, hpe⟩ rfl hi valid_nil (.refl l)
  | expires | drops => exact .of_none rfl
  | undecided hp | unopened hp | opens hp | rejects hp => cases hpe.symm.trans hp
  | idles hp =>
    cases hpe.symm.trans hp
    exact .of_put _ _ _ hi valid_nil (.of_eq rfl rfl rfl)
  | unled _ _ hs =>
    refine .of_none ?_
    rw [hs]
    exact (sameDriver_sendProtected ..).peer
  | @leads _ _ _ _ _ _ k sent queue rekey c' d' hp _ hs hk ho =>
    cases hpe.symm.trans hp
    subst hs
    have hke := protectedRecord_keys t c.epoch .control (encodeControl k) 64
    unfold sendProtected at ho ⊢
    generalize hr : protectedRecord t c.epoch .control (encodeControl k) 64 = encoded at hke ho ⊢
    obtain ⟨t', _ | record⟩ := encoded
    · cases ho
    obtain ⟨cipher, rfl, hse⟩ := sealed_of_protectedRecord hr
    dsimp only at ho ⊢
    rcases @taken_sendReliable N again setup call (leading l queue rekey)
      ⟨.protectedRecord, c.epoch, cipher⟩ (64 + 64) hki with
      ⟨l₁, hs, -, hwi, hu⟩ | ⟨err, hs⟩ <;> rw [hs] at ho ⊢
    · have hk' := hpr c' k hk
        ⟨⟨.protectedRecord, c.epoch, cipher⟩, t.outKey, some (.control c.epoch k)⟩ rfl
      rw [← endOf_congr hke.1 hke.2.1] at hk'
      refine .of_put _ _ _ hk' (fun e he => ?_) ⟨hwi.sent, hwi.keeps⟩
      rw [List.mem_singleton.mp he]
      exact ⟨.control hse, hep, hu⟩
    · cases ho

theorem leaves_retry (remote : Option SocketAddr) (hki : setup.kind = .udp)
    (hh : Holds l session t c) (hi : K (endOf t c) []) :
    Leaves True l (match retry setup call l with
      | (l', false) => l'
      | (l', true) => (expirePeer remote call l').1) session K := by
  obtain ⟨commands, lastActivity, deadline, hpe⟩ := hh
  have hst : ∀ {l'}, l'.slot.peer = l.slot.peer → Wired True l l' [] →
      Leaves True l l' session K :=
    fun h hw => .of_stay ⟨commands, lastActivity, deadline, hpe⟩ h hi valid_nil hw
  unfold retry
  rw [if_neg (by rw [hki]; nofun)]
  cases hp : l.slot.pending with
  | none => exact hst rfl (.refl l)
  | some p =>
    dsimp only
    have hk : Keeps l p.bytes := .inl ⟨p, hp, rfl⟩
    split_ifs
    · exact hst rfl (.refl l)
    · refine .of_none ?_
      unfold expirePeer
      rw [hpe]
      dsimp only [Peer.session]
      split_ifs <;> rfl
    · refine hst (sameDriver_sendTo call l p.bytes).peer ?_
      have ha : ∀ l' : Local N, Wired True l l' [] → Wired True l { l' with slot := { l'.slot with
          pending := some { p with lastSent := call.now, attempts := p.attempts + 1 } } } [] := by
        refine fun l' h => ⟨h.sent, fun b hb => ?_⟩
        rcases hb with ⟨p', hp', rfl⟩ | hb
        · cases hp'
          exact .inr hk
        · exact h.keeps b (.inr hb)
      rcases sendTo_cases call l p.bytes with ⟨l', hs, hwi, -⟩ | ⟨e, hs⟩
      · rw [hs]
        exact ha l' (hwi.of_kept fun b' hb' => List.mem_singleton.mp hb' ▸ hk)
      · rw [hs]
        exact ha l (.refl l)

theorem leaves_cleanupPeer (request : Handle) (hh : Holds l session t c)
    (hi : K (endOf t c) []) : Leaves again l (cleanupPeer l request) session K := by
  unfold cleanupPeer
  dsimp only
  split_ifs
  · exact .of_stay hh rfl hi valid_nil (.of_eq rfl rfl rfl)
  · exact .of_none rfl

end Sending

end Rnet.Transport.UdpEnd
