import Rnet.Lib.FiniteMap
import Rnet.Game.Controls

/-! # Resume tickets

Short-lived one-use tickets of one server runtime. A ticket is a random nonce with its signature; what
it stands for stays in the registry, which finds an entry by nonce, by the session it was issued for
and by its expiry. Reissuing for a session replaces its ticket, so a session has at most one.

The signing key is random, so the signature is a function the registry was built with; the random
draws of a nonce are an argument. -/

namespace Rnet.Game.Resume

open Rnet.Core Lib.BigEndian Lib.FiniteMap
open Join (Nonce)

/-- Length of a nonce. -/
def nonceLen : ℕ := 16
/-- Length of a ticket: nonce and tag. -/
def ticketLen : ℕ := nonceLen + 32
/-- Longest identity. -/
def maxIdentityLen : ℕ := 64
/-- Longest lifetime, in milliseconds. -/
def maxTtl : ℕ := 300 * 1000

/-- Protocol and version of a session. -/
structure SelectedProtocol where
  protocolId : UInt64
  version : UInt32
  deriving DecidableEq

/-- Neither field is zero. -/
def SelectedProtocol.isValid (p : SelectedProtocol) : Bool := p.protocolId ≠ 0 && p.version ≠ 0

/-- What a ticket entitles to. -/
structure ResumeClaim where
  oldSession : Handle
  identity : Bytes
  deriving DecidableEq

/-- Session a ticket is issued for. -/
structure ResumeScope where
  endpoint : Handle
  session : Handle
  peerKey : Bytes
  protocol : SelectedProtocol
  deriving DecidableEq

/-- What the server keeps of a ticket. -/
structure TicketEntry where
  endpoint : Handle
  oldSession : Handle
  peerKey : Bytes
  protocolId : UInt64
  protocolVersion : UInt32
  identity : Bytes
  expires : Instant
  deriving DecidableEq

/-- An HMAC tag. -/
structure Tag where
  bytes : Bytes
  length_eq : bytes.length = 32
  deriving DecidableEq

/-- Tickets of a server, by nonce, session and expiry. -/
structure ResumeRegistry where
  sign : Nonce → Tag
  maxEntries : ℕ
  entries : Table Nonce TicketEntry
  bySession : Table Handle Nonce
  expiries : Table Instant (List Nonce)

/-- Refusal of a ticket. -/
def invalidTicket : RnetError := ⟨.protocolError, "invalid resume ticket"⟩

/-- Bounds of the lifetime. -/
def validateTtl (ttl : ℕ) : Result Unit :=
  if ttl = 0 ∨ maxTtl < ttl then
    .error ⟨.invalidArgument, "resume ticket lifetime must be between 1 ns and 5 minutes"⟩
  else .ok ()

namespace ResumeRegistry

section

variable (r : ResumeRegistry)

/-- A registry without tickets. -/
def new (sign : Nonce → Tag) (maxEntries : ℕ) : Result ResumeRegistry :=
  if maxEntries < 1 ∨ 65536 < maxEntries then
    .error ⟨.invalidArgument, "resume ticket capacity is outside the supported range"⟩
  else .ok ⟨sign, maxEntries, ∅, ∅, ∅⟩

/-- The expiry buckets without a nonce; a bucket that empties is dropped. -/
def unbucket (expiries : Table Instant (List Nonce)) (expires : Instant) (nonce : Nonce) :
    Table Instant (List Nonce) :=
  match expiries.lookup expires with
  | none => expiries
  | some bucket =>
    let rest := bucket.filter (· ≠ nonce)
    if rest = [] then expiries.erase expires else expiries.insert expires rest

/-- Removes a ticket from all tables. -/
def remove (nonce : Nonce) : ResumeRegistry :=
  match r.entries.lookup nonce with
  | none => r
  | some entry =>
    { r with
      entries := r.entries.erase nonce
      bySession := r.bySession.erase entry.oldSession
      expiries := unbucket r.expiries entry.expires nonce }

/-- Drops an entry whose bucket is already gone. -/
def dropEntry (nonce : Nonce) : ResumeRegistry :=
  match r.entries.lookup nonce with
  | none => r
  | some entry =>
    { r with entries := r.entries.erase nonce, bySession := r.bySession.erase entry.oldSession }

/-- `prune`: pops the buckets that expired and drops their entries. -/
def prune (now : Instant) : ResumeRegistry :=
  let expired := ((filter r.expiries fun at' _ => at' ≤ now).entries.map Sigma.snd).flatten
  expired.foldl dropEntry { r with expiries := filter r.expiries fun at' _ => now < at' }

/-- Removes the ticket of a session. -/
def revokeSession (session : Handle) : ResumeRegistry :=
  match r.bySession.lookup session with
  | none => r
  | some nonce => r.remove nonce

/-- Removes the tickets of an endpoint. -/
def revokeEndpoint (endpoint : Handle) : ResumeRegistry :=
  ((filter r.entries fun _ entry => entry.endpoint = endpoint).entries.map Sigma.fst).foldl remove r

/-- Removes a ticket without checking its tag. -/
def revokeTicket (ticket : Bytes) : ResumeRegistry :=
  if ticket.length ≠ ticketLen then r else r.remove (.read ticket 0)

/-- Removes all tickets. -/
def clear : ResumeRegistry :=
  { r with entries := ∅, bySession := ∅, expiries := ∅ }

def tryDraws (r : ResumeRegistry) : List (Option Nonce) → Result Nonce
  | [] => .error ⟨.cryptoError, "resume ticket nonce collision"⟩
  | none :: _ => .error ⟨.cryptoError, "resume ticket RNG failed"⟩
  | some nonce :: rest => if (r.entries.lookup nonce).isNone then .ok nonce else r.tryDraws rest

/-- Four draws at most. -/
def newNonce (draws : ℕ → Option Nonce) : Result Nonce :=
  r.tryDraws ((List.range 4).map draws)

def register (nonce : Nonce) (entry : TicketEntry) : ResumeRegistry :=
  { r with
    entries := r.entries.insert nonce entry
    bySession := r.bySession.insert entry.oldSession nonce
    expiries := r.expiries.insert entry.expires
      (nonce :: ((r.expiries.lookup entry.expires).getD []).filter (· ≠ nonce)) }

/-- Issues a ticket in place of an older one. -/
def issue (scope : ResumeScope) (identity : Bytes) (now : Instant) (ttl : ℕ)
    (draws : ℕ → Option Nonce) : ResumeRegistry × Result Bytes :=
  if scope.endpoint = 0 ∨ scope.session = 0 ∨ scope.protocol.isValid = false ∨ identity = [] ∨
      maxIdentityLen < identity.length then
    (r, .error ⟨.invalidArgument, "invalid resume ticket scope or lifetime"⟩)
  else
    match validateTtl ttl with
    | .error e => (r, .error e)
    | .ok () =>
      let r := r.prune now
      if r.maxEntries ≤ size r.entries ∧ (r.bySession.lookup scope.session).isNone then
        (r, .error ⟨.wouldBlock, "resume ticket capacity is full"⟩)
      else
        match r.newNonce draws with
        | .error e => (r, .error e)
        | .ok nonce =>
          ((r.revokeSession scope.session).register nonce
            { endpoint := scope.endpoint, oldSession := scope.session, peerKey := scope.peerKey,
              protocolId := scope.protocol.protocolId, protocolVersion := scope.protocol.version,
              identity := identity, expires := now + ttl }, .ok (nonce.bytes ++ (r.sign nonce).bytes))

def authentic (ticket : Bytes) : Result (Nonce × TicketEntry) :=
  if ticket.length ≠ ticketLen then .error invalidTicket
  else
    let nonce := Nonce.read ticket 0
    if ticket.drop nonceLen ≠ (r.sign nonce).bytes then .error invalidTicket
    else
      match r.entries.lookup nonce with
      | none => .error invalidTicket
      | some entry => .ok (nonce, entry)

/-- Redeems a ticket once. -/
def consume (ticket : Bytes) (endpoint : Handle) (peerKey : Bytes) (protocol : SelectedProtocol)
    (now : Instant) : ResumeRegistry × Result ResumeClaim :=
  let r := r.prune now
  match r.authentic ticket with
  | .error e => (r, .error e)
  | .ok (nonce, entry) =>
    if entry.endpoint ≠ endpoint ∨ entry.peerKey ≠ peerKey ∨ entry.protocolId ≠ protocol.protocolId ∨
        entry.protocolVersion ≠ protocol.version ∨ entry.expires ≤ now then
      (r, .error invalidTicket)
    else (r.remove nonce, .ok ⟨entry.oldSession, entry.identity⟩)

/-- Version a ticket was issued for. -/
def pinnedVersion (ticket : Bytes) (endpoint : Handle) (peerKey : Bytes) (protocolId : UInt64)
    (now : Instant) : ResumeRegistry × Result UInt32 :=
  let r := r.prune now
  match r.authentic ticket with
  | .error e => (r, .error e)
  | .ok (_, entry) =>
    if entry.endpoint ≠ endpoint ∨ entry.peerKey ≠ peerKey ∨ entry.protocolId ≠ protocolId ∨
        entry.expires ≤ now then
      (r, .error invalidTicket)
    else (r, .ok entry.protocolVersion)

/-! ### One ticket for each session -/

/-- The index by session and the entries point at each other. -/
structure Linked (entries : Table Nonce TicketEntry) (bySession : Table Handle Nonce) : Prop where
  indexed : ∀ nonce entry, entries.lookup nonce = some entry →
    bySession.lookup entry.oldSession = some nonce
  owned : ∀ session nonce, bySession.lookup session = some nonce →
    ∃ entry, entries.lookup nonce = some entry ∧ entry.oldSession = session

/-- **The indices agree**: the one by session with the entries, and the one by expiry holds tickets
that expire then. -/
structure Coherent (r : ResumeRegistry) : Prop where
  linked : Linked r.entries r.bySession
  dated : ∀ at' bucket, r.expiries.lookup at' = some bucket → ∀ nonce ∈ bucket,
    ∃ entry, r.entries.lookup nonce = some entry ∧ entry.expires = at'

/-- A registry that only lost tickets of another. -/
structure Loses (r r' : ResumeRegistry) : Prop where
  sign : r'.sign = r.sign
  entries : Sub r'.entries r.entries
  coherent : Coherent r → Coherent r'

theorem Loses.refl : Loses r r := ⟨rfl, .refl _, id⟩

end

variable {r : ResumeRegistry}

theorem Loses.trans (h : Loses r r') (h' : Loses r' r'') : Loses r r'' :=
  ⟨h'.sign.trans h.sign, h'.entries.trans h.entries, h'.coherent ∘ h.coherent⟩

variable {nonce : Nonce} {entry : TicketEntry}

theorem Linked.erase {entries : Table Nonce TicketEntry} {bySession : Table Handle Nonce}
    (h : Linked entries bySession) (he : entries.lookup nonce = some entry) :
    Linked (entries.erase nonce) (bySession.erase entry.oldSession) where
  indexed other found hf := by
    rw [lookup_erase_ite] at hf
    split_ifs at hf with hn
    rw [lookup_erase_ite, if_neg, h.indexed other found hf]
    intro hs
    have hb := h.indexed nonce entry he
    rw [← hs, h.indexed other found hf] at hb
    exact hn (Option.some.inj hb)
  owned session other ho := by
    rw [lookup_erase_ite] at ho
    split_ifs at ho with hn
    obtain ⟨found, hf, hol⟩ := h.owned session other ho
    refine ⟨found, ?_, hol⟩
    rw [lookup_erase_ite, if_neg, hf]
    rintro rfl
    rw [he] at hf
    cases hf
    exact hn hol.symm

theorem lookup_unbucket {expiries : Table Instant (List Nonce)}
    (h : (unbucket expiries expires nonce).lookup at' = some bucket) :
    ∃ old, expiries.lookup at' = some old ∧
      ∀ n ∈ bucket, n ∈ old ∧ (at' = expires → n ≠ nonce) := by
  unfold unbucket at h
  split at h
  · rename_i hno
    exact ⟨bucket, h, fun n hn => ⟨hn, fun ha => by rw [ha, hno] at h; cases h⟩⟩
  rename_i old hol
  have ho : at' ≠ expires → expiries.lookup at' = some bucket → ∃ old,
      expiries.lookup at' = some old ∧ ∀ n ∈ bucket, n ∈ old ∧ (at' = expires → n ≠ nonce) :=
    fun hne hb => ⟨bucket, hb, fun n hn => ⟨hn, fun ha => absurd ha hne⟩⟩
  dsimp only at h
  split_ifs at h
  · rw [lookup_erase_ite] at h
    split_ifs at h with ha
    exact ho ha h
  · rw [lookup_insert_ite] at h
    split_ifs at h with ha
    · cases h
      refine ⟨old, ha ▸ hol, fun n hn => ?_⟩
      rw [List.mem_filter] at hn
      exact ⟨hn.1, fun _ => of_decide_eq_true hn.2⟩
    · exact ho ha h

theorem lookup_remove (r : ResumeRegistry) (nonce other : Nonce) :
    (r.remove nonce).entries.lookup other = if other = nonce then none else r.entries.lookup other := by
  unfold remove
  split
  · rename_i hn
    split_ifs with h
    · rw [h, hn]
    · rfl
  · exact lookup_erase_ite _ _ _

theorem loses_remove (r : ResumeRegistry) (nonce : Nonce) : Loses r (r.remove nonce) := by
  unfold remove
  split
  · exact .refl r
  rename_i entry he
  refine ⟨rfl, .erase _ _, fun h => ⟨h.linked.erase he, ?_⟩⟩
  intro at' bucket hb n hn
  obtain ⟨old, ho, hm⟩ := lookup_unbucket hb
  obtain ⟨found, hf, ha⟩ := h.dated at' old ho n (hm n hn).1
  refine ⟨found, ?_, ha⟩
  rw [lookup_erase_ite, if_neg, hf]
  rintro rfl
  rw [he] at hf
  cases hf
  exact (hm n hn).2 ha.symm rfl

theorem linked_dropEntries (l : List Nonce) (r : ResumeRegistry) (h : Linked r.entries r.bySession) :
    Linked (l.foldl dropEntry r).entries (l.foldl dropEntry r).bySession := by
  refine List.foldlRecOn (motive := fun r : ResumeRegistry => Linked r.entries r.bySession) l _ h
    fun r h nonce _ => ?_
  unfold dropEntry
  split
  · exact h
  · rename_i entry he
    exact h.erase he

theorem dropEntries_spec : ∀ (l : List Nonce) (r : ResumeRegistry),
    Purged l r.entries (l.foldl dropEntry r).entries ∧ (l.foldl dropEntry r).sign = r.sign ∧
      (l.foldl dropEntry r).expiries = r.expiries ∧
      (l.foldl dropEntry r).maxEntries = r.maxEntries
  | [], r => ⟨.refl _, rfl, rfl, rfl⟩
  | nonce :: l, r => by
    obtain ⟨hen, hs, he, hm⟩ := dropEntries_spec l (r.dropEntry nonce)
    have hf : Purged [nonce] r.entries (r.dropEntry nonce).entries ∧
        (r.dropEntry nonce).sign = r.sign ∧ (r.dropEntry nonce).expiries = r.expiries ∧
        (r.dropEntry nonce).maxEntries = r.maxEntries := by
      unfold dropEntry
      split
      · rename_i hn
        refine ⟨fun other => ?_, rfl, rfl, rfl⟩
        split_ifs with h
        · rw [List.mem_singleton.mp h, hn]
        · rfl
      · exact ⟨.erase _ _, rfl, rfl, rfl⟩
    exact ⟨hf.1.trans hen, hs.trans hf.2.1, he.trans hf.2.2.1,
      hm.trans hf.2.2.2⟩

def expired (r : ResumeRegistry) (now : Instant) : List Nonce :=
  ((filter r.expiries fun at' _ => at' ≤ now).entries.map Sigma.snd).flatten

theorem purged_prune (r : ResumeRegistry) (now : Instant) :
    Purged (r.expired now) r.entries (r.prune now).entries :=
  (dropEntries_spec (r.expired now) { r with expiries := filter r.expiries fun at' _ => now < at' }).1

theorem Coherent.of_expired (h : Coherent r) (hn : nonce ∈ r.expired now) :
    ∃ entry, r.entries.lookup nonce = some entry ∧ entry.expires ≤ now := by
  obtain ⟨bucket, hb, hm⟩ := List.mem_flatten.mp hn
  obtain ⟨⟨at', bucket'⟩, he, rfl⟩ := List.mem_map.mp hb
  have hl := lookup_eq_some_iff.mpr he
  rw [lookup_filter, Option.filter_eq_some_iff] at hl
  obtain ⟨entry, hf, ha⟩ := h.dated at' bucket' hl.1 nonce hm
  exact ⟨entry, hf, ha ▸ of_decide_eq_true hl.2⟩

/-- Unexpired tickets stay. -/
def Spares (now : Instant) (r r' : ResumeRegistry) : Prop :=
  ∀ nonce entry, r.entries.lookup nonce = some entry → now < entry.expires →
    r'.entries.lookup nonce = some entry

theorem spares_prune (h : Coherent r) (now : Instant) : Spares now r (r.prune now) := by
  intro nonce entry he hl
  rw [(purged_prune r now).kept, he]
  intro hex
  obtain ⟨found, hf, hp⟩ := h.of_expired hex
  rw [he] at hf
  cases hf
  exact absurd hl (Nat.not_lt.mpr hp)

theorem loses_prune (r : ResumeRegistry) (now : Instant) : Loses r (r.prune now) := by
  obtain ⟨hp, hs, he, -⟩ :=
    dropEntries_spec (r.expired now) { r with expiries := filter r.expiries fun at' _ => now < at' }
  refine ⟨hs, hp.sub, fun h => ⟨linked_dropEntries _ _ h.linked, ?_⟩⟩
  intro at' bucket hb nonce hn
  have ho : (filter r.expiries fun at' _ => now < at').lookup at' = some bucket := by
    rw [← hb]
    exact congrArg (AList.lookup at') he.symm
  rw [lookup_filter, Option.filter_eq_some_iff] at ho
  obtain ⟨entry, hen, ha⟩ := h.dated at' bucket ho.1 nonce hn
  exact ⟨entry, spares_prune h now nonce entry hen (ha ▸ of_decide_eq_true ho.2), ha⟩

theorem loses_revokeSession (r : ResumeRegistry) (session : Handle) :
    Loses r (r.revokeSession session) := by
  unfold revokeSession
  split
  · exact .refl r
  · exact loses_remove r _

theorem loses_revokeEndpoint (r : ResumeRegistry) (endpoint : Handle) :
    Loses r (r.revokeEndpoint endpoint) :=
  List.foldlRecOn _ _ (.refl r) fun s h nonce _ => h.trans (loses_remove s nonce)

theorem loses_revokeTicket (r : ResumeRegistry) (ticket : Bytes) :
    Loses r (r.revokeTicket ticket) := by
  unfold revokeTicket
  split_ifs
  · exact .refl r
  · exact loses_remove r _

theorem coherent_empty (sign : Nonce → Tag) (maxEntries : ℕ) :
    Coherent ⟨sign, maxEntries, ∅, ∅, ∅⟩ where
  linked := ⟨fun _ _ h => (nomatch (AList.lookup_empty _).symm.trans h),
    fun _ _ h => (nomatch (AList.lookup_empty _).symm.trans h)⟩
  dated _ _ h := nomatch (AList.lookup_empty _).symm.trans h

theorem loses_clear (r : ResumeRegistry) : Loses r r.clear :=
  ⟨rfl, .empty _, fun _ => coherent_empty r.sign r.maxEntries⟩

def Without (r : ResumeRegistry) (session : Handle) : Prop :=
  ∀ nonce entry, r.entries.lookup nonce = some entry → entry.oldSession ≠ session

theorem Without.loses (h : Without r session) (hl : Loses r r') : Without r' session :=
  fun nonce entry he => h nonce entry (hl.entries nonce entry he)

theorem Coherent.without (h : Coherent r) (hn : r.bySession.lookup session = none) :
    Without r session := by
  rintro nonce entry he rfl
  rw [h.linked.indexed nonce entry he] at hn
  cases hn

/-- **Revoking a session takes out its tickets and no other.** -/
theorem lookup_revokeSession (h : Coherent r) (session : Handle) (nonce : Nonce)
    (entry : TicketEntry) : (r.revokeSession session).entries.lookup nonce = some entry ↔
      r.entries.lookup nonce = some entry ∧ entry.oldSession ≠ session := by
  unfold revokeSession
  split
  · rename_i hn
    exact ⟨fun he => ⟨he, h.without hn nonce entry he⟩, And.left⟩
  rename_i own ho
  obtain ⟨mine, hm, hs⟩ := h.linked.owned session own ho
  rw [lookup_remove]
  split_ifs with heq
  · rw [heq, hm]
    exact ⟨nofun, fun hb => absurd (Option.some.inj hb.1 ▸ hs) hb.2⟩
  refine ⟨fun he => ⟨he, ?_⟩, And.left⟩
  rintro rfl
  have hi := h.linked.indexed nonce entry he
  rw [ho] at hi
  exact heq (Option.some.inj hi).symm

theorem without_revokeSession (h : Coherent r) (session : Handle) :
    Without (r.revokeSession session) session :=
  fun nonce entry he => ((lookup_revokeSession h session nonce entry).mp he).2

theorem coherent_register (h : Coherent r) (hfr : r.entries.lookup nonce = none)
    (hwi : Without r entry.oldSession) : Coherent (r.register nonce entry) where
  linked := {
    indexed := by
      intro other found hf
      change (r.entries.insert nonce entry).lookup other = some found at hf
      change (r.bySession.insert entry.oldSession nonce).lookup found.oldSession = some other
      rw [lookup_insert_ite] at hf ⊢
      split_ifs at hf with heq
      · cases hf
        rw [if_pos rfl, heq]
      · rw [if_neg (hwi other found hf)]
        exact h.linked.indexed other found hf
    owned := by
      intro session other ho
      change (r.bySession.insert entry.oldSession nonce).lookup session = some other at ho
      change ∃ found, (r.entries.insert nonce entry).lookup other = some found ∧ _
      rw [lookup_insert_ite] at ho
      split_ifs at ho with heq
      · cases ho
        exact ⟨entry, AList.lookup_insert _, heq.symm⟩
      obtain ⟨found, hf, hol⟩ := h.linked.owned session other ho
      refine ⟨found, ?_, hol⟩
      rw [lookup_insert_ite, if_neg, hf]
      rintro rfl
      rw [hfr] at hf
      cases hf }
  dated := by
    have hk : ∀ n found, r.entries.lookup n = some found →
        (r.entries.insert nonce entry).lookup n = some found := by
      intro n found hf
      rw [lookup_insert_ite, if_neg, hf]
      rintro rfl
      rw [hfr] at hf
      cases hf
    intro at' bucket hb n hn
    change (r.expiries.insert entry.expires _).lookup at' = some bucket at hb
    rw [lookup_insert_ite] at hb
    split_ifs at hb with ha
    · cases hb
      rcases List.mem_cons.mp hn with rfl | hn
      · exact ⟨entry, AList.lookup_insert _, ha.symm⟩
      have hol := List.mem_of_mem_filter hn
      rcases hex : r.expiries.lookup entry.expires with - | old
      · rw [hex] at hol
        exact absurd hol List.not_mem_nil
      rw [hex] at hol
      obtain ⟨found, hf, he⟩ := h.dated _ old hex n hol
      exact ⟨found, hk n found hf, he.trans ha.symm⟩
    · obtain ⟨found, hf, he⟩ := h.dated at' bucket hb n hn
      exact ⟨found, hk n found hf, he⟩

theorem tryDraws_fresh (r : ResumeRegistry) : ∀ (l : List (Option Nonce)),
    r.tryDraws l = .ok nonce → r.entries.lookup nonce = none
  | [], h | none :: _, h => nomatch h
  | some n :: l, h => by
    unfold tryDraws at h
    split_ifs at h with hn
    · cases h
      exact Option.isNone_iff_eq_none.mp hn
    · exact tryDraws_fresh r l h

/-- The session has a ticket that is still good. -/
def Holds (r : ResumeRegistry) (session : Handle) (now : Instant) : Prop :=
  ∃ nonce entry, r.entries.lookup nonce = some entry ∧ entry.oldSession = session ∧
    now < entry.expires

/-- One of the four draws is a new nonce and those before it were taken. -/
def Draws (r : ResumeRegistry) (draws : ℕ → Option Nonce) : Prop :=
  ∃ i < 4, (∃ nonce, draws i = some nonce ∧ r.entries.lookup nonce = none) ∧
    ∀ j < i, ∃ nonce, draws j = some nonce ∧ r.entries.lookup nonce ≠ none

/-- What a request must satisfy for a ticket to be registered, the storage apart. -/
structure Valid (scope : ResumeScope) (identity : Bytes) (ttl : ℕ) : Prop where
  endpoint : scope.endpoint ≠ 0
  session : scope.session ≠ 0
  protocol : scope.protocol.isValid = true
  nonempty : identity ≠ []
  short : identity.length ≤ maxIdentityLen
  ttl : 0 < ttl ∧ ttl ≤ maxTtl

def entryFor (scope : ResumeScope) (identity : Bytes) (expires : Instant) : TicketEntry where
  endpoint := scope.endpoint
  oldSession := scope.session
  peerKey := scope.peerKey
  protocolId := scope.protocol.protocolId
  protocolVersion := scope.protocol.version
  identity := identity
  expires := expires

/-- What issuing does: it only prunes, or it registers one for the session it was asked for. -/
theorem issue_cases (r : ResumeRegistry) (scope : ResumeScope) (identity : Bytes) (now : Instant)
    (ttl : ℕ) (draws : ℕ → Option Nonce) :
    (∃ e, (r.issue scope identity now ttl draws).2 = .error e ∧
      ((r.issue scope identity now ttl draws).1 = r ∨
        (r.issue scope identity now ttl draws).1 = r.prune now)) ∨
    ∃ nonce, Valid scope identity ttl ∧ (r.prune now).newNonce draws = .ok nonce ∧
      (r.issue scope identity now ttl draws).1 = ((r.prune now).revokeSession scope.session).register
        nonce (entryFor scope identity (now + ttl)) ∧
      (r.issue scope identity now ttl draws).2 =
        .ok (nonce.bytes ++ ((r.prune now).sign nonce).bytes) := by
  unfold issue
  split_ifs with hs
  · exact .inl ⟨_, rfl, .inl rfl⟩
  split
  · exact .inl ⟨_, rfl, .inl rfl⟩
  rename_i ht
  dsimp only
  split_ifs
  · exact .inl ⟨_, rfl, .inr rfl⟩
  split
  · exact .inl ⟨_, rfl, .inr rfl⟩
  rename_i nonce hn
  refine .inr ⟨nonce, ?_, hn, rfl, rfl⟩
  simp only [not_or, Bool.not_eq_false] at hs
  have hr : ¬(ttl = 0 ∨ maxTtl < ttl) := by
    intro hb
    unfold validateTtl at ht
    rw [if_pos hb] at ht
    cases ht
  exact ⟨hs.1, hs.2.1, hs.2.2.1, hs.2.2.2.1, Nat.not_lt.mp hs.2.2.2.2,
    by omega, by omega⟩

theorem tryDraws_iff (r : ResumeRegistry) : ∀ l : List (Option Nonce),
    (∃ nonce, r.tryDraws l = .ok nonce) ↔
      ∃ i < l.length, (∃ nonce, l[i]? = some (some nonce) ∧ r.entries.lookup nonce = none) ∧
        ∀ j < i, ∃ nonce, l[j]? = some (some nonce) ∧ r.entries.lookup nonce ≠ none
  | [] => by
    constructor
    · rintro ⟨nonce, h⟩
      cases h
    · rintro ⟨i, hi, -⟩
      exact absurd hi (Nat.not_lt_zero i)
  | none :: l => by
    constructor
    · rintro ⟨nonce, h⟩
      cases h
    rintro ⟨i, -, ⟨nonce, hd, -⟩, hb⟩
    rcases i with - | i
    · cases hd
    · obtain ⟨nonce, hfi, -⟩ := hb 0 (Nat.succ_pos i)
      cases hfi
  | some first :: l => by
    unfold tryDraws
    split_ifs with hf
    · rw [Option.isNone_iff_eq_none] at hf
      exact iff_of_true ⟨first, rfl⟩ ⟨0, Nat.succ_pos _, ⟨first, rfl, hf⟩, nofun⟩
    rw [Option.isNone_iff_eq_none] at hf
    rw [tryDraws_iff r l]
    constructor
    · rintro ⟨i, hi, hd, hb⟩
      refine ⟨i + 1, Nat.succ_lt_succ hi, hd, ?_⟩
      intro j hj
      rcases j with - | j
      · exact ⟨first, rfl, hf⟩
      · exact hb j (Nat.lt_of_succ_lt_succ hj)
    · rintro ⟨i, hi, ⟨nonce, hd, hn⟩, hb⟩
      rcases i with - | i
      · cases hd
        exact absurd hn hf
      · exact ⟨i, Nat.lt_of_succ_lt_succ hi, ⟨nonce, hd, hn⟩,
          fun j hj => hb (j + 1) (Nat.succ_lt_succ hj)⟩

theorem newNonce_iff (r : ResumeRegistry) (draws : ℕ → Option Nonce) :
    (∃ nonce, r.newNonce draws = .ok nonce) ↔ Draws r draws := by
  have hd : ∀ i < 4, ∀ nonce,
      ((List.range 4).map draws)[i]? = some (some nonce) ↔ draws i = some nonce := by
    intro i hi nonce
    rw [List.getElem?_map, List.getElem?_range hi, Option.map_some, Option.some_inj]
  unfold newNonce
  rw [tryDraws_iff, List.length_map, List.length_range]
  refine exists_congr fun i => and_congr_right fun hi => and_congr ?_ ?_
  · exact exists_congr fun nonce => and_congr_left fun _ => hd i hi nonce
  · refine forall₂_congr fun j hj => exists_congr fun nonce => and_congr_left fun _ => ?_
    exact hd j (Nat.lt_trans hj hi) nonce

theorem issue_registers (hv : Valid scope identity ttl) (hd : Draws (r.prune now) draws)
    (hi : ((r.prune now).bySession.lookup scope.session).isSome) :
    ∃ ticket, (r.issue scope identity now ttl draws).2 = .ok ticket := by
  obtain ⟨nonce, hn⟩ := (newNonce_iff _ _).mpr hd
  have hs : ¬(scope.endpoint = 0 ∨ scope.session = 0 ∨ scope.protocol.isValid = false ∨
      identity = [] ∨ maxIdentityLen < identity.length) := by
    simp only [not_or, Bool.not_eq_false, Nat.not_lt]
    exact ⟨hv.endpoint, hv.session, hv.protocol, hv.nonempty, hv.short⟩
  have ht : validateTtl ttl = .ok () := by
    unfold validateTtl
    have hra := hv.ttl
    rw [if_neg (by omega)]
  have hr : ¬((r.prune now).maxEntries ≤ size (r.prune now).entries ∧
      ((r.prune now).bySession.lookup scope.session).isNone = true) := by
    rintro ⟨-, hno⟩
    rw [Option.isNone_iff_eq_none.mp hno] at hi
    cases hi
  unfold issue
  rw [if_neg hs, ht]
  rw [if_neg hr, hn]
  exact ⟨_, rfl⟩

theorem newNonce_fresh (h : r.newNonce draws = .ok nonce) : r.entries.lookup nonce = none :=
  tryDraws_fresh r _ h

theorem issue_frame (r : ResumeRegistry) (scope : ResumeScope) (identity : Bytes) (now : Instant)
    (ttl : ℕ) (draws : ℕ → Option Nonce) :
    (∃ e, (r.issue scope identity now ttl draws).2 = .error e ∧
      Loses r (r.issue scope identity now ttl draws).1) ∨
    ∃ (nonce : Nonce) (tag : Tag) (entry : TicketEntry) (r' : ResumeRegistry), Loses r r' ∧
      entry.oldSession = scope.session ∧ (Coherent r → Without r' scope.session) ∧
      r'.entries.lookup nonce = none ∧
      (r.issue scope identity now ttl draws).1 = r'.register nonce entry ∧
      (r.issue scope identity now ttl draws).2 = .ok (nonce.bytes ++ tag.bytes) := by
  have hp := loses_prune r now
  rcases issue_cases r scope identity now ttl draws with ⟨e, he, hs | hpr⟩ |
    ⟨nonce, -, hn, hre, ht⟩
  · refine .inl ⟨e, he, ?_⟩
    rw [hs]
    exact .refl r
  · refine .inl ⟨e, he, ?_⟩
    rw [hpr]
    exact hp
  · have hr := loses_revokeSession (r.prune now) scope.session
    exact .inr ⟨nonce, _, _, _, hp.trans hr, rfl,
      fun h => without_revokeSession (hp.coherent h) _,
      hr.entries.lookup_none (newNonce_fresh hn), hre, ht⟩

theorem revokeTicket_append (r : ResumeRegistry) (nonce : Nonce) (tag : Tag) :
    r.revokeTicket (nonce.bytes ++ tag.bytes) = r.remove nonce := by
  have hr : Nonce.read (nonce.bytes ++ tag.bytes) 0 = nonce := Nonce.read_append [] _ _
  unfold revokeTicket
  rw [if_neg, hr]
  simp [nonce.length_eq, tag.length_eq, ticketLen, nonceLen]

theorem lookup_remove_register (hf : r.entries.lookup nonce = none) (entry : TicketEntry)
    (other : Nonce) :
    ((r.register nonce entry).remove nonce).entries.lookup other = r.entries.lookup other := by
  rw [lookup_remove]
  change (if other = nonce then none else (r.entries.insert nonce entry).lookup other) = _
  rw [lookup_insert_ite]
  split_ifs with he
  · rw [he, hf]
  · rfl

theorem authentic_eq_ok :
    r.authentic ticket = .ok (nonce, entry) ↔ ticket.length = ticketLen ∧ nonce = .read ticket 0 ∧
      ticket.drop nonceLen = (r.sign nonce).bytes ∧ r.entries.lookup nonce = some entry := by
  unfold authentic
  dsimp only
  constructor
  · intro h
    split_ifs at h with hl ht
    split at h
    · cases h
    rename_i he
    cases h
    exact ⟨not_not.mp hl, rfl, not_not.mp ht, he⟩
  · rintro ⟨hl, rfl, ht, he⟩
    rw [if_neg (not_not.mpr hl), if_neg (not_not.mpr ht), he]

/-- **What a ticket is good for**: a ticket is redeemed when it is authentic, its entry is there, is
bound to the endpoint, key and version presented, and has not expired. -/
theorem consume_eq_ok (h : Coherent r) (ticket : Bytes) (endpoint : Handle) (peerKey : Bytes)
    (protocol : SelectedProtocol) (now : Instant) (claim : ResumeClaim) :
    (r.consume ticket endpoint peerKey protocol now).2 = .ok claim ↔
      ∃ nonce entry, r.authentic ticket = .ok (nonce, entry) ∧ entry.endpoint = endpoint ∧
        entry.peerKey = peerKey ∧ entry.protocolId = protocol.protocolId ∧
        entry.protocolVersion = protocol.version ∧ now < entry.expires ∧
        claim = ⟨entry.oldSession, entry.identity⟩ := by
  have hp := loses_prune r now
  have hs : ∀ nonce entry, (r.prune now).authentic ticket = .ok (nonce, entry) →
      r.authentic ticket = .ok (nonce, entry) := by
    intro nonce entry ha
    obtain ⟨hl, hn, ht, hen⟩ := authentic_eq_ok.mp ha
    exact authentic_eq_ok.mpr ⟨hl, hn, hp.sign ▸ ht, hp.entries _ _ hen⟩
  have hli : ∀ nonce entry, r.authentic ticket = .ok (nonce, entry) → now < entry.expires →
      (r.prune now).authentic ticket = .ok (nonce, entry) := by
    intro nonce entry ha he
    obtain ⟨hl, hn, ht, hen⟩ := authentic_eq_ok.mp ha
    refine authentic_eq_ok.mpr ⟨hl, hn, ?_, spares_prune h now _ _ hen he⟩
    rw [hp.sign]
    exact ht
  unfold consume
  dsimp only
  constructor
  · intro hc
    split at hc
    · cases hc
    rename_i nonce entry ha
    split_ifs at hc with hb
    simp only [not_or, not_not, Nat.not_le] at hb
    cases hc
    exact ⟨nonce, entry, hs nonce entry ha, hb.1, hb.2.1, hb.2.2.1, hb.2.2.2.1,
      hb.2.2.2.2, rfl⟩
  · rintro ⟨nonce, entry, ha, h1, h2, h3, h4, he, rfl⟩
    rw [hli nonce entry ha he]
    dsimp only
    rw [if_neg]
    simp only [not_or, not_not, Nat.not_le]
    exact ⟨h1, h2, h3, h4, he⟩

theorem consume_cases (r : ResumeRegistry) (ticket : Bytes) (endpoint : Handle) (peerKey : Bytes)
    (protocol : SelectedProtocol) (now : Instant) :
    Loses r (r.consume ticket endpoint peerKey protocol now).1 ∧
      ∀ claim, (r.consume ticket endpoint peerKey protocol now).2 = .ok claim →
        ∃ nonce entry, r.entries.lookup nonce = some entry ∧ entry.oldSession = claim.oldSession ∧
          entry.protocolVersion = protocol.version := by
  have hp := loses_prune r now
  unfold consume
  dsimp only
  split
  · exact ⟨hp, nofun⟩
  rename_i nonce entry ha
  have he := (authentic_eq_ok.mp ha).2.2.2
  split_ifs with hb
  · exact ⟨hp, nofun⟩
  refine ⟨hp.trans (loses_remove _ _), ?_⟩
  intro claim hc
  cases hc
  simp only [not_or, not_not] at hb
  exact ⟨nonce, entry, hp.entries _ _ he, rfl, hb.2.2.2.1⟩

end ResumeRegistry

end Rnet.Game.Resume
