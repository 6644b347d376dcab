import Rnet.Security.Cipher

/-! # The two handshake roles

The client pins the server key before it starts and may finish only after the second message proved
that key; the server answers any readable first message and learns the client key from the third.
A handshake is its identity, its randomness and the messages it has read, so every message it writes
and the keys it ends with are functions of these. -/

namespace Rnet.Security.Handshake

open Lib.BigEndian Cipher

variable {N : Noise}

/-- State of the client in the handshake. -/
structure InitiatorHandshake (N : Noise) where
  identity : N.Identity
  seed : N.Seed
  expectedPeerPublic : Bytes
  response : Option Bytes
  deriving DecidableEq

namespace InitiatorHandshake

/-- A client that pins the key of the server. -/
def new (identity : N.Identity) (seed : N.Seed) (expectedPeerPublic : Bytes) :
    Except SecurityError (InitiatorHandshake N) :=
  if expectedPeerPublic.length ≠ 32 then .error .peerKeyMismatch
  else .ok ⟨identity, seed, expectedPeerPublic, none⟩

/-- First message of the handshake. -/
def writeFirst (h : InitiatorHandshake N) : Bytes := N.first h.identity h.seed

/-- `read_response`: the second message must answer the first and prove the pinned key. -/
def readResponse (h : InitiatorHandshake N) (message : Bytes) :
    Except SecurityError (InitiatorHandshake N) :=
  match N.readResponse h.identity h.seed message with
  | none => .error .crypto
  | some peer =>
    if peer ≠ h.expectedPeerPublic then .error .peerKeyMismatch
    else .ok { h with response := some message }

/-- Last message, with the join payload inside. -/
def finishDatagram (h : InitiatorHandshake N) (join : Bytes) :
    Except SecurityError (Bytes × DatagramTransport N) :=
  match h.response with
  | none => .error .invalidState
  | some response =>
    match N.finish h.identity h.seed response join with
    | none => .error .crypto
    | some message => .ok (message, .ofKeys (N.initiatorKeys h.identity h.seed response))

theorem length_finishDatagram (sizes : N.HandshakeSizes) {h h' : InitiatorHandshake N}
    (hr : h.readResponse message = .ok h') (hf : h'.finishDatagram join = .ok (finish, t)) :
    finish.length = 48 + 16 + join.length := by
  unfold readResponse at hr
  split at hr
  · cases hr
  rename_i peer hp
  split_ifs at hr
  cases hr
  unfold finishDatagram at hf
  dsimp only at hf
  split at hf
  · cases hf
  rename_i sealed hs
  cases hf
  exact sizes.length_finish hp hs

end InitiatorHandshake

/-- State of the server in the handshake. -/
structure ResponderHandshake (N : Noise) where
  identity : N.Identity
  seed : N.Seed
  first : Option Bytes
  deriving DecidableEq

namespace ResponderHandshake

/-- A server that waits for the first message. -/
def new (identity : N.Identity) (seed : N.Seed) : ResponderHandshake N := ⟨identity, seed, none⟩

/-- Takes the first message. -/
def readFirst (h : ResponderHandshake N) (message : Bytes) :
    Except SecurityError (ResponderHandshake N) :=
  if N.readFirst message then .ok { h with first := some message } else .error .crypto

/-- Second message of the handshake. -/
def writeResponse (h : ResponderHandshake N) : Except SecurityError Bytes :=
  match h.first with
  | none => .error .crypto
  | some first => .ok (N.response h.identity h.seed first)

/-- Opens the last message: key of the client, join payload and keys. -/
def finishDatagram (h : ResponderHandshake N) (message : Bytes) :
    Except SecurityError (Bytes × Bytes × DatagramTransport N) :=
  match h.first with
  | none => .error .crypto
  | some first =>
    match N.readFinish h.identity h.seed first message with
    | none => .error .crypto
    | some (join, peer) =>
      .ok (join, peer, .ofKeys (N.responderKeys h.identity h.seed first message))

theorem length_writeResponse (sizes : N.HandshakeSizes) {h h' : ResponderHandshake N}
    (hr : h.readFirst message = .ok h') (hwr : h'.writeResponse = .ok response) :
    response.length = 32 + 48 + 16 := by
  unfold readFirst at hr
  split_ifs at hr with hf
  cases hr
  cases hwr
  exact sizes.length_response _ _ _ hf

end ResponderHandshake

end Rnet.Security.Handshake
