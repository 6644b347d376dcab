import Rnet.Security.TagNoise
import Rnet.Transport.Worker

/-! # A client that joins a server

The inputs a server endpoint takes while one client joins: the hello with a valid cookie, the two
handshake messages of the client, the application's decision and the tick that carries it out. -/

namespace Rnet.Transport.Joining

open Rnet.Core Lib.BigEndian Protocol.Records Security.Cipher Security.Controller
open Security.TagNoise Config Slots KcpPreflight Worker

variable {N : Noise}

def calm (a : SocketAddr) (now : Instant) (seed : N.Seed) : Call N where
  peer := a
  now := now
  sendOk := true
  sendError := ""
  eventRoom := true
  admission := true
  seed := seed
  cookieValid := fun _ => true
  cookieIssue := ⟨List.replicate cookieLen 7, List.length_replicate⟩
  others := ⟨0, 0, 0, 0, 0⟩

/-- A record arrives and is served; on KCP the packet completes it and acknowledges everything. -/
def arrive (kind : Transport) (call : Call N) (bytes : Bytes) : List (Input N) :=
  [.datagram call (if kind = .kcp then [] else bytes) ⟨.ok (), .ok (), 0, false, [bytes]⟩, .serve call]

/-- Who joins: the server's and the client's identity and randomness and the join payload. -/
structure Pair (N : Noise) where
  server : N.Identity
  serverSeed : N.Seed
  client : N.Identity
  clientSeed : N.Seed
  join : Bytes

def Pair.finish (p : Pair N) : Bytes :=
  (N.finish p.client p.clientSeed
    (N.response p.server p.serverSeed (N.first p.client p.clientSeed)) p.join).getD []

def Pair.clientTransport (p : Pair N) : DatagramTransport N :=
  .ofKeys (N.initiatorKeys p.client p.clientSeed
    (N.response p.server p.serverSeed (N.first p.client p.clientSeed)))

/-- A client at `a` joins and the application accepts its session. -/
def joinInputs (kind : Transport) (p : Pair N) (a : SocketAddr) (now : Instant)
    (session : Handle) : List (Input N) :=
  let call := calm a now p.serverSeed
  let cookie := List.replicate cookieLen 0
  (if kind = .kcp then
    [.datagram call (encodeHello 1 cookie) ⟨.ok (), .ok (), 0, false, []⟩] else []) ++
    arrive kind call (recordBytes ⟨.clientHello, 0, cookie⟩) ++
    arrive kind call (recordBytes ⟨.handshake, 0, N.first p.client p.clientSeed⟩) ++
    arrive kind call (recordBytes ⟨.handshake, 0, p.finish⟩) ++
    [.authDecide session true, .driveServer call]

/-! ### One server and one client -/

def server (kind : Transport) : Setup tagNoise :=
  ⟨1, kind, .adaptiveServer (7 : UInt64) .encrypted, none⟩

def home : SocketAddr := ⟨.v4 1, 1⟩

def visitor : Pair tagNoise := ⟨(7 : UInt64), (9 : UInt64), (3 : UInt64), (5 : UInt64), [1]⟩

def joined (kind : Transport) (config : RuntimeConfig) : Endpoint tagNoise :=
  (machine (server kind)).run (.server config) (joinInputs kind visitor home 0 1)

def controllerOf (ep : Endpoint N) (a : SocketAddr) : Option SecurityController :=
  match (ep.slot a).peer with
  | some (.established _ _ c _ _ _) => some c
  | _ => none

example : ∀ kind ∈ [Transport.udp, .kcp],
    controllerOf (joined kind .production) home = some (.new .server .encrypted initialEpoch) := by
  decide +kernel

end Rnet.Transport.Joining
