import Rnet.Protocol.Records

/-! # Addresses and runtime limits

The limits of a runtime and the check it must pass before anything starts. Fields that no modelled
function reads (worker threads, socket options, name resolution) take part in the check only. -/

namespace Rnet.Transport.Config

open Rnet.Core

/-- Addresses of both families. -/
inductive IpAddr
  | v4 (octets : BitVec 32)
  | v6 (octets : BitVec 128)
  deriving DecidableEq

/-- Address and port. -/
structure SocketAddr where
  ip : IpAddr
  port : BitVec 16
  deriving DecidableEq

/-- When a server rekeys on its own, and whether it may leave business data unprotected. -/
structure SecurityPolicy where
  allowPlaintextBusinessData : Bool
  rekeyAfter : Option ℕ
  rekeyAfterBytes : Option ℕ
  deriving DecidableEq

/-- Policy of production: rekey after an hour or a gibibyte. -/
def SecurityPolicy.production : SecurityPolicy := ⟨false, some 3600000, some (1024 * 1024 * 1024)⟩

/-- Limits of one runtime; durations are in milliseconds. -/
structure RuntimeConfig where
  workerThreads : ℕ
  eventQueueCapacity : ℕ
  writeQueueCapacity : ℕ
  maxBodyLen : ℕ
  maxDatagramSize : ℕ
  maxEventBytes : ℕ
  maxRuntimeQueuedBytes : ℕ
  maxSessionQueuedBytes : ℕ
  securityPolicy : SecurityPolicy
  maxEndpoints : ℕ
  maxPendingHandshakes : ℕ
  maxSessionsPerEndpoint : ℕ
  maxSessionsPerIp : ℕ
  handshakeRatePerIp : ℕ
  handshakeBurstPerIp : ℕ
  ipv6AdmissionPrefixBits : ℕ
  handshakeTimeout : ℕ
  connectTimeout : ℕ
  dnsTimeout : ℕ
  tcpSendBufferBytes : Option ℕ
  tcpRecvBufferBytes : Option ℕ
  datagramIdleTimeout : ℕ
  deriving DecidableEq

/-- Defaults of production. -/
def RuntimeConfig.production : RuntimeConfig where
  workerThreads := 1
  eventQueueCapacity := 4096
  writeQueueCapacity := 256
  maxBodyLen := 1024 * 1024
  maxDatagramSize := 1200
  maxEventBytes := 64 * 1024 * 1024
  maxRuntimeQueuedBytes := 256 * 1024 * 1024
  maxSessionQueuedBytes := 4 * 1024 * 1024
  securityPolicy := .production
  maxEndpoints := 1024
  maxPendingHandshakes := 16384
  maxSessionsPerEndpoint := 16384
  maxSessionsPerIp := 256
  handshakeRatePerIp := 100
  handshakeBurstPerIp := 200
  ipv6AdmissionPrefixBits := 64
  handshakeTimeout := 5000
  connectTimeout := 5000
  dnsTimeout := 5000
  tcpSendBufferBytes := none
  tcpRecvBufferBytes := none
  datagramIdleTimeout := 120000

/-- `validate`. `clockRoom` is how far the monotonic clock can still be advanced: a duration beyond
it forms no deadline. -/
def RuntimeConfig.validate (c : RuntimeConfig) (clockRoom : ℕ) : Result Unit :=
  if c.workerThreads = 0 ∨ c.eventQueueCapacity = 0 ∨ c.writeQueueCapacity = 0 ∨
      c.maxBodyLen = 0 ∨ u32Max < c.maxBodyLen ∨ c.maxDatagramSize < 20 ∨
      65507 < c.maxDatagramSize ∨ c.maxEventBytes = 0 ∨ c.maxRuntimeQueuedBytes = 0 ∨
      c.maxSessionQueuedBytes = 0 ∨ c.maxRuntimeQueuedBytes < c.maxSessionQueuedBytes ∨
      c.maxEndpoints = 0 ∨ c.maxPendingHandshakes = 0 ∨ c.maxSessionsPerEndpoint = 0 ∨
      c.maxSessionsPerIp = 0 ∨ c.handshakeRatePerIp = 0 ∨ c.handshakeBurstPerIp = 0 ∨
      128 < c.ipv6AdmissionPrefixBits ∨
      c.handshakeTimeout = 0 ∨ clockRoom < c.handshakeTimeout ∨
      c.connectTimeout = 0 ∨ clockRoom < c.connectTimeout ∨
      c.dnsTimeout = 0 ∨ clockRoom < c.dnsTimeout ∨
      c.tcpSendBufferBytes = some 0 ∨ c.tcpRecvBufferBytes = some 0 ∨
      c.datagramIdleTimeout = 0 ∨ clockRoom < c.datagramIdleTimeout ∨
      (∃ d ∈ c.securityPolicy.rekeyAfter, d = 0 ∨ clockRoom < d) ∨
      c.securityPolicy.rekeyAfterBytes = some 0 then
    .error ⟨.invalidArgument, "invalid runtime capacity or size limit"⟩
  else .ok ()

/-- The limits a validated configuration guarantees to the send path. -/
structure RuntimeConfig.Limits (c : RuntimeConfig) : Prop where
  body_pos : 0 < c.maxBodyLen
  body_le : c.maxBodyLen ≤ u32Max
  datagram_ge : 20 ≤ c.maxDatagramSize
  datagram_le : c.maxDatagramSize ≤ 65507
  session_pos : 0 < c.maxSessionQueuedBytes
  session_le : c.maxSessionQueuedBytes ≤ c.maxRuntimeQueuedBytes
  pending_pos : 0 < c.maxPendingHandshakes

theorem RuntimeConfig.limits_of_validate {c : RuntimeConfig} (h : c.validate room = .ok ()) :
    c.Limits := by
  unfold validate at h
  split_ifs at h with hc
  push Not at hc
  exact ⟨by omega, by omega, by omega, by omega, by omega, by omega, by omega⟩

end Rnet.Transport.Config
