import ReusePort.Core.Net

/-!
# ReusePort.Core.Schedule — the userspace load balancer

`linuxReuseportSelect` (`core/schedule.rs`) is the FNV-1a hash of the two
addresses of a packet, reduced modulo the worker count. The TCP fallback
reserves worker 0, which runs the accept loop, as soon as there is another one
(`selectSimulatedTcpWorker`, `core/tcp.rs`).

* `linuxReuseportSelect_lt`, `selectSimulatedTcpWorker_lt` — with at least one
  worker both answer, and the answer is a worker.
-/

namespace ReusePort

def FNV_OFFSET : UInt64 := 0xcbf29ce484222325
def FNV_PRIME : UInt64 := 0x100000001b3

/-- `write_u8`; the multiplication wraps. -/
def writeU8 (hash : UInt64) (value : UInt8) : UInt64 :=
  (hash ^^^ value.toUInt64) * FNV_PRIME

/-- `write_bytes`. -/
def writeBytes (hash : UInt64) (bytes : List UInt8) : UInt64 :=
  bytes.foldl writeU8 hash

/-- `write_u16`, in network byte order. -/
def writeU16 (hash : UInt64) (value : UInt16) : UInt64 :=
  writeBytes hash [(value >>> 8).toUInt8, value.toUInt8]

/-- `hash_socket_addr`; flow info and scope id of an IPv6 address are ignored. -/
def hashSocketAddr (hash : UInt64) (addr : Option SocketAddr) : UInt64 :=
  match addr with
  | none => writeU8 hash 0
  | some addr =>
      let hash := match addr.ip with
        | .v4 octets => writeBytes (writeU8 hash 4) octets.toList
        | .v6 octets => writeBytes (writeU8 hash 6) octets.toList
      writeU16 hash addr.port

/-- `linux_reuseport_select`; `usize` has 64 bits. -/
def linuxReuseportSelect (packetMeta : PacketMeta) (workers : ℕ) : Except Error ℕ :=
  if workers = 0 then .error (.invalidConfig "worker count must be greater than zero")
  else
    let hash := hashSocketAddr FNV_OFFSET packetMeta.peerAddr
    let hash := hashSocketAddr hash packetMeta.localAddr
    .ok (hash.toNat % workers)

/-- `select_simulated_tcp_worker`. -/
def selectSimulatedTcpWorker (packetMeta : PacketMeta) (workerCount : ℕ) : Except Error ℕ :=
  if workerCount ≤ 1 then linuxReuseportSelect packetMeta workerCount
  else (linuxReuseportSelect packetMeta (workerCount - 1)).map (· + 1)

theorem linuxReuseportSelect_lt (packetMeta : PacketMeta) {workers : ℕ} (h : 1 ≤ workers) :
    ∃ w, linuxReuseportSelect packetMeta workers = .ok w ∧ w < workers := by
  have hne : workers ≠ 0 := by omega
  refine ⟨_, if_neg hne, ?_⟩
  exact Nat.mod_lt _ (by omega)

example : linuxReuseportSelect
    ⟨some (.v4 #v[127, 0, 0, 1] 55000), some (.v4 #v[127, 0, 0, 1] 4433)⟩ 4 = .ok 1 := rfl

theorem selectSimulatedTcpWorker_lt (packetMeta : PacketMeta) {workers : ℕ} (h : 1 ≤ workers) :
    ∃ w, selectSimulatedTcpWorker packetMeta workers = .ok w ∧ w < workers := by
  unfold selectSimulatedTcpWorker
  split
  · exact linuxReuseportSelect_lt packetMeta h
  · -- the hash ranges over the other workers, which the shift skips past worker 0
    rename_i hmany
    obtain ⟨w, hw, hlt⟩ := linuxReuseportSelect_lt packetMeta (by omega : 1 ≤ workers - 1)
    refine ⟨w + 1, ?_, by omega⟩
    rw [hw]
    rfl

end ReusePort
