import ReusePort.Core.Schedule
import ReusePort.Fnv

/-!
# ReusePort.Core.Balance — what the scheduler's hash keeps apart

`linuxReuseportSelect` hashes the bytes `hashInput` of a packet's two addresses.
Each address starts with a tag (0 for none, 4 and 6 for the two families) that
fixes its length, so the bytes of two addresses one after the other can be taken
apart again. The hash itself is the one of `ReusePort.Fnv` at 64 bits.

* `hash_input_unambiguous` — the bytes tell the two endpoints, and one byte
  alone always changes the hash;
* `client_ports_balanced` — over a power of two of workers, the ports of one
  client are spread evenly.
-/

namespace ReusePort

/-! ## The bytes that are hashed -/

/-- The family tag and the octets of an address. -/
def ipBytes : IpAddr → List UInt8
  | .v4 octets => 4 :: octets.toList
  | .v6 octets => 6 :: octets.toList

/-- A port in network byte order. -/
def portBytes (port : UInt16) : List UInt8 :=
  [(port >>> 8).toUInt8, port.toUInt8]

/-- What `hash_socket_addr` feeds to the hash. -/
def addrBytes : Option SocketAddr → List UInt8
  | none => [0]
  | some addr => ipBytes addr.ip ++ portBytes addr.port

/-- What `linux_reuseport_select` feeds to the hash. -/
def hashInput (packetMeta : PacketMeta) : List UInt8 :=
  addrBytes packetMeta.peerAddr ++ addrBytes packetMeta.localAddr

theorem writeBytes_append (hash : UInt64) (xs ys : List UInt8) :
    writeBytes hash (xs ++ ys) = writeBytes (writeBytes hash xs) ys :=
  List.foldl_append

theorem hashSocketAddr_eq (hash : UInt64) (addr : Option SocketAddr) :
    hashSocketAddr hash addr = writeBytes hash (addrBytes addr) := by
  rcases addr with _ | addr
  · rfl
  · -- the tag and the octets are one run of bytes, the port is appended to it
    rw [addrBytes, writeBytes_append]
    rcases addr <;> rfl

theorem linuxReuseportSelect_eq (packetMeta : PacketMeta) {workers : ℕ} (h : workers ≠ 0) :
    linuxReuseportSelect packetMeta workers =
      .ok ((writeBytes FNV_OFFSET (hashInput packetMeta)).toNat % workers) := by
  rw [linuxReuseportSelect, if_neg h, hashInput, writeBytes_append]
  simp only [hashSocketAddr_eq]

/-! ## Taking the bytes apart -/

/-- What the hash sees of an address: IPv6 flow info and scope id are left out. -/
def SocketAddr.endpoint (addr : SocketAddr) : IpAddr × UInt16 :=
  (addr.ip, addr.port)

theorem toNat_portHigh (port : UInt16) : (port >>> 8).toUInt8.toNat = port.toNat / 256 := by
  have hlt := port.toNat_lt
  have hshift : (port >>> 8).toNat = port.toNat / 256 := by
    rw [UInt16.toNat_shiftRight, Nat.shiftRight_eq_div_pow]
    rfl
  rw [UInt16.toNat_toUInt8, hshift]
  omega

theorem portBytes_injective : Function.Injective portBytes := by
  intro p q h
  obtain ⟨hhigh, htail⟩ := List.cons.inj h
  have hlow := congrArg UInt8.toNat (List.cons.inj htail).1
  replace hhigh := congrArg UInt8.toNat hhigh
  rw [toNat_portHigh, toNat_portHigh] at hhigh
  rw [UInt16.toNat_toUInt8, UInt16.toNat_toUInt8] at hlow
  apply UInt16.toNat_inj.mp
  omega

@[simp] theorem length_portBytes (port : UInt16) : (portBytes port).length = 2 := rfl

/-- Two addresses of one family, each followed by a port and more bytes. -/
theorem octets_append_inj {n : ℕ} {ip ip' : Vector UInt8 n} {port port' : UInt16}
    {xs ys : List UInt8}
    (h : ip.toList ++ portBytes port ++ xs = ip'.toList ++ portBytes port' ++ ys) :
    ip = ip' ∧ port = port' ∧ xs = ys := by
  have hlen : (ip.toList ++ portBytes port).length = (ip'.toList ++ portBytes port').length := by
    simp only [List.length_append, Vector.length_toList, length_portBytes]
  obtain ⟨haddr, hrest⟩ := List.append_inj h hlen
  have hip := List.append_inj haddr (by simp only [Vector.length_toList])
  exact ⟨Vector.toList_inj.mp hip.1, portBytes_injective hip.2, hrest⟩

/-- The tag tells where the bytes of an address end. -/
theorem addrBytes_append_inj {addr addr' : Option SocketAddr} {xs ys : List UInt8}
    (h : addrBytes addr ++ xs = addrBytes addr' ++ ys) :
    addr.map SocketAddr.endpoint = addr'.map SocketAddr.endpoint ∧ xs = ys := by
  -- different tags differ in the first byte; equal ones leave equal lengths
  rcases addr with _ | ⟨ip, port⟩ | ⟨ip, port, flowinfo, scopeId⟩ <;>
    rcases addr' with _ | ⟨ip', port'⟩ | ⟨ip', port', flowinfo', scopeId'⟩ <;>
    have hparts := List.cons.inj h
  case none.none => exact ⟨rfl, hparts.2⟩
  case some.v4.some.v4 =>
    obtain ⟨rfl, rfl, hrest⟩ := octets_append_inj hparts.2
    exact ⟨rfl, hrest⟩
  case some.v6.some.v6 =>
    obtain ⟨rfl, rfl, hrest⟩ := octets_append_inj hparts.2
    exact ⟨rfl, hrest⟩
  all_goals exact absurd hparts.1 (by decide)

theorem addrBytes_congr {addr addr' : Option SocketAddr}
    (h : addr.map SocketAddr.endpoint = addr'.map SocketAddr.endpoint) :
    addrBytes addr = addrBytes addr' := by
  rcases addr with _ | addr <;> rcases addr' with _ | addr'
  · rfl
  · exact absurd h (Option.some_ne_none _).symm
  · exact absurd h (Option.some_ne_none _)
  · obtain ⟨hip, hport⟩ := Prod.mk.inj (Option.some.inj h)
    rw [addrBytes, addrBytes, hip, hport]

theorem hashInput_eq_iff (packetMeta packetMeta' : PacketMeta) :
    hashInput packetMeta = hashInput packetMeta' ↔
      packetMeta.peerAddr.map SocketAddr.endpoint = packetMeta'.peerAddr.map SocketAddr.endpoint ∧
      packetMeta.localAddr.map SocketAddr.endpoint =
        packetMeta'.localAddr.map SocketAddr.endpoint := by
  constructor
  · intro h
    obtain ⟨hpeer, hrest⟩ := addrBytes_append_inj h
    have hlocal := @addrBytes_append_inj _ _ [] [] (by simpa using hrest)
    exact ⟨hpeer, hlocal.1⟩
  · rintro ⟨hpeer, hlocal⟩
    rw [hashInput, hashInput, addrBytes_congr hpeer, addrBytes_congr hlocal]

/-! ## The hash over words of 64 bits -/

/-- A byte as the word that the hash absorbs. -/
def hashWord (byte : UInt8) : BitVec 64 :=
  byte.toUInt64.toBitVec

theorem hashWord_injective : Function.Injective hashWord := by
  intro x y h
  exact UInt8.toUInt64_inj.mp (UInt64.toBitVec_inj.mp h)

theorem toBitVec_writeBytes (hash : UInt64) (bytes : List UInt8) :
    (writeBytes hash bytes).toBitVec =
      Fnv.hash FNV_PRIME.toBitVec hash.toBitVec (bytes.map hashWord) := by
  induction bytes generalizing hash with
  | nil => rfl
  | cons byte bytes ih => exact ih (writeU8 hash byte)

theorem coprime_fnvPrime : FNV_PRIME.toBitVec.toNat.Coprime 2 := by
  decide

theorem writeBytes_ne_of_existsUnique (hash : UInt64) {xs ys : List UInt8}
    (hlen : xs.length = ys.length) (h : ∃! i : ℕ, xs[i]? ≠ ys[i]?) :
    writeBytes hash xs ≠ writeBytes hash ys := by
  have hwords : ∃! i : ℕ, (xs.map hashWord)[i]? ≠ (ys.map hashWord)[i]? := by
    simpa only [List.getElem?_map, ne_eq, (Option.map_injective hashWord_injective).eq_iff] using h
  have hne := Fnv.hash_ne_of_existsUnique (coprime_fnvPrime.pow_right 64) hash.toBitVec
    (by simpa using hlen) hwords
  intro heq
  apply hne
  rw [← toBitVec_writeBytes, ← toBitVec_writeBytes, heq]

/-- The hashed bytes of a packet determine the endpoints it names, in both positions, and the
hash of a byte string depends on each of its bytes. -/
theorem hash_input_unambiguous :
    (∀ packetMeta workers, linuxReuseportSelect packetMeta (workers + 1) =
      .ok ((writeBytes FNV_OFFSET (hashInput packetMeta)).toNat % (workers + 1))) ∧
    (∀ packetMeta packetMeta' : PacketMeta, hashInput packetMeta = hashInput packetMeta' ↔
      packetMeta.peerAddr.map SocketAddr.endpoint = packetMeta'.peerAddr.map SocketAddr.endpoint ∧
      packetMeta.localAddr.map SocketAddr.endpoint =
        packetMeta'.localAddr.map SocketAddr.endpoint) ∧
    (∀ (hash : UInt64) (xs ys : List UInt8), xs.length = ys.length →
      (∃! i : ℕ, xs[i]? ≠ ys[i]?) → writeBytes hash xs ≠ writeBytes hash ys) := by
  refine ⟨?_, hashInput_eq_iff, ?_⟩
  · intro packetMeta workers
    exact linuxReuseportSelect_eq packetMeta (Nat.succ_ne_zero workers)
  · intro hash xs ys hlen h
    exact writeBytes_ne_of_existsUnique hash hlen h

theorem hash_input_unambiguous_port :
    hashInput ⟨some (.v4 Ipv4Addr.localhost 4433), none⟩ ≠
      hashInput ⟨some (.v4 Ipv4Addr.localhost 4434), none⟩ ∧
    writeBytes FNV_OFFSET [0, 17] ≠ writeBytes FNV_OFFSET [0, 18] := by
  constructor
  · rw [Ne, hash_input_unambiguous.2.1]
    decide
  · refine hash_input_unambiguous.2.2 FNV_OFFSET _ _ rfl ⟨1, by decide, ?_⟩
    intro i hi
    rcases i with _ | _ | i
    · exact absurd rfl hi
    · rfl
    · exact absurd rfl hi

/-! ## Spreading the ports of one client -/

/-- The bytes after the low byte of the peer's port are those of the local address. -/
theorem hashInput_withPort (peer : SocketAddr) (localAddr : Option SocketAddr) (port : UInt16) :
    hashInput ⟨some (peer.withPort port), localAddr⟩ =
      (ipBytes peer.ip ++ [(port >>> 8).toUInt8]) ++ port.toUInt8 :: addrBytes localAddr := by
  rcases peer <;> simp [hashInput, addrBytes, portBytes, SocketAddr.withPort, SocketAddr.ip,
    SocketAddr.port]

theorem portHigh_ofNat (high : ℕ) {low : ℕ} (hlow : low < 256) :
    (UInt16.ofNat (256 * high + low) >>> 8).toUInt8 = UInt8.ofNat high := by
  apply UInt8.toNat_inj.mp
  rw [toNat_portHigh, UInt16.toNat_ofNat', UInt8.toNat_ofNat']
  omega

theorem portLow_ofNat (high : ℕ) {low : ℕ} (hlow : low < 256) :
    hashWord (UInt16.ofNat (256 * high + low)).toUInt8 = BitVec.ofNat 64 low := by
  apply BitVec.eq_of_toNat_eq
  have hword : (hashWord (UInt16.ofNat (256 * high + low)).toUInt8).toNat =
      (UInt16.ofNat (256 * high + low)).toUInt8.toNat := UInt8.toNat_toUInt64 _
  rw [hword, UInt16.toNat_toUInt8, UInt16.toNat_ofNat', BitVec.toNat_ofNat]
  omega

/-- The client at `peer`, sending from `port`, is given to `worker`. -/
def PortSelects (select : PacketMeta → Except Error ℕ) (peer : SocketAddr)
    (localAddr : Option SocketAddr) (worker port : ℕ) : Prop :=
  select ⟨some (peer.withPort (UInt16.ofNat port)), localAddr⟩ = .ok worker

instance (select : PacketMeta → Except Error ℕ) (peer : SocketAddr)
    (localAddr : Option SocketAddr) (worker : ℕ) :
    DecidablePred (PortSelects select peer localAddr worker) :=
  fun port => inferInstanceAs
    (Decidable (select ⟨some (peer.withPort (UInt16.ofNat port)), localAddr⟩ = .ok worker))

/-- With the high byte fixed, the low byte is one absorbed word among fixed ones. -/
theorem portSelects_iff (peer : SocketAddr) (localAddr : Option SocketAddr)
    (workers worker high : ℕ) {low : ℕ} (hworkers : workers ≠ 0) (hlow : low < 256) :
    PortSelects (linuxReuseportSelect · workers) peer localAddr worker (256 * high + low) ↔
      (Fnv.hash FNV_PRIME.toBitVec
        (writeBytes FNV_OFFSET (ipBytes peer.ip ++ [UInt8.ofNat high])).toBitVec
        (BitVec.ofNat 64 low :: (addrBytes localAddr).map hashWord)).toNat % workers = worker := by
  rw [PortSelects, linuxReuseportSelect_eq _ hworkers, Except.ok.injEq, hashInput_withPort,
    writeBytes_append, portHigh_ofNat high hlow, ← UInt64.toNat_toBitVec, toBitVec_writeBytes,
    List.map_cons, portLow_ofNat high hlow]

theorem count_lowByte {k worker : ℕ} (hk : k ≤ 8) (hworker : worker < 2 ^ k) (peer : SocketAddr)
    (localAddr : Option SocketAddr) (high : ℕ) :
    Nat.count (fun low => PortSelects (linuxReuseportSelect · (2 ^ k)) peer localAddr worker
      (256 * high + low)) 256 = 2 ^ (8 - k) := by
  have hworkers : 2 ^ k ≠ 0 := (Nat.two_pow_pos k).ne'
  rw [← Fnv.count_hash_mod coprime_fnvPrime
    (writeBytes FNV_OFFSET (ipBytes peer.ip ++ [UInt8.ofNat high])).toBitVec
    ((addrBytes localAddr).map hashWord) (by omega : k ≤ 64) hk hworker,
    Nat.count_eq_card_filter_range, Nat.count_eq_card_filter_range]
  congr 1
  refine Finset.filter_congr fun low hlow => ?_
  exact portSelects_iff peer localAddr (2 ^ k) worker high hworkers (Finset.mem_range.mp hlow)

/-- What is taken `c` times in every block of `m` is taken `n * c` times in `n` blocks. -/
theorem count_blocks (p : ℕ → Prop) [DecidablePred p] {m c : ℕ}
    (h : ∀ block, Nat.count (fun i => p (m * block + i)) m = c) (n : ℕ) :
    Nat.count p (m * n) = n * c := by
  induction n with
  | zero => rw [Nat.mul_zero, Nat.count_zero, Nat.zero_mul]
  | succ n ih => rw [Nat.mul_succ, Nat.count_add, ih, h n, Nat.succ_mul]

theorem count_ports {p : ℕ → Prop} [DecidablePred p] {k : ℕ} (hk : k ≤ 8)
    (h : ∀ high, Nat.count (fun low => p (256 * high + low)) 256 = 2 ^ (8 - k)) :
    Nat.count p 65536 = 2 ^ (16 - k) := by
  have hpow : 256 * 2 ^ (8 - k) = 2 ^ (16 - k) := by
    rw [show 256 = 2 ^ 8 from rfl, ← Nat.pow_add]
    congr 1
    omega
  rw [← hpow]
  exact count_blocks p h 256

/-- The TCP fallback shifts the choice among the other workers past worker 0. -/
theorem portSelects_tcp_iff (peer : SocketAddr) (localAddr : Option SocketAddr)
    {workers : ℕ} (hworkers : workers ≠ 0) (worker port : ℕ) :
    PortSelects (selectSimulatedTcpWorker · (workers + 1)) peer localAddr (worker + 1) port ↔
      PortSelects (linuxReuseportSelect · workers) peer localAddr worker port := by
  have hmany : ¬ workers + 1 ≤ 1 := by omega
  rw [PortSelects, PortSelects, selectSimulatedTcpWorker, if_neg hmany, Nat.add_sub_cancel,
    linuxReuseportSelect_eq _ hworkers, Except.map, Except.ok.injEq, Except.ok.injEq,
    Nat.add_right_cancel_iff]

theorem count_lowByte_tcp {k worker : ℕ} (hk : k ≤ 8) (hworker : worker < 2 ^ k)
    (peer : SocketAddr) (localAddr : Option SocketAddr) (high : ℕ) :
    Nat.count (fun low => PortSelects (selectSimulatedTcpWorker · (2 ^ k + 1)) peer localAddr
      (worker + 1) (256 * high + low)) 256 = 2 ^ (8 - k) := by
  simp only [portSelects_tcp_iff peer localAddr (Nat.two_pow_pos k).ne']
  exact count_lowByte hk hworker peer localAddr high

/-- Among `2 ^ k` workers each gets `2 ^ (8 - k)` of the 256 ports with one high byte, and so an
equal part of all 65536 ports; the TCP fallback spreads them the same way over the workers
other than worker 0. -/
theorem client_ports_balanced {k worker : ℕ} (hk : k ≤ 8) (hworker : worker < 2 ^ k)
    (peer : SocketAddr) (localAddr : Option SocketAddr) :
    (∀ high < 256, Nat.count (fun low => PortSelects (linuxReuseportSelect · (2 ^ k)) peer
      localAddr worker (256 * high + low)) 256 = 2 ^ (8 - k)) ∧
    Nat.count (PortSelects (linuxReuseportSelect · (2 ^ k)) peer localAddr worker) 65536 =
      2 ^ (16 - k) ∧
    (∀ high < 256, Nat.count (fun low => PortSelects (selectSimulatedTcpWorker · (2 ^ k + 1)) peer
      localAddr (worker + 1) (256 * high + low)) 256 = 2 ^ (8 - k)) ∧
    Nat.count (PortSelects (selectSimulatedTcpWorker · (2 ^ k + 1)) peer localAddr (worker + 1))
      65536 = 2 ^ (16 - k) := by
  have hblock := count_lowByte hk hworker peer localAddr
  have hblockTcp := count_lowByte_tcp hk hworker peer localAddr
  refine ⟨?_, count_ports hk hblock, ?_, count_ports hk hblockTcp⟩
  · intro high _
    exact hblock high
  · intro high _
    exact hblockTcp high

theorem client_ports_balanced_four :
    Nat.count (PortSelects (linuxReuseportSelect · 4) (.v4 Ipv4Addr.localhost 0) none 3) 65536 =
      16384 :=
  (@client_ports_balanced 2 3 (by decide) (by decide) (.v4 Ipv4Addr.localhost 0) none).2.1

end ReusePort
