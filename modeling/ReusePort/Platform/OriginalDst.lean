import ReusePort.Core.Routed
import ReusePort.Endian

/-!
# ReusePort.Platform.OriginalDst — receiving with the original destination

A transparent UDP socket does not receive through the standard library: it calls
`recvmsg` and decodes the two addresses itself (`platform/linux.rs`), the source
of the datagram and the original destination from a control message. Every other
socket receives through `recv_from_vec`. Both end in
`UdpSocket::recv_packet_with_local_addr` (`core/udp.rs`).

Addresses are laid out in memory as Linux has them. The family is in the byte
order of the machine, the port in network order. What the standard library makes
of a source address is a parameter.

* `sockaddrStorageToSocketAddr_encode` — decoding keeps family, address and port,
  and sets flow info and scope id to zero;
* `addressesAgree_iff` — so the two paths report the same sender, one that can be
  answered, exactly for senders without flow info and scope id.
-/

namespace ReusePort

/-! ## Addresses in memory -/

def AF_INET : ℕ := 2
def AF_INET6 : ℕ := 10

/-- `libc::sockaddr_storage`, by its bytes. -/
structure SockaddrStorage where
  bytes : List UInt8
  length_bytes : bytes.length = 128
deriving DecidableEq, Repr

namespace SockaddrStorage

/-- A zeroed storage with these bytes written to its start. -/
def ofFields (fields : List UInt8) : SockaddrStorage where
  bytes := (copyPrefix fields (List.replicate 128 0)).1
  length_bytes := by rw [length_copyPrefix, List.length_replicate]

/-- The bytes of the field of size `len` at offset `start`. -/
def field (addr : SockaddrStorage) (start len : ℕ) : List UInt8 :=
  (addr.bytes.drop start).take len

theorem length_field (addr : SockaddrStorage) {start len : ℕ} (h : start + len ≤ 128) :
    (addr.field start len).length = len := by
  have hlen := addr.length_bytes
  rw [field, List.length_take, List.length_drop]
  omega

/-- A field that holds an array of octets. -/
def octets (addr : SockaddrStorage) (start len : ℕ) (h : start + len ≤ 128) : Vector UInt8 len :=
  ⟨(addr.field start len).toArray, by rw [List.size_toArray, addr.length_field h]⟩

/-- `ss_family`. -/
def ssFamily (e : Endian) (addr : SockaddrStorage) : ℕ :=
  e.value (addr.field 0 2)

end SockaddrStorage

/-- `u16::from_be`: nothing on a big-endian machine, `swap_bytes` on the others. -/
def u16FromBe (e : Endian) (x : UInt16) : UInt16 :=
  match e with
  | .big => x
  | .little => UInt16.ofNat (x.toNat % 256 * 256 + x.toNat / 256)

/-- `u32::to_ne_bytes`. -/
def u32ToNeBytes (e : Endian) (x : UInt32) : Vector UInt8 4 :=
  ⟨(e.bytes 4 x.toNat).toArray, by rw [List.size_toArray, Endian.length_bytes]⟩

/-- The fields of `sockaddr_in`: family, port, address, padding. -/
def sockaddrIn (e : Endian) (ip : Vector UInt8 4) (port : UInt16) : List UInt8 :=
  e.bytes 2 AF_INET ++ (Endian.big.bytes 2 port.toNat ++ (ip.toList ++ List.replicate 8 0))

/-- The fields of `sockaddr_in6`: family, port, flow info, address, scope id. -/
def sockaddrIn6 (e : Endian) (ip : Vector UInt8 16) (port : UInt16) (flowinfo scopeId : UInt32) :
    List UInt8 :=
  e.bytes 2 AF_INET6 ++ (Endian.big.bytes 2 port.toNat ++ (e.bytes 4 flowinfo.toNat ++
    (ip.toList ++ e.bytes 4 scopeId.toNat)))

/-- The kernel's representation of an address. -/
def sockaddrFields (e : Endian) : SocketAddr → List UInt8
  | .v4 ip port => sockaddrIn e ip port
  | .v6 ip port flowinfo scopeId => sockaddrIn6 e ip port flowinfo scopeId

/-- An address in a `sockaddr_storage`. -/
def encode (e : Endian) (addr : SocketAddr) : SockaddrStorage :=
  .ofFields (sockaddrFields e addr)

/-! ## Decoding -/

/-- `sockaddr_storage_to_socket_addr`; `SocketAddr::new` gives an IPv6 address zero flow
info and scope id. -/
def sockaddrStorageToSocketAddr (e : Endian) (addr : SockaddrStorage) :
    Except IoError SocketAddr :=
  let family := addr.ssFamily e
  let port := u16FromBe e (UInt16.ofNat (e.value (addr.field 2 2)))
  if family = AF_INET then
    -- `s_addr` is read in the byte order of the machine and taken apart in the same order
    let sAddr := UInt32.ofNat (e.value (addr.field 4 4))
    .ok (.v4 (u32ToNeBytes e sAddr) port)
  else if family = AF_INET6 then
    .ok (.v6 (addr.octets 8 16 (by decide)) port 0 0)
  else
    .error ⟨.invalidData, s!"unsupported socket address family {family}"⟩

theorem SockaddrStorage.field_ofFields {start len : ℕ} {fields before x after : List UInt8}
    (h : fields = before ++ (x ++ after)) (hstart : before.length = start) (hlen : x.length = len)
    (hfits : fields.length ≤ 128) : (ofFields fields).field start len = x := by
  have hmin : min fields.length (List.replicate 128 (0 : UInt8)).length = fields.length := by
    rw [List.length_replicate]
    omega
  rw [field, ofFields]
  simp only [copyPrefix, hmin, List.take_length]
  rw [h, List.append_assoc, List.drop_left' hstart, List.append_assoc, List.take_left' hlen]

/-- The two bytes of a port in network order. -/
theorem bytes_port (port : UInt16) :
    Endian.big.bytes 2 port.toNat = [UInt8.ofNat (port.toNat / 256), UInt8.ofNat port.toNat] :=
  rfl

/-- Read lowest byte first and swapped, a port in network order is put right. -/
theorem swap_port {high low : ℕ} (hhigh : high < 256) :
    (high + 256 * low) % 256 * 256 + (high + 256 * low) / 256 = 256 * high + low := by
  have hmod : (high + 256 * low) % 256 = high := by omega
  have hdiv : (high + 256 * low) / 256 = low := by omega
  rw [hmod, hdiv]
  omega

/-- A port that was written in network order comes out whatever the byte order. -/
theorem u16FromBe_value (e : Endian) (port : UInt16) :
    u16FromBe e (UInt16.ofNat (e.value (Endian.big.bytes 2 port.toNat))) = port := by
  have hport := port.toNat_lt
  apply UInt16.toNat_inj.mp
  cases e with
  | big =>
      rw [u16FromBe, Endian.value_bytes _ hport, UInt16.toNat_ofNat']
      omega
  | little =>
      have hhigh : port.toNat / 256 < 256 := by omega
      have hvalue : Endian.little.value (Endian.big.bytes 2 port.toNat) =
          port.toNat / 256 + 256 * (port.toNat % 256) := by
        rw [bytes_port, Endian.value, Endian.leValue_cons, Endian.leValue_cons,
          UInt8.toNat_ofNat', UInt8.toNat_ofNat', Nat.mod_eq_of_lt hhigh]
        rfl
      have hread : (UInt16.ofNat (port.toNat / 256 + 256 * (port.toNat % 256))).toNat =
          port.toNat / 256 + 256 * (port.toNat % 256) := by
        rw [UInt16.toNat_ofNat']
        omega
      simp only [u16FromBe, hvalue, hread, swap_port hhigh, UInt16.toNat_ofNat']
      omega

theorem u32ToNeBytes_value (e : Endian) (ip : Vector UInt8 4) :
    u32ToNeBytes e (UInt32.ofNat (e.value ip.toList)) = ip := by
  have hlen : ip.toList.length = 4 := Vector.length_toList
  have hlt := e.value_lt ip.toList
  have hbytes := e.bytes_value ip.toList
  rw [hlen] at hlt hbytes
  have hnat : (UInt32.ofNat (e.value ip.toList)).toNat = e.value ip.toList := by
    rw [UInt32.toNat_ofNat']
    exact Nat.mod_eq_of_lt hlt
  apply Vector.toList_inj.mp
  rw [u32ToNeBytes, Vector.toList_mk, hnat, hbytes]

/-- An address as `SocketAddr::new` builds it from its address and port. -/
def SocketAddr.unscoped : SocketAddr → SocketAddr
  | .v4 ip port => .v4 ip port
  | .v6 ip port _ _ => .v6 ip port 0 0

theorem length_sockaddrIn (e : Endian) (ip : Vector UInt8 4) (port : UInt16) :
    (sockaddrIn e ip port).length = 16 := by
  simp [sockaddrIn]

theorem length_sockaddrIn6 (e : Endian) (ip : Vector UInt8 16) (port : UInt16)
    (flowinfo scopeId : UInt32) : (sockaddrIn6 e ip port flowinfo scopeId).length = 28 := by
  simp [sockaddrIn6]

section Fields

variable (e : Endian) (port : UInt16)

theorem sockaddrIn_fields (ip : Vector UInt8 4) :
    (encode e (.v4 ip port)).field 0 2 = e.bytes 2 AF_INET ∧
      (encode e (.v4 ip port)).field 2 2 = Endian.big.bytes 2 port.toNat ∧
      (encode e (.v4 ip port)).field 4 4 = ip.toList := by
  have hfits : (sockaddrIn e ip port).length ≤ 128 := by
    rw [length_sockaddrIn]
    omega
  have haddr : sockaddrIn e ip port = (e.bytes 2 AF_INET ++ Endian.big.bytes 2 port.toNat) ++
      (ip.toList ++ List.replicate 8 0) := by
    rw [sockaddrIn, List.append_assoc]
  refine ⟨?_, ?_, ?_⟩
  · exact @SockaddrStorage.field_ofFields 0 2 _ [] _ _ rfl rfl (by simp) hfits
  · exact SockaddrStorage.field_ofFields rfl (by simp) (by simp) hfits
  · exact SockaddrStorage.field_ofFields haddr (by simp) (by simp) hfits

theorem sockaddrIn6_fields (ip : Vector UInt8 16) (flowinfo scopeId : UInt32) :
    (encode e (.v6 ip port flowinfo scopeId)).field 0 2 = e.bytes 2 AF_INET6 ∧
      (encode e (.v6 ip port flowinfo scopeId)).field 2 2 = Endian.big.bytes 2 port.toNat ∧
      (encode e (.v6 ip port flowinfo scopeId)).field 4 4 = e.bytes 4 flowinfo.toNat ∧
      (encode e (.v6 ip port flowinfo scopeId)).field 8 16 = ip.toList ∧
      (encode e (.v6 ip port flowinfo scopeId)).field 24 4 = e.bytes 4 scopeId.toNat := by
  have hfits : (sockaddrIn6 e ip port flowinfo scopeId).length ≤ 128 := by
    rw [length_sockaddrIn6]
    omega
  -- the fields lie end to end: the bytes are regrouped around each field that is read
  have hflow : sockaddrIn6 e ip port flowinfo scopeId =
      (e.bytes 2 AF_INET6 ++ Endian.big.bytes 2 port.toNat) ++ (e.bytes 4 flowinfo.toNat ++
        (ip.toList ++ e.bytes 4 scopeId.toNat)) := by
    rw [sockaddrIn6, List.append_assoc]
  have haddr : sockaddrIn6 e ip port flowinfo scopeId =
      (e.bytes 2 AF_INET6 ++ Endian.big.bytes 2 port.toNat ++ e.bytes 4 flowinfo.toNat) ++
        (ip.toList ++ e.bytes 4 scopeId.toNat) := by
    rw [hflow, List.append_assoc _ (e.bytes 4 flowinfo.toNat)]
  have hscope : sockaddrIn6 e ip port flowinfo scopeId =
      (e.bytes 2 AF_INET6 ++ Endian.big.bytes 2 port.toNat ++ e.bytes 4 flowinfo.toNat ++
        ip.toList) ++ (e.bytes 4 scopeId.toNat ++ []) := by
    rw [haddr, List.append_nil, List.append_assoc _ ip.toList]
  refine ⟨?_, ?_, ?_, ?_, ?_⟩
  · exact @SockaddrStorage.field_ofFields 0 2 _ [] _ _ rfl rfl (by simp) hfits
  · exact SockaddrStorage.field_ofFields rfl (by simp) (by simp) hfits
  · exact SockaddrStorage.field_ofFields hflow (by simp) (by simp) hfits
  · exact SockaddrStorage.field_ofFields haddr (by simp) (by simp) hfits
  · exact SockaddrStorage.field_ofFields hscope (by simp) (by simp) hfits

theorem ssFamily_v4 (ip : Vector UInt8 4) : (encode e (.v4 ip port)).ssFamily e = AF_INET := by
  rw [SockaddrStorage.ssFamily, (sockaddrIn_fields e port ip).1, Endian.value_bytes e (by decide)]

theorem ssFamily_v6 (ip : Vector UInt8 16) (flowinfo scopeId : UInt32) :
    (encode e (.v6 ip port flowinfo scopeId)).ssFamily e = AF_INET6 := by
  rw [SockaddrStorage.ssFamily, (sockaddrIn6_fields e port ip flowinfo scopeId).1,
    Endian.value_bytes e (by decide)]

theorem octets_v6 (ip : Vector UInt8 16) (flowinfo scopeId : UInt32) :
    (encode e (.v6 ip port flowinfo scopeId)).octets 8 16 (by decide) = ip := by
  obtain ⟨-, -, -, haddr, -⟩ := sockaddrIn6_fields e port ip flowinfo scopeId
  apply Vector.toList_inj.mp
  rw [SockaddrStorage.octets, Vector.toList_mk, haddr]

end Fields

/-- Family, address and port are kept; flow info and scope id are not. -/
theorem sockaddrStorageToSocketAddr_encode (e : Endian) (addr : SocketAddr) :
    sockaddrStorageToSocketAddr e (encode e addr) = .ok addr.unscoped := by
  cases addr with
  | v4 ip port =>
      obtain ⟨-, hport, haddr⟩ := sockaddrIn_fields e port ip
      simp only [sockaddrStorageToSocketAddr, ssFamily_v4, if_true, hport, haddr, u16FromBe_value,
        u32ToNeBytes_value, SocketAddr.unscoped]
  | v6 ip port flowinfo scopeId =>
      obtain ⟨-, hport, -⟩ := sockaddrIn6_fields e port ip flowinfo scopeId
      have hne : ¬ AF_INET6 = AF_INET := by decide
      simp only [sockaddrStorageToSocketAddr, ssFamily_v6, if_neg hne, if_true, hport, octets_v6,
        u16FromBe_value, SocketAddr.unscoped]

/-! ## The two receives -/

def SOL_IP : ℕ := 0
def IP_ORIGDSTADDR : ℕ := 20
def SOL_IPV6 : ℕ := 41
def IPV6_RECVORIGDSTADDR : ℕ := 74

/-- A control message: its header, and the bytes of the control buffer from its data on. -/
structure Cmsg where
  cmsgLevel : ℕ
  cmsgType : ℕ
  data : List UInt8
deriving DecidableEq, Repr

/-- A datagram as `recvmsg` delivers it, with the control messages in their order. -/
structure RecvMsg where
  payload : List UInt8
  source : SockaddrStorage
  control : List Cmsg
deriving DecidableEq, Repr

/-- `original_destination_addr`: the first control message of one of the two kinds. -/
def originalDestinationAddr : List Cmsg → Option SockaddrStorage
  | [] => none
  | cmsg :: rest =>
      if cmsg.cmsgLevel = SOL_IP ∧ cmsg.cmsgType = IP_ORIGDSTADDR then
        some (.ofFields (cmsg.data.take 16))
      else if cmsg.cmsgLevel = SOL_IPV6 ∧ cmsg.cmsgType = IPV6_RECVORIGDSTADDR then
        some (.ofFields (cmsg.data.take 28))
      else originalDestinationAddr rest

/-- `recv_udp_original_dst_raw`, on the outcome of `recvmsg`. -/
def recvUdpOriginalDstRaw (e : Endian) (outcome : Except IoError RecvMsg) (buffer : List UInt8)
    (fallbackLocalAddr : SocketAddr) : List UInt8 × Except IoError (ℕ × SocketAddr × SocketAddr) :=
  match outcome with
  | .error error => (buffer, .error error)
  | .ok message =>
      let (buffer, len) := copyPrefix message.payload buffer
      (buffer, do
        -- a destination that cannot be decoded hides the source
        let destination ← match originalDestinationAddr message.control with
          | some destination => sockaddrStorageToSocketAddr e destination
          | none => .ok fallbackLocalAddr
        let source ← sockaddrStorageToSocketAddr e message.source
        .ok (len, source, destination))

/-- `recv_udp_original_dst` on Linux with tokio; the outcome is the first one that is not
`WouldBlock`. -/
def recvUdpOriginalDst (e : Endian) (outcome : Except IoError RecvMsg) (buffer : List UInt8)
    (fallbackLocalAddr : SocketAddr) :
    Except IoError (ℕ × SocketAddr × SocketAddr × List UInt8) :=
  let (buffer, result) := recvUdpOriginalDstRaw e outcome buffer fallbackLocalAddr
  result.map fun (len, peerAddr, localAddr) => (len, peerAddr, localAddr, buffer)

/-- What the standard library makes of a source address. -/
abbrev StdDecode := SockaddrStorage → Except IoError SocketAddr

/-- `udp_recv_from`. -/
def udpRecvFrom (std : StdDecode) (outcome : Except IoError RecvMsg) (buffer : List UInt8) :
    Except IoError (ℕ × SocketAddr × List UInt8) := do
  let message ← outcome
  let (buffer, len) := copyPrefix message.payload buffer
  let peerAddr ← std message.source
  .ok (len, peerAddr, buffer)

/-- `UdpSocketInner`, by the outcome of the receive on the socket inside. -/
inductive RecvSource where
  | runtime (outcome : Except IoError RecvMsg)
  | routed (outcome : Except IoError RoutedPacket)

/-- `UdpSocket::recv_from_vec`. -/
def RecvSource.recvFromVec (std : StdDecode) (buffer : List UInt8) :
    RecvSource → Except Error (ℕ × SocketAddr × List UInt8)
  | runtime outcome => (udpRecvFrom std outcome buffer).mapError .ofIo
  | routed outcome => (outcome.mapError .ofIo).map fun packet =>
      let (buffer, len, peerAddr) := ReusePort.recvFromVec packet buffer
      (len, peerAddr, buffer)

/-- `UdpSocket::recv_packet_with_local_addr`; `localAddr` is what `local_addr` returns. -/
def recvPacketWithLocalAddr (e : Endian) (std : StdDecode) (inner : RecvSource)
    (localAddr : Except Error SocketAddr) (buffer : List UInt8) (transparentReceive : Bool) :
    Except Error (ℕ × SocketAddr × SocketAddr × List UInt8) :=
  match inner, transparentReceive with
  | .runtime outcome, true => do
      let fallbackLocalAddr ← localAddr
      (recvUdpOriginalDst e outcome buffer fallbackLocalAddr).mapError .ofIo
  | inner, _ => do
      let (len, peerAddr, buffer) ← inner.recvFromVec std buffer
      let localAddr ← localAddr
      .ok (len, peerAddr, localAddr, buffer)

/-- The control messages of the kernel: none, or the original destination. -/
def originalDst (e : Endian) : Option SocketAddr → List Cmsg
  | none => []
  | some (.v4 ip port) => [⟨SOL_IP, IP_ORIGDSTADDR, sockaddrFields e (.v4 ip port)⟩]
  | some (.v6 ip port flowinfo scopeId) =>
      [⟨SOL_IPV6, IPV6_RECVORIGDSTADDR, sockaddrFields e (.v6 ip port flowinfo scopeId)⟩]

/-- A datagram from `sender`, as `recvmsg` delivers it. -/
def messageFrom (e : Endian) (sender : SocketAddr) (destination : Option SocketAddr)
    (payload : List UInt8) : RecvMsg :=
  ⟨payload, encode e sender, originalDst e destination⟩

theorem originalDestinationAddr_originalDst (e : Endian) (destination : Option SocketAddr) :
    originalDestinationAddr (originalDst e destination) = destination.map (encode e) := by
  rcases destination with _ | ⟨ip, port⟩ | ⟨ip, port, flowinfo, scopeId⟩
  · rfl
  · have htake : (sockaddrIn e ip port).take 16 = sockaddrIn e ip port :=
      List.take_of_length_le (length_sockaddrIn e ip port).le
    rw [originalDst, originalDestinationAddr, if_pos ⟨rfl, rfl⟩, sockaddrFields, htake]
    rfl
  · have htake : (sockaddrIn6 e ip port flowinfo scopeId).take 28 =
        sockaddrIn6 e ip port flowinfo scopeId :=
      List.take_of_length_le (length_sockaddrIn6 e ip port flowinfo scopeId).le
    have hkind : ¬ (SOL_IPV6 = SOL_IP ∧ IPV6_RECVORIGDSTADDR = IP_ORIGDSTADDR) := by decide
    rw [originalDst, originalDestinationAddr, if_neg hkind, if_pos ⟨rfl, rfl⟩,
      sockaddrFields, htake]
    rfl

theorem recv_transparent (e : Endian) (std : StdDecode) (sender localAddr : SocketAddr)
    (destination : Option SocketAddr) (payload buffer : List UInt8) :
    recvPacketWithLocalAddr e std (.runtime (.ok (messageFrom e sender destination payload)))
        (.ok localAddr) buffer true =
      .ok ((copyPrefix payload buffer).2, sender.unscoped,
        (destination.map SocketAddr.unscoped).getD localAddr, (copyPrefix payload buffer).1) := by
  have hcontrol := originalDestinationAddr_originalDst e destination
  simp only [recvPacketWithLocalAddr, recvUdpOriginalDst, recvUdpOriginalDstRaw, messageFrom,
    hcontrol, sockaddrStorageToSocketAddr_encode, bind, Except.bind]
  cases destination with
  | none => rfl
  | some destination =>
      simp only [Option.map_some, sockaddrStorageToSocketAddr_encode]
      rfl

theorem recv_plain (e : Endian) {std : StdDecode} {sender : SocketAddr}
    (hstd : std (encode e sender) = .ok sender) (localAddr : SocketAddr)
    (destination : Option SocketAddr) (payload buffer : List UInt8) :
    recvPacketWithLocalAddr e std (.runtime (.ok (messageFrom e sender destination payload)))
        (.ok localAddr) buffer false =
      .ok ((copyPrefix payload buffer).2, sender, localAddr, (copyPrefix payload buffer).1) := by
  simp only [recvPacketWithLocalAddr, RecvSource.recvFromVec, udpRecvFrom, messageFrom, hstd, bind,
    Except.bind, Except.mapError]

/-! ## Which senders both paths report -/

namespace SocketAddr

/-- `SocketAddrV6::flowinfo`; an IPv4 address has none. -/
def flowinfo : SocketAddr → UInt32
  | v4 _ _ => 0
  | v6 _ _ flowinfo _ => flowinfo

/-- `SocketAddrV6::scope_id`; an IPv4 address has none. -/
def scopeId : SocketAddr → UInt32
  | v4 _ _ => 0
  | v6 _ _ _ scopeId => scopeId

theorem unscoped_eq_iff (addr : SocketAddr) :
    addr.unscoped = addr ↔ addr.flowinfo = 0 ∧ addr.scopeId = 0 := by
  cases addr with
  | v4 ip port => exact ⟨fun _ => ⟨rfl, rfl⟩, fun _ => rfl⟩
  | v6 ip port flowinfo scopeId =>
      simp only [unscoped, SocketAddr.flowinfo, SocketAddr.scopeId, v6.injEq, true_and]
      exact and_congr eq_comm eq_comm

end SocketAddr

/-- The decoder gives back the address of the sender; a transparent and a plain receive report
the same sender, whatever the datagram, its destination and the buffer; and what is sent to the
address that a transparent receive reports goes to the sender. -/
structure AddressesAgree (e : Endian) (std : StdDecode) (sender : SocketAddr) : Prop where
  decodes : sockaddrStorageToSocketAddr e (encode e sender) = .ok sender
  same_sender : ∀ payload destination buffer localAddr, ∃ len peerAddr reported filled,
    recvPacketWithLocalAddr e std (.runtime (.ok (messageFrom e sender destination payload)))
      (.ok localAddr) buffer true = .ok (len, peerAddr, reported, filled) ∧
    recvPacketWithLocalAddr e std (.runtime (.ok (messageFrom e sender destination payload)))
      (.ok localAddr) buffer false = .ok (len, peerAddr, localAddr, filled)
  reply : ∀ payload destination buffer localAddr len peerAddr reported filled,
    recvPacketWithLocalAddr e std (.runtime (.ok (messageFrom e sender destination payload)))
      (.ok localAddr) buffer true = .ok (len, peerAddr, reported, filled) →
    encode e peerAddr = encode e sender

/-- With a standard library that decodes the whole address, the two paths agree exactly on the
senders without flow info and scope id; every family but the two is refused. -/
theorem addressesAgree_iff (e : Endian) {std : StdDecode}
    (hstd : ∀ addr, std (encode e addr) = .ok addr) (sender : SocketAddr) :
    (AddressesAgree e std sender ↔ sender.flowinfo = 0 ∧ sender.scopeId = 0) ∧
    ∀ addr : SockaddrStorage, addr.ssFamily e ≠ AF_INET → addr.ssFamily e ≠ AF_INET6 →
      sockaddrStorageToSocketAddr e addr = .error ⟨.invalidData,
        "unsupported socket address family " ++ toString (addr.ssFamily e)⟩ := by
  rw [← SocketAddr.unscoped_eq_iff]
  refine ⟨⟨?_, ?_⟩, ?_⟩
  · intro h
    have hdecodes := h.decodes
    rw [sockaddrStorageToSocketAddr_encode] at hdecodes
    exact Except.ok.inj hdecodes
  · intro h
    constructor
    · rw [sockaddrStorageToSocketAddr_encode, h]
    · intro payload destination buffer localAddr
      refine ⟨_, _, _, _, recv_transparent e std sender localAddr destination payload buffer, ?_⟩
      rw [recv_plain e (hstd sender), h]
    · intro payload destination buffer localAddr len peerAddr reported filled hrecv
      rw [recv_transparent, h] at hrecv
      have hpeer := (Prod.mk.inj (Prod.mk.inj (Except.ok.inj hrecv)).2).1
      rw [hpeer]
  · intro addr hinet hinet6
    rw [sockaddrStorageToSocketAddr, if_neg hinet, if_neg hinet6]
    rfl

/-- A decoder that reads every field of the address. -/
def fullDecode (e : Endian) : StdDecode := fun addr =>
  if addr.ssFamily e = AF_INET6 then
    .ok (.v6 (addr.octets 8 16 (by decide))
      (u16FromBe e (UInt16.ofNat (e.value (addr.field 2 2))))
      (UInt32.ofNat (e.value (addr.field 4 4))) (UInt32.ofNat (e.value (addr.field 24 4))))
  else sockaddrStorageToSocketAddr e addr

theorem fullDecode_encode (e : Endian) (addr : SocketAddr) :
    fullDecode e (encode e addr) = .ok addr := by
  cases addr with
  | v4 ip port =>
      have hne : ¬ AF_INET = AF_INET6 := by decide
      rw [fullDecode, ssFamily_v4, if_neg hne, sockaddrStorageToSocketAddr_encode]
      rfl
  | v6 ip port flowinfo scopeId =>
      obtain ⟨-, hport, hflow, -, hscope⟩ := sockaddrIn6_fields e port ip flowinfo scopeId
      have hword : ∀ x : UInt32, UInt32.ofNat (e.value (e.bytes 4 x.toNat)) = x := by
        intro x
        rw [Endian.value_bytes e x.toNat_lt, UInt32.ofNat_toNat]
      rw [fullDecode, ssFamily_v6, if_pos rfl, octets_v6, hport, hflow, hscope, u16FromBe_value,
        hword, hword]

/-- `fe80::1` on the interface with index 2, sending from port 4433. -/
def linkLocal : SocketAddr :=
  .v6 ⟨#[0xfe, 0x80, 0, 0, 0, 0, 0, 0, 0, 0, 0, 0, 0, 0, 0, 1], rfl⟩ 4433 0 2

/-- The two receives report different senders for a link-local one, and an answer to the address
that the transparent receive reports is sent without the interface. -/
theorem linkLocal_scope_lost :
    (recvPacketWithLocalAddr .little (fullDecode .little)
        (.runtime (.ok (messageFrom .little linkLocal none [7])))
        (.ok (.v6 Ipv6Addr.localhost 443 0 0)) [0] true =
      .ok (1, linkLocal.unscoped, .v6 Ipv6Addr.localhost 443 0 0, [7]) ∧
    recvPacketWithLocalAddr .little (fullDecode .little)
        (.runtime (.ok (messageFrom .little linkLocal none [7])))
        (.ok (.v6 Ipv6Addr.localhost 443 0 0)) [0] false =
      .ok (1, linkLocal, .v6 Ipv6Addr.localhost 443 0 0, [7])) ∧
    linkLocal.unscoped ≠ linkLocal ∧
    (encode .little linkLocal.unscoped).field 24 4 = [0, 0, 0, 0] ∧
    (encode .little linkLocal).field 24 4 = [2, 0, 0, 0] := by
  refine ⟨⟨?_, ?_⟩, by decide, ?_, ?_⟩
  · exact recv_transparent .little _ linkLocal _ none [7] [0]
  · exact recv_plain .little (fullDecode_encode .little linkLocal) _ none [7] [0]
  · exact (sockaddrIn6_fields .little 4433 _ 0 0).2.2.2.2
  · exact (sockaddrIn6_fields .little 4433 _ 0 2).2.2.2.2

theorem addressesAgree_iff_instances :
    AddressesAgree .little (fullDecode .little) (.v4 Ipv4Addr.localhost 4433) ∧
    ¬ AddressesAgree .little (fullDecode .little) linkLocal ∧
    sockaddrStorageToSocketAddr .little (.ofFields [1, 0]) =
      .error ⟨.invalidData, "unsupported socket address family 1"⟩ := by
  have hfamily : (SockaddrStorage.ofFields [1, 0]).ssFamily .little = 1 := by
    rw [SockaddrStorage.ssFamily, @SockaddrStorage.field_ofFields 0 2 [1, 0] [] [1, 0] [] rfl rfl
      rfl (by decide)]
    rfl
  refine ⟨?_, ?_, ?_⟩
  · exact (addressesAgree_iff .little (fullDecode_encode .little) _).1.mpr ⟨rfl, rfl⟩
  · rw [(addressesAgree_iff .little (fullDecode_encode .little) linkLocal).1]
    decide
  · have hother := (addressesAgree_iff .little (fullDecode_encode .little) linkLocal).2
      (.ofFields [1, 0])
    rw [hfamily] at hother
    exact hother (by decide) (by decide)

end ReusePort
