import Mathlib.Data.List.Basic

/-!
# ReusePort.Core.Net — errors, addresses and datagrams

The data that the server loops pass around: the crate's `Error`, socket
addresses as the standard library has them, `PacketMeta`, and a datagram as the
kernel hands it to a receive call. The one operation here is the copy into a
receive buffer (`copyPrefix`), which every receive path of the crate performs.
-/

namespace ReusePort

/-- `core::Error`. The payload of `Socket` is the text of the `io::Error`. -/
inductive Error where
  | invalidConfig (message : String)
  | unsupportedPlatformOption (message : String)
  | permissionDenied (message : String)
  | socketInitCallback (message : String)
  | socket (error : String)
  | runtime (message : String)
  | handler (message : String)
deriving DecidableEq, Repr

/-- `std::io::ErrorKind`, as far as the crate builds or tests a kind. -/
inductive ErrorKind where
  | permissionDenied
  | notConnected
  | brokenPipe
  | wouldBlock
  | invalidInput
  | invalidData
  | timedOut
  | unexpectedEof
  | unsupported
  | other
deriving DecidableEq, Repr

/-- `std::io::Error`: its kind and its text. -/
structure IoError where
  kind : ErrorKind
  message : String
deriving DecidableEq, Repr

/-- `Error::socket`, which is also `From<io::Error>`. -/
def Error.ofIo (error : IoError) : Error :=
  if error.kind = .permissionDenied then .permissionDenied error.message
  else .socket error.message

/-- `std::net::IpAddr`, by its octets. -/
inductive IpAddr where
  | v4 (octets : Vector UInt8 4)
  | v6 (octets : Vector UInt8 16)
deriving DecidableEq, Repr

/-- `Ipv4Addr::LOCALHOST`. -/
def Ipv4Addr.localhost : Vector UInt8 4 := #v[127, 0, 0, 1]

/-- `Ipv6Addr::LOCALHOST`. -/
def Ipv6Addr.localhost : Vector UInt8 16 := #v[0, 0, 0, 0, 0, 0, 0, 0, 0, 0, 0, 0, 0, 0, 0, 1]

/-- `std::net::SocketAddr`. Only the IPv6 form has flow info and scope id. -/
inductive SocketAddr where
  | v4 (ip : Vector UInt8 4) (port : UInt16)
  | v6 (ip : Vector UInt8 16) (port : UInt16) (flowinfo scopeId : UInt32)
deriving DecidableEq, Repr

namespace SocketAddr

def ip : SocketAddr → IpAddr
  | v4 ip _ => .v4 ip
  | v6 ip _ _ _ => .v6 ip

def port : SocketAddr → UInt16
  | v4 _ port => port
  | v6 _ port _ _ => port

/-- `SocketAddr::set_port`. -/
def withPort (port : UInt16) : SocketAddr → SocketAddr
  | v4 ip _ => v4 ip port
  | v6 ip _ flowinfo scopeId => v6 ip port flowinfo scopeId

end SocketAddr

/-- `udp::PacketMeta`. -/
structure PacketMeta where
  peerAddr : Option SocketAddr
  localAddr : Option SocketAddr
deriving DecidableEq, Repr

/-- A datagram as a successful receive reports it. The UDP length field has
16 bits and counts the 8 header bytes, which bounds the payload. -/
structure Datagram where
  payload : List UInt8
  peerAddr : SocketAddr
  localAddr : SocketAddr
  payload_le : payload.length ≤ 65527
deriving DecidableEq, Repr

/-- The size of the receive buffers, `vec![0_u8; 65_536]`. -/
def bufferLen : ℕ := 65536

/-- A fresh receive buffer. -/
def newBuffer : List UInt8 := List.replicate bufferLen 0

@[simp] theorem length_newBuffer : newBuffer.length = bufferLen := by
  simp [newBuffer]

/-! ## Copying into a buffer -/

/-- `buffer[..len].copy_from_slice(&payload[..len])` for
`len = payload.len().min(buffer.len())`: the buffer after the copy, and `len`. -/
def copyPrefix (payload buffer : List UInt8) : List UInt8 × ℕ :=
  let len := min payload.length buffer.length
  (payload.take len ++ buffer.drop len, len)

@[simp] theorem length_copyPrefix (payload buffer : List UInt8) :
    (copyPrefix payload buffer).1.length = buffer.length := by
  simp only [copyPrefix, List.length_append, List.length_take, List.length_drop]
  omega

/-- What is read back is the payload, cut to the size of the buffer, whatever the buffer
held before. -/
theorem take_copyPrefix_eq (payload buffer : List UInt8) :
    (copyPrefix payload buffer).1.take (copyPrefix payload buffer).2 =
      payload.take buffer.length := by
  rcases Nat.le_total payload.length buffer.length with hle | hle
  · simp [copyPrefix, Nat.min_eq_left hle, List.take_of_length_le hle]
  · simp [copyPrefix, Nat.min_eq_right hle, List.take_take]

/-- A payload that fits is read back whole. -/
theorem take_copyPrefix {payload buffer : List UInt8} (h : payload.length ≤ buffer.length) :
    (copyPrefix payload buffer).1.take (copyPrefix payload buffer).2 = payload := by
  rw [take_copyPrefix_eq, List.take_of_length_le h]

theorem Datagram.fits (d : Datagram) {buffer : List UInt8} (h : buffer.length = bufferLen) :
    d.payload.length ≤ buffer.length := by
  have := d.payload_le
  simp only [h, bufferLen]
  omega

end ReusePort
