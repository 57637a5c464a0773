import ReusePort.Core.QuicGrammar
import ReusePort.Core.Routed

/-!
# ReusePort.Core.Vectored — receiving into several buffers

`poll_recv_from_vectored` is the receive that a QUIC endpoint drives. A routed
socket and a runtime socket both take one datagram and spread it over the
caller's buffers with `scatter_datagram`, of which `core/udp.rs` and
`runtime/tokio.rs` have a copy each. Slices are taken by checked operations, as
in `ReusePort.Core.QuicGrammar`.

* `scatterDatagram_exact` — scattering is the single-buffer copy applied to the
  buffers laid end to end, and no slice is out of bounds;
* `vectored_length_iff` — the reported length is the one a plain receive reports
  exactly when the datagram fits: both sockets report the length of the datagram
  instead of the number of bytes that were written.
-/

namespace ReusePort

open Indexed

/-! ## The scatter loop -/

/-- `buffer[..len].copy_from_slice(src)`. A source of another length panics like a
slice out of bounds. -/
def copyFromSlice (buffer : List UInt8) (len : ℕ) (src : List UInt8) :
    Except Panic (List UInt8) := do
  let dst ← slice buffer 0 len
  if dst.length = src.length then .ok (src ++ buffer.drop len) else .error .indexOutOfBounds

/-- The loop of `scatter_datagram` over the buffers from `offset` on: the buffers as
it leaves them, and the offset that it ends with. -/
def scatterFrom (payload : List UInt8) :
    List (List UInt8) → ℕ → Except Panic (List (List UInt8) × ℕ)
  | [], offset => .ok ([], offset)
  | buffer :: buffers, offset =>
      -- `break`
      if offset ≥ payload.length then .ok (buffer :: buffers, offset)
      else do
        let copyLen := min (payload.length - offset) buffer.length
        let src ← slice payload offset (offset + copyLen)
        let filled ← copyFromSlice buffer copyLen src
        let (rest, last) ← scatterFrom payload buffers (offset + copyLen)
        .ok (filled :: rest, last)

/-- `scatter_datagram` of `core/udp.rs`. -/
def scatterDatagram (payload : List UInt8) (buffers : List (List UInt8)) :=
  scatterFrom payload buffers 0

/-- `scatter_datagram` of `runtime/tokio.rs`. -/
def Runtime.scatterDatagram (payload : List UInt8) (buffers : List (List UInt8)) :=
  scatterFrom payload buffers 0

/-- The total size of the buffers. -/
def capacity (buffers : List (List UInt8)) : ℕ :=
  buffers.flatten.length

/-! ## Scattering is copying -/

theorem slice_eq_ok {bytes : List UInt8} {start len : ℕ} (h : start + len ≤ bytes.length) :
    slice bytes start (start + len) = .ok ((bytes.drop start).take len) := by
  rw [slice, if_pos ⟨by omega, h⟩, List.extract_eq_take_drop, Nat.add_sub_cancel_left]

theorem copyFromSlice_eq_ok {buffer src : List UInt8} {len : ℕ} (hlen : len ≤ buffer.length)
    (hsrc : src.length = len) : copyFromSlice buffer len src = .ok (src ++ buffer.drop len) := by
  have hslice := @slice_eq_ok buffer 0 len (by omega)
  rw [Nat.zero_add] at hslice
  rw [copyFromSlice, hslice]
  refine if_pos ?_
  rw [List.length_take, List.length_drop, hsrc]
  omega

/-- One round of the loop fills its buffer like a single-buffer copy of what is left. -/
theorem scatterFrom_cons {payload buffer : List UInt8} {offset : ℕ} (buffers : List (List UInt8))
    (h : offset < payload.length) :
    scatterFrom payload (buffer :: buffers) offset =
      (scatterFrom payload buffers (offset + (copyPrefix (payload.drop offset) buffer).2)).map
        fun r => ((copyPrefix (payload.drop offset) buffer).1 :: r.1, r.2) := by
  have hlen : min (payload.length - offset) buffer.length =
      (copyPrefix (payload.drop offset) buffer).2 := by
    rw [copyPrefix, List.length_drop]
  have hbuf : (copyPrefix (payload.drop offset) buffer).2 ≤ buffer.length := by omega
  have hslice : offset + (copyPrefix (payload.drop offset) buffer).2 ≤ payload.length := by omega
  have hsrc : ((payload.drop offset).take (copyPrefix (payload.drop offset) buffer).2).length =
      (copyPrefix (payload.drop offset) buffer).2 := by
    rw [List.length_take, List.length_drop]
    omega
  rw [scatterFrom, if_neg (by omega), hlen]
  simp only [slice_eq_ok hslice, copyFromSlice_eq_ok hbuf hsrc, bind, Except.bind]
  rcases scatterFrom payload buffers _ with e | r <;> rfl

/-- Copying into two buffers laid end to end: the second one gets what the first one left. -/
theorem copyPrefix_append (payload buffer rest : List UInt8) :
    copyPrefix payload (buffer ++ rest) =
      ((copyPrefix payload buffer).1 ++
          (copyPrefix (payload.drop (copyPrefix payload buffer).2) rest).1,
        (copyPrefix payload buffer).2 +
          (copyPrefix (payload.drop (copyPrefix payload buffer).2) rest).2) := by
  rcases Nat.le_total payload.length buffer.length with hle | hle
  · -- the payload ends in the first buffer
    have hmin : min payload.length (buffer.length + rest.length) = payload.length := by omega
    simp [copyPrefix, Nat.min_eq_left hle, hmin, List.drop_append_of_le_length hle]
  · -- the first buffer is full
    have hmin : min payload.length (buffer.length + rest.length) =
        buffer.length + min (payload.length - buffer.length) rest.length := by omega
    simp [copyPrefix, Nat.min_eq_right hle, hmin, List.take_add, List.drop_append]

/-- The loop over all buffers copies what is left of the payload into the buffers laid end to
end, buffer by buffer. -/
theorem scatterFrom_spec {payload : List UInt8} (buffers : List (List UInt8)) {offset : ℕ}
    (h : offset ≤ payload.length) :
    ∃ filled, scatterFrom payload buffers offset =
        .ok (filled, offset + (copyPrefix (payload.drop offset) buffers.flatten).2) ∧
      filled.map List.length = buffers.map List.length ∧
      filled.flatten = (copyPrefix (payload.drop offset) buffers.flatten).1 := by
  induction buffers generalizing offset with
  | nil => exact ⟨[], by simp [scatterFrom, copyPrefix], rfl, by simp [copyPrefix]⟩
  | cons buffer buffers ih =>
      rcases Nat.eq_or_lt_of_le h with rfl | hlt
      · -- the payload is used up: the loop breaks and the buffers stay as they are
        refine ⟨buffer :: buffers, ?_, rfl, by simp [copyPrefix]⟩
        rw [scatterFrom, if_pos (Nat.le_refl _)]
        simp [copyPrefix]
      · have hle : offset + (copyPrefix (payload.drop offset) buffer).2 ≤ payload.length := by
          have : (copyPrefix (payload.drop offset) buffer).2 =
            min (payload.drop offset).length buffer.length := rfl
          rw [List.length_drop] at this
          omega
        obtain ⟨filled, hrun, hlens, hbytes⟩ := ih hle
        rw [← List.drop_drop] at hrun hbytes
        refine ⟨(copyPrefix (payload.drop offset) buffer).1 :: filled, ?_, ?_, ?_⟩
        · rw [scatterFrom_cons buffers hlt, hrun, List.flatten_cons, copyPrefix_append,
            ← Nat.add_assoc]
          rfl
        · rw [List.map_cons, List.map_cons, length_copyPrefix, hlens]
        · rw [List.flatten_cons, List.flatten_cons, copyPrefix_append, hbytes]

/-- Both copies of `scatter_datagram` do to the buffers laid end to end what
`recv_from_slice` does to a single buffer. -/
theorem scatterDatagram_exact (payload : List UInt8) (buffers : List (List UInt8)) :
    ∃ filled, scatterDatagram payload buffers =
        .ok (filled, min payload.length buffers.flatten.length) ∧
      Runtime.scatterDatagram payload buffers =
        .ok (filled, min payload.length buffers.flatten.length) ∧
      filled.map List.length = buffers.map List.length ∧
      filled.flatten =
        payload.take (min payload.length buffers.flatten.length) ++
          buffers.flatten.drop (min payload.length buffers.flatten.length) ∧
      ∀ peerAddr, recvFromSlice ⟨payload, peerAddr⟩ buffers.flatten =
        (filled.flatten, min payload.length buffers.flatten.length, peerAddr) := by
  obtain ⟨filled, hrun, hlens, hbytes⟩ := scatterFrom_spec buffers (Nat.zero_le payload.length)
  rw [Nat.zero_add] at hrun
  refine ⟨filled, hrun, hrun, hlens, hbytes, ?_⟩
  intro peerAddr
  rw [hbytes]
  rfl

/-! ## The polled receives -/

/-- `std::task::Poll`. -/
inductive Poll (α : Type) where
  | pending
  | ready (value : α)
deriving DecidableEq, Repr

/-- What a receive returns: the length that it reports and the peer. -/
abbrev PollRecv := Poll (Except IoError (ℕ × SocketAddr))

/-- A vectored receive: the buffers as it leaves them, how many bytes it has written
into them, and what it returns. -/
structure VectoredRecv where
  buffers : List (List UInt8)
  written : ℕ
  result : PollRecv

/-- `RoutedUdpSocket::poll_recv_packet`, on what polling the channel gives; a closed
channel gives `None`. -/
def pollRecvPacket : Poll (Option RoutedPacket) → Poll (Except IoError RoutedPacket)
  | .pending => .pending
  | .ready (some packet) => .ready (.ok packet)
  | .ready none => .ready (.error ⟨.unexpectedEof, "routed UDP socket closed"⟩)

/-- `RoutedUdpSocket::poll_recv_from_slice`. -/
def routedPollRecvFromSlice (channel : Poll (Option RoutedPacket)) (buffer : List UInt8) :
    List UInt8 × PollRecv :=
  match pollRecvPacket channel with
  | .pending => (buffer, .pending)
  | .ready (.error error) => (buffer, .ready (.error error))
  | .ready (.ok packet) =>
      let (buffer, len, peerAddr) := pollRecvFromSlice packet buffer
      (buffer, .ready (.ok (len, peerAddr)))

/-- `RoutedUdpSocket::poll_recv_from_vectored`. -/
def routedPollRecvFromVectored (channel : Poll (Option RoutedPacket))
    (buffers : List (List UInt8)) : Except Panic VectoredRecv :=
  match pollRecvPacket channel with
  | .pending => .ok ⟨buffers, 0, .pending⟩
  | .ready (.error error) => .ok ⟨buffers, 0, .ready (.error error)⟩
  | .ready (.ok packet) => do
      let (buffers, written) ← scatterDatagram packet.payload buffers
      -- `payload.len()`, whatever was written
      .ok ⟨buffers, written, .ready (.ok (packet.payload.length, packet.peerAddr))⟩

/-- `udp_poll_recv_from_slice`, on what polling the socket gives. The kernel cuts a
datagram to the buffer, and `ReadBuf::filled` is what it has written. -/
def Runtime.udpPollRecvFromSlice (socket : Poll (Except IoError Datagram))
    (buffer : List UInt8) : List UInt8 × PollRecv :=
  match socket with
  | .pending => (buffer, .pending)
  | .ready (.error error) => (buffer, .ready (.error error))
  | .ready (.ok d) =>
      let (buffer, recv) := udpReceive buffer d
      (buffer, .ready (.ok (recv.len, recv.peerAddr)))

/-- `udp_poll_recv_from_vectored`. -/
def Runtime.udpPollRecvFromVectored (socket : Poll (Except IoError Datagram))
    (buffers : List (List UInt8)) : Except Panic VectoredRecv :=
  match udpPollRecvFromSlice socket newBuffer with
  | (_, .pending) => .ok ⟨buffers, 0, .pending⟩
  | (_, .ready (.error error)) => .ok ⟨buffers, 0, .ready (.error error)⟩
  | (buffer, .ready (.ok (len, peerAddr))) => do
      -- `len` counts the bytes of the temporary buffer
      let payload ← slice buffer 0 len
      let (buffers, written) ← Runtime.scatterDatagram payload buffers
      .ok ⟨buffers, written, .ready (.ok (len, peerAddr))⟩

/-- `UdpSocketInner`, by what polling the socket inside gives. -/
inductive UdpSocketInner where
  | runtime (socket : Poll (Except IoError Datagram))
  | routed (channel : Poll (Option RoutedPacket))

/-- `UdpSocket::poll_recv_from`. -/
def UdpSocketInner.pollRecvFrom : UdpSocketInner → List UInt8 → List UInt8 × PollRecv
  | runtime socket => Runtime.udpPollRecvFromSlice socket
  | routed channel => routedPollRecvFromSlice channel

/-- `UdpSocket::poll_recv_from_vectored`. -/
def UdpSocketInner.pollRecvFromVectored :
    UdpSocketInner → List (List UInt8) → Except Panic VectoredRecv
  | runtime socket => Runtime.udpPollRecvFromVectored socket
  | routed channel => routedPollRecvFromVectored channel

/-! ## The reported length -/

/-- The vectored receive reports what it has written, which is what a plain receive into one
buffer of the same total size reports; so the caller can cut its buffers there. -/
def LengthAgrees (inner : UdpSocketInner) (buffers : List (List UInt8)) : Prop :=
  ∃ filled len peerAddr,
    inner.pollRecvFromVectored buffers = .ok ⟨filled, len, .ready (.ok (len, peerAddr))⟩ ∧
    (∀ buffer : List UInt8, buffer.length = capacity buffers →
      (inner.pollRecvFrom buffer).2 = .ready (.ok (len, peerAddr))) ∧
    len ≤ capacity buffers

/-- A socket that has a datagram ready, as both kinds of receive see it. -/
structure HasDatagram (inner : UdpSocketInner) (payload : List UInt8) (peerAddr : SocketAddr) :
    Prop where
  plain : ∀ buffer, (inner.pollRecvFrom buffer).2 =
    .ready (.ok ((copyPrefix payload buffer).2, peerAddr))
  vectored : ∀ buffers, inner.pollRecvFromVectored buffers =
    (scatterDatagram payload buffers).map
      fun r => ⟨r.1, r.2, .ready (.ok (payload.length, peerAddr))⟩

theorem hasDatagram_routed (packet : RoutedPacket) :
    HasDatagram (.routed (.ready (some packet))) packet.payload packet.peerAddr where
  plain _ := rfl
  vectored buffers := by
    simp only [UdpSocketInner.pollRecvFromVectored, routedPollRecvFromVectored, pollRecvPacket,
      bind, Except.bind]
    rcases scatterDatagram packet.payload buffers with e | r <;> rfl

/-- The temporary buffer of the runtime socket holds any datagram. -/
theorem slice_udpReceive (d : Datagram) {buffer : List UInt8} (h : buffer.length = bufferLen) :
    slice (udpReceive buffer d).1 0 (udpReceive buffer d).2.len = .ok d.payload ∧
      (udpReceive buffer d).2.len = d.payload.length := by
  have hlen : (udpReceive buffer d).2.len = d.payload.length := Nat.min_eq_left (d.fits h)
  have hslice := @slice_eq_ok (udpReceive buffer d).1 0 (udpReceive buffer d).2.len (by
    rw [length_udpReceive, hlen, Nat.zero_add]
    exact d.fits h)
  rw [Nat.zero_add, List.drop_zero, take_udpReceive d h] at hslice
  exact ⟨hslice, hlen⟩

theorem hasDatagram_runtime (d : Datagram) :
    HasDatagram (.runtime (.ready (.ok d))) d.payload d.peerAddr where
  plain _ := rfl
  vectored buffers := by
    obtain ⟨hslice, hlen⟩ := slice_udpReceive d length_newBuffer
    rw [hlen] at hslice
    have hpeer : (udpReceive newBuffer d).2.peerAddr = d.peerAddr := rfl
    simp only [UdpSocketInner.pollRecvFromVectored, Runtime.udpPollRecvFromVectored,
      Runtime.udpPollRecvFromSlice, hslice, hlen, hpeer, bind, Except.bind]
    rw [Runtime.scatterDatagram, scatterDatagram]
    rcases scatterFrom d.payload buffers 0 with e | r <;> rfl

theorem HasDatagram.lengthAgrees_iff {inner : UdpSocketInner} {payload : List UInt8}
    {peerAddr : SocketAddr} (h : HasDatagram inner payload peerAddr)
    (buffers : List (List UInt8)) :
    LengthAgrees inner buffers ↔ payload.length ≤ capacity buffers := by
  obtain ⟨filled, hrun, -, -⟩ := scatterFrom_spec buffers (Nat.zero_le payload.length)
  have hvec := h.vectored buffers
  rw [scatterDatagram, hrun, Nat.zero_add, List.drop_zero] at hvec
  constructor
  · -- the reported length is always that of the payload
    rintro ⟨filled', len, peerAddr', hresult, -, hle⟩
    rw [hvec] at hresult
    simp only [Except.map, Except.ok.injEq, VectoredRecv.mk.injEq, Poll.ready.injEq,
      Prod.mk.injEq] at hresult
    obtain ⟨-, -, rfl, -⟩ := hresult
    exact hle
  · intro hle
    have hwritten : (copyPrefix payload buffers.flatten).2 = payload.length := Nat.min_eq_left hle
    rw [hwritten] at hvec
    refine ⟨filled, payload.length, peerAddr, hvec, ?_, hle⟩
    intro buffer hbuffer
    have hcopied : (copyPrefix payload buffer).2 = payload.length :=
      Nat.min_eq_left (hbuffer ▸ hle)
    rw [h.plain, hcopied]

/-- Both sockets report the length of the datagram, so the length is right exactly when the
datagram fits into the buffers. -/
theorem vectored_length_iff (buffers : List (List UInt8)) :
    (∀ packet : RoutedPacket, LengthAgrees (.routed (.ready (some packet))) buffers ↔
      packet.payload.length ≤ capacity buffers) ∧
    (∀ d : Datagram, LengthAgrees (.runtime (.ready (.ok d))) buffers ↔
      d.payload.length ≤ capacity buffers) := by
  constructor
  · intro packet
    exact (hasDatagram_routed packet).lengthAgrees_iff buffers
  · intro d
    exact (hasDatagram_runtime d).lengthAgrees_iff buffers

/-- Three bytes for one buffer of two bytes: the length 3 is reported, and a plain receive
reports 2. -/
theorem vectored_length_truncated :
    ¬ LengthAgrees (.routed (.ready (some ⟨[1, 2, 3], .v4 Ipv4Addr.localhost 4433⟩))) [[0, 0]] ∧
    (∃ filled, UdpSocketInner.pollRecvFromVectored
        (.routed (.ready (some ⟨[1, 2, 3], .v4 Ipv4Addr.localhost 4433⟩))) [[0, 0]] =
      .ok ⟨filled, 2, .ready (.ok (3, .v4 Ipv4Addr.localhost 4433))⟩) ∧
    ¬ LengthAgrees (.runtime (.ready (.ok
      ⟨[1, 2, 3], .v4 Ipv4Addr.localhost 4433, .v4 Ipv4Addr.localhost 443, by decide⟩)))
      [[0, 0]] := by
  have hmore : ¬ [1, 2, 3].length ≤ capacity [[0, 0]] := by decide
  refine ⟨?_, ⟨[[1, 2]], rfl⟩, ?_⟩
  · rw [(hasDatagram_routed _).lengthAgrees_iff]
    exact hmore
  · rw [(hasDatagram_runtime _).lengthAgrees_iff]
    exact hmore

end ReusePort
