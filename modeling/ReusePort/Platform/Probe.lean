import Mathlib.Data.List.FinRange
import ReusePort.Platform.Bind

/-!
# ReusePort.Platform.Probe — probing the attached selector

After a selector is attached, `quic_reuseport_selector_routes_probe`
(`platform/linux.rs`) sends one packet for every worker to the group's own address and
waits for it on all sockets. The model runs against every behaviour of the system:
foreign datagrams, errors and any clock. The two loops without a bound of their own,
waiting and draining, run on fuel.

* `probePass_ok`, `waitForProbe_ok` — a round that succeeds has read one datagram: the
  probe packet, on the expected socket;
* `quicWorkerIndex_probePacket` — the router's answer for the probe packets;
* `probe_sound` — what a successful probe has seen.
-/

namespace ReusePort

open Calls Calls.Prog

variable {ω : Type}

/-! ## The probe -/

/-- `IpAddr::is_unspecified`. -/
def IpAddr.isUnspecified : IpAddr → Bool
  | .v4 octets => octets = Vector.replicate 4 0
  | .v6 octets => octets = Vector.replicate 16 0

/-- `routable_probe_addr`: the loopback address in place of an unspecified one. -/
def routableProbeAddr (addr : SocketAddr) : SocketAddr :=
  if addr.ip.isUnspecified then
    match addr with
    | .v4 _ port => .v4 Ipv4Addr.localhost port
    | .v6 _ port _ _ => .v6 Ipv6Addr.localhost port 0 0
  else addr

/-- Where the sender of the probe is bound: `127.0.0.1:0` or `[::1]:0`. -/
def probeSenderAddr : SocketAddr → SocketAddr
  | .v4 .. => .v4 Ipv4Addr.localhost 0
  | .v6 .. => .v6 Ipv6Addr.localhost 0 0 0

/-- `quic_reuseport_probe_packet`: a long header whose DCID begins with the index. -/
def quicReuseportProbePacket (expectedSocket : ℕ) : List UInt8 :=
  let workerIndex := UInt16.ofNat expectedSocket
  let high := UInt8.ofNat (workerIndex.toNat / 256)
  let low := UInt8.ofNat (workerIndex.toNat % 256)
  [0xe0, 0, 0, 0, 1, 4, high, low, 0xa5, low]

/-- `Duration::from_millis`. -/
def millis (n : ℕ) : ℕ := n * 1000000

/-- `[0_u8; 16]`. -/
def probeBuffer : List UInt8 := List.replicate 16 0

/-- One pass of `quic_reuseport_selector_wait_for_probe` over the sockets from number
`index` on. `true` is its `return Ok(())`; otherwise the pass ends with what the buffer
holds. -/
def probePass (os : Os ω) (expectedSocket : ℕ) (probePacket : List UInt8) :
    ℕ → List BoundSocket → List UInt8 → Sys ω IoError (Bool × List UInt8)
  | _, [], buffer => pure (false, buffer)
  | index, socket :: sockets, buffer => do
      let reply : Except IoError (List UInt8) ← call os (.recvFrom socket.fd)
      match reply with
      | .ok payload =>
          let read := copyPrefix payload buffer
          if read.1.take read.2 = probePacket ∧ index = expectedSocket then
            pure (true, read.1)
          else if read.1.take read.2 = probePacket then
            throw ⟨.invalidData, "QUIC reuse-port selector probe routed to unexpected worker"⟩
          else
            throw ⟨.invalidData, "QUIC reuse-port selector probe received unexpected packet"⟩
      | .error error =>
          if error.kind = .wouldBlock then
            probePass os expectedSocket probePacket (index + 1) sockets buffer
          else throw error

/-- The loop of `quic_reuseport_selector_wait_for_probe`. -/
def probeLoop (os : Os ω) (sockets : List BoundSocket) (expectedSocket : ℕ)
    (probePacket : List UInt8) (deadline : ℕ) : ℕ → List UInt8 → Sys ω IoError Unit
  | 0, _ => diverge
  | fuel + 1, buffer => do
      let now : ℕ ← call os .now
      if now < deadline then do
        let pass ← probePass os expectedSocket probePacket 0 sockets buffer
        if pass.1 then pure ()
        else do
          let _ ← call os (.sleep (millis 1))
          probeLoop os sockets expectedSocket probePacket deadline fuel pass.2
      else throw ⟨.timedOut, "QUIC reuse-port selector probe timed out"⟩

/-- `quic_reuseport_selector_wait_for_probe`. -/
def quicReuseportSelectorWaitForProbe (os : Os ω) (fuel : ℕ) (sockets : List BoundSocket)
    (expectedSocket : ℕ) (probePacket : List UInt8) : Sys ω IoError Unit := do
  let now : ℕ ← call os .now
  probeLoop os sockets expectedSocket probePacket (now + millis 100) fuel probeBuffer

/-- The inner loop of `quic_reuseport_selector_drain_probe_packets`. -/
def drainSocket (os : Os ω) (fd : ℕ) : ℕ → List UInt8 → Sys ω IoError (List UInt8)
  | 0, _ => diverge
  | fuel + 1, buffer => do
      let reply : Except IoError (List UInt8) ← call os (.recvFrom fd)
      match reply with
      | .ok payload => drainSocket os fd fuel (copyPrefix payload buffer).1
      | .error error => if error.kind = .wouldBlock then pure buffer else throw error

/-- The outer loop of `quic_reuseport_selector_drain_probe_packets`. -/
def drainSockets (os : Os ω) (fuel : ℕ) : List BoundSocket → List UInt8 → Sys ω IoError Unit
  | [], _ => pure ()
  | socket :: sockets, buffer => do
      let buffer ← drainSocket os socket.fd fuel buffer
      drainSockets os fuel sockets buffer

/-- `quic_reuseport_selector_drain_probe_packets`. -/
def quicReuseportSelectorDrainProbePackets (os : Os ω) (fuel : ℕ)
    (sockets : List BoundSocket) : Sys ω IoError Unit :=
  drainSockets os fuel sockets probeBuffer

/-- One round of the probe: send the packet for a socket and wait for it. -/
def probeRound (os : Os ω) (fuel : ℕ) (sockets : List BoundSocket) (sender : ℕ)
    (target : SocketAddr) (expectedSocket : ℕ) : Sys ω IoError Unit := do
  let probePacket := quicReuseportProbePacket expectedSocket
  ofResult id (← call os (.sendTo sender probePacket target))
  quicReuseportSelectorWaitForProbe os fuel sockets expectedSocket probePacket

/-- `socket.set_nonblocking(true)` for every socket, then a round for each. -/
def probeRounds (os : Os ω) (fuel : ℕ) (sockets : List BoundSocket) (sender : ℕ)
    (target : SocketAddr) : Sys ω IoError Unit := do
  forM sockets fun socket => do ofResult id (← call os (.setNonblocking socket.fd true))
  forM (List.range sockets.length) (probeRound os fuel sockets sender target)

/-- `quic_reuseport_selector_routes_probe`. -/
def quicReuseportSelectorRoutesProbe (os : Os ω) (fuel : ℕ) (sockets : List BoundSocket)
    (bindAddr : SocketAddr) : Sys ω IoError Unit := do
  let target := routableProbeAddr bindAddr
  let sender ← ofResult id (← call os (.udpSocketBind (probeSenderAddr target)))
  if sockets = [] ∨ sockets.length > 65535 + 1 then
    throw ⟨.invalidInput, "worker count must fit the QUIC CID worker index prefix"⟩
  else do
    probeRounds os fuel sockets sender target
    quicReuseportSelectorDrainProbePackets os fuel sockets

/-! ## The probe packets -/

theorem length_probePacket (i : ℕ) : (quicReuseportProbePacket i).length = 10 := rfl

/-- The cast to 16 bits loses nothing below 65536 workers: the router sends the packet
for socket `i` to worker `i`. -/
theorem quicWorkerIndex_probePacket {i workers : ℕ} (hi : i < workers)
    (hw : workers ≤ 65536) :
    quicWorkerIndex (quicReuseportProbePacket i) workers = some i := by
  have hcast : (UInt16.ofNat i).toNat = i := UInt16.toNat_ofNat_of_lt' (lt_of_lt_of_le hi hw)
  have hindex : (UInt8.ofNat (i / 256)).toNat * 256 + (UInt8.ofNat (i % 256)).toNat = i := by
    simp only [UInt8.toNat_ofNat']
    omega
  rw [quicWorkerIndex_eq_some_iff]
  refine ⟨by omega, Or.inr ⟨0xe0, 0, 0, 0, 1, 4, UInt8.ofNat (i / 256), UInt8.ofNat (i % 256),
    [0xa5, UInt8.ofNat (i % 256)], ?_, by decide, by decide, le_rfl, ?_⟩⟩
  · simp only [quicReuseportProbePacket, hcast]
  · rw [hindex, Nat.mod_eq_of_lt hi]

/-- Different sockets have different packets. -/
theorem probePacket_inj {i j : ℕ} (hi : i < 65536) (hj : j < 65536)
    (h : quicReuseportProbePacket i = quicReuseportProbePacket j) : i = j := by
  have hrouted := quicWorkerIndex_probePacket hi le_rfl
  rw [h, quicWorkerIndex_probePacket hj le_rfl] at hrouted
  exact (Option.some.inj hrouted).symm

/-! ## What a round reads -/

/-- The datagrams that have been sent and read. -/
inductive Exchange where
  | sent (packet : List UInt8) (target : SocketAddr)
  | read (fd : ℕ) (payload : List UInt8)
deriving DecidableEq, Repr

/-- The datagram that a call has moved, if it has. -/
def Exchange.ofEvent : Event SysCall.Reply → Option Exchange
  | ⟨.sendTo _ packet target, .ok _⟩ => some (.sent packet target)
  | ⟨.recvFrom fd, .ok payload⟩ => some (.read fd payload)
  | _ => none

/-- The datagrams moved so far, in order. -/
def exchanges (s : State SysCall.Reply ω) : List Exchange := s.log.filterMap Exchange.ofEvent

theorem exchanges_snoc (s : State SysCall.Reply ω) (next : ω) (e : Event SysCall.Reply) :
    exchanges ⟨next, s.log ++ [e]⟩ = exchanges s ++ (Exchange.ofEvent e).toList := by
  unfold exchanges
  rw [List.filterMap_append]
  cases h : Exchange.ofEvent e <;> simp [h]

/-- What is read back shorter than the buffer was not cut off. -/
theorem eq_of_take_eq {payload packet : List UInt8} {n : ℕ} (hlen : packet.length < n)
    (h : payload.take n = packet) : payload = packet := by
  rw [← h, List.length_take] at hlen
  rw [← h, List.take_of_length_le (by omega)]

/-- A pass reads its packet from the first socket, which is the expected one, or finds nothing
there and goes on. -/
theorem probePass_cons_ok {os : Os ω} {expected : ℕ} {packet : List UInt8}
    (hpacket : packet.length < 16) {socket : BoundSocket} {sockets : List BoundSocket} {index : ℕ}
    {buffer : List UInt8} (hbuffer : buffer.length = 16) {found : Bool} {after : List UInt8}
    {s t : State SysCall.Reply ω}
    (h : (probePass os expected packet index (socket :: sockets) buffer).exec s =
      some (.ok (found, after), t)) :
    (found = true ∧ index = expected ∧ after.length = 16 ∧
      exchanges t = exchanges s ++ [.read socket.fd packet]) ∨
    ∃ s₁, exchanges s₁ = exchanges s ∧
      (probePass os expected packet (index + 1) sockets buffer).exec s₁ =
        some (.ok (found, after), t) := by
  unfold probePass at h
  rw [exec_bind_call] at h
  cases hreply : (os.answer (.recvFrom socket.fd) s.env).1 with
  | ok payload =>
      rw [hreply] at h
      dsimp only at h
      rw [take_copyPrefix_eq, hbuffer] at h
      split at h
      · rename_i hfound
        obtain ⟨htake, hindex⟩ := hfound
        cases h
        have hpayload : payload = packet := eq_of_take_eq hpacket htake
        refine Or.inl ⟨rfl, hindex, by rw [length_copyPrefix, hbuffer], ?_⟩
        rw [exchanges_snoc, ← hpayload]
        rfl
      · split at h <;> cases h
  | error error =>
      rw [hreply] at h
      dsimp only at h
      split at h
      · refine Or.inr ⟨_, ?_, h⟩
        rw [exchanges_snoc]
        exact List.append_nil _
      · cases h

/-- A pass that finds its packet has read nothing else, and has found it on the expected
socket; a pass that does not has read nothing. -/
theorem probePass_ok {os : Os ω} {expected : ℕ} {packet : List UInt8}
    (hpacket : packet.length < 16) (sockets : List BoundSocket) {index : ℕ}
    {buffer : List UInt8} (hbuffer : buffer.length = 16) {found : Bool} {after : List UInt8}
    {s t : State SysCall.Reply ω}
    (h : (probePass os expected packet index sockets buffer).exec s =
      some (.ok (found, after), t)) :
    after.length = 16 ∧
      if found then
        ∃ socket, index ≤ expected ∧ sockets[expected - index]? = some socket ∧
          exchanges t = exchanges s ++ [.read socket.fd packet]
      else exchanges t = exchanges s := by
  induction sockets generalizing index s with
  | nil =>
      unfold probePass at h
      cases h
      exact ⟨hbuffer, rfl⟩
  | cons socket sockets ih =>
      rcases probePass_cons_ok hpacket hbuffer h with
        ⟨rfl, rfl, hlen, hread⟩ | ⟨s₁, hquiet, hnext⟩
      · refine ⟨hlen, socket, le_rfl, ?_, hread⟩
        rw [Nat.sub_self, List.getElem?_cons_zero]
      · obtain ⟨hlen, hrest⟩ := ih hnext
        refine ⟨hlen, ?_⟩
        rw [hquiet] at hrest
        cases found with
        | true =>
            obtain ⟨socket', hle, hget, hread⟩ := hrest
            refine ⟨socket', by omega, ?_, hread⟩
            rw [show expected - index = expected - (index + 1) + 1 by omega,
              List.getElem?_cons_succ]
            exact hget
        | false => exact hrest

/-- The clock and the sleeps move no datagram. -/
theorem exchanges_quiet {os : Os ω} {c : SysCall} (hc : ∀ r, Exchange.ofEvent ⟨c, r⟩ = none)
    (s : State SysCall.Reply ω) :
    exchanges ⟨(os.answer c s.env).2, s.log ++ [⟨c, (os.answer c s.env).1⟩]⟩ = exchanges s := by
  rw [exchanges_snoc, hc]
  exact List.append_nil _

theorem probeLoop_ok {os : Os ω} {sockets : List BoundSocket} {expected deadline : ℕ}
    {packet : List UInt8} (hpacket : packet.length < 16) (fuel : ℕ) {buffer : List UInt8}
    (hbuffer : buffer.length = 16) {s t : State SysCall.Reply ω}
    (h : (probeLoop os sockets expected packet deadline fuel buffer).exec s =
      some (.ok (), t)) :
    ∃ socket, sockets[expected]? = some socket ∧
      exchanges t = exchanges s ++ [.read socket.fd packet] := by
  induction fuel generalizing buffer s with
  | zero => cases h
  | succ fuel ih =>
      unfold probeLoop at h
      rw [exec_bind_call] at h
      split at h
      · obtain ⟨⟨found, after⟩, s₁, hpass, h⟩ := exec_bind_eq_ok.mp h
        obtain ⟨hafter, hread⟩ := probePass_ok hpacket sockets hbuffer hpass
        rw [exchanges_quiet (fun _ => rfl)] at hread
        cases found with
        | true =>
            cases h
            obtain ⟨socket, _, hget, hread⟩ := hread
            exact ⟨socket, hget, hread⟩
        | false =>
            -- nothing was read: sleep and go on
            replace hread : exchanges s₁ = exchanges s := hread
            rw [if_neg Bool.false_ne_true, exec_bind_call] at h
            obtain ⟨socket, hget, hlater⟩ := ih hafter h
            rw [exchanges_quiet (fun _ => rfl), hread] at hlater
            exact ⟨socket, hget, hlater⟩
      · cases h

theorem waitForProbe_ok {os : Os ω} {fuel : ℕ} {sockets : List BoundSocket} {expected : ℕ}
    {packet : List UInt8} (hpacket : packet.length < 16) {s t : State SysCall.Reply ω}
    (h : (quicReuseportSelectorWaitForProbe os fuel sockets expected packet).exec s =
      some (.ok (), t)) :
    ∃ socket, sockets[expected]? = some socket ∧
      exchanges t = exchanges s ++ [.read socket.fd packet] := by
  unfold quicReuseportSelectorWaitForProbe at h
  rw [exec_bind_call] at h
  obtain ⟨socket, hget, hread⟩ := probeLoop_ok hpacket fuel (List.length_replicate ..) h
  rw [exchanges_quiet (fun _ => rfl)] at hread
  exact ⟨socket, hget, hread⟩

/-- What round `i` exchanges when it succeeds. -/
def roundExchanges (sockets : List BoundSocket) (target : SocketAddr)
    (i : Fin sockets.length) : List Exchange :=
  [.sent (quicReuseportProbePacket i) target,
    .read (sockets.get i).fd (quicReuseportProbePacket i)]

theorem probeRound_ok {os : Os ω} {fuel sender : ℕ} {sockets : List BoundSocket}
    {target : SocketAddr} {i : Fin sockets.length} {s t : State SysCall.Reply ω}
    (h : (probeRound os fuel sockets sender target i).exec s = some (.ok (), t)) :
    exchanges t = exchanges s ++ roundExchanges sockets target i := by
  unfold probeRound at h
  rw [exec_bind_call] at h
  obtain ⟨_, s₁, hsend, hwait⟩ := exec_bind_eq_ok.mp h
  rw [exec_ofResult_eq_ok] at hsend
  obtain ⟨hsent, rfl⟩ := hsend
  obtain ⟨socket, hget, hread⟩ := waitForProbe_ok
    (by rw [length_probePacket]; decide) hwait
  have hsocket : socket = sockets.get i := by
    rw [List.getElem?_eq_getElem i.isLt] at hget
    exact (Option.some.inj hget).symm
  rw [hread, exchanges_snoc, hsent, hsocket, List.append_assoc]
  rfl

/-- The loop over the rounds, as a loop over the positions of the sockets. -/
theorem forM_range_eq {f : ℕ → Sys ω IoError PUnit} (n : ℕ) :
    forM (List.range n) f = forM (List.finRange n) fun i : Fin n => f i.val := by
  rw [← List.map_coe_finRange_eq_range]
  generalize List.finRange n = is
  induction is with
  | nil => rfl
  | cons i is ih => rw [List.map_cons, List.forM_cons, List.forM_cons, ih]

theorem probeRounds_ok {os : Os ω} {fuel sender : ℕ} {sockets : List BoundSocket}
    {target : SocketAddr} {s t : State SysCall.Reply ω}
    (h : (probeRounds os fuel sockets sender target).exec s = some (.ok (), t)) :
    exchanges t = exchanges s ++
      (List.finRange sockets.length).flatMap (roundExchanges sockets target) := by
  unfold probeRounds at h
  obtain ⟨_, s₁, hset, hrounds⟩ := exec_bind_eq_ok.mp h
  -- making the sockets nonblocking moves no datagram
  have hkeeps : Keeps exchanges (forM sockets fun socket => do
      ofResult id (← call os (.setNonblocking socket.fd true)) : Sys ω IoError Unit) :=
    .forM sockets fun socket => .bind (.call (exchanges_quiet fun _ => rfl)) (.ofResult id)
  have hquiet : exchanges s₁ = exchanges s := hkeeps s _ s₁ hset
  rw [forM_range_eq] at hrounds
  rw [← hquiet]
  exact exec_forM_eq_ok _ (fun i _ s t hround => probeRound_ok hround) hrounds

/-! ## Soundness -/

/-- The probe packet of round `i` is read on socket `i` and on no other. -/
theorem read_mem_rounds (sockets : List BoundSocket) (target : SocketAddr)
    (i : Fin sockets.length) :
    .read (sockets.get i).fd (quicReuseportProbePacket i) ∈
      (List.finRange sockets.length).flatMap (roundExchanges sockets target) := by
  rw [List.mem_flatMap]
  exact ⟨i, List.mem_finRange i, by simp [roundExchanges]⟩

/-- A successful probe. There are between 1 and 65536 sockets; before the final drain,
each round has sent the packet for its socket and read one datagram, that packet on that
socket. The packets differ, and the router sends each to its worker. So if every
datagram read was put there by a selector, that selector agrees with the router on the
probe packets, one for every worker. -/
theorem probe_sound {os : Os ω} {fuel : ℕ} {sockets : List BoundSocket}
    {bindAddr : SocketAddr} {s t : State SysCall.Reply ω}
    (h : (quicReuseportSelectorRoutesProbe os fuel sockets bindAddr).exec s =
      some (.ok (), t)) :
    (1 ≤ sockets.length ∧ sockets.length ≤ 65536) ∧
    (∃ s₁ rounds, exchanges s₁ = exchanges s ++ rounds ∧
      rounds = (List.finRange sockets.length).flatMap
        (roundExchanges sockets (routableProbeAddr bindAddr)) ∧
      (quicReuseportSelectorDrainProbePackets os fuel sockets).exec s₁ = some (.ok (), t) ∧
      ∀ selector : List UInt8 → Option ℕ,
        (∀ (j : Fin sockets.length) (payload : List UInt8),
          .read (sockets.get j).fd payload ∈ rounds → selector payload = some j.val) →
        ∀ i : Fin sockets.length, selector (quicReuseportProbePacket i) =
          quicWorkerIndex (quicReuseportProbePacket i) sockets.length) ∧
    (∀ i j : Fin sockets.length,
      quicReuseportProbePacket i = quicReuseportProbePacket j → i = j) ∧
    (∀ i : Fin sockets.length,
      quicWorkerIndex (quicReuseportProbePacket i) sockets.length = some i.val) := by
  unfold quicReuseportSelectorRoutesProbe at h
  rw [exec_bind_call] at h
  obtain ⟨sender, s₀, hsender, h⟩ := exec_bind_eq_ok.mp h
  obtain ⟨_, rfl⟩ := exec_ofResult_eq_ok.mp hsender
  split at h
  · cases h
  rename_i hcount
  obtain ⟨_, s₁, hrounds, hdrain⟩ := exec_bind_eq_ok.mp h
  have hpos : 1 ≤ sockets.length := by
    rw [Nat.one_le_iff_ne_zero, ne_eq, List.length_eq_zero_iff]
    exact fun hnil => hcount (Or.inl hnil)
  have hmax : sockets.length ≤ 65536 := by
    by_contra hlong
    exact hcount (Or.inr (by omega))
  have hrouter : ∀ i : Fin sockets.length,
      quicWorkerIndex (quicReuseportProbePacket i) sockets.length = some i.val :=
    fun i => quicWorkerIndex_probePacket i.isLt hmax
  refine ⟨⟨hpos, hmax⟩, ⟨s₁, _, ?_, rfl, hdrain, ?_⟩, ?_, hrouter⟩
  · rw [probeRounds_ok hrounds, exchanges_quiet (fun _ => rfl)]
  · intro selector hselector i
    rw [hrouter i]
    exact hselector i _ (read_mem_rounds sockets _ i)
  · intro i j hpackets
    have hi := i.isLt
    have hj := j.isLt
    exact Fin.ext (probePacket_inj (by omega) (by omega) hpackets)

/-- A system with the sockets 3 and 4 in the group, whose selector is the router: the queues of
the two sockets are its state. -/
def steeredOs : Os (List (List UInt8) × List (List UInt8)) where
  answer
    | .socket .., q => (.ok 3, q)
    | .socketInitCallback .., q => (.ok (), q)
    | .setSockOpt .., q => (.ok (), q)
    | .bind _ addr, q => (.ok (ephemeralAddr addr 0), q)
    | .listen .., q => (.ok (), q)
    | .setNonblocking .., q => (.ok (), q)
    | .getSockName _, q => (.ok (), q)
    | .bpfProgLoad .., q => (.ok 6, q)
    | .close _, q => ((), q)
    | .udpSocketBind _, q => (.ok 5, q)
    | .sendTo _ packet _, (q₀, q₁) =>
        match quicWorkerIndex packet 2 with
        | some 0 => (.ok (), q₀ ++ [packet], q₁)
        | some _ => (.ok (), q₀, q₁ ++ [packet])
        | none => (.ok (), q₀, q₁)
    | .recvFrom fd, (q₀, q₁) =>
        match if fd = 3 then q₀ else q₁ with
        | [] => (.error ⟨.wouldBlock, "Resource temporarily unavailable"⟩, q₀, q₁)
        | packet :: rest => (.ok packet, if fd = 3 then (rest, q₁) else (q₀, rest))
    | .now, q => (0, q)
    | .sleep _, q => ((), q)

/-- The group of two sockets. -/
def twoSockets : List BoundSocket :=
  [⟨3, .v4 Ipv4Addr.localhost 4433⟩, ⟨4, .v4 Ipv4Addr.localhost 4433⟩]

/-- The probe of a group of two sockets that the kernel steers by the router succeeds, and its
two packets are for different workers. -/
theorem probe_sound_two :
    (∃ t, (quicReuseportSelectorRoutesProbe steeredOs 3 twoSockets
        (.v4 #v[127, 0, 0, 1] 4433)).exec ⟨([], []), []⟩ = some (.ok (), t)) ∧
      quicWorkerIndex (quicReuseportProbePacket 0) 2 = some 0 ∧
      quicWorkerIndex (quicReuseportProbePacket 1) 2 = some 1 := by
  have hexec : ((quicReuseportSelectorRoutesProbe steeredOs 3 twoSockets
      (.v4 #v[127, 0, 0, 1] 4433)).exec ⟨([], []), []⟩).map (fun r => r.1.isOk) = some true := by
    decide +kernel
  rcases Option.map_eq_some_iff.mp hexec with ⟨⟨result, t⟩, ht, hok⟩
  cases result with
  | error e => cases hok
  | ok u =>
      have hrouter := (probe_sound ht).2.2.2
      exact ⟨⟨t, ht⟩, hrouter ⟨0, by decide⟩, hrouter ⟨1, by decide⟩⟩

end ReusePort
