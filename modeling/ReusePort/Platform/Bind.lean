import ReusePort.Calls
import ReusePort.Core.Net
import ReusePort.Platform.Cbpf
import ReusePort.Platform.Ebpf

/-!
# ReusePort.Platform.Bind — opening the sockets of a server

`bind_tcp`, `bind_udp` and their `_workers` forms (`platform/mod.rs`) as programs over
the system calls they make, for every behaviour of the operating system. A socket is
created, handed to the configuration's init callback, given its options, bound and made
nonblocking; each of these steps can fail. What is assumed of `bind` is in the type of
its reply, `BoundAddr`: a port other than 0 is bound as requested, and port 0 becomes a
port that the system chooses.

* `bindSocket_ok` — where a socket that has been opened is bound;
* `bindWorkers_sameAddr`, `bindWorkers_ephemeral` — when the sockets of all workers are
  bound to one address, and what the system can do otherwise.
-/

namespace ReusePort

open Calls Calls.Prog

/-! ## Configuration -/

/-- `TransparentMode`. -/
inductive TransparentMode where
  | disabled
  | required
  | bestEffort
deriving DecidableEq, Repr

/-- `SocketOptions`, with its defaults. -/
structure SocketOptions where
  reuseAddress : Bool := true
  ipv4Transparent : TransparentMode := .disabled
  ipv6Transparent : TransparentMode := .disabled
deriving DecidableEq, Repr

/-- What the binders read of a `TcpServiceConfig` or `UdpServiceConfig`: the trait
`SocketConfig`. An init callback is named by a number, and what it does to the socket is
up to the environment. -/
structure SocketConfig where
  bindAddr : SocketAddr
  socketOptions : SocketOptions
  socketInitCallback : Option ℕ
deriving DecidableEq, Repr

/-- `TcpServiceConfig::new` and `UdpServiceConfig::new`. -/
def SocketConfig.new (bindAddr : SocketAddr) : SocketConfig := ⟨bindAddr, {}, none⟩

/-- The modules that `platform` can be built with (`imp`). Android shares the Linux
module, without its QUIC selectors. -/
inductive Platform where
  | linux
  | android
  | bsd
  | windows
deriving DecidableEq, Repr

/-- `supports_reuse_port_balancing`. -/
def Platform.supportsReusePortBalancing : Platform → Bool
  | .windows => false
  | _ => true

/-! ## System calls -/

/-- `socket2::Domain`. -/
inductive Domain where
  | ipv4
  | ipv6
deriving DecidableEq, Repr

/-- `Domain::for_address`. -/
def Domain.forAddress : SocketAddr → Domain
  | .v4 .. => .ipv4
  | .v6 .. => .ipv6

/-- `socket2::Type`. -/
inductive SocketType where
  | stream
  | dgram
deriving DecidableEq, Repr

/-- The socket options that the crate sets. -/
inductive SockOpt where
  | reuseAddress (on : Bool)
  | reusePort (on : Bool)
  | ipTransparentV4 (on : Bool)
  | ipTransparentV6 (on : Bool)
  | ipOrigDstAddr (value : ℕ)
  | ipFreebind (value : ℕ)
  | ipv6RecvOrigDstAddr (value : ℕ)
  | ipv6Freebind (value : ℕ)
  | attachReuseportCbpf (filter : List Bpf.Classic.Insn)
  | attachReuseportEbpf (program : ℕ)

/-- Where a socket can be bound when `requested` is asked for. -/
structure BoundAddr (requested : SocketAddr) where
  addr : SocketAddr
  fixed : requested.port ≠ 0 → addr = requested
  ephemeral : requested.port = 0 → ∃ port, port ≠ 0 ∧ addr = requested.withPort port

/-- The calls that leave the crate while a server's sockets are opened and probed.
Descriptors are numbers; times are in nanoseconds. -/
inductive SysCall where
  | socket (domain : Domain) (type : SocketType)
  | socketInitCallback (callback fd : ℕ)
  | setSockOpt (fd : ℕ) (option : SockOpt)
  | bind (fd : ℕ) (addr : SocketAddr)
  | listen (fd backlog : ℕ)
  | setNonblocking (fd : ℕ) (on : Bool)
  | getSockName (fd : ℕ)
  | bpfProgLoad (number : ℕ) (attr : BpfProgLoadAttr)
  | close (fd : ℕ)
  | udpSocketBind (addr : SocketAddr)
  | sendTo (fd : ℕ) (packet : List UInt8) (target : SocketAddr)
  | recvFrom (fd : ℕ)
  | now
  | sleep (duration : ℕ)

/-- The replies. A callback's error is its text; `recvFrom` gives the whole payload. -/
abbrev SysCall.Reply : SysCall → Type
  | .socket .. => Except IoError ℕ
  | .socketInitCallback .. => Except String Unit
  | .setSockOpt .. => Except IoError Unit
  | .bind _ addr => Except IoError (BoundAddr addr)
  | .listen .. => Except IoError Unit
  | .setNonblocking .. => Except IoError Unit
  | .getSockName _ => Except IoError Unit
  | .bpfProgLoad .. => Except IoError ℕ
  | .close _ => Unit
  | .udpSocketBind _ => Except IoError ℕ
  | .sendTo .. => Except IoError Unit
  | .recvFrom _ => Except IoError (List UInt8)
  | .now => ℕ
  | .sleep _ => Unit

/-- An operating system, with the user's init callbacks. -/
abbrev Os (ω : Type) : Type := Calls.Env SysCall.Reply ω

/-- A function of `platform` that returns an `α` or an `ε`. -/
abbrev Sys (ω ε α : Type) : Type := Calls.Prog SysCall.Reply ω ε α

variable {ω : Type}

/-! ## The binders -/

/-- A `TcpListener` or `UdpSocket`: its descriptor and the address it is bound to. -/
structure BoundSocket where
  fd : ℕ
  localAddr : SocketAddr
deriving DecidableEq, Repr

/-- `set_reuse_port`. -/
def setReusePort (os : Os ω) (fd : ℕ) : Platform → Sys ω Error Unit
  | .windows => pure ()
  | _ => do ofResult Error.ofIo (← call os (.setSockOpt fd (.reusePort true)))

/-- `apply_ipv4_transparent` and `apply_ipv6_transparent`: `matched` tells whether the
bind address is of the option's family, and `options` are set one after the other. -/
def applyFamilyTransparent (os : Os ω) (fd : ℕ) (mode : TransparentMode) (matched : Bool)
    (unsupported : String) (options : List SockOpt) : Sys ω Error Unit :=
  match mode, matched with
  | .disabled, _ => pure ()
  | .bestEffort, false => pure ()
  | .required, false => throw (.unsupportedPlatformOption unsupported)
  | .bestEffort, true => forM options fun option => do
      let _ ← call os (.setSockOpt fd option)
  | .required, true => forM options fun option => do
      ofResult Error.ofIo (← call os (.setSockOpt fd option))

/-- `apply_ipv4_transparent`. -/
def applyIpv4Transparent (os : Os ω) (fd : ℕ) (config : SocketConfig) : Sys ω Error Unit :=
  applyFamilyTransparent os fd config.socketOptions.ipv4Transparent
    (Domain.forAddress config.bindAddr = .ipv4)
    "ipv4 transparent requires an IPv4 bind address"
    [.ipTransparentV4 true, .ipOrigDstAddr 1, .ipFreebind 1]

/-- `apply_ipv6_transparent`. -/
def applyIpv6Transparent (os : Os ω) (fd : ℕ) (config : SocketConfig) : Sys ω Error Unit :=
  applyFamilyTransparent os fd config.socketOptions.ipv6Transparent
    (Domain.forAddress config.bindAddr = .ipv6)
    "ipv6 transparent requires an IPv6 bind address"
    [.ipTransparentV6 true, .ipv6RecvOrigDstAddr 1, .ipv6Freebind 1]

/-- `apply_transparent` outside Linux. -/
def rejectTransparent (options : SocketOptions) : Sys ω Error Unit :=
  if options.ipv4Transparent = .required ∨ options.ipv6Transparent = .required then
    throw (.unsupportedPlatformOption
      "transparent sockets are only supported on Linux targets")
  else pure ()

/-- `apply_transparent`. -/
def applyTransparent (os : Os ω) (fd : ℕ) (config : SocketConfig) :
    Platform → Sys ω Error Unit
  | .linux | .android => do
      applyIpv4Transparent os fd config
      applyIpv6Transparent os fd config
  | .bsd | .windows => rejectTransparent config.socketOptions

/-- `apply_common_options`. -/
def applyCommonOptions (os : Os ω) (platform : Platform) (fd : ℕ) (config : SocketConfig) :
    Sys ω Error Unit := do
  ofResult Error.ofIo
    (← call os (.setSockOpt fd (.reuseAddress config.socketOptions.reuseAddress)))
  setReusePort os fd platform
  applyTransparent os fd config platform

/-- `apply_socket_init_callback`. -/
def applySocketInitCallback (os : Os ω) (fd : ℕ) (config : SocketConfig) :
    Sys ω Error Unit :=
  match config.socketInitCallback with
  | some callback => do
      ofResult Error.socketInitCallback (← call os (.socketInitCallback callback fd))
  | none => pure ()

/-- `socket.listen(1024)` for a listener; nothing for a datagram socket. -/
def listen (os : Os ω) (fd : ℕ) : SocketType → Sys ω Error Unit
  | .stream => do ofResult Error.ofIo (← call os (.listen fd 1024))
  | .dgram => pure ()

/-- `bind_tcp` and `bind_udp`, which differ in the type of the socket. -/
def bindSocket (type : SocketType) (os : Os ω) (platform : Platform) (config : SocketConfig) :
    Sys ω Error BoundSocket := do
  let fd ← ofResult Error.ofIo (← call os (.socket (Domain.forAddress config.bindAddr) type))
  applySocketInitCallback os fd config
  applyCommonOptions os platform fd config
  let bound ← ofResult Error.ofIo (← call os (.bind fd config.bindAddr))
  listen os fd type
  ofResult Error.ofIo (← call os (.setNonblocking fd true))
  return ⟨fd, bound.addr⟩

/-- `bind_tcp`. -/
def bindTcp (os : Os ω) (platform : Platform) (config : SocketConfig) :
    Sys ω Error BoundSocket :=
  bindSocket .stream os platform config

/-- `bind_udp`. -/
def bindUdp (os : Os ω) (platform : Platform) (config : SocketConfig) :
    Sys ω Error BoundSocket :=
  bindSocket .dgram os platform config

/-- `bind_tcp_workers` and `bind_udp_workers`: every socket is bound from `config`. -/
def bindWorkers (type : SocketType) (os : Os ω) (platform : Platform) (config : SocketConfig)
    (workers : ℕ) : Sys ω Error (List BoundSocket) :=
  if platform.supportsReusePortBalancing then
    (List.range workers).mapM fun _ => bindSocket type os platform config
  else do
    return [← bindSocket type os platform config]

/-- `bind_tcp_workers`. -/
def bindTcpWorkers (os : Os ω) (platform : Platform) (config : SocketConfig) (workers : ℕ) :
    Sys ω Error (List BoundSocket) :=
  bindWorkers .stream os platform config workers

/-- `bind_udp_workers`. -/
def bindUdpWorkers (os : Os ω) (platform : Platform) (config : SocketConfig) (workers : ℕ) :
    Sys ω Error (List BoundSocket) :=
  bindWorkers .dgram os platform config workers

/-! ## Where the sockets are bound -/

/-- The sockets form one reuse-port group. -/
def SameAddr (sockets : List BoundSocket) : Prop :=
  ∀ a ∈ sockets, ∀ b ∈ sockets, a.localAddr = b.localAddr

/-- A socket that has been opened is bound where the system's reply to `bind` says. -/
theorem bindSocket_ok {type : SocketType} {os : Os ω} {platform : Platform}
    {config : SocketConfig} {socket : BoundSocket} {s t : State SysCall.Reply ω}
    (h : (bindSocket type os platform config).exec s = some (.ok socket, t)) :
    ∃ bound : BoundAddr config.bindAddr, socket.localAddr = bound.addr := by
  simp only [bindSocket, exec_bind_eq_ok, exec_pure, Option.some.injEq, Prod.mk.injEq,
    Except.ok.injEq] at h
  obtain ⟨_, _, _, _, _, _, _, _, _, _, _, _, _, _, _, bound, _, _, _, _, _, _, _, _, _, _, _,
    hsocket, _⟩ := h
  exact ⟨bound, hsocket ▸ rfl⟩

/-- A fixed port, or a single worker: the sockets are bound to one address. -/
theorem bindWorkers_sameAddr {type : SocketType} {os : Os ω} {platform : Platform}
    {config : SocketConfig} {workers : ℕ} {sockets : List BoundSocket}
    {s t : State SysCall.Reply ω} (hport : config.bindAddr.port ≠ 0 ∨ workers = 1)
    (h : (bindWorkers type os platform config workers).exec s = some (.ok sockets, t)) :
    SameAddr sockets := by
  -- a single socket, whether the platform balances or one worker was asked for
  have hsingle : ∀ {s t}, (do return [← bindSocket type os platform config] :
      Sys ω Error (List BoundSocket)).exec s = some (.ok sockets, t) → SameAddr sockets := by
    intro s t h
    obtain ⟨socket, _, _, h⟩ := exec_bind_eq_ok.mp h
    cases h
    intro a ha b hb
    rw [List.mem_singleton.mp ha, List.mem_singleton.mp hb]
  unfold bindWorkers at h
  split at h
  · rcases hport with hport | rfl
    · have hfixed : ∀ a ∈ sockets, a.localAddr = config.bindAddr := by
        refine (exec_mapM_induct
          (motive := fun as _ => ∀ a ∈ as, a.localAddr = config.bindAddr) _ ?_ (by simp) h).2
        intro as _ a _ _ has ha b hb
        obtain ⟨bound, hbound⟩ := bindSocket_ok ha
        rcases List.mem_append.mp hb with hb | hb
        · exact has b hb
        · rw [List.mem_singleton.mp hb, hbound, bound.fixed hport]
      intro a ha b hb
      rw [hfixed a ha, hfixed b hb]
    · exact hsingle h
  · exact hsingle h

/-! ## What the system can do with port 0 -/

/-- The port for the `k`-th socket that asks for any. -/
def ephemeralPort (k : ℕ) : UInt16 := if k = 0 then 49152 else 49153

/-- The reply to the `k`-th `bind`. -/
def ephemeralAddr (addr : SocketAddr) (k : ℕ) : BoundAddr addr where
  addr := if addr.port = 0 then addr.withPort (ephemeralPort k) else addr
  fixed h := if_neg h
  ephemeral h := by
    refine ⟨ephemeralPort k, ?_, if_pos h⟩
    unfold ephemeralPort
    split <;> decide

/-- A system in which everything succeeds and `bind` takes the next port; its state
counts the sockets bound. -/
def ephemeralOs : Os ℕ where
  answer
    | .socket .., k => (.ok k, k)
    | .socketInitCallback .., k => (.ok (), k)
    | .setSockOpt .., k => (.ok (), k)
    | .bind _ addr, k => (.ok (ephemeralAddr addr k), k + 1)
    | .listen .., k => (.ok (), k)
    | .setNonblocking .., k => (.ok (), k)
    | .getSockName _, k => (.ok (), k)
    | .bpfProgLoad .., k => (.ok k, k)
    | .close _, k => ((), k)
    | .udpSocketBind _, k => (.ok k, k)
    | .sendTo .., k => (.ok (), k)
    | .recvFrom _, k => (.error ⟨.wouldBlock, "Resource temporarily unavailable"⟩, k)
    | .now, k => (k, k)
    | .sleep _, k => ((), k)

theorem bindSocket_ephemeral (type : SocketType) (platform : Platform) {addr : SocketAddr}
    (hport : addr.port = 0) (s : State SysCall.Reply ℕ) :
    ∃ t, (bindSocket type ephemeralOs platform (.new addr)).exec s =
        some (.ok ⟨s.env, addr.withPort (ephemeralPort s.env)⟩, t) ∧ t.env = s.env + 1 := by
  have hbound : (ephemeralAddr addr s.env).addr = addr.withPort (ephemeralPort s.env) :=
    if_pos hport
  rw [← hbound]
  cases type <;> cases platform <;> exact ⟨_, rfl, rfl⟩

/-- Two workers or more on port 0 need not come to one address. -/
theorem bindWorkers_ephemeral (type : SocketType) {platform : Platform}
    (hbalancing : platform.supportsReusePortBalancing = true) {addr : SocketAddr}
    (hport : addr.port = 0) {workers : ℕ} (hworkers : 2 ≤ workers) :
    ∃ sockets t, (bindWorkers type ephemeralOs platform (.new addr) workers).exec ⟨0, []⟩ =
      some (.ok sockets, t) ∧ sockets.length = workers ∧ ¬ SameAddr sockets := by
  have hrun := exec_mapM_of_ok (s := ⟨0, []⟩)
    (motive := fun (as : List BoundSocket) (t : State SysCall.Reply ℕ) => t.env = as.length ∧
      ∀ i, ∀ h : i < as.length, (as.get ⟨i, h⟩).localAddr = addr.withPort (ephemeralPort i))
    (f := fun _ => bindSocket type ephemeralOs platform (.new addr)) (List.range workers)
    ?_ ⟨rfl, by simp⟩
  · obtain ⟨sockets, t, hexec, hlen, _, haddr⟩ := hrun
    rw [List.length_range] at hlen
    refine ⟨sockets, t, ?_, hlen, ?_⟩
    · unfold bindWorkers
      rw [if_pos hbalancing]
      exact hexec
    · intro hsame
      have hzero := haddr 0 (by omega)
      have hone := haddr 1 (by omega)
      have heq := hsame _ (List.get_mem sockets ⟨0, by omega⟩) _
        (List.get_mem sockets ⟨1, by omega⟩)
      rw [hzero, hone] at heq
      cases addr <;> simp [SocketAddr.withPort, ephemeralPort] at heq
  · intro as _ s hmotive
    obtain ⟨t, hexec, hcount⟩ := bindSocket_ephemeral type platform hport s
    refine ⟨_, t, hexec, ?_, ?_⟩
    · rw [hcount, hmotive.1, List.length_append, List.length_singleton]
    · intro i hi
      by_cases hlast : i < as.length
      · have := hmotive.2 i hlast
        simpa [List.getElem_append_left hlast] using this
      · have hi' : i = as.length := by
          rw [List.length_append, List.length_singleton] at hi
          omega
        subst hi'
        simp [hmotive.1]

end ReusePort
