import ReusePort.Platform.Probe

/-!
# ReusePort.Platform.QuicBind — opening the sockets of a QUIC server

`bind_quic_udp_reuseport_workers` (`platform/linux.rs`) binds a reuse-port group,
attaches the eBPF selector or else the classic one, and probes what is attached. `Ok`
without sockets sends the server to its userspace path.

* `bindReuseportGroup_ok`, `bindQuic_ok` — the sockets that are returned are bound to the
  address of the first;
* `workerSockets_sameAddr_iff` — for which bind addresses the sockets of all workers
  form one group, in the three binders.
-/

namespace ReusePort

open Calls Calls.Prog

variable {ω : Type}

/-! ## Attaching a selector -/

/-- `target_arch`, as far as `sys_bpf_number` tells them apart. -/
inductive Arch where
  | x86_64
  | aarch64
  | riscv64
  | arm
  | powerpc64
  | s390x
  | other
deriving DecidableEq, Repr

/-- `sys_bpf_number`. -/
def sysBpfNumber : Arch → Option ℕ
  | .x86_64 => some 321
  | .aarch64 => some 280
  | .riscv64 => some 280
  | .arm => some 386
  | .powerpc64 => some 361
  | .s390x => some 351
  | .other => none

/-- `load_quic_reuseport_ebpf`. -/
def loadQuicReuseportEbpf (os : Os ω) (arch : Arch) (workers : ℕ) : Sys ω Error ℕ :=
  match sysBpfNumber arch with
  | none => throw (.unsupportedPlatformOption
      "bpf syscall number is not defined for this target architecture")
  | some number => do
      ofResult Error.ofIo
        (← call os (.bpfProgLoad number (quicReuseportProgLoadAttr workers)))

/-- `attach_quic_reuseport_ebpf`: the program is closed whether it was attached or not. -/
def attachQuicReuseportEbpf (os : Os ω) (arch : Arch) (socket : BoundSocket)
    (workers : ℕ) : Sys ω Error Unit := do
  let programFd ← loadQuicReuseportEbpf os arch workers
  let result ← call os (.setSockOpt socket.fd (.attachReuseportEbpf programFd))
  let _ ← call os (.close programFd)
  ofResult Error.ofIo result

/-- `attach_quic_reuseport_cbpf`. -/
def attachQuicReuseportCbpf (os : Os ω) (socket : BoundSocket) (workers : ℕ) :
    Sys ω Error Unit := do
  ofResult Error.ofIo
    (← call os (.setSockOpt socket.fd (.attachReuseportCbpf (quicReuseportCbpf workers))))

/-! ## Binding the group -/

/-- The first half of `bind_quic_udp_reuseport_workers`: the first socket takes the
address of the configuration, and the others the address that it got. `none` is the
early `return Ok(None)`. -/
def bindReuseportGroup (os : Os ω) (config : SocketConfig) (workers : ℕ) :
    Sys ω Error (Option (BoundSocket × List BoundSocket)) := do
  match ← attempt (bindUdp os .linux config) with
  | .error _ => pure none
  | .ok first => do
      ofResult Error.ofIo (← call os (.getSockName first.fd))
      let workerConfig := { config with bindAddr := first.localAddr }
      match ← attempt ((List.range (workers - 1)).mapM fun _ =>
          bindUdp os .linux workerConfig) with
      | .error _ => pure none
      | .ok rest => pure (some (first, rest))

/-- `is_ok()`. -/
def isOk {ε δ α : Type} (x : Sys ω δ α) : Sys ω ε Bool := do
  match ← attempt x with
  | .ok _ => pure true
  | .error _ => pure false

/-- The condition on which the group is used. The operators short-circuit: the classic
selector is attached only if the eBPF selector is not, and whichever is attached is
probed once. -/
def selectorWorks (os : Os ω) (arch : Arch) (fuel : ℕ) (first : BoundSocket)
    (rest : List BoundSocket) (workers : ℕ) : Sys ω Error Bool := do
  let ebpf ← isOk (attachQuicReuseportEbpf os arch first workers)
  let attached ← if ebpf then pure true else isOk (attachQuicReuseportCbpf os first workers)
  if attached then
    isOk (quicReuseportSelectorRoutesProbe os fuel (first :: rest) first.localAddr)
  else pure false

/-- `bind_quic_udp_reuseport_workers`. `disabled` tells whether the environment variable
`SFO_REUSEPORT_DISABLE_QUIC_BPF` is set. -/
def bindQuicUdpReuseportWorkers (os : Os ω) (platform : Platform) (arch : Arch)
    (disabled : Bool) (fuel : ℕ) (config : SocketConfig) (workers : ℕ) :
    Sys ω Error (Option (List BoundSocket)) :=
  match platform with
  | .linux =>
      if disabled then pure none
      else if workers = 0 then
        throw (.invalidConfig "worker count must be greater than zero")
      else do
        match ← bindReuseportGroup os config workers with
        | none => pure none
        | some (first, rest) => do
            let works ← selectorWorks os arch fuel first rest workers
            if works then pure (some (first :: rest)) else pure none
  | _ => pure none

/-! ## One address -/

/-- What a bound group consists of: the first socket, the question for its address, and the
other sockets, one after the other. -/
theorem bindReuseportGroup_eq_ok {os : Os ω} {config : SocketConfig} {workers : ℕ}
    {first : BoundSocket} {rest : List BoundSocket} {s t : State SysCall.Reply ω}
    (h : (bindReuseportGroup os config workers).exec s = some (.ok (some (first, rest)), t)) :
    ∃ s₁ s₂, (bindUdp os .linux config).exec s = some (.ok first, s₁) ∧
      s₂.env = (os.answer (.getSockName first.fd) s₁.env).2 ∧
      ((List.range (workers - 1)).mapM fun _ =>
        bindUdp os .linux { config with bindAddr := first.localAddr }).exec s₂ =
          some (.ok rest, t) := by
  unfold bindReuseportGroup at h
  obtain ⟨result, s₁, hfirst, h⟩ := exec_bind_eq_ok.mp h
  obtain ⟨_, hresult, hbind⟩ := exec_attempt_eq.mp hfirst
  cases hresult
  cases result with
  | error e => cases h
  | ok socket =>
      dsimp only at h
      rw [exec_bind_call] at h
      obtain ⟨_, s₂, hname, h⟩ := exec_bind_eq_ok.mp h
      obtain ⟨_, rfl⟩ := exec_ofResult_eq_ok.mp hname
      obtain ⟨others, s₃, hothers, h⟩ := exec_bind_eq_ok.mp h
      obtain ⟨_, hresult, hrest⟩ := exec_attempt_eq.mp hothers
      cases hresult
      cases others with
      | error e => cases h
      | ok others =>
          cases h
          exact ⟨s₁, _, hbind, rfl, hrest⟩

/-- A socket that is bound has a port. -/
theorem BoundAddr.port_ne_zero {requested : SocketAddr} (bound : BoundAddr requested) :
    bound.addr.port ≠ 0 := by
  by_cases hzero : requested.port = 0
  · obtain ⟨port, hport, haddr⟩ := bound.ephemeral hzero
    rw [haddr]
    cases requested <;> exact hport
  · rw [bound.fixed hzero]
    exact hzero

/-- The group that is bound has the address of its first socket, whatever port the
system chose for that. -/
theorem bindReuseportGroup_ok {os : Os ω} {config : SocketConfig} {workers : ℕ}
    {first : BoundSocket} {rest : List BoundSocket} {s t : State SysCall.Reply ω}
    (h : (bindReuseportGroup os config workers).exec s = some (.ok (some (first, rest)), t)) :
    ∀ socket ∈ rest, socket.localAddr = first.localAddr := by
  obtain ⟨s₁, s₂, hbind, -, hrest⟩ := bindReuseportGroup_eq_ok h
  obtain ⟨bound, hbound⟩ := bindSocket_ok hbind
  -- the first socket's port is not 0, so the others are bound as requested
  have hport : first.localAddr.port ≠ 0 := by
    rw [hbound]
    exact bound.port_ne_zero
  refine (exec_mapM_induct (motive := fun as _ =>
    ∀ a ∈ as, a.localAddr = first.localAddr) _ ?_ (by simp) hrest).2
  intro as _ a _ _ has ha b hb
  obtain ⟨bound', hbound'⟩ := bindSocket_ok ha
  rcases List.mem_append.mp hb with hb | hb
  · exact has b hb
  · rw [List.mem_singleton.mp hb, hbound', bound'.fixed hport]

/-- The sockets that are returned are those that were bound. -/
theorem bindQuic_ok {os : Os ω} {platform : Platform} {arch : Arch} {disabled : Bool}
    {fuel : ℕ} {config : SocketConfig} {workers : ℕ} {sockets : List BoundSocket}
    {s t : State SysCall.Reply ω}
    (h : (bindQuicUdpReuseportWorkers os platform arch disabled fuel config workers).exec s =
      some (.ok (some sockets), t)) :
    ∃ first rest s₁, sockets = first :: rest ∧
      (bindReuseportGroup os config workers).exec s = some (.ok (some (first, rest)), s₁) := by
  unfold bindQuicUdpReuseportWorkers at h
  cases platform with
  | linux =>
      dsimp only at h
      split at h
      · cases h
      split at h
      · cases h
      obtain ⟨group, s₁, hgroup, h⟩ := exec_bind_eq_ok.mp h
      cases group with
      | none => cases h
      | some group =>
          obtain ⟨first, rest⟩ := group
          obtain ⟨works, s₂, _, h⟩ := exec_bind_eq_ok.mp h
          cases works with
          | true =>
              cases h
              exact ⟨first, rest, s₁, rfl, hgroup⟩
          | false => cases h
  | android => cases h
  | bsd => cases h
  | windows => cases h

theorem bindQuic_sameAddr {os : Os ω} {platform : Platform} {arch : Arch} {disabled : Bool}
    {fuel : ℕ} {config : SocketConfig} {workers : ℕ} {sockets : List BoundSocket}
    {s t : State SysCall.Reply ω}
    (h : (bindQuicUdpReuseportWorkers os platform arch disabled fuel config workers).exec s =
      some (.ok (some sockets), t)) : SameAddr sockets := by
  obtain ⟨first, rest, s₁, rfl, hgroup⟩ := bindQuic_ok h
  have hfirst : ∀ a ∈ first :: rest, a.localAddr = first.localAddr := by
    intro a ha
    rcases List.mem_cons.mp ha with rfl | ha
    · rfl
    · exact bindReuseportGroup_ok hgroup a ha
  intro a ha b hb
  rw [hfirst a ha, hfirst b hb]

/-- The address of a server's sockets, on a platform that balances over reuse-port
sockets. `bind_tcp_workers` and `bind_udp_workers` come to one address for every choice
of ports exactly if a port is given or there is a single worker: each socket asks the
system for its own port. `bind_quic_udp_reuseport_workers` always does. -/
theorem workerSockets_sameAddr_iff {platform : Platform}
    (hbalancing : platform.supportsReusePortBalancing = true) (addr : SocketAddr)
    {workers : ℕ} (hworkers : 1 ≤ workers) :
    ((∀ (ω : Type) (os : Os ω) (config : SocketConfig) (s t : State SysCall.Reply ω)
        (sockets : List BoundSocket), config.bindAddr = addr →
        (bindTcpWorkers os platform config workers).exec s = some (.ok sockets, t) →
        SameAddr sockets) ↔ (addr.port ≠ 0 ∨ workers = 1)) ∧
    ((∀ (ω : Type) (os : Os ω) (config : SocketConfig) (s t : State SysCall.Reply ω)
        (sockets : List BoundSocket), config.bindAddr = addr →
        (bindUdpWorkers os platform config workers).exec s = some (.ok sockets, t) →
        SameAddr sockets) ↔ (addr.port ≠ 0 ∨ workers = 1)) ∧
    (∀ (ω : Type) (os : Os ω) (arch : Arch) (disabled : Bool) (fuel : ℕ)
      (config : SocketConfig) (s t : State SysCall.Reply ω) (sockets : List BoundSocket),
      config.bindAddr = addr →
      (bindQuicUdpReuseportWorkers os platform arch disabled fuel config workers).exec s =
        some (.ok (some sockets), t) → SameAddr sockets) := by
  have hiff : ∀ type : SocketType,
      (∀ (ω : Type) (os : Os ω) (config : SocketConfig) (s t : State SysCall.Reply ω)
        (sockets : List BoundSocket), config.bindAddr = addr →
        (bindWorkers type os platform config workers).exec s = some (.ok sockets, t) →
        SameAddr sockets) ↔ (addr.port ≠ 0 ∨ workers = 1) := by
    intro type
    constructor
    · intro hsame
      by_contra hnot
      rw [not_or, not_not] at hnot
      obtain ⟨sockets, t, hexec, _, hdiffer⟩ :=
        bindWorkers_ephemeral type hbalancing hnot.1 (show 2 ≤ workers by omega)
      exact hdiffer (hsame ℕ ephemeralOs (.new addr) _ t sockets rfl hexec)
    · rintro hport ω os config s t sockets rfl hexec
      exact bindWorkers_sameAddr hport hexec
  refine ⟨hiff .stream, hiff .dgram, ?_⟩
  intro ω os arch disabled fuel config s t sockets _ hexec
  exact bindQuic_sameAddr hexec

/-- Two workers on port 0, for TCP and for UDP: both binders succeed with sockets on
different ports. -/
theorem workerSockets_two_ports :
    (∃ sockets t, (bindTcpWorkers ephemeralOs .linux (.new (.v4 #v[127, 0, 0, 1] 0)) 2).exec
        ⟨0, []⟩ = some (.ok sockets, t) ∧ sockets.length = 2 ∧ ¬ SameAddr sockets) ∧
    ∃ sockets t, (bindUdpWorkers ephemeralOs .linux (.new (.v4 #v[127, 0, 0, 1] 0)) 2).exec
        ⟨0, []⟩ = some (.ok sockets, t) ∧ sockets.length = 2 ∧ ¬ SameAddr sockets :=
  ⟨bindWorkers_ephemeral .stream rfl rfl le_rfl, bindWorkers_ephemeral .dgram rfl rfl le_rfl⟩

/-- Four TCP workers on a fixed port, and two on port 0. -/
theorem workerSockets_sameAddr_iff_instances :
    (∀ (ω : Type) (os : Os ω) (config : SocketConfig) (s t : State SysCall.Reply ω)
      (sockets : List BoundSocket), config.bindAddr = .v4 #v[127, 0, 0, 1] 4433 →
      (bindTcpWorkers os .linux config 4).exec s = some (.ok sockets, t) → SameAddr sockets) ∧
    ¬ (∀ (ω : Type) (os : Os ω) (config : SocketConfig) (s t : State SysCall.Reply ω)
      (sockets : List BoundSocket), config.bindAddr = .v4 #v[127, 0, 0, 1] 0 →
      (bindTcpWorkers os .linux config 2).exec s = some (.ok sockets, t) →
      SameAddr sockets) := by
  constructor
  · exact (workerSockets_sameAddr_iff rfl (.v4 #v[127, 0, 0, 1] 4433) (by decide)).1.mpr
      (Or.inl (by decide))
  · rw [(workerSockets_sameAddr_iff rfl (.v4 #v[127, 0, 0, 1] 0) (by decide)).1]
    decide

end ReusePort
