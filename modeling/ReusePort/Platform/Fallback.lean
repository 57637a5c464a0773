import Mathlib.Logic.Function.Basic
import ReusePort.Platform.QuicBind

/-!
# ReusePort.Platform.Fallback — from one selector to the next

The design tries the eBPF selector, then the classic one, then the userspace path. Here
`bind_quic_udp_reuseport_workers` runs on a kernel in which nobody else sends, and each
selector either fails to attach or steers the group by an arbitrary function from packets
to socket indices. Whether the sockets of the group can be created, configured and bound
is left to another system underneath. The calls of the probe itself succeed: its sender is
bound, the sockets become nonblocking and a probe packet is sent. Sends, receives and
sleeps take an arbitrary time, which is `lag`; the other calls take none.

* `Kernel`, `kernelOs` — sockets with queues, a group in the order of binding, the
  selector attached last;
* `probe_kernel` — the probe returns, and succeeds exactly if the attached selector
  routes every probe packet to its socket;
* `bindQuic_kernel`, `selectorFallback_iff` — which selectors come to be used.
-/

namespace ReusePort

open Calls Calls.Prog

variable {ω : Type}

/-! ## The kernel -/

/-- A selector, by what becomes of it: it is not loaded, it is not attached, or it
steers the group from then on. -/
inductive Selector where
  | rejected (error : IoError)
  | unattached (error : IoError)
  | attaches (select : List UInt8 → ℕ)

/-- The selector is attached. -/
def Selector.Attaches : Selector → Prop
  | .attaches _ => True
  | _ => False

/-- The selector is attached and routes every probe packet to its socket. -/
def Selector.Routes (workers : ℕ) : Selector → Prop
  | .attaches select => ∀ i < workers, select (quicReuseportProbePacket i) = i
  | _ => False

/-- Without a number for the `bpf` system call there is no eBPF selector. -/
def Selector.on (arch : Arch) (ebpf : Selector) : Selector :=
  match sysBpfNumber arch with
  | some _ => ebpf
  | none => .rejected ⟨.other, "unsupported architecture"⟩

/-- The state of the kernel: that of the system underneath, the next descriptor, the
group in the order of binding, how it is steered, the packets on every socket, and the
clock, with the number of calls that took time. -/
structure Kernel (ω : Type) where
  base : ω
  nextFd : ℕ
  group : List ℕ
  select : List UInt8 → ℕ
  queue : ℕ → List (List UInt8)
  clock : ℕ
  calls : ℕ

namespace Kernel

/-- No socket yet; `flowHash` steers until a selector is attached. -/
def start (base : ω) (flowHash : List UInt8 → ℕ) (clock : ℕ) : Kernel ω :=
  ⟨base, 3, [], flowHash, fun _ => [], clock, 0⟩

/-- A call to the system underneath. -/
def delegate (os : Os ω) (c : SysCall) (k : Kernel ω) : c.Reply × Kernel ω :=
  ((os.answer c k.base).1, { k with base := (os.answer c k.base).2 })

/-- Time passes during a call. -/
def elapse (lag : ℕ → ℕ) (duration : ℕ) (k : Kernel ω) : Kernel ω :=
  { k with clock := k.clock + duration + lag k.calls, calls := k.calls + 1 }

/-- `setsockopt` with a selector. -/
def attach (selector : Selector) (k : Kernel ω) : Except IoError Unit × Kernel ω :=
  match selector with
  | .attaches select => (.ok (), { k with select := select })
  | .rejected error => (.error error, k)
  | .unattached error => (.error error, k)

/-- A packet to the group. An index without a socket drops it. -/
def deliver (packet : List UInt8) (k : Kernel ω) : Kernel ω :=
  match k.group[k.select packet]? with
  | some fd => { k with queue := Function.update k.queue fd (k.queue fd ++ [packet]) }
  | none => k

/-- `recvfrom` on a nonblocking socket. -/
def receive (fd : ℕ) (k : Kernel ω) : Except IoError (List UInt8) × Kernel ω :=
  match k.queue fd with
  | [] => (.error ⟨.wouldBlock, "Resource temporarily unavailable"⟩, k)
  | packet :: packets =>
      (.ok packet, { k with queue := Function.update k.queue fd packets })

end Kernel

open Kernel in
/-- The kernel as an operating system. Descriptors are its own; whether a socket can be
created, configured and bound, and where, is up to `os`. Binding the sender of the probe,
making a socket nonblocking and sending always succeed, and reading the clock takes no
time. -/
def kernelOs (os : Os ω) (ebpf cbpf : Selector) (lag : ℕ → ℕ) : Os (Kernel ω) where
  answer
    | .socket domain type, k =>
        match (os.answer (.socket domain type) k.base).1 with
        | .ok _ => (.ok k.nextFd, { (delegate os (.socket domain type) k).2 with
            nextFd := k.nextFd + 1 })
        | .error error => (.error error, (delegate os (.socket domain type) k).2)
    | .socketInitCallback callback fd, k => delegate os (.socketInitCallback callback fd) k
    | .setSockOpt _ (.attachReuseportEbpf _), k => attach ebpf k
    | .setSockOpt _ (.attachReuseportCbpf _), k => attach cbpf k
    | .setSockOpt fd option, k => delegate os (.setSockOpt fd option) k
    | .bind fd addr, k =>
        match (os.answer (.bind fd addr) k.base).1 with
        | .ok bound => (.ok bound, { (delegate os (.bind fd addr) k).2 with
            group := k.group ++ [fd] })
        | .error error => (.error error, (delegate os (.bind fd addr) k).2)
    | .listen fd backlog, k => delegate os (.listen fd backlog) k
    | .setNonblocking .., k => (.ok (), k)
    | .getSockName fd, k => delegate os (.getSockName fd) k
    | .bpfProgLoad .., k =>
        match ebpf with
        | .rejected error => (.error error, k)
        | _ => (.ok k.nextFd, k)
    | .close _, k => ((), k)
    | .udpSocketBind _, k => (.ok k.nextFd, { k with nextFd := k.nextFd + 1 })
    | .sendTo _ packet _, k => (.ok (), (k.deliver packet).elapse lag 0)
    | .recvFrom fd, k => ((k.receive fd).1, (k.receive fd).2.elapse lag 0)
    | .now, k => (k.clock, k)
    | .sleep duration, k => ((), k.elapse lag duration)

/-! ## The group -/

section Group

variable {os : Os ω} {ebpf cbpf : Selector} {lag : ℕ → ℕ}

/-- The part of the kernel that only opening a socket or moving a packet changes. -/
def Kernel.table (k : Kernel ω) : List ℕ × ℕ × (ℕ → List (List UInt8)) :=
  (k.group, k.nextFd, k.queue)

def socketTable (s : State SysCall.Reply (Kernel ω)) :
    List ℕ × ℕ × (ℕ → List (List UInt8)) :=
  s.env.table

theorem table_socket {domain : Domain} {type : SocketType} {k : Kernel ω} {fd : ℕ}
    (h : ((kernelOs os ebpf cbpf lag).answer (.socket domain type) k).1 = .ok fd) :
    fd = k.nextFd ∧ ((kernelOs os ebpf cbpf lag).answer (.socket domain type) k).2.table =
      (k.group, k.nextFd + 1, k.queue) := by
  unfold kernelOs at h ⊢
  dsimp only at h ⊢
  cases hos : (os.answer (.socket domain type) k.base).1 with
  | ok _ =>
      rw [hos] at h
      cases h
      exact ⟨rfl, rfl⟩
  | error _ =>
      rw [hos] at h
      cases h

theorem table_bind {fd : ℕ} {addr : SocketAddr} {k : Kernel ω} {bound : BoundAddr addr}
    (h : ((kernelOs os ebpf cbpf lag).answer (.bind fd addr) k).1 = .ok bound) :
    ((kernelOs os ebpf cbpf lag).answer (.bind fd addr) k).2.table =
      (k.group ++ [fd], k.nextFd, k.queue) := by
  unfold kernelOs at h ⊢
  dsimp only at h ⊢
  cases hos : (os.answer (.bind fd addr) k.base).1 with
  | ok _ => rfl
  | error _ =>
      rw [hos] at h
      cases h

theorem socketTable_setSockOpt (fd : ℕ) (option : SockOpt)
    (s : State SysCall.Reply (Kernel ω)) :
    socketTable ⟨((kernelOs os ebpf cbpf lag).answer (.setSockOpt fd option) s.env).2, s.log ++
      [⟨.setSockOpt fd option,
        ((kernelOs os ebpf cbpf lag).answer (.setSockOpt fd option) s.env).1⟩]⟩ =
      socketTable s := by
  cases option with
  | attachReuseportEbpf program => cases ebpf <;> rfl
  | attachReuseportCbpf filter => cases cbpf <;> rfl
  | _ => rfl

theorem keeps_setReusePort (fd : ℕ) (platform : Platform) :
    Keeps socketTable (setReusePort (kernelOs os ebpf cbpf lag) fd platform) := by
  cases platform with
  | windows => exact .pure ()
  | _ => exact .bind (.call (socketTable_setSockOpt fd _)) (.ofResult _)

theorem keeps_applyFamilyTransparent (fd : ℕ) (mode : TransparentMode) (matched : Bool)
    (unsupported : String) (options : List SockOpt) :
    Keeps socketTable (applyFamilyTransparent (kernelOs os ebpf cbpf lag) fd mode matched
      unsupported options) := by
  unfold applyFamilyTransparent
  split
  · exact .pure ()
  · exact .pure ()
  · exact .throw _
  · exact .forM options fun option =>
      .bind (.call (socketTable_setSockOpt fd option)) fun _ => .pure _
  · exact .forM options fun option =>
      .bind (.call (socketTable_setSockOpt fd option)) (.ofResult _)

theorem keeps_applyTransparent (fd : ℕ) (config : SocketConfig) (platform : Platform) :
    Keeps socketTable (applyTransparent (kernelOs os ebpf cbpf lag) fd config platform) := by
  have hlinux : Keeps socketTable (do
      applyIpv4Transparent (kernelOs os ebpf cbpf lag) fd config
      applyIpv6Transparent (kernelOs os ebpf cbpf lag) fd config) :=
    .bind (keeps_applyFamilyTransparent fd _ _ _ _) fun _ =>
      keeps_applyFamilyTransparent fd _ _ _ _
  have hother : Keeps socketTable
      (rejectTransparent config.socketOptions : Sys (Kernel ω) Error Unit) := by
    unfold rejectTransparent
    split
    · exact .throw _
    · exact .pure ()
  cases platform with
  | linux => exact hlinux
  | android => exact hlinux
  | bsd => exact hother
  | windows => exact hother

theorem keeps_applyCommonOptions (fd : ℕ) (config : SocketConfig) (platform : Platform) :
    Keeps socketTable (applyCommonOptions (kernelOs os ebpf cbpf lag) platform fd config) := by
  unfold applyCommonOptions
  apply Keeps.bind (.call (socketTable_setSockOpt fd _))
  intro _
  apply Keeps.bind (.ofResult _ _)
  intro _
  apply Keeps.bind (keeps_setReusePort fd platform)
  intro _
  exact keeps_applyTransparent fd config platform

theorem keeps_applySocketInitCallback (fd : ℕ) (config : SocketConfig) :
    Keeps socketTable (applySocketInitCallback (kernelOs os ebpf cbpf lag) fd config) := by
  unfold applySocketInitCallback
  split
  · exact .bind (.call fun _ => rfl) (.ofResult _)
  · exact .pure ()

theorem keeps_listen (fd : ℕ) (type : SocketType) :
    Keeps socketTable (listen (kernelOs os ebpf cbpf lag) fd type) := by
  cases type with
  | stream => exact .bind (.call fun _ => rfl) (.ofResult _)
  | dgram => exact .pure ()

/-- Opening a socket takes the next descriptor and enters it into the group. -/
theorem bindSocket_kernel {type : SocketType} {platform : Platform} {config : SocketConfig}
    {socket : BoundSocket} {s t : State SysCall.Reply (Kernel ω)}
    (h : (bindSocket type (kernelOs os ebpf cbpf lag) platform config).exec s =
      some (.ok socket, t)) :
    socket.fd = s.env.nextFd ∧
      socketTable t = (s.env.group ++ [s.env.nextFd], s.env.nextFd + 1, s.env.queue) := by
  unfold bindSocket at h
  rw [exec_bind_call] at h
  obtain ⟨fd, s₁, hsocket, h⟩ := exec_bind_eq_ok.mp h
  obtain ⟨hreply, rfl⟩ := exec_ofResult_eq_ok.mp hsocket
  obtain ⟨_, s₂, hcallback, h⟩ := exec_bind_eq_ok.mp h
  obtain ⟨_, s₃, hoptions, h⟩ := exec_bind_eq_ok.mp h
  rw [exec_bind_call] at h
  obtain ⟨bound, s₄, hbind, h⟩ := exec_bind_eq_ok.mp h
  obtain ⟨hbound, rfl⟩ := exec_ofResult_eq_ok.mp hbind
  obtain ⟨_, s₅, hlisten, h⟩ := exec_bind_eq_ok.mp h
  rw [exec_bind_call] at h
  obtain ⟨_, s₆, hnonblocking, h⟩ := exec_bind_eq_ok.mp h
  obtain ⟨_, rfl⟩ := exec_ofResult_eq_ok.mp hnonblocking
  cases h
  obtain ⟨hfd, htable₁⟩ := table_socket hreply
  have htable₃ : s₃.env.table = (s.env.group, s.env.nextFd + 1, s.env.queue) := by
    rw [← htable₁]
    exact (keeps_applyCommonOptions fd config platform _ _ _ hoptions).trans
      (keeps_applySocketInitCallback fd config _ _ _ hcallback)
  refine ⟨hfd, ?_⟩
  have htable₄ := (keeps_listen fd type _ _ _ hlisten).trans (table_bind hbound)
  cases hs₃ : s₃.env with
  | mk base nextFd group select queue clock calls =>
      rw [hs₃] at htable₃ htable₄
      cases htable₃
      exact htable₄.trans (by rw [hfd])

/-- The sockets of the group differ, and no packet is on any socket. -/
structure Kernel.Quiet (k : Kernel ω) : Prop where
  nodup : k.group.Nodup
  lt : ∀ fd ∈ k.group, fd < k.nextFd
  empty : ∀ fd, k.queue fd = []

theorem Kernel.Quiet.of_table {k k' : Kernel ω} (hk : k.Quiet) (h : k'.table = k.table) :
    k'.Quiet := by
  simp only [Kernel.table, Prod.mk.injEq] at h
  obtain ⟨hgroup, hnext, hqueue⟩ := h
  constructor
  · rw [hgroup]
    exact hk.nodup
  · rw [hgroup, hnext]
    exact hk.lt
  · rw [hqueue]
    exact hk.empty

theorem quiet_start (base : ω) (flowHash : List UInt8 → ℕ) (clock : ℕ) :
    (Kernel.start base flowHash clock).Quiet :=
  ⟨List.nodup_nil, by simp [Kernel.start], fun _ => rfl⟩

theorem Kernel.Quiet.enter {k k' : Kernel ω} (hk : k.Quiet)
    (h : k'.table = (k.group ++ [k.nextFd], k.nextFd + 1, k.queue)) : k'.Quiet := by
  simp only [Kernel.table, Prod.mk.injEq] at h
  obtain ⟨hgroup, hnext, hqueue⟩ := h
  constructor
  · rw [hgroup, List.nodup_append]
    refine ⟨hk.nodup, List.nodup_singleton _, ?_⟩
    intro fd hfd fd' hfd' heq
    have hlt := hk.lt fd hfd
    rw [List.mem_singleton] at hfd'
    omega
  · rw [hgroup, hnext]
    intro fd hfd
    rcases List.mem_append.mp hfd with hfd | hfd
    · exact Nat.lt_succ_of_lt (hk.lt fd hfd)
    · rw [List.mem_singleton.mp hfd]
      exact Nat.lt_succ_self _
  · rw [hqueue]
    exact hk.empty

/-- One more socket: the next descriptor, at the end of the group. -/
theorem Kernel.Quiet.bindUdp {config : SocketConfig} {a : BoundSocket}
    {s t : State SysCall.Reply (Kernel ω)} (hs : s.env.Quiet)
    (h : (bindUdp (kernelOs os ebpf cbpf lag) .linux config).exec s = some (.ok a, t)) :
    t.env.Quiet ∧ t.env.group = s.env.group ++ [a.fd] := by
  obtain ⟨hfd, htable⟩ := bindSocket_kernel h
  refine ⟨hs.enter htable, ?_⟩
  rw [hfd]
  exact congrArg Prod.fst htable

/-- What the group is once it is bound: its sockets, in order. -/
theorem bindGroup_kernel {config : SocketConfig} {workers : ℕ} (hpos : 1 ≤ workers)
    {first : BoundSocket} {rest : List BoundSocket} {base : ω} {flowHash : List UInt8 → ℕ}
    {clock : ℕ} {t : State SysCall.Reply (Kernel ω)}
    (h : (bindReuseportGroup (kernelOs os ebpf cbpf lag) config workers).exec
      ⟨.start base flowHash clock, []⟩ = some (.ok (some (first, rest)), t)) :
    t.env.Quiet ∧ t.env.group = (first :: rest).map (·.fd) ∧
      (first :: rest).length = workers := by
  obtain ⟨s₁, s₂, hbind, hname, hrest⟩ := bindReuseportGroup_eq_ok h
  obtain ⟨hquiet, hgroup⟩ := (quiet_start base flowHash clock).bindUdp hbind
  -- the question for the name leaves the kernel's table alone
  have hquiet₂ : s₂.env.Quiet := by
    rw [hname]
    exact hquiet.of_table rfl
  have hgroup₂ : s₂.env.group = [first.fd] := by
    rw [hname]
    exact hgroup
  obtain ⟨hlen, hquiet', hgroup'⟩ := exec_mapM_induct
    (motive := fun as t => t.env.Quiet ∧ t.env.group = first.fd :: as.map (·.fd))
    _ (fun as _ a s t hmotive ha => by
      obtain ⟨hquiet', hgroup'⟩ := hmotive.1.bindUdp ha
      refine ⟨hquiet', ?_⟩
      rw [hgroup', hmotive.2]
      simp) ⟨hquiet₂, hgroup₂⟩ hrest
  refine ⟨hquiet', hgroup', ?_⟩
  rw [List.length_cons, hlen, List.length_range]
  omega

end Group

/-! ## Waiting for a packet -/

section Probe

variable {os : Os ω} {ebpf cbpf : Selector} {lag : ℕ → ℕ}

/-- Nothing but the clock has changed. -/
def Kernel.Later (k k' : Kernel ω) : Prop :=
  ∃ elapsed calls, k' = { k with clock := k.clock + elapsed, calls := calls }

theorem Kernel.Later.refl (k : Kernel ω) : k.Later k := ⟨0, k.calls, rfl⟩

theorem Kernel.Later.trans {k₁ k₂ k₃ : Kernel ω} (h₁ : k₁.Later k₂) (h₂ : k₂.Later k₃) :
    k₁.Later k₃ := by
  obtain ⟨elapsed₁, _, rfl⟩ := h₁
  obtain ⟨elapsed₂, calls, rfl⟩ := h₂
  exact ⟨elapsed₁ + elapsed₂, calls, by rw [← Nat.add_assoc]⟩

theorem Kernel.later_elapse (k : Kernel ω) (duration : ℕ) :
    k.Later (k.elapse lag duration) :=
  ⟨duration + lag k.calls, k.calls + 1, by rw [← Nat.add_assoc]; rfl⟩

theorem Kernel.Later.queue {k k' : Kernel ω} (h : k.Later k') : k'.queue = k.queue := by
  obtain ⟨_, _, rfl⟩ := h
  rfl

theorem Kernel.Later.clock_le {k k' : Kernel ω} (h : k.Later k') : k.clock ≤ k'.clock := by
  obtain ⟨elapsed, _, rfl⟩ := h
  exact Nat.le_add_right k.clock elapsed

/-- `recvfrom` finds nothing. -/
theorem answer_recvFrom_empty {fd : ℕ} {k : Kernel ω} (h : k.queue fd = []) :
    (kernelOs os ebpf cbpf lag).answer (.recvFrom fd) k =
      (.error ⟨.wouldBlock, "Resource temporarily unavailable"⟩, k.elapse lag 0) := by
  show (_, _) = _
  unfold Kernel.receive
  rw [h]

/-- `recvfrom` takes the only packet there is. -/
theorem answer_recvFrom_single {fd : ℕ} {packet : List UInt8} {k : Kernel ω}
    (h : k.queue = Function.update (fun _ => []) fd [packet]) :
    (kernelOs os ebpf cbpf lag).answer (.recvFrom fd) k =
      (.ok packet, Kernel.elapse lag 0 { k with queue := fun _ => [] }) := by
  have hqueue : Function.update k.queue fd [] = fun _ => [] := by
    rw [h, Function.update_idem, Function.update_eq_self_iff]
  show (_, _) = _
  unfold Kernel.receive
  rw [h, Function.update_self]
  dsimp only
  rw [← h, hqueue]

/-- A pass over sockets without packets. -/
theorem probePass_quiet {expected index : ℕ} {packet buffer : List UInt8}
    (sockets : List BoundSocket) {s : State SysCall.Reply (Kernel ω)}
    (hempty : ∀ fd, s.env.queue fd = []) :
    ∃ t, (probePass (kernelOs os ebpf cbpf lag) expected packet index sockets buffer).exec s =
      some (.ok (false, buffer), t) ∧ s.env.Later t.env := by
  induction sockets generalizing index s with
  | nil => exact ⟨s, rfl, .refl _⟩
  | cons socket sockets ih =>
      unfold probePass
      rw [exec_bind_call, answer_recvFrom_empty (hempty socket.fd)]
      dsimp only
      rw [if_pos rfl]
      obtain ⟨t, hexec, hlater⟩ := @ih (index + 1) ⟨s.env.elapse lag 0, s.log ++
        [⟨.recvFrom socket.fd, .error ⟨.wouldBlock, "Resource temporarily unavailable"⟩⟩]⟩ hempty
      exact ⟨t, hexec, (Kernel.later_elapse s.env 0).trans hlater⟩

/-- A pass that meets the packet on socket `j`: it is taken, and the pass ends there with
the verdict on the position. -/
theorem probePass_hit {expected index j : ℕ} {packet buffer : List UInt8}
    (hfits : packet.length ≤ buffer.length) {socket : BoundSocket}
    (sockets : List BoundSocket) (hnodup : (sockets.map (·.fd)).Nodup)
    (hget : sockets[j]? = some socket) {s : State SysCall.Reply (Kernel ω)}
    (hqueue : s.env.queue = Function.update (fun _ => []) socket.fd [packet]) :
    ∃ t, (probePass (kernelOs os ebpf cbpf lag) expected packet index sockets buffer).exec s =
      some (if index + j = expected then .ok (true, (copyPrefix packet buffer).1)
        else .error ⟨.invalidData,
          "QUIC reuse-port selector probe routed to unexpected worker"⟩, t) ∧
      Kernel.Later { s.env with queue := fun _ => [] } t.env := by
  induction sockets generalizing index j s with
  | nil => cases hget
  | cons head sockets ih =>
      unfold probePass
      rw [exec_bind_call]
      cases j with
      | zero =>
          cases hget
          rw [answer_recvFrom_single hqueue]
          dsimp only
          rw [take_copyPrefix hfits, Nat.add_zero]
          by_cases hindex : index = expected
          · rw [if_pos ⟨rfl, hindex⟩, if_pos hindex]
            exact ⟨_, rfl, Kernel.later_elapse _ 0⟩
          · rw [if_neg (fun h => hindex h.2), if_pos rfl, if_neg hindex]
            exact ⟨_, rfl, Kernel.later_elapse _ 0⟩
      | succ j =>
          rw [List.getElem?_cons_succ] at hget
          rw [List.map_cons, List.nodup_cons] at hnodup
          have hmem : socket.fd ∈ sockets.map (·.fd) :=
            List.mem_map_of_mem (List.mem_of_getElem? hget)
          have hne : head.fd ≠ socket.fd := fun heq => hnodup.1 (heq ▸ hmem)
          have hempty : s.env.queue head.fd = [] := by
            rw [hqueue, Function.update_of_ne hne]
          rw [answer_recvFrom_empty hempty]
          dsimp only
          rw [if_pos rfl, show index + (j + 1) = index + 1 + j by omega]
          obtain ⟨t, hexec, hlater⟩ := @ih (index + 1) j hnodup.2 hget ⟨s.env.elapse lag 0,
            s.log ++ [⟨.recvFrom head.fd,
              .error ⟨.wouldBlock, "Resource temporarily unavailable"⟩⟩]⟩ hqueue
          exact ⟨t, hexec, (Kernel.later_elapse { s.env with queue := fun _ => [] } 0).trans
            hlater⟩

theorem answer_now (k : Kernel ω) :
    (kernelOs os ebpf cbpf lag).answer .now k = (k.clock, k) := rfl

theorem answer_sleep (duration : ℕ) (k : Kernel ω) :
    (kernelOs os ebpf cbpf lag).answer (.sleep duration) k = ((), k.elapse lag duration) := rfl

/-- Without a packet the loop ends at its deadline: each pass sleeps a millisecond. -/
theorem probeLoop_quiet {sockets : List BoundSocket} {expected deadline : ℕ}
    {packet buffer : List UInt8} (fuel : ℕ) {s : State SysCall.Reply (Kernel ω)}
    (hempty : ∀ fd, s.env.queue fd = [])
    (hdeadline : deadline ≤ s.env.clock + fuel * millis 1) :
    ∃ t, (probeLoop (kernelOs os ebpf cbpf lag) sockets expected packet deadline (fuel + 1)
      buffer).exec s =
        some (.error ⟨.timedOut, "QUIC reuse-port selector probe timed out"⟩, t) := by
  induction fuel generalizing s with
  | zero =>
      unfold probeLoop
      rw [exec_bind_call, answer_now, if_neg (by omega)]
      exact ⟨_, rfl⟩
  | succ fuel ih =>
      unfold probeLoop
      rw [exec_bind_call, answer_now]
      by_cases hearly : s.env.clock < deadline
      · rw [if_pos hearly]
        obtain ⟨t, hpass, hlater⟩ :=
          @probePass_quiet ω os ebpf cbpf lag expected 0 packet buffer sockets
            ⟨s.env, s.log ++ [⟨.now, s.env.clock⟩]⟩ hempty
        rw [exec_bind_ok hpass, if_neg Bool.false_ne_true, exec_bind_call, answer_sleep]
        apply ih
        · intro fd
          show t.env.queue fd = []
          rw [hlater.queue]
          exact hempty fd
        · -- the clock has gone on by a millisecond or more
          have hclock : s.env.clock ≤ t.env.clock := hlater.clock_le
          show deadline ≤ t.env.clock + millis 1 + lag t.env.calls + fuel * millis 1
          rw [Nat.succ_mul] at hdeadline
          omega
      · rw [if_neg hearly]
        exact ⟨_, rfl⟩

/-- No packet arrives: the wait times out. -/
theorem waitForProbe_quiet {fuel : ℕ} (hfuel : 101 ≤ fuel) {sockets : List BoundSocket}
    {expected : ℕ} {packet : List UInt8} {s : State SysCall.Reply (Kernel ω)}
    (hempty : ∀ fd, s.env.queue fd = []) :
    ∃ e t, (quicReuseportSelectorWaitForProbe (kernelOs os ebpf cbpf lag) fuel sockets
      expected packet).exec s = some (.error e, t) := by
  unfold quicReuseportSelectorWaitForProbe
  rw [exec_bind_call, answer_now]
  obtain ⟨fuel, rfl⟩ : ∃ passes, fuel = passes + 1 := ⟨fuel - 1, by omega⟩
  obtain ⟨t, ht⟩ := @probeLoop_quiet ω os ebpf cbpf lag sockets expected
    (s.env.clock + millis 100) packet probeBuffer fuel ⟨s.env, s.log ++ [⟨.now, s.env.clock⟩]⟩
    hempty (by
      show s.env.clock + millis 100 ≤ s.env.clock + fuel * millis 1
      unfold millis
      omega)
  exact ⟨_, t, ht⟩

/-- The packet is on socket `j`: the first pass finds it there. -/
theorem waitForProbe_hit {fuel : ℕ} (hfuel : 101 ≤ fuel) {sockets : List BoundSocket}
    (hnodup : (sockets.map (·.fd)).Nodup) {expected j : ℕ} {packet : List UInt8}
    (hfits : packet.length ≤ 16) {socket : BoundSocket} (hget : sockets[j]? = some socket)
    {s : State SysCall.Reply (Kernel ω)}
    (hqueue : s.env.queue = Function.update (fun _ => []) socket.fd [packet]) :
    ∃ r t, (quicReuseportSelectorWaitForProbe (kernelOs os ebpf cbpf lag) fuel sockets
        expected packet).exec s = some (r, t) ∧
      (j = expected → r = .ok ()) ∧ (j ≠ expected → ∃ e, r = .error e) ∧
      Kernel.Later { s.env with queue := fun _ => [] } t.env := by
  unfold quicReuseportSelectorWaitForProbe
  rw [exec_bind_call, answer_now]
  obtain ⟨fuel, rfl⟩ : ∃ passes, fuel = passes + 1 := ⟨fuel - 1, by omega⟩
  unfold probeLoop
  have hearly : s.env.clock < s.env.clock + millis 100 :=
    Nat.lt_add_of_pos_right (by decide)
  rw [exec_bind_call, answer_now, if_pos hearly]
  obtain ⟨t, hpass, hlater⟩ := @probePass_hit ω os ebpf cbpf lag expected 0 j packet probeBuffer
    (by rw [probeBuffer, List.length_replicate]; exact hfits) socket sockets hnodup hget
    ⟨s.env, s.log ++ [⟨.now, s.env.clock⟩] ++ [⟨.now, s.env.clock⟩]⟩ hqueue
  rw [Nat.zero_add] at hpass
  by_cases hj : j = expected
  · rw [if_pos hj] at hpass
    rw [exec_bind_ok hpass]
    exact ⟨_, t, rfl, fun _ => rfl, fun h => absurd hj h, hlater⟩
  · rw [if_neg hj] at hpass
    rw [exec_bind_error hpass]
    exact ⟨_, t, rfl, fun h => absurd h hj, fun _ => ⟨_, rfl⟩, hlater⟩

/-! ## The probe -/

/-- Between two rounds: no packet on any socket of the group, which `select` steers. -/
structure Kernel.Ready (sockets : List BoundSocket) (select : List UInt8 → ℕ)
    (k : Kernel ω) : Prop where
  quiet : k.Quiet
  group : k.group = sockets.map (·.fd)
  select : k.select = select

section Rounds

variable {sockets : List BoundSocket} {select : List UInt8 → ℕ}

theorem Kernel.Ready.later {k k' : Kernel ω} (hk : k.Ready sockets select)
    (h : k.Later k') : k'.Ready sockets select := by
  obtain ⟨_, _, rfl⟩ := h
  exact ⟨hk.quiet.of_table rfl, hk.group, hk.select⟩

theorem Kernel.Ready.queue_eq {k : Kernel ω} (hk : k.Ready sockets select) :
    k.queue = fun _ => [] :=
  funext hk.quiet.empty

theorem Kernel.Ready.deliver_some {k : Kernel ω} (hk : k.Ready sockets select)
    {packet : List UInt8} {socket : BoundSocket}
    (hget : sockets[select packet]? = some socket) :
    k.deliver packet =
      { k with queue := Function.update (fun _ => []) socket.fd [packet] } := by
  unfold Kernel.deliver
  rw [hk.group, hk.select, List.getElem?_map, hget, hk.queue_eq]
  rfl

theorem Kernel.Ready.deliver_none {k : Kernel ω} (hk : k.Ready sockets select)
    {packet : List UInt8} (hget : sockets[select packet]? = none) : k.deliver packet = k := by
  unfold Kernel.deliver
  rw [hk.group, hk.select, List.getElem?_map, hget]
  rfl

/-- The round of a packet that is routed to its socket succeeds. -/
theorem probeRound_routed {fuel : ℕ} (hfuel : 101 ≤ fuel) {sender i : ℕ}
    {target : SocketAddr} (hi : i < sockets.length)
    (hselect : select (quicReuseportProbePacket i) = i)
    {s : State SysCall.Reply (Kernel ω)} (hs : s.env.Ready sockets select) :
    ∃ t, (probeRound (kernelOs os ebpf cbpf lag) fuel sockets sender target i).exec s =
      some (.ok (), t) ∧ t.env.Ready sockets select := by
  have hnodup : (sockets.map (·.fd)).Nodup := hs.group ▸ hs.quiet.nodup
  have hget : sockets[i]? = some sockets[i] := List.getElem?_eq_getElem hi
  have hdeliver : s.env.deliver (quicReuseportProbePacket i) = { s.env with
      queue := Function.update (fun _ => []) sockets[i].fd [quicReuseportProbePacket i] } :=
    hs.deliver_some (by rw [hselect]; exact hget)
  unfold probeRound
  rw [exec_bind_call]
  obtain ⟨r, t, hexec, hok, _, hlater⟩ := @waitForProbe_hit ω os ebpf cbpf lag fuel hfuel
    sockets hnodup i i (quicReuseportProbePacket i) (by rw [length_probePacket]; decide)
    sockets[i] hget ⟨(s.env.deliver (quicReuseportProbePacket i)).elapse lag 0, s.log ++
      [⟨.sendTo sender (quicReuseportProbePacket i) target, .ok ()⟩]⟩ (by rw [hdeliver]; rfl)
  refine ⟨t, ?_, ?_⟩
  · rw [hok rfl] at hexec
    exact hexec
  · -- the packet has been read: the queues are as before
    have hsame : ({ s.env with queue := fun _ => [] } : Kernel ω) = s.env := by
      rw [← hs.queue_eq]
    have hsent : s.env.Later (Kernel.elapse lag 0 { s.env with queue := fun _ => [] }) := by
      rw [hsame]
      exact Kernel.later_elapse s.env 0
    rw [hdeliver] at hlater
    exact hs.later (hsent.trans hlater)

/-- The round of any other packet fails: it is found on another socket, or nowhere. -/
theorem probeRound_misrouted {fuel : ℕ} (hfuel : 101 ≤ fuel) {sender i : ℕ}
    {target : SocketAddr} (hselect : select (quicReuseportProbePacket i) ≠ i)
    {s : State SysCall.Reply (Kernel ω)} (hs : s.env.Ready sockets select) :
    ∃ e t, (probeRound (kernelOs os ebpf cbpf lag) fuel sockets sender target i).exec s =
      some (.error e, t) := by
  unfold probeRound
  rw [exec_bind_call]
  cases hget : sockets[select (quicReuseportProbePacket i)]? with
  | none =>
      exact @waitForProbe_quiet ω os ebpf cbpf lag fuel hfuel sockets i _
        ⟨(s.env.deliver (quicReuseportProbePacket i)).elapse lag 0, s.log ++
          [⟨.sendTo sender (quicReuseportProbePacket i) target, .ok ()⟩]⟩
        (by rw [hs.deliver_none hget]; exact hs.quiet.empty)
  | some socket =>
      have hnodup : (sockets.map (·.fd)).Nodup := hs.group ▸ hs.quiet.nodup
      obtain ⟨r, t, hexec, _, herror, _⟩ := @waitForProbe_hit ω os ebpf cbpf lag fuel hfuel
        sockets hnodup i _ (quicReuseportProbePacket i) (by rw [length_probePacket]; decide)
        socket hget ⟨(s.env.deliver (quicReuseportProbePacket i)).elapse lag 0, s.log ++
          [⟨.sendTo sender (quicReuseportProbePacket i) target, .ok ()⟩]⟩
        (by rw [hs.deliver_some hget]; rfl)
      obtain ⟨e, rfl⟩ := herror hselect
      exact ⟨e, t, hexec⟩

/-- Draining sockets without packets. -/
theorem drainSockets_quiet {fuel : ℕ} (hfuel : 1 ≤ fuel) {buffer : List UInt8}
    (sockets' : List BoundSocket) {s : State SysCall.Reply (Kernel ω)}
    (hempty : ∀ fd, s.env.queue fd = []) :
    ∃ t, (drainSockets (kernelOs os ebpf cbpf lag) fuel sockets' buffer).exec s =
      some (.ok (), t) := by
  induction sockets' generalizing s with
  | nil => exact ⟨s, rfl⟩
  | cons socket sockets' ih =>
      obtain ⟨fuel, rfl⟩ : ∃ more, fuel = more + 1 := ⟨fuel - 1, by omega⟩
      have hdrain : (drainSocket (kernelOs os ebpf cbpf lag) socket.fd (fuel + 1) buffer).exec s =
          some (.ok buffer, ⟨s.env.elapse lag 0, s.log ++ [⟨.recvFrom socket.fd,
            .error ⟨.wouldBlock, "Resource temporarily unavailable"⟩⟩]⟩) := by
        unfold drainSocket
        rw [exec_bind_call, answer_recvFrom_empty (hempty socket.fd)]
        rfl
      unfold drainSockets
      rw [exec_bind_ok hdrain]
      exact ih hempty

/-- The rounds: all succeed, or the first packet that is misrouted ends them. -/
theorem probeRounds_kernel {fuel : ℕ} (hfuel : 101 ≤ fuel) {sender : ℕ}
    {target : SocketAddr} {s : State SysCall.Reply (Kernel ω)}
    (hs : s.env.Ready sockets select) :
    ∃ r t, (probeRounds (kernelOs os ebpf cbpf lag) fuel sockets sender target).exec s =
        some (r, t) ∧
      ((∀ i < sockets.length, select (quicReuseportProbePacket i) = i) →
        r = .ok () ∧ t.env.Ready sockets select) ∧
      ((¬ ∀ i < sockets.length, select (quicReuseportProbePacket i) = i) →
        ∃ e, r = .error e) := by
  -- making the sockets nonblocking succeeds
  obtain ⟨r₁, s₁, hset, hok, _⟩ : ∃ r t,
      (forM sockets fun socket => do
        ofResult id (← call (kernelOs os ebpf cbpf lag) (.setNonblocking socket.fd true)) :
        Sys (Kernel ω) IoError Unit).exec s = some (r, t) ∧
      ((∀ socket ∈ sockets, True) → r = .ok () ∧ t.env.Ready sockets select) ∧
      ((¬ ∀ socket ∈ sockets, True) → ∃ e, r = .error e) :=
    exec_forM_cases (P := fun s => Kernel.Ready sockets select s.env) sockets
      (fun _ _ _ s hs => ⟨⟨s.env, _⟩, rfl, hs⟩) (fun _ _ hnot => absurd trivial hnot) hs
  obtain ⟨rfl, hs₁⟩ := hok fun _ _ => trivial
  obtain ⟨r, t, hexec, hall, hnot⟩ := exec_forM_cases
    (f := probeRound (kernelOs os ebpf cbpf lag) fuel sockets sender target)
    (P := fun s => Kernel.Ready sockets select s.env) (List.range sockets.length)
    (fun i hi hselect s hs => probeRound_routed hfuel (List.mem_range.mp hi) hselect hs)
    (fun i _ hselect s hs => probeRound_misrouted hfuel hselect hs) hs₁
  simp only [List.mem_range] at hall hnot
  refine ⟨r, t, ?_, hall, hnot⟩
  unfold probeRounds
  rw [exec_bind_ok hset]
  exact hexec

/-- The probe returns; it succeeds exactly if every packet is routed to its socket. -/
theorem probe_kernel {fuel : ℕ} (hfuel : 101 ≤ fuel) (hpos : 1 ≤ sockets.length)
    (hmax : sockets.length ≤ 65536) (bindAddr : SocketAddr)
    {s : State SysCall.Reply (Kernel ω)} (hs : s.env.Ready sockets select) :
    ∃ r t, (quicReuseportSelectorRoutesProbe (kernelOs os ebpf cbpf lag) fuel sockets
        bindAddr).exec s = some (r, t) ∧
      ((∀ i < sockets.length, select (quicReuseportProbePacket i) = i) → r = .ok ()) ∧
      ((¬ ∀ i < sockets.length, select (quicReuseportProbePacket i) = i) →
        ∃ e, r = .error e) := by
  have hsender : ({ s.env with nextFd := s.env.nextFd + 1 } : Kernel ω).Ready sockets select :=
    ⟨⟨hs.quiet.nodup, fun fd hfd => Nat.lt_succ_of_lt (hs.quiet.lt fd hfd), hs.quiet.empty⟩,
      hs.group, hs.select⟩
  have hcount : ¬ (sockets = [] ∨ sockets.length > 65535 + 1) := by
    rintro (hnil | hlong)
    · rw [hnil, List.length_nil] at hpos
      omega
    · omega
  obtain ⟨r, t, hexec, hall, hnot⟩ := @probeRounds_kernel ω os ebpf cbpf lag sockets select
    fuel hfuel s.env.nextFd (routableProbeAddr bindAddr)
    ⟨{ s.env with nextFd := s.env.nextFd + 1 }, s.log ++
      [⟨.udpSocketBind (probeSenderAddr (routableProbeAddr bindAddr)), .ok s.env.nextFd⟩]⟩ hsender
  have hstart : (quicReuseportSelectorRoutesProbe (kernelOs os ebpf cbpf lag) fuel sockets
      bindAddr).exec s = (do
        probeRounds (kernelOs os ebpf cbpf lag) fuel sockets s.env.nextFd
          (routableProbeAddr bindAddr)
        quicReuseportSelectorDrainProbePackets (kernelOs os ebpf cbpf lag) fuel sockets :
        Sys (Kernel ω) IoError Unit).exec
      ⟨{ s.env with nextFd := s.env.nextFd + 1 }, s.log ++ [⟨.udpSocketBind
        (probeSenderAddr (routableProbeAddr bindAddr)), .ok s.env.nextFd⟩]⟩ := by
    unfold quicReuseportSelectorRoutesProbe
    simp only [if_neg hcount]
    rfl
  rw [hstart]
  by_cases hgood : ∀ i < sockets.length, select (quicReuseportProbePacket i) = i
  · obtain ⟨rfl, ht⟩ := hall hgood
    rw [exec_bind_ok hexec]
    obtain ⟨t', hdrain⟩ := @drainSockets_quiet ω os ebpf cbpf lag fuel (by omega) probeBuffer
      sockets t ht.quiet.empty
    exact ⟨_, t', hdrain, fun _ => rfl, fun h => absurd hgood h⟩
  · obtain ⟨e, rfl⟩ := hnot hgood
    rw [exec_bind_error hexec]
    exact ⟨.error e, t, rfl, fun h => absurd h hgood, fun _ => ⟨e, rfl⟩⟩

end Rounds

end Probe

/-! ## One selector after the other -/

section Fallback

variable {os : Os ω} {ebpf cbpf : Selector} {lag : ℕ → ℕ} {sockets : List BoundSocket}

theorem Selector.Routes.attaches {workers : ℕ} {selector : Selector}
    (h : selector.Routes workers) : selector.Attaches := by
  cases selector with
  | attaches select => trivial
  | rejected error => exact h
  | unattached error => exact h

theorem isOk_of_ok {ε δ α : Type} {x : Sys (Kernel ω) δ α} {a : α}
    {s t : State SysCall.Reply (Kernel ω)} (h : x.exec s = some (.ok a, t)) :
    (isOk x : Sys (Kernel ω) ε Bool).exec s = some (.ok true, t) := by
  unfold isOk
  rw [exec_bind_ok (exec_attempt h)]
  rfl

theorem isOk_of_error {ε δ α : Type} {x : Sys (Kernel ω) δ α} {e : δ}
    {s t : State SysCall.Reply (Kernel ω)} (h : x.exec s = some (.error e, t)) :
    (isOk x : Sys (Kernel ω) ε Bool).exec s = some (.ok false, t) := by
  unfold isOk
  rw [exec_bind_ok (exec_attempt h)]
  rfl

/-- What a try to attach leaves: the selector steers the group, or nothing has changed. -/
def Attached (selector : Selector) (sockets : List BoundSocket) (select : List UInt8 → ℕ)
    (r : Except Error Unit) (k : Kernel ω) : Prop :=
  match selector with
  | .attaches select' => r = .ok () ∧ k.Ready sockets select'
  | _ => (∃ e, r = .error e) ∧ k.Ready sockets select

theorem Attached.cases {selector : Selector} {sockets : List BoundSocket}
    {select : List UInt8 → ℕ} {r : Except Error Unit} {k : Kernel ω}
    (h : Attached selector sockets select r k) :
    (∃ select', selector = .attaches select' ∧ r = .ok () ∧ k.Ready sockets select') ∨
      (¬ selector.Attaches ∧ (∃ e, r = .error e) ∧ k.Ready sockets select) := by
  cases selector with
  | attaches select' => exact Or.inl ⟨select', rfl, h⟩
  | rejected error => exact Or.inr ⟨id, h⟩
  | unattached error => exact Or.inr ⟨id, h⟩

theorem attachEbpf_kernel {select : List UInt8 → ℕ} (arch : Arch) (socket : BoundSocket)
    (workers : ℕ) {s : State SysCall.Reply (Kernel ω)} (hs : s.env.Ready sockets select) :
    ∃ r t, (attachQuicReuseportEbpf (kernelOs os ebpf cbpf lag) arch socket workers).exec s =
      some (r, t) ∧ Attached (ebpf.on arch) sockets select r t.env := by
  unfold attachQuicReuseportEbpf loadQuicReuseportEbpf Selector.on
  cases sysBpfNumber arch with
  | none => exact ⟨_, s, rfl, ⟨_, rfl⟩, hs⟩
  | some number =>
      cases ebpf with
      | rejected error => exact ⟨_, _, rfl, ⟨_, rfl⟩, hs⟩
      | unattached error => exact ⟨_, _, rfl, ⟨_, rfl⟩, hs⟩
      | attaches select' => exact ⟨_, _, rfl, rfl, hs.quiet.of_table rfl, hs.group, rfl⟩

theorem attachCbpf_kernel {select : List UInt8 → ℕ} (socket : BoundSocket) (workers : ℕ)
    {s : State SysCall.Reply (Kernel ω)} (hs : s.env.Ready sockets select) :
    ∃ r t, (attachQuicReuseportCbpf (kernelOs os ebpf cbpf lag) socket workers).exec s =
      some (r, t) ∧ Attached cbpf sockets select r t.env := by
  unfold attachQuicReuseportCbpf
  cases cbpf with
  | rejected error => exact ⟨_, _, rfl, ⟨_, rfl⟩, hs⟩
  | unattached error => exact ⟨_, _, rfl, ⟨_, rfl⟩, hs⟩
  | attaches select' => exact ⟨_, _, rfl, rfl, hs.quiet.of_table rfl, hs.group, rfl⟩

/-- The probe, as the condition of the binder reads it. -/
theorem probe_isOk {select : List UInt8 → ℕ} {fuel : ℕ} (hfuel : 101 ≤ fuel)
    (hpos : 1 ≤ sockets.length) (hmax : sockets.length ≤ 65536) (bindAddr : SocketAddr)
    {s : State SysCall.Reply (Kernel ω)} (hs : s.env.Ready sockets select) :
    ∃ works t, (isOk (quicReuseportSelectorRoutesProbe (kernelOs os ebpf cbpf lag) fuel sockets
        bindAddr) : Sys (Kernel ω) Error Bool).exec s = some (.ok works, t) ∧
      (works = true ↔ ∀ i < sockets.length, select (quicReuseportProbePacket i) = i) := by
  obtain ⟨r, t, hexec, hall, hnot⟩ :=
    @probe_kernel ω os ebpf cbpf lag sockets select fuel hfuel hpos hmax bindAddr s hs
  by_cases hgood : ∀ i < sockets.length, select (quicReuseportProbePacket i) = i
  · rw [hall hgood] at hexec
    exact ⟨true, t, isOk_of_ok hexec, fun _ => hgood, fun _ => rfl⟩
  · obtain ⟨e, rfl⟩ := hnot hgood
    exact ⟨false, t, isOk_of_error hexec, fun h => absurd h Bool.false_ne_true,
      fun h => absurd h hgood⟩

/-- The selector that is probed: the eBPF selector if it attaches, and otherwise the
classic one. -/
def Probed (ebpf cbpf : Selector) (workers : ℕ) : Prop :=
  ebpf.Routes workers ∨ (¬ ebpf.Attaches ∧ cbpf.Routes workers)

theorem probed_of_attaches {ebpf cbpf : Selector} {workers : ℕ} (h : ebpf.Attaches) :
    Probed ebpf cbpf workers ↔ ebpf.Routes workers := by
  constructor
  · rintro (hroutes | ⟨hnot, -⟩)
    · exact hroutes
    · exact absurd h hnot
  · exact Or.inl

theorem probed_of_not_attaches {ebpf cbpf : Selector} {workers : ℕ} (h : ¬ ebpf.Attaches) :
    Probed ebpf cbpf workers ↔ cbpf.Routes workers := by
  constructor
  · rintro (hroutes | ⟨-, hroutes⟩)
    · exact absurd hroutes.attaches h
    · exact hroutes
  · intro hroutes
    exact Or.inr ⟨h, hroutes⟩

/-- The classic selector is tried: it works if it attaches and passes the probe. -/
theorem classicWorks_kernel {select : List UInt8 → ℕ} {fuel : ℕ} (hfuel : 101 ≤ fuel)
    (hpos : 1 ≤ sockets.length) (hmax : sockets.length ≤ 65536) (socket : BoundSocket)
    {s : State SysCall.Reply (Kernel ω)} (hs : s.env.Ready sockets select) :
    ∃ works t, (do
        let attached ← isOk
          (attachQuicReuseportCbpf (kernelOs os ebpf cbpf lag) socket sockets.length)
        if attached then
          isOk (quicReuseportSelectorRoutesProbe (kernelOs os ebpf cbpf lag) fuel sockets
            socket.localAddr)
        else pure false : Sys (Kernel ω) Error Bool).exec s = some (.ok works, t) ∧
      (works = true ↔ cbpf.Routes sockets.length) := by
  obtain ⟨r, s₁, hexec, hattached⟩ :=
    @attachCbpf_kernel ω os ebpf cbpf lag sockets select socket sockets.length s hs
  rcases hattached.cases with ⟨select', rfl, rfl, hs₁⟩ | ⟨hnot, ⟨e, rfl⟩, _⟩
  · rw [exec_bind_ok (isOk_of_ok hexec), if_pos rfl]
    exact probe_isOk hfuel hpos hmax socket.localAddr hs₁
  · rw [exec_bind_ok (isOk_of_error hexec), if_neg Bool.false_ne_true]
    exact ⟨false, s₁, rfl, fun h => absurd h Bool.false_ne_true,
      fun h => absurd h.attaches hnot⟩

theorem selectorWorks_kernel {select : List UInt8 → ℕ} {fuel : ℕ} (hfuel : 101 ≤ fuel)
    (arch : Arch) {first : BoundSocket} {rest : List BoundSocket}
    (hmax : (first :: rest).length ≤ 65536) {s : State SysCall.Reply (Kernel ω)}
    (hs : s.env.Ready (first :: rest) select) :
    ∃ works t, (selectorWorks (kernelOs os ebpf cbpf lag) arch fuel first rest
        (first :: rest).length).exec s = some (.ok works, t) ∧
      (works = true ↔ Probed (ebpf.on arch) cbpf (first :: rest).length) := by
  have hpos : 1 ≤ (first :: rest).length := Nat.succ_le_succ (Nat.zero_le _)
  obtain ⟨r, s₁, hexec, hattached⟩ :=
    @attachEbpf_kernel ω os ebpf cbpf lag (first :: rest) select arch first
      (first :: rest).length s hs
  unfold selectorWorks
  rcases hattached.cases with ⟨select', hselector, rfl, hs₁⟩ | ⟨hnot, ⟨e, rfl⟩, hs₁⟩
  · -- the eBPF selector steers the group, and the probe decides
    have hattaches : (ebpf.on arch).Attaches := by
      rw [hselector]
      trivial
    rw [exec_bind_ok (isOk_of_ok hexec), if_pos rfl, probed_of_attaches hattaches, hselector]
    exact probe_isOk hfuel hpos hmax first.localAddr hs₁
  · -- it does not attach: what follows is the classic one
    rw [exec_bind_ok (isOk_of_error hexec), if_neg Bool.false_ne_true,
      probed_of_not_attaches hnot]
    exact @classicWorks_kernel ω os ebpf cbpf lag (first :: rest) select fuel hfuel hpos hmax
      first s₁ hs₁

/-- The binder returns: the group if the probed selector routes every probe packet, and
otherwise no sockets. -/
theorem bindQuic_kernel {fuel : ℕ} (hfuel : 101 ≤ fuel) (arch : Arch)
    {config : SocketConfig} {workers : ℕ} (hpos : 1 ≤ workers) (hmax : workers ≤ 65536)
    {first : BoundSocket} {rest : List BoundSocket} {base : ω} {flowHash : List UInt8 → ℕ}
    {clock : ℕ} {s : State SysCall.Reply (Kernel ω)}
    (h : (bindReuseportGroup (kernelOs os ebpf cbpf lag) config workers).exec
      ⟨.start base flowHash clock, []⟩ = some (.ok (some (first, rest)), s)) :
    (first :: rest).length = workers ∧
    ∃ r t, (bindQuicUdpReuseportWorkers (kernelOs os ebpf cbpf lag) .linux arch false fuel config
        workers).exec ⟨.start base flowHash clock, []⟩ = some (.ok r, t) ∧
      (Probed (ebpf.on arch) cbpf workers → r = some (first :: rest)) ∧
      (¬ Probed (ebpf.on arch) cbpf workers → r = none) := by
  obtain ⟨hquiet, hgroup, hcount⟩ := bindGroup_kernel hpos h
  refine ⟨hcount, ?_⟩
  obtain ⟨works, t, hexec, hworks⟩ := @selectorWorks_kernel ω os ebpf cbpf lag s.env.select fuel
    hfuel arch first rest (hcount ▸ hmax) s ⟨hquiet, hgroup, rfl⟩
  rw [hcount] at hexec hworks
  unfold bindQuicUdpReuseportWorkers
  dsimp only
  rw [if_neg Bool.false_ne_true, if_neg (by omega), exec_bind_ok h]
  dsimp only
  rw [exec_bind_ok hexec]
  cases works with
  | true => exact ⟨_, t, rfl, fun _ => rfl, fun hnot => absurd (hworks.mp rfl) hnot⟩
  | false =>
      exact ⟨_, t, rfl, fun hprobed => absurd (hworks.mpr hprobed) Bool.false_ne_true,
        fun _ => rfl⟩

end Fallback

/-- The fallback. Let the group be bound, and let nobody else send. If one of the two
selectors attaches and routes every probe packet to its socket, the binder should return
the group, and otherwise no sockets. It does so exactly if not the eBPF selector attaches
and fails the probe while the classic one would pass it: then the classic one is never
tried. -/
theorem selectorFallback_iff (os : Os ω) (ebpf cbpf : Selector) (lag : ℕ → ℕ) (arch : Arch)
    {config : SocketConfig} {workers : ℕ} (hpos : 1 ≤ workers) (hmax : workers ≤ 65536)
    {first : BoundSocket} {rest : List BoundSocket} {base : ω} {flowHash : List UInt8 → ℕ}
    {clock : ℕ} {s : State SysCall.Reply (Kernel ω)}
    (hbind : (bindReuseportGroup (kernelOs os ebpf cbpf lag) config workers).exec
      ⟨.start base flowHash clock, []⟩ = some (.ok (some (first, rest)), s))
    {fuel : ℕ} (hfuel : 101 ≤ fuel) :
    (first :: rest).length = workers ∧
    ∃ r t, (bindQuicUdpReuseportWorkers (kernelOs os ebpf cbpf lag) .linux arch false fuel config
        workers).exec ⟨.start base flowHash clock, []⟩ = some (.ok r, t) ∧
      ((((ebpf.on arch).Routes workers ∨ cbpf.Routes workers → r = some (first :: rest)) ∧
        (¬ ((ebpf.on arch).Routes workers ∨ cbpf.Routes workers) → r = none)) ↔
        ¬ ((ebpf.on arch).Attaches ∧ ¬ (ebpf.on arch).Routes workers ∧
          cbpf.Routes workers)) := by
  obtain ⟨hcount, r, t, hexec, hused, hunused⟩ := bindQuic_kernel hfuel arch hpos hmax hbind
  refine ⟨hcount, r, t, hexec, ?_⟩
  constructor
  · rintro ⟨hcomplete, _⟩ ⟨hattaches, hmisroutes, hroutes⟩
    -- the classic selector would do, but the eBPF selector was probed
    have hnone : r = none := by
      apply hunused
      rintro (h | ⟨h, _⟩)
      · exact hmisroutes h
      · exact h hattaches
    rw [hcomplete (Or.inr hroutes)] at hnone
    cases hnone
  · intro hnot
    constructor
    · intro hsome
      apply hused
      rcases hsome with hroutes | hroutes
      · exact Or.inl hroutes
      · by_cases hebpf : (ebpf.on arch).Routes workers
        · exact Or.inl hebpf
        · exact Or.inr ⟨fun hattaches => hnot ⟨hattaches, hebpf, hroutes⟩, hroutes⟩
    · intro hneither
      apply hunused
      rintro (h | ⟨_, h⟩)
      · exact hneither (Or.inl h)
      · exact hneither (Or.inr h)

/-- A selector that agrees with the userspace router. -/
def routerSelector (workers : ℕ) : Selector :=
  .attaches fun packet => (quicWorkerIndex packet workers).getD 0

theorem routerSelector_routes {workers : ℕ} (hmax : workers ≤ 65536) :
    (routerSelector workers).Routes workers := by
  intro i hi
  show (quicWorkerIndex (quicReuseportProbePacket i) workers).getD 0 = i
  rw [quicWorkerIndex_probePacket hi hmax]
  rfl

theorem bindUdp_succeeds (ebpf cbpf : Selector) (addr : SocketAddr)
    (s : State SysCall.Reply (Kernel ℕ)) :
    ∃ socket t, (bindUdp (kernelOs ephemeralOs ebpf cbpf fun _ => 0) .linux (.new addr)).exec s =
      some (.ok socket, t) :=
  ⟨_, _, rfl⟩

/-- Over a system in which everything succeeds, the group can be bound. -/
theorem bindGroup_succeeds (ebpf cbpf : Selector) (addr : SocketAddr) (workers : ℕ)
    (s : State SysCall.Reply (Kernel ℕ)) :
    ∃ first rest t, (bindReuseportGroup (kernelOs ephemeralOs ebpf cbpf fun _ => 0) (.new addr)
      workers).exec s = some (.ok (some (first, rest)), t) := by
  obtain ⟨first, s₁, hfirst⟩ := bindUdp_succeeds ebpf cbpf addr s
  unfold bindReuseportGroup
  have hname : (kernelOs ephemeralOs ebpf cbpf fun _ => 0).answer (.getSockName first.fd) s₁.env =
      (.ok (), s₁.env) := rfl
  rw [exec_bind_ok (exec_attempt hfirst)]
  dsimp only
  rw [exec_bind_call, hname, exec_bind_ok (exec_ofResult_eq_ok.mpr ⟨rfl, rfl⟩)]
  obtain ⟨rest, t, hrest, _⟩ := exec_mapM_of_ok (motive := fun _ _ => True)
    (f := fun _ => bindUdp (kernelOs ephemeralOs ebpf cbpf fun _ => 0) .linux
      (.new first.localAddr)) (s := ⟨s₁.env, s₁.log ++ [⟨.getSockName first.fd, .ok ()⟩]⟩)
    (List.range (workers - 1)) (fun _ _ s _ => by
      obtain ⟨socket, t, hsocket⟩ := bindUdp_succeeds ebpf cbpf first.localAddr s
      exact ⟨socket, t, hsocket, trivial⟩) trivial
  exact ⟨first, rest, t, exec_bind_ok (exec_attempt hrest)⟩

/-- The eBPF selector sends everything to socket 0, and the classic selector is right: no
sockets are returned. -/
theorem fallback_skips_classic :
    (routerSelector 2).Routes 2 ∧
      ∃ t, (bindQuicUdpReuseportWorkers
        (kernelOs ephemeralOs (.attaches fun _ => 0) (routerSelector 2) fun _ => 0) .linux .x86_64
        false 101 (.new (.v4 #v[127, 0, 0, 1] 4433)) 2).exec ⟨.start 0 (fun _ => 0) 0, []⟩ =
          some (.ok none, t) := by
  refine ⟨routerSelector_routes (by decide), ?_⟩
  obtain ⟨first, rest, s, hbind⟩ := bindGroup_succeeds (.attaches fun _ => 0)
    (routerSelector 2) (.v4 #v[127, 0, 0, 1] 4433) 2 ⟨.start 0 (fun _ => 0) 0, []⟩
  obtain ⟨_, r, t, hexec, _, hunused⟩ :=
    bindQuic_kernel le_rfl .x86_64 (by decide) (by decide) hbind
  have hnone : r = none := by
    apply hunused
    rintro (h | ⟨h, _⟩)
    · exact absurd (h 1 (by decide)) (by decide)
    · exact h trivial
  rw [hnone] at hexec
  exact ⟨t, hexec⟩

/-- The eBPF selector is rejected, and the classic one is right: the group is returned. -/
theorem selectorFallback_iff_classic :
    ∃ sockets t, (bindQuicUdpReuseportWorkers (kernelOs ephemeralOs
        (.rejected ⟨.permissionDenied, "Operation not permitted"⟩) (routerSelector 2) fun _ => 0)
        .linux .x86_64 false 101 (.new (.v4 #v[127, 0, 0, 1] 4433)) 2).exec
          ⟨.start 0 (fun _ => 0) 0, []⟩ = some (.ok (some sockets), t) ∧ sockets.length = 2 := by
  obtain ⟨first, rest, s, hbind⟩ := bindGroup_succeeds
    (.rejected ⟨.permissionDenied, "Operation not permitted"⟩) (routerSelector 2)
    (.v4 #v[127, 0, 0, 1] 4433) 2 ⟨.start 0 (fun _ => 0) 0, []⟩
  obtain ⟨hcount, r, t, hexec, hiff⟩ := selectorFallback_iff ephemeralOs _ _ _ .x86_64
    (by decide) (by decide) hbind le_rfl
  have hcomplete := (hiff.mpr fun h => h.1).1 (Or.inr (routerSelector_routes (by decide)))
  rw [hcomplete] at hexec
  exact ⟨_, t, hexec, hcount⟩

end ReusePort
