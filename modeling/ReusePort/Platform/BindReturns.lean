import ReusePort.Platform.QuicBind

/-!
# ReusePort.Platform.BindReturns — binding a QUIC server returns

`bind_quic_udp_reuseport_workers` (`platform/linux.rs`) has two loops without a bound of
their own: a round of the selector probe polls the sockets until its deadline has passed,
and the drain after the last round reads every socket until it would block. The first one
ends because each pass sleeps for a millisecond; the second one needs sockets that run
dry. Nothing else is assumed of the system: any call may fail, datagrams may come from
anywhere and arrive anywhere.

* `Honest` — a clock that `now` reads, that never goes back and that a sleep moves on;
* `Dry` — no socket has more datagrams in a row than a bound;
* `within_probeLoop`, `within_drainSocket` — the two loops;
* `bindQuic_returns` — binding returns, after a bounded number of system calls;
* `probe_flooded` — it need not if datagrams keep coming: the drain has no deadline.
-/

namespace ReusePort

open Calls Calls.Prog

variable {ω : Type} {os : Os ω}

/-- `std::time::Instant` and `std::thread::sleep`. -/
structure Honest (os : Os ω) (time : ω → ℕ) : Prop where
  now : ∀ w, (os.answer .now w).1 = time w
  mono : ∀ c w, time w ≤ time (os.answer c w).2
  sleep : ∀ duration w, time w + duration ≤ time (os.answer (.sleep duration) w).2

/-- The state after `k` receives in a row. -/
def afterReads (os : Os ω) (fd : ℕ) (w : ω) (k : ℕ) : ω :=
  (fun w => (os.answer (.recvFrom fd) w).2)^[k] w

/-- Fewer than `bound` datagrams can be received in a row. -/
def Dry (os : Os ω) (bound : ℕ) : Prop :=
  ∀ fd w, ∃ k < bound, ∃ error, (os.answer (.recvFrom fd) (afterReads os fd w k)).1 = .error error

/-- What a state with a late enough clock has in common with all that come after it. -/
def Late (time : ω → ℕ) (t : ℕ) (s : State SysCall.Reply ω) : Prop := t ≤ time s.env

theorem Honest.stable {time : ω → ℕ} (h : Honest os time) (t : ℕ) : Stable os (Late time t) :=
  fun c s hs => Nat.le_trans hs (h.mono c s.env)

/-! ## A round of the probe -/

section Within

variable {P : State SysCall.Reply ω → Prop}

theorem within_probePass (hP : Stable os P) (expected : ℕ) (packet : List UInt8)
    (sockets : List BoundSocket) (index : ℕ) (buffer : List UInt8) :
    Within P (probePass os expected packet index sockets buffer) sockets.length fun _ => True := by
  induction sockets generalizing index with
  | nil => exact .pure trivial
  | cons socket sockets ih =>
      refine .call_bind hP fun reply => ?_
      cases reply with
      | ok payload =>
          dsimp only
          split
          · exact .pure trivial
          · split <;> exact .throw _
      | error error =>
          dsimp only
          split
          · exact ih (index + 1)
          · exact .throw error

/-- Every pass before the deadline moves the clock on, so there are no more of them than
milliseconds. -/
theorem within_probeLoop {time : ω → ℕ} (h : Honest os time) (sockets : List BoundSocket)
    (expected : ℕ) (packet : List UInt8) (deadline : ℕ) (j : ℕ) {fuel : ℕ} (hfuel : j < fuel)
    (buffer : List UInt8) :
    Within (Late time (deadline - millis j))
      (probeLoop os sockets expected packet deadline fuel buffer)
      (j * (sockets.length + 2) + 1) fun _ => True := by
  -- the induction is on the milliseconds that are left
  induction j generalizing fuel buffer with
  | zero =>
      rcases Nat.exists_eq_add_of_lt hfuel with ⟨fuel, rfl⟩
      intro s hs
      have hlate : ¬ (os.answer .now s.env).1 < deadline := by
        rw [h.now]
        exact Nat.not_lt.mpr hs
      rw [Nat.zero_add, probeLoop, exec_bind_call, if_neg hlate]
      refine ⟨_, _, rfl, ?_, h.stable _ .now s hs, fun _ _ => trivial⟩
      simp
  | succ j ih =>
      rcases Nat.exists_eq_add_of_lt hfuel with ⟨fuel', rfl⟩
      intro s hs
      have hlater : ∀ u, Late time (deadline - millis j) u →
          Late time (deadline - millis (j + 1)) u := by
        intro u hu
        refine Nat.le_trans ?_ hu
        simp only [millis]
        omega
      have hmul : (j + 1) * (sockets.length + 2) + 1 =
          j * (sockets.length + 2) + sockets.length + 3 := by
        rw [Nat.succ_mul]
        omega
      have hs₁ := h.stable _ .now s hs
      rw [hmul, probeLoop, exec_bind_call]
      split
      · rcases within_probePass (h.stable _) expected packet sockets 0 buffer _ hs₁ with
          ⟨e | ⟨hit, buffer'⟩, t, hexec, hlen, ht, -⟩
        · refine ⟨_, t, exec_bind_error hexec, ?_, ht, by rintro _ ⟨⟩⟩
          simp only [List.length_append, List.length_singleton] at hlen
          omega
        · rw [exec_bind_ok hexec]
          simp only [List.length_append, List.length_singleton] at hlen
          cases hit with
          | true => exact ⟨_, t, rfl, by omega, ht, fun _ _ => trivial⟩
          | false =>
              -- the sleep brings the deadline a millisecond nearer
              have hslept : Late time (deadline - millis j)
                  ⟨(os.answer (.sleep (millis 1)) t.env).2,
                    t.log ++ [⟨.sleep (millis 1), (os.answer (.sleep (millis 1)) t.env).1⟩]⟩ := by
                have htime : deadline - millis (j + 1) ≤ time t.env := ht
                have hsleep := h.sleep (millis 1) t.env
                have hmillis : millis (j + 1) = millis j + millis 1 := by
                  simp only [millis]
                  omega
                show deadline - millis j ≤ time (os.answer (.sleep (millis 1)) t.env).2
                omega
              rcases ih (show j < j + 1 + fuel' by omega) buffer' _ hslept with
                ⟨r, u, hexec', hlen', hu, -⟩
              simp only [List.length_append, List.length_singleton] at hlen'
              refine ⟨r, u, ?_, by omega, hlater u hu, fun _ _ => trivial⟩
              rw [if_neg (by simp), exec_bind_call]
              exact hexec'
      · refine ⟨_, _, rfl, ?_, hs₁, fun _ _ => trivial⟩
        simp only [List.length_append, List.length_singleton]
        omega

theorem within_waitForProbe {time : ω → ℕ} (h : Honest os time) (t : ℕ)
    (sockets : List BoundSocket) (expected : ℕ) (packet : List UInt8) {fuel : ℕ}
    (hfuel : 100 < fuel) :
    Within (Late time t) (quicReuseportSelectorWaitForProbe os fuel sockets expected packet)
      (100 * (sockets.length + 2) + 2) fun _ => True := by
  intro s hs
  unfold quicReuseportSelectorWaitForProbe
  rw [exec_bind_call, h.now]
  have hdeadline : time s.env + millis 100 - millis 100 = time s.env := Nat.add_sub_cancel _ _
  have hloop := within_probeLoop h sockets expected packet (time s.env + millis 100) 100 hfuel
    probeBuffer
  rw [hdeadline] at hloop
  rcases hloop ⟨(os.answer .now s.env).2, s.log ++ [⟨.now, time s.env⟩]⟩ (h.mono .now s.env) with
    ⟨r, u, hexec, hlen, hu, hr⟩
  refine ⟨r, u, hexec, ?_, Nat.le_trans hs hu, hr⟩
  simp only [List.length_append, List.length_singleton] at hlen
  omega

/-! ## The drain -/

theorem within_drainSocket (hP : Stable os P) (fd k : ℕ) {fuel : ℕ} (hfuel : k < fuel)
    (buffer : List UInt8) {s : State SysCall.Reply ω} (hs : P s)
    (hdry : ∃ error, (os.answer (.recvFrom fd) (afterReads os fd s.env k)).1 = .error error) :
    ∃ r t, (drainSocket os fd fuel buffer).exec s = some (r, t) ∧
      t.log.length ≤ s.log.length + (k + 1) ∧ P t := by
  -- the induction is on the number of datagrams before the socket runs dry
  induction k generalizing fuel buffer s with
  | zero =>
      rcases Nat.exists_eq_add_of_lt hfuel with ⟨fuel, rfl⟩
      rcases hdry with ⟨error, hreply⟩
      have hreply' : (os.answer (.recvFrom fd) s.env).1 = .error error := hreply
      have hs₁ := hP (.recvFrom fd) s hs
      rw [Nat.zero_add, drainSocket, exec_bind_call]
      rw [hreply'] at hs₁ ⊢
      dsimp only
      split <;> exact ⟨_, _, rfl, by simp, hs₁⟩
  | succ k ih =>
      rcases Nat.exists_eq_add_of_lt hfuel with ⟨fuel', rfl⟩
      have hs₁ := hP (.recvFrom fd) s hs
      rw [drainSocket, exec_bind_call]
      generalize hreply : (os.answer (.recvFrom fd) s.env).1 = reply at hs₁ ⊢
      cases reply with
      | ok payload =>
          rcases ih (show k < k + 1 + fuel' by omega) (copyPrefix payload buffer).1 hs₁ hdry with
            ⟨r, t, hexec, hlen, ht⟩
          refine ⟨r, t, hexec, ?_, ht⟩
          simp only [List.length_append, List.length_singleton] at hlen
          omega
      | error error =>
          dsimp only
          split <;> exact ⟨_, _, rfl, by simp, hs₁⟩

theorem within_drainSockets (hP : Stable os P) {bound : ℕ} (hdry : Dry os bound) {fuel : ℕ}
    (hfuel : bound ≤ fuel) (sockets : List BoundSocket) (buffer : List UInt8) :
    Within P (drainSockets os fuel sockets buffer) (sockets.length * bound) fun _ => True := by
  induction sockets generalizing buffer with
  | nil => exact .pure trivial
  | cons socket sockets ih =>
      have hsocket : Within P (drainSocket os socket.fd fuel buffer) bound fun _ => True := by
        intro s hs
        rcases hdry socket.fd s.env with ⟨k, hk, herror⟩
        rcases within_drainSocket hP socket.fd k (Nat.lt_of_lt_of_le hk hfuel) buffer hs herror with
          ⟨r, t, hexec, hlen, ht⟩
        exact ⟨r, t, hexec, by omega, ht, fun _ _ => trivial⟩
      rw [List.length_cons, Nat.succ_mul]
      exact hsocket.bind fun buffer' _ => ih buffer'

/-! ## The probe -/

/-- The calls of a probe of `n` sockets: the drain, `n` rounds, `n` mode changes and the
sender. -/
def probeCalls (n bound : ℕ) : ℕ := n * bound + (n * (100 * (n + 2) + 3) + n * 1) + 1

theorem within_probeRounds {time : ω → ℕ} (h : Honest os time) (t : ℕ) {fuel : ℕ}
    (hfuel : 100 < fuel) (sockets : List BoundSocket) (sender : ℕ) (target : SocketAddr) :
    Within (Late time t) (probeRounds os fuel sockets sender target)
      (sockets.length * (100 * (sockets.length + 2) + 3) + sockets.length * 1)
      fun _ => True := by
  have hstable := h.stable t
  have hround : ∀ i ∈ List.range sockets.length, Within (Late time t)
      (probeRound os fuel sockets sender target i) (100 * (sockets.length + 2) + 3)
        fun _ => True :=
    fun i _ => .call_bind hstable fun _ => .ofResult_bind fun _ =>
      within_waitForProbe h t sockets i _ hfuel
  have hrounds := Within.forM _ hround
  rw [List.length_range] at hrounds
  exact (Within.forM sockets fun _ _ => .call_bind hstable fun reply => .ofResult id reply).bind
    fun _ _ => hrounds

theorem within_probe {time : ω → ℕ} (h : Honest os time) (t : ℕ) {bound : ℕ}
    (hdry : Dry os bound) {fuel : ℕ} (hfuel : 100 < fuel) (hbound : bound ≤ fuel)
    (sockets : List BoundSocket) (addr : SocketAddr) :
    Within (Late time t) (quicReuseportSelectorRoutesProbe os fuel sockets addr)
      (probeCalls sockets.length bound) fun _ => True := by
  have hstable := h.stable t
  refine .call_bind hstable fun _ => .ofResult_bind fun sender => ?_
  split
  · exact .throw _
  · exact (within_probeRounds h t hfuel sockets sender _).bind fun _ _ =>
      within_drainSockets hstable hdry hbound sockets probeBuffer

/-! ## Binding -/

theorem within_setSockOpt (hP : Stable os P) (fd : ℕ) (option : SockOpt) :
    Within P (do ofResult Error.ofIo (← call os (.setSockOpt fd option)) : Sys ω Error Unit)
      1 fun _ => True :=
  .call_bind hP fun reply => .ofResult Error.ofIo reply

theorem within_applyFamilyTransparent (hP : Stable os P) (fd : ℕ) (mode : TransparentMode)
    (matched : Bool) (unsupported : String) (options : List SockOpt) :
    Within P (applyFamilyTransparent os fd mode matched unsupported options)
      (options.length * 1) fun _ => True := by
  unfold applyFamilyTransparent
  split
  · exact .pure trivial
  · exact .pure trivial
  · exact .throw _
  · exact .forM options fun option _ => .call_bind hP fun _ => .pure trivial
  · exact .forM options fun option _ => within_setSockOpt hP fd option

theorem within_applyCommonOptions (hP : Stable os P) (fd : ℕ) (config : SocketConfig) :
    Within P (applyCommonOptions os .linux fd config) 8 fun _ => True :=
  (within_setSockOpt hP fd _).bind fun _ _ => (within_setSockOpt hP fd _).bind fun _ _ =>
    (within_applyFamilyTransparent hP fd _ _ _ _).bind fun _ _ =>
      within_applyFamilyTransparent hP fd _ _ _ _

theorem within_applySocketInitCallback (hP : Stable os P) (fd : ℕ) (config : SocketConfig) :
    Within P (applySocketInitCallback os fd config) 1 fun _ => True := by
  unfold applySocketInitCallback
  split
  · exact .call_bind hP fun reply => .ofResult Error.socketInitCallback reply
  · exact .pure trivial

theorem within_bindUdp (hP : Stable os P) (config : SocketConfig) :
    Within P (bindUdp os .linux config) 12 fun _ => True := by
  refine .call_bind (k := 11) hP fun _ => .ofResult_bind fun fd => ?_
  refine Within.bind (m := 10) (within_applySocketInitCallback hP fd config) fun _ _ => ?_
  refine Within.bind (m := 2) (within_applyCommonOptions hP fd config) fun _ _ => ?_
  refine .call_bind (k := 1) hP fun _ => .ofResult_bind fun bound => ?_
  have hlisten : Within P (listen os fd .dgram) 0 fun _ => True := .pure trivial
  refine hlisten.bind (m := 1) fun _ _ => ?_
  exact .call_bind (k := 0) hP fun reply =>
    (Within.ofResult Error.ofIo reply).bind (k := 0) fun _ _ => .pure trivial

theorem within_bindReuseportGroup (hP : Stable os P) (config : SocketConfig) {workers : ℕ}
    (hworkers : workers ≠ 0) :
    Within P (bindReuseportGroup os config workers) (12 * workers + 1)
      fun group => ∀ first rest, group = some (first, rest) → (first :: rest).length = workers := by
  have hbind : 12 * workers + 1 = (workers - 1) * 12 + 1 + 12 := by omega
  rw [hbind]
  refine (within_bindUdp hP config).attempt.bind fun r _ => ?_
  cases r with
  | error e => exact .pure (by simp)
  | ok first =>
      refine .call_bind hP fun _ => .ofResult_bind fun _ => ?_
      have hrest := Within.mapM (List.range (workers - 1)) fun _ =>
        within_bindUdp hP { config with bindAddr := first.localAddr }
      rw [List.length_range] at hrest
      refine (hrest.attempt.bind (m := 0) fun r hlen => ?_).le (Nat.le_of_eq (Nat.zero_add _))
      cases r with
      | error e => exact .pure (by simp)
      | ok rest =>
          refine .pure ?_
          rintro _ _ ⟨⟩
          rw [List.length_cons, hlen rest rfl]
          omega

theorem within_isOk {δ ε α : Type} {x : Sys ω δ α} {k : ℕ} {post : α → Prop}
    (h : Within P x k post) : Within P (isOk x : Sys ω ε Bool) k fun _ => True := by
  refine (h.attempt.bind (m := 0) fun r _ => ?_).le (Nat.le_of_eq (Nat.zero_add _))
  cases r <;> exact .pure trivial

theorem within_attachQuicReuseportEbpf (hP : Stable os P) (arch : Arch) (socket : BoundSocket)
    (workers : ℕ) : Within P (attachQuicReuseportEbpf os arch socket workers) 3
      fun _ => True := by
  have hload : Within P (loadQuicReuseportEbpf os arch workers) 1 fun _ => True := by
    unfold loadQuicReuseportEbpf
    split
    · exact .throw _
    · exact .call_bind hP fun reply => .ofResult Error.ofIo reply
  exact hload.bind (m := 2) fun _ _ => .call_bind (k := 1) hP fun _ =>
    .call_bind (k := 0) hP fun _ => .ofResult Error.ofIo _

theorem within_selectorWorks {time : ω → ℕ} (h : Honest os time) (t : ℕ) {bound : ℕ}
    (hdry : Dry os bound) {fuel : ℕ} (hfuel : 100 < fuel) (hbound : bound ≤ fuel) (arch : Arch)
    (first : BoundSocket) (rest : List BoundSocket) (workers : ℕ) :
    Within (Late time t) (selectorWorks os arch fuel first rest workers)
      (probeCalls (first :: rest).length bound + 1 + 3) fun _ => True := by
  have hstable := h.stable t
  refine (within_isOk (within_attachQuicReuseportEbpf hstable arch first workers)).bind
    fun ebpf _ => ?_
  have hprobe : ∀ attached : Bool, Within (Late time t)
      (if attached then isOk (quicReuseportSelectorRoutesProbe os fuel (first :: rest)
        first.localAddr) else pure false : Sys ω Error Bool)
      (probeCalls (first :: rest).length bound) fun _ => True := by
    intro attached
    split
    · exact within_isOk (within_probe h t hdry hfuel hbound (first :: rest) first.localAddr)
    · exact .pure trivial
  -- the classic selector is attached only if the other one is not
  cases ebpf with
  | true => exact (hprobe true).le (Nat.le_succ _)
  | false =>
      exact (within_isOk (within_setSockOpt hstable first.fd _)).bind fun attached _ =>
        hprobe attached

end Within

/-- The calls of binding `workers` sockets. -/
def bindCalls (workers bound : ℕ) : ℕ := probeCalls workers bound + 1 + 3 + (12 * workers + 1)

/-- Binding a QUIC server returns, with sockets, without or with an error, whatever the replies
of the system: the deadline ends each round of the probe, and the drain ends when the sockets
run dry. The fuel of the two loops is no more than a bound on their passes. -/
theorem bindQuic_returns {time : ω → ℕ} (h : Honest os time) {bound : ℕ} (hdry : Dry os bound)
    (platform : Platform) (arch : Arch) (disabled : Bool) {fuel : ℕ} (hfuel : 100 < fuel)
    (hbound : bound ≤ fuel) (config : SocketConfig) (workers : ℕ) (s : State SysCall.Reply ω) :
    ∃ r t, (bindQuicUdpReuseportWorkers os platform arch disabled fuel config workers).exec s =
      some (r, t) ∧ t.log.length ≤ s.log.length + bindCalls workers bound := by
  suffices hwithin : Within (Late time 0)
      (bindQuicUdpReuseportWorkers os platform arch disabled fuel config workers)
      (bindCalls workers bound) fun _ => True by
    rcases hwithin s (Nat.zero_le _) with ⟨r, t, hexec, hlen, -, -⟩
    exact ⟨r, t, hexec, hlen⟩
  unfold bindQuicUdpReuseportWorkers
  split
  · split_ifs with _ hworkers
    · exact .pure trivial
    · exact .throw _
    · refine (within_bindReuseportGroup (h.stable 0) config hworkers).bind fun group hgroup => ?_
      rcases group with _ | ⟨first, rest⟩
      · exact .pure trivial
      · rw [← hgroup first rest rfl]
        refine ((within_selectorWorks h 0 hdry hfuel hbound arch first rest _).bind (m := 0)
          fun works _ => ?_).le (Nat.le_of_eq (Nat.zero_add _))
        split <;> exact .pure trivial
  · exact .pure trivial

/-! ## Why the sockets have to run dry -/

/-- A system in which everything succeeds, every receive gets the same reply, and time passes
only in sleep; its state is the clock. -/
def clockOs (received : Except IoError (List UInt8)) : Os ℕ where
  answer
    | .socket .., w => (.ok 3, w)
    | .socketInitCallback .., w => (.ok (), w)
    | .setSockOpt .., w => (.ok (), w)
    | .bind _ addr, w => (.ok (ephemeralAddr addr 0), w)
    | .listen .., w => (.ok (), w)
    | .setNonblocking .., w => (.ok (), w)
    | .getSockName _, w => (.ok (), w)
    | .bpfProgLoad .., w => (.ok 4, w)
    | .close _, w => ((), w)
    | .udpSocketBind _, w => (.ok 5, w)
    | .sendTo .., w => (.ok (), w)
    | .recvFrom _, w => (received, w)
    | .now, w => (w, w)
    | .sleep duration, w => ((), w + duration)

theorem clockOs_honest (received : Except IoError (List UInt8)) :
    Honest (clockOs received) id where
  now _ := rfl
  mono c w := by cases c <;> simp [clockOs]
  sleep _ _ := Nat.le_refl _

/-- Two workers on a system where no datagram ever arrives: the probe times out. -/
theorem bindQuic_returns_quiet :
    ∃ r t, (bindQuicUdpReuseportWorkers (clockOs (.error ⟨.wouldBlock, ""⟩)) .linux .x86_64 false
        101 (.new (.v4 #v[127, 0, 0, 1] 4433)) 2).exec ⟨0, []⟩ = some (r, t) ∧
      t.log.length ≤ bindCalls 2 1 := by
  have hdry : Dry (clockOs (.error ⟨.wouldBlock, ""⟩)) 1 :=
    fun _ _ => ⟨0, Nat.one_pos, _, rfl⟩
  rcases bindQuic_returns (clockOs_honest _) hdry .linux .x86_64 false
    (show 100 < 101 by decide) (by decide) (.new (.v4 #v[127, 0, 0, 1] 4433)) 2 ⟨0, []⟩ with
    ⟨r, t, hexec, hlen⟩
  exact ⟨r, t, hexec, by simpa using hlen⟩

theorem drainSocket_flooded (payload : List UInt8) (fd fuel : ℕ) (buffer : List UInt8)
    (s : State SysCall.Reply ℕ) :
    (drainSocket (clockOs (.ok payload)) fd fuel buffer).exec s = none := by
  induction fuel generalizing buffer s with
  | zero => rfl
  | succ fuel ih =>
      rw [drainSocket, exec_bind_call]
      exact ih _ _

theorem waitForProbe_flooded (fuel : ℕ) (socket : BoundSocket) (s : State SysCall.Reply ℕ) :
    ∃ t, (quicReuseportSelectorWaitForProbe (clockOs (.ok (quicReuseportProbePacket 0)))
      (fuel + 1) [socket] 0 (quicReuseportProbePacket 0)).exec s = some (.ok (), t) := by
  unfold quicReuseportSelectorWaitForProbe
  have hearly : s.env < s.env + millis 100 := by
    have : 0 < millis 100 := by decide
    omega
  rw [exec_bind_call, probeLoop, exec_bind_call]
  refine ⟨_, (congrArg (exec · _) (if_pos hearly)).trans (exec_bind_ok (a := (true, _)) rfl)⟩

theorem probeRound_flooded (fuel : ℕ) (socket : BoundSocket) (target : SocketAddr)
    (s : State SysCall.Reply ℕ) :
    ∃ t, (probeRound (clockOs (.ok (quicReuseportProbePacket 0))) (fuel + 1) [socket] 5 target
      0).exec s = some (.ok (), t) := by
  unfold probeRound
  rw [exec_bind_call]
  simp only [clockOs, ofResult, pure_bind]
  exact waitForProbe_flooded fuel socket _

theorem probeRounds_flooded (fuel : ℕ) (socket : BoundSocket) (target : SocketAddr)
    (s : State SysCall.Reply ℕ) :
    ∃ t, (probeRounds (clockOs (.ok (quicReuseportProbePacket 0))) (fuel + 1) [socket] 5
      target).exec s = some (.ok (), t) := by
  unfold probeRounds
  rw [exec_bind_ok (a := ()) rfl, List.length_singleton, List.range_one, List.forM_cons]
  exact (probeRound_flooded fuel socket target _).imp fun t hround => exec_bind_ok hround

/-- The drain has neither a deadline nor a limit: a peer that repeats the probe packet keeps a
server of one worker from starting. -/
theorem probe_flooded (fuel : ℕ) (socket : BoundSocket) (addr : SocketAddr)
    (s : State SysCall.Reply ℕ) :
    (quicReuseportSelectorRoutesProbe (clockOs (.ok (quicReuseportProbePacket 0))) fuel [socket]
      addr).exec s = none := by
  have hdrain : ∀ s, (quicReuseportSelectorDrainProbePackets
      (clockOs (.ok (quicReuseportProbePacket 0))) fuel [socket]).exec s = none := by
    intro s
    unfold quicReuseportSelectorDrainProbePackets
    rw [drainSockets, exec_bind, drainSocket_flooded]
  unfold quicReuseportSelectorRoutesProbe
  rw [exec_bind_call]
  show (probeRounds _ fuel [socket] 5 _ >>= fun _ => _).exec _ = none
  cases fuel with
  | zero => rfl
  | succ fuel =>
      rcases probeRounds_flooded fuel socket _ _ with ⟨t, hrounds⟩
      rw [exec_bind_ok hrounds]
      exact hdrain t

end ReusePort
