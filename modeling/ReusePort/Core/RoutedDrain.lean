import Mathlib
import ReusePort.Core.RoutedService
import ReusePort.Progress

/-!
# ReusePort.Core.RoutedDrain — the socket-only fallback settles

The dispatcher of the socket-only fallback (`dispatch_socket_only_packets`,
`core/udp.rs`) waits for room in the channel of one worker while the others may have
nothing to read. Here it is left with the applications that read, without new datagrams:
it cannot deadlock with them, whatever the capacity of the channels, and after a close it
ends. The last is so with tokio, where `close` aborts a dispatcher that awaits; with
async-std the cancellation does not reach it, and a dispatcher that waits in its receive is
woken by the datagram of `close` instead.

* `Confined` — the dispatcher sends to the channels of its workers only;
* `rank` — a packet is sent and then read;
* `rest_of_stuck` — what is left when nothing can be done;
* `routed_settles` — so every live socket is given all its packets, or sees the end of its
  stream.
-/

namespace ReusePort.Routed

variable {D : Dispatcher} {s : St} {l : Lbl}

/-! ## Where packets can be -/

/-- There are no packets for others than the workers. -/
structure Confined (D : Dispatcher) (s : St) : Prop where
  sending : ∀ w packet, s.pc = .sending w packet → w < D.workerCount
  channel : ∀ w, s.channel w ≠ [] → w < D.workerCount

/-- The dispatcher goes on to a place where it sends nothing. -/
theorem Confined.idle {s' : St} (h : Confined D s) (hpc : ∀ w packet, s'.pc ≠ .sending w packet)
    (hchannel : s'.channel = s.channel) : Confined D s' where
  sending := fun w packet hsending => absurd hsending (hpc w packet)
  channel := by
    rw [hchannel]
    exact h.channel

theorem confined_recv (origin : Origin) (d : Datagram) (h : Confined D s) :
    Confined D (update D (.recv origin d) s) := by
  refine ⟨?_, h.channel⟩
  intro w packet hsending
  simp only [update, dispatch] at hsending
  split at hsending
  · cases hsending
  · split at hsending
    · rename_i hw
      cases hsending
      exact hw
    · cases hsending

theorem confined_step (hg : guard D l s) (h : Confined D s) : Confined D (update D l s) := by
  cases l with
  | flags l => exact ⟨h.sending, h.channel⟩
  | start | startErr | recvErr | sendErr w packet | abort => exact h.idle (by rintro _ _ ⟨⟩) rfl
  | load =>
      refine h.idle ?_ rfl
      intro w packet
      simp only [update]
      split <;> rintro ⟨⟩
  | loadError =>
      simp only [update]
      split <;> exact h.idle (by rintro _ _ ⟨⟩) rfl
  | recv origin d => exact confined_recv origin d h
  | send w packet =>
      refine ⟨by rintro _ _ ⟨⟩, ?_⟩
      intro v hne
      simp only [update, Function.update_apply] at hne
      split at hne
      · rename_i hv
        rw [hv]
        exact h.sending w packet hg.1
      · exact h.channel v hne
  | read w call packet =>
      refine ⟨h.sending, ?_⟩
      intro v hne
      simp only [update, Function.update_apply] at hne
      split at hne
      · rename_i hv
        refine h.channel v fun hnil => hne ?_
        rw [← hv, hnil]
        rfl
      · exact h.channel v hne
  | dropSocket w =>
      refine ⟨h.sending, ?_⟩
      intro v hne
      simp only [update, Function.update_apply] at hne
      split at hne
      · exact absurd rfl hne
      · exact h.channel v hne

theorem reachable_confined (hs : (server D).Reachable s) : Confined D s := by
  refine (server D).invariant (Confined D) ?_ (fun l s hg h => confined_step hg h) s hs
  exact ⟨by rintro _ _ ⟨⟩, fun w hne => absurd rfl hne⟩

/-! ## The dispatcher and its readers -/

/-- The dispatcher gets on, or an application receives: no datagram, no failure of the socket and
no end of a callback. The abort of a dispatcher that has ended is none of its steps. -/
def Own : Lbl → St → Prop
  | .start, _ | .load, _ | .loadError, _ | .send _ _, _ | .sendErr _ _, _ | .read _ _ _, _ => True
  | .abort, s => s.pc ≠ .exited
  | .flags _, _ | .startErr, _ | .recv _ _, _ | .recvErr, _ | .dropSocket _, _ => False

def alone (D : Dispatcher) : Lts.Sys St Lbl := (server D).restrict Own

/-- A packet that is sent has to be read, and the dispatcher comes back to its head. -/
def Pc.rank : Pc → ℕ
  | .exited => 0
  | .receiving => 1
  | .head => 2
  | .submitted => 3
  | .error => 3
  | .sending _ _ => 4

def rank (D : Dispatcher) (s : St) : ℕ :=
  s.pc.rank + ∑ w ∈ Finset.range D.workerCount, (s.channel w).length

theorem rank_move {s' : St} (hpc : s'.pc.rank < s.pc.rank) (hchannel : s'.channel = s.channel) :
    rank D s' < rank D s := by
  unfold rank
  rw [hchannel]
  exact Nat.add_lt_add_right hpc _

theorem rank_send {w : ℕ} {packet : Item RoutedPacket} (hg : guard D (.send w packet) s)
    (h : Confined D s) : rank D (update D (.send w packet) s) < rank D s := by
  have hsum := Lts.sum_update List.length D.workerCount (s.channel w ++ [packet]) (g := s.channel)
    (h.sending w packet hg.1)
  have hold : s.pc.rank = 4 := by
    rw [hg.1]
    rfl
  have hnew : (s.channel w ++ [packet]).length = (s.channel w).length + 1 := by simp
  show 2 + ∑ u ∈ Finset.range D.workerCount,
    (Function.update s.channel w (s.channel w ++ [packet]) u).length < rank D s
  unfold rank
  omega

theorem rank_read {w : ℕ} {call : RecvCall} {packet : Item RoutedPacket}
    (hg : guard D (.read w call packet) s) (h : Confined D s) :
    rank D (update D (.read w call packet) s) < rank D s := by
  rcases List.head?_eq_some_iff.mp hg.2 with ⟨rest, hrest⟩
  have hw : w < D.workerCount := h.channel w (by rw [hrest]; exact List.cons_ne_nil _ _)
  have hsum := Lts.sum_update List.length D.workerCount (s.channel w).tail (g := s.channel) hw
  have hlen : (s.channel w).length = (s.channel w).tail.length + 1 := by
    rw [hrest]
    rfl
  show s.pc.rank + ∑ u ∈ Finset.range D.workerCount,
    (Function.update s.channel w (s.channel w).tail u).length < rank D s
  unfold rank
  omega

theorem ranked_alone (D : Dispatcher) : Lts.Ranked (alone D) (Confined D) (rank D) where
  keeps := fun l s hg h => confined_step hg.1 h
  lowers := by
    rintro l s ⟨hg, hl⟩ h
    show rank D (update D l s) < rank D s
    cases l with
    | start =>
        refine rank_move ?_ rfl
        rw [show s.pc = _ from hg]
        exact Nat.lt_succ_self _
    | load =>
        refine rank_move ?_ rfl
        rw [show s.pc = _ from hg]
        simp only [update]
        split <;> decide
    | loadError =>
        simp only [update]
        split <;> refine rank_move ?_ rfl <;> rw [show s.pc = _ from hg] <;> simp [Pc.rank]
    | sendErr w packet =>
        refine rank_move ?_ rfl
        rw [hg.1]
        exact Nat.zero_lt_succ _
    | abort =>
        refine rank_move ?_ rfl
        cases hpc : s.pc with
        | exited => exact absurd hpc hl
        | submitted | head | receiving | error | sending w packet => exact Nat.zero_lt_succ _
    | send w packet => exact rank_send hg h
    | read w call packet => exact rank_read hg h
    | flags l | startErr | recv origin d | recvErr | dropSocket w => cases hl

theorem rank_le (hroom : ∀ w, (s.channel w).length ≤ D.capacity) :
    rank D s ≤ 4 + D.workerCount * D.capacity := by
  have hpc : s.pc.rank ≤ 4 := by
    cases s.pc <;> simp [Pc.rank]
  have hsum : ∑ w ∈ Finset.range D.workerCount, (s.channel w).length ≤
      (Finset.range D.workerCount).card • D.capacity :=
    Finset.sum_le_card_nsmul _ _ _ fun w _ => hroom w
  rw [Finset.card_range, smul_eq_mul] at hsum
  unfold rank
  omega

/-! ## At rest -/

/-- A live socket has nothing left to receive. -/
theorem channel_of_stuck (h : (alone D).Stuck s) {w : ℕ} (halive : s.alive w = true) :
    s.channel w = [] := by
  cases hchannel : s.channel w with
  | nil => rfl
  | cons packet rest =>
      have hread : guard D (.read w (.recvFromSlice []) packet) s :=
        ⟨halive, by rw [hchannel]; rfl⟩
      exact absurd ⟨hread, trivial⟩ (h (.read w (.recvFromSlice []) packet))

/-- The dispatcher has ended, or it waits for a datagram of an active server. -/
theorem rest_of_stuck (h : (alone D).Stuck s) (hcap : 0 < D.capacity) :
    s.pc = .exited ∨ s.pc = .receiving ∧ s.flags.isActive := by
  by_cases hexited : s.pc = .exited
  · exact Or.inl hexited
  -- it neither is at a check of the flags nor can be aborted
  have hhead : s.pc ≠ .head := fun hpc => h .load ⟨hpc, trivial⟩
  have herror : s.pc ≠ .error := fun hpc => h .loadError ⟨hpc, trivial⟩
  have hactive : s.flags.isActive := by
    by_contra hactive
    exact h .abort ⟨⟨hactive, hhead, herror⟩, hexited⟩
  right
  refine ⟨?_, hactive⟩
  cases hpc : s.pc with
  | receiving => rfl
  | head => exact absurd hpc hhead
  | error => exact absurd hpc herror
  | exited => exact absurd hpc hexited
  | submitted => exact absurd ⟨hpc, trivial⟩ (h .start)
  | sending w packet =>
      -- a send fails, or there is room, or there is a packet to read
      exfalso
      by_cases halive : s.alive w = true
      · refine h (.send w packet) ⟨⟨hpc, halive, ?_⟩, trivial⟩
        rw [channel_of_stuck h halive]
        exact hcap
      · exact h (.sendErr w packet) ⟨⟨hpc, Bool.eq_false_of_not_eq_true halive⟩, trivial⟩

theorem routedTo_alone (w : ℕ) {tr tr' : List Lbl} {s s' : St} (hrun : (alone D).Run s tr' s') :
    routedTo D w (tr ++ tr') = routedTo D w tr := by
  induction hrun with
  | nil => rw [List.append_nil]
  | @snoc tr' s' l hrun hg ih =>
      rw [← List.append_assoc, routedTo_other, ih]
      rintro origin d rfl
      exact hg.2

/-- The socket-only fallback settles. From every state of every run, the dispatcher and the
applications that go on reading take a bounded number of steps, in any order and for any capacity
of the channels, and can go on until they are at rest. Every live socket has then read, while the
server is active, all datagrams that were received for its worker, in order, and waits for more
or sees the end of its stream; after a close, which aborts the dispatcher as tokio does, it sees
the end of its stream. -/
theorem routed_settles (hroute : D.RoutesToWorkers) (hcap : 0 < D.capacity) {tr : List Lbl}
    (hrun : (server D).Run .initial tr s) {tr' : List Lbl} {s' : St}
    (halone : (alone D).Run s tr' s') :
    tr'.length ≤ 4 + D.workerCount * D.capacity ∧
    (∃ rest s'', (alone D).Run s' rest s'' ∧ (alone D).Stuck s'') ∧
    ((alone D).Stuck s' → ∀ w, s'.alive w = true →
      (s'.flags.isActive → (s'.reads w).map Read.packet = routedTo D w tr) ∧
      (recvPacket s' w = .pending ∧ s'.flags.isActive ∨
        recvPacket s' w = .unexpectedEof "routed UDP socket closed")) := by
  have hconfined : Confined D s := reachable_confined ⟨tr, hrun⟩
  have hbacklog : Backlog D (tr ++ tr') s' := run_backlog hroute (hrun.append halone.of_restrict)
  rcases (ranked_alone D).completes hconfined halone with ⟨hlen, hstop⟩
  refine ⟨hlen.trans (rank_le (run_backlog hroute hrun).room), hstop, ?_⟩
  intro hstuck w halive
  have hchannel := channel_of_stuck hstuck halive
  have hrest := rest_of_stuck hstuck hcap
  have hblocked : s'.pc.blocked w = [] := by
    rcases hrest with hpc | ⟨hpc, _⟩ <;> rw [hpc] <;> rfl
  constructor
  · intro hactive
    have hrouted := hbacklog.routed hactive w halive
    rw [routedTo_alone w halone] at hrouted
    rw [← hrouted, St.backlog, hchannel, hblocked, List.append_nil, List.append_nil]
  · rcases hrest with hpc | ⟨hpc, hactive⟩
    · right
      rw [recvPacket_eof_iff]
      exact ⟨rfl, hchannel, hpc⟩
    · left
      refine ⟨?_, hactive⟩
      simp only [recvPacket, hchannel, hpc]
      rfl

/-- One datagram fills the channel of worker 0 and the send of a second one waits: the socket
reads both. -/
theorem routed_settles_quicNarrow :
    ∃ tr s tr' s', (server quicNarrow).Run .initial tr s ∧ (alone quicNarrow).Run s tr' s' ∧
      s.channel 0 = [packetOf .peer (shortPacket 0)] ∧ quicNarrow.capacity = 1 ∧
      s.pc.blocked 0 = [packetOf .peer (shortPacket 2)] ∧
      (s'.reads 0).map Read.packet =
        [packetOf .peer (shortPacket 0), packetOf .peer (shortPacket 2)] := by
  have hroute : quicNarrow.RoutesToWorkers := routesToWorkers_quic rfl
  have hto : ∀ d ∈ [shortPacket 0, shortPacket 2], routeOf quicNarrow d = some 0 := by decide
  rcases run_afterBlock with ⟨buffer, -, hrun⟩
  have hrouted : routedTo quicNarrow 0 blockTrace =
      [packetOf .peer (shortPacket 0), packetOf .peer (shortPacket 2)] := by
    simp [routedTo, arrivals, blockTrace, hto]
  have hcap : 0 < quicNarrow.capacity := by decide
  rcases (routed_settles hroute hcap hrun .nil).2.1 with ⟨rest, s', hrest, hstuck⟩
  have hsame : s'.flags.isActive ∧ s'.alive 0 = true := by
    refine hrest.preserves (fun t => t.flags.isActive ∧ t.alive 0 = true) ⟨⟨rfl, rfl⟩, rfl⟩ ?_
    rintro l t ⟨_, hl⟩ ht
    cases l with
    | flags l | startErr | recv origin d | recvErr | dropSocket w => cases hl
    | start | load | send w packet | sendErr w packet | abort | read w call packet => exact ht
    | loadError =>
        show (update quicNarrow .loadError t).flags.isActive ∧
          (update quicNarrow .loadError t).alive 0 = true
        simp only [update]
        split <;> exact ht
  have hreads := ((routed_settles hroute hcap hrun hrest).2.2 hstuck 0 hsame.2).1 hsame.1
  exact ⟨_, _, rest, s', hrun, hrest, rfl, rfl, rfl, hreads.trans hrouted⟩

end ReusePort.Routed
