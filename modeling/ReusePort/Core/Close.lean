import Mathlib.Algebra.BigOperators.Group.Finset.Basic
import Mathlib.Algebra.Order.BigOperators.Group.Finset
import ReusePort.Core.Native
import ReusePort.Core.Simulated

/-!
# ReusePort.Core.Close — what a closed handler server still spawns

`close` stores `false` in the server's flag and returns; the loops find out at
their next check. After the store each spawning loop (a native listener loop, or
a dispatch loop of the simulated servers) spawns at most the item for which it
had already passed its last check.

* `Native.spawned_after_close`, `Simulated.spawned_after_close` — for one worker;
* `close_stops_spawning` — for all workers of a server.
-/

namespace ReusePort

variable {α ρ β : Type}

namespace Native

/-! ## Close -/

/-- The item for which the loop has passed its last check and will, if the item
is accepted, spawn a handler. -/
def checkedItem (L : NativeLoop α ρ β) (k : Worker α ρ β) : List (Item β) :=
  match k.pc with
  | .spawning x => [itemOf L k x]
  | _ => []

/-- Once the flag is cleared no load takes an item past the check. -/
theorem checkedItem_load (L : NativeLoop α ρ β) {f : Flags} (hf : f.serverActive = false)
    (k : Worker α ρ β) (site : Site (Received α ρ)) (ch : Check) :
    checkedItem L (k.load site ch (f.get ch)) = [] := by
  cases ch with
  | runtime => cases f.get .runtime <;> cases site <;> rfl
  | server =>
      rw [show f.get .server = false from hf]
      cases site <;> rfl

theorem spawned_load (k : Worker α ρ β) (site : Site (Received α ρ)) (ch : Check) (b : Bool) :
    (k.load site ch b).spawned = k.spawned := by
  cases b <;> cases ch <;> cases site <;> rfl

theorem closeInv_step {L : NativeLoop α ρ β} {n : ℕ} {k₀ : Worker α ρ β} (l : Lbl α ρ β)
    (f : Flags) (k : Worker α ρ β) (hg : guard L n l f k)
    (h : CloseInv Worker.spawned (checkedItem L) k₀ f k) :
    CloseInv Worker.spawned (checkedItem L) k₀ f (update L l f k) := by
  cases l with
  | start | startErr | recv origin a | reject x | spawnErr x | abort | abortReceiving =>
      exact h.quiet rfl (Or.inr rfl)
  | load ch site =>
      exact h.quiet (spawned_load k site ch _) (Or.inr (checkedItem_load L h.1 k site ch))
  | poll pc spurious =>
      simp only [update]
      rcases k.limit.poll spurious pc with ⟨limit, _ | pc'⟩ <;> exact h.quiet rfl (Or.inr rfl)
  | recvErr =>
      cases hretry : L.retriesOnError <;> simp only [update, hretry] <;>
        exact h.quiet rfl (Or.inr rfl)
  | spawn x =>
      -- the handler is the one whose check had been passed
      have hnow : checkedItem L k = [itemOf L k x] := by
        simp only [checkedItem, hg.1]
      refine h.spawn ?_ rfl
      rw [hnow]
      rfl
  | drop pc again spurious =>
      simp only [update]
      rcases k.limit.drop spurious pc with ⟨limit, _ | pc'⟩ <;> cases again <;>
        exact h.quiet rfl (Or.inr rfl)
  | handlerEnd i x => exact h.quiet rfl (Or.inl rfl)
  | handlerDrop i pc spurious => exact h.quiet rfl (Or.inl rfl)

/-- From a state in which the server's flag is cleared, a worker spawns at most
the item whose check it has passed there. -/
theorem spawned_after_close {L : NativeLoop α ρ β} {n : ℕ} {max : Option ℕ}
    {s s' : Lts.Fleet Flags (Worker α ρ β)} {tr : List (Lts.FleetLbl FlagLbl (Lbl α ρ β))}
    (hrun : (server L n max).Run s tr s') (hclosed : s.env.serverActive = false) (w : ℕ) :
    ∃ later, (s'.proc w).spawned = (s.proc w).spawned ++ later ∧
      later ++ checkedItem L (s'.proc w) <+: checkedItem L (s.proc w) := by
  have hinv := Lts.Proc.preserves hrun w
    (CloseInv Worker.spawned (checkedItem L) (s.proc w)) (.refl hclosed)
    (fun e _ _ _ h => h.flags e) closeInv_step
  exact hinv.2

theorem length_checkedItem (L : NativeLoop α ρ β) (k : Worker α ρ β) :
    (checkedItem L k).length ≤ 1 := by
  unfold checkedItem
  split <;> simp

end Native

namespace Simulated

/-! ## Close -/

/-- The item for which the dispatch loop has passed its last check. -/
def checkedItem (k : Worker β) : List (Item β) :=
  match k.pc with
  | .spawning x => [x]
  | _ => []

theorem length_checkedItem (k : Worker β) : (checkedItem k).length ≤ 1 := by
  unfold checkedItem
  split <;> simp

theorem closeInv_workerStep {f : Flags} {loop : LoopPc (Received α ρ) β} {l : WorkerLbl β}
    {k₀ k : Worker β} (hg : workerGuard f loop l k)
    (h : CloseInv Worker.spawned checkedItem k₀ f k) :
    CloseInv Worker.spawned checkedItem k₀ f (workerUpdate f l k) := by
  have hf := h.1
  cases l with
  | start | recv x | closed | spawnErr x | abort => exact h.quiet rfl (Or.inr rfl)
  | load =>
      simp only [workerUpdate, hf]
      exact h.quiet rfl (Or.inr rfl)
  | check x =>
      -- the flag is cleared, so the check fails
      simp only [workerUpdate, hf]
      exact h.quiet rfl (Or.inr rfl)
  | spawn x =>
      have hnow : checkedItem k = [x] := by
        simp only [checkedItem, show k.pc = .spawning x from hg]
      refine h.spawn ?_ rfl
      rw [hnow]
      rfl
  | drop pc spurious =>
      simp only [workerUpdate]
      rcases k.limit.drop spurious pc with ⟨limit, _ | pc'⟩ <;> exact h.quiet rfl (Or.inr rfl)
  | drain x => exact h.quiet rfl (Or.inl rfl)
  | handlerEnd i x => exact h.quiet rfl (Or.inl rfl)
  | handlerDrop i pc spurious => exact h.quiet rfl (Or.inl rfl)

theorem closeInv_step {L : SimulatedLoop α ρ β} {n w : ℕ} {k₀ : Worker β} (l : Lbl α ρ β)
    (s : St α ρ β) (hg : guard L n l s)
    (h : CloseInv Worker.spawned checkedItem k₀ s.flags (s.worker w)) :
    CloseInv Worker.spawned checkedItem k₀ (update L n l s).flags ((update L n l s).worker w) := by
  cases l with
  | flags l => exact h.flags l
  | loop l =>
      rcases worker_loopUpdate L n l s w with ⟨limit, queue, hworker⟩
      show CloseInv _ _ _ (loopUpdate L n l s).flags ((loopUpdate L n l s).worker w)
      rw [flags_loopUpdate, hworker]
      exact h.quiet rfl (Or.inl rfl)
  | worker v l =>
      by_cases hv : w = v
      · subst hv
        simp only [update, St.setWorker, Function.update_self]
        exact closeInv_workerStep hg.2 h
      · simp only [update, St.setWorker, Function.update_of_ne hv]
        exact h

/-- From a state in which the server's flag is cleared, the dispatch loop of a
worker spawns at most the item whose check it has passed there. -/
theorem spawned_after_close {L : SimulatedLoop α ρ β} {n : ℕ} {max : Option ℕ}
    {s s' : St α ρ β} {tr : List (Lbl α ρ β)} (hrun : (server L n max).Run s tr s')
    (hclosed : s.flags.serverActive = false) (w : ℕ) :
    ∃ later, (s'.worker w).spawned = (s.worker w).spawned ++ later ∧
      later ++ checkedItem (s'.worker w) <+: checkedItem (s.worker w) := by
  have hinv := hrun.preserves
    (fun t => CloseInv Worker.spawned checkedItem (s.worker w) t.flags (t.worker w))
    (.refl hclosed) closeInv_step
  exact hinv.2

end Simulated

/-! ## All workers -/

/-- What a server `S` still spawns once it is `closed`. From any reachable closed
state, in every run: each worker spawns at most one more handler, for an item that
it had past its check in that state; once it has, or if there was none, no later
state has a step that spawns on the worker; and the `n` workers together spawn at
most `n`. -/
def StopsSpawning {σ ℓ : Type} (S : Lts.Sys σ ℓ) (closed : σ → Prop)
    (spawned checked : σ → ℕ → List (Item β)) (spawns : ℕ → ℓ → Prop) (n : ℕ) : Prop :=
  ∀ s tr s', S.Reachable s → closed s → S.Run s tr s' →
    (∀ w, ∃ later, spawned s' w = spawned s w ++ later ∧ later <+: checked s w ∧
      later.length ≤ 1 ∧
      (later ≠ [] ∨ checked s w = [] →
        ∀ tr' s'' l, S.Run s' tr' s'' → spawns w l → ¬ S.guard l s'')) ∧
    ∑ w ∈ Finset.range n, (spawned s' w).length ≤ ∑ w ∈ Finset.range n, (spawned s w).length + n

/-- If each of `n` counters grows by at most one, their sum grows by at most `n`. -/
theorem sum_le_sum_add {f g : ℕ → ℕ} {n : ℕ} (h : ∀ w, f w ≤ g w + 1) :
    ∑ w ∈ Finset.range n, f w ≤ ∑ w ∈ Finset.range n, g w + n := by
  calc ∑ w ∈ Finset.range n, f w
      ≤ ∑ w ∈ Finset.range n, (g w + 1) := Finset.sum_le_sum fun w _ => h w
    _ = ∑ w ∈ Finset.range n, g w + n := by
        simp [Finset.sum_add_distrib]

/-- It is enough to know what one worker spawns in a run from a closed state, and
that there is never more than one item past a check. -/
theorem stopsSpawning_of {σ ℓ : Type} {S : Lts.Sys σ ℓ} {closed : σ → Prop}
    {spawned checked : σ → ℕ → List (Item β)} {spawns : ℕ → ℓ → Prop} (n : ℕ)
    (hclosed : ∀ l s, S.guard l s → closed s → closed (S.update l s))
    (hlen : ∀ s w, (checked s w).length ≤ 1)
    (hspawns : ∀ s w l, spawns w l → S.guard l s → checked s w ≠ [])
    (hrun : ∀ s tr s', S.Run s tr s' → closed s → ∀ w, ∃ later,
      spawned s' w = spawned s w ++ later ∧ later ++ checked s' w <+: checked s w) :
    StopsSpawning S closed spawned checked spawns n := by
  intro s tr s' _ hs hr
  -- in a run from `s` to `t`, what was spawned and what is past the check make at most one
  have hone : ∀ tr t, S.Run s tr t → ∀ w, ∃ later, spawned t w = spawned s w ++ later ∧
      later ++ checked t w <+: checked s w ∧ later.length + (checked t w).length ≤ 1 := by
    intro tr t hr w
    rcases hrun s tr t hr hs w with ⟨later, hsp, hpre⟩
    refine ⟨later, hsp, hpre, ?_⟩
    have hle := hpre.length_le.trans (hlen s w)
    rwa [List.length_append] at hle
  constructor
  · intro w
    rcases hone tr s' hr w with ⟨later, hsp, hpre, hle⟩
    refine ⟨later, hsp, (List.prefix_append _ _).trans hpre, by omega, ?_⟩
    intro hdone tr' s'' l hr' hl hg
    have hchecked := List.length_pos_of_ne_nil (hspawns s'' w l hl hg)
    rcases hone _ s'' (hr.append hr') w with ⟨later', hsp', hpre', hle'⟩
    rcases hdone with hne | hnone
    · -- the one more handler was spawned before `s'`, so `later'` is not empty either
      have hs' : closed s' := hr.preserves closed hs hclosed
      rcases hrun s' tr' s'' hr' hs' w with ⟨rest, hrest, -⟩
      have hlen' := congrArg List.length (hsp'.symm.trans hrest)
      have hpos := List.length_pos_of_ne_nil hne
      simp only [hsp, List.length_append] at hlen'
      omega
    · have hle := hpre'.length_le
      rw [hnone, List.length_append, List.length_nil] at hle
      omega
  · apply sum_le_sum_add
    intro w
    rcases hone tr s' hr w with ⟨later, hsp, -, hle⟩
    rw [hsp, List.length_append]
    omega

/-- A closed handler server, native or simulated, stops spawning. -/
theorem close_stops_spawning (n : ℕ) (max : Option ℕ) :
    (∀ L : NativeLoop α ρ β,
      StopsSpawning (Native.server L n max) (fun s => s.env.serverActive = false)
        (fun s w => (s.proc w).spawned) (fun s w => Native.checkedItem L (s.proc w))
        (fun w l => ∃ x, l = .proc w (.spawn x)) n) ∧
    ∀ L : SimulatedLoop α ρ β,
      StopsSpawning (Simulated.server L n max) (fun s => s.flags.serverActive = false)
        (fun s w => (s.worker w).spawned) (fun s w => Simulated.checkedItem (s.worker w))
        (fun w l => ∃ x, l = .worker w (.spawn x)) n := by
  constructor
  · intro L
    apply stopsSpawning_of
    · intro l s _ hs
      cases l with
      | env e => exact FlagLbl.serverActive_update hs
      | proc v l => exact hs
    · intro s w
      exact Native.length_checkedItem L (s.proc w)
    · rintro s w _ ⟨x, rfl⟩ hg
      simp [Native.checkedItem, hg.2.1]
    · intro s tr s' hr hs w
      exact Native.spawned_after_close hr hs w
  · intro L
    apply stopsSpawning_of
    · intro l s _ hs
      cases l with
      | flags l => exact FlagLbl.serverActive_update hs
      | loop l =>
          show (Simulated.loopUpdate L n l s).flags.serverActive = false
          rw [Simulated.flags_loopUpdate]
          exact hs
      | worker v l => exact hs
    · intro s w
      exact Simulated.length_checkedItem (s.worker w)
    · rintro s w _ ⟨x, rfl⟩ hg
      have hpc : (s.worker w).pc = .spawning x := hg.2
      simp [Simulated.checkedItem, hpc]
    · intro s tr s' hr hs w
      exact Simulated.spawned_after_close hr hs w

/-- A native TCP worker that is past its check when `close` stores the flag: it
spawns the one handler that is left to it, and is then done. -/
theorem close_stops_spawning_tcp :
    ∃ s tr s', (Native.server tcpListenerLoopWithState 1 none).Reachable s ∧
      s.env.serverActive = false ∧ (s.proc 0).spawned = [] ∧
      (Native.server tcpListenerLoopWithState 1 none).Run s tr s' ∧
      (s'.proc 0).spawned.length = 1 ∧
      ∀ tr' s'' x, (Native.server tcpListenerLoopWithState 1 none).Run s' tr' s'' →
        ¬ (Native.server tcpListenerLoopWithState 1 none).guard (.proc 0 (.spawn x)) s'' := by
  let conn : Connection := ⟨7, .v4 #v[127, 0, 0, 1] 55000⟩
  let x : Received Connection Connection := ⟨conn, conn, .peer⟩
  have hexec := (Native.server tcpListenerLoopWithState 1 none).exists_run_of_exec
    [.proc 0 .start, .proc 0 (.load .runtime .head), .proc 0 (.load .server .head),
      .proc 0 (.poll .load false), .proc 0 (.load .runtime .permit),
      .proc 0 (.load .server .permit), .proc 0 (.recv .peer conn),
      .proc 0 (.load .runtime (.item x)), .proc 0 (.load .server (.item x)), .env .closeStore]
    (fun s => (s.env.serverActive = false ∧ (s.proc 0).spawned = []) ∧
      (Native.server tcpListenerLoopWithState 1 none).guard (.proc 0 (.spawn x)) s) (by decide)
  rcases hexec with ⟨s, hrun, ⟨hclosed, hnone⟩, hg⟩
  have hs : (Native.server tcpListenerLoopWithState 1 none).Reachable s := ⟨_, hrun⟩
  have hspawn : (Native.server tcpListenerLoopWithState 1 none).Run s [.proc 0 (.spawn x)] _ :=
    .snoc _ .nil hg
  have hone : (((Native.server tcpListenerLoopWithState 1 none).update (.proc 0 (.spawn x))
      s).proc 0).spawned = [Native.itemOf tcpListenerLoopWithState (s.proc 0) x] := by
    simp [Native.server, Lts.Proc.fleet, Native.proc, Native.update, hnone]
  refine ⟨s, _, _, hs, hclosed, hnone, hspawn, by rw [hone]; rfl, ?_⟩
  intro tr' s'' y hrun'
  have hstop := (close_stops_spawning 1 none).1 tcpListenerLoopWithState s _ _ hs hclosed hspawn
  rcases hstop.1 0 with ⟨later, hlater, -, -, hdone⟩
  have hne : later ≠ [] := by
    rintro rfl
    simp only [hone, hnone] at hlater
    cases hlater
  exact hdone (Or.inl hne) tr' s'' _ hrun' ⟨y, rfl⟩

end ReusePort
