import ReusePort.Core.PolledReceive
import ReusePort.Refinement

/-!
# ReusePort.Core.PolledStalls — the wake-ups of a routed socket

When can a routed socket stall? The lock and the channel of a runtime are known by what
is assumed of them, that is by their views: a line of tasks and the task whose waker is
kept, or the listeners of the tasks. The socket of a runtime projects to the socket with
the views in their place, and there the question is settled.

* `TokioView.Inv` — who has the lock, who queues for it and who has been woken;
* `AsyncStdView.Inv` — as many readers have been notified as there are packets;
* `TokioView.projects`, `AsyncStdView.projects` — the views follow the socket;
* `polled_receive_stalls_iff` — with tokio a socket can stall if and only if a task polls
  it while another one uses it too, with async-std if and only if a task polls it at all.
-/

namespace ReusePort.PolledReceive

/-! ## With tokio -/

namespace TokioView

/-- `line` is the holder of the lock and behind it the lock futures that wait, in the order in
which they get it; `rxWaker` is the task whose waker the channel keeps. -/
structure St extends Socket where
  line : List ℕ
  rxWaker : Option ℕ

open TokioSocket (Lbl)

/-- The first of a line is woken. -/
def wakeFirst (woken : ℕ → Bool) : List ℕ → ℕ → Bool
  | [] => woken
  | t :: _ => Function.update woken t true

namespace St

/-- `AtomicWaker::wake` of the channel. -/
def wakeRx (s : St) : St :=
  { s with rxWaker := none, woken := wakeFirst s.woken s.rxWaker.toList }

/-- The first poll of a `lock()` future, at once or never ready. -/
def enter (s : St) (t : ℕ) (locked waits : Reader) : St :=
  { s with
    line := s.line ++ [t]
    reader := Function.update s.reader t (if s.line = [] then locked else waits)
    woken := Function.update s.woken t false }

/-- The drop of a guard or of a lock future. Who had the lock gives it to the next in line. -/
def leave (s : St) (t : ℕ) : St :=
  { s with
    line := s.line.erase t
    woken := if s.line.head? = some t then wakeFirst s.woken s.line.tail else s.woken }

/-- A poll of `recv()`. -/
def recv (s : St) (t : ℕ) (waits : Reader) : St :=
  match s.ready with
  | some result =>
      { s with
        channel := s.channel.tail
        reader := Function.update s.reader t (.leaving (some result)) }
  | none => { s with rxWaker := some t, reader := Function.update s.reader t waits }

end St

def update : Lbl → St → St
  | .push packet, s => St.wakeRx { s with channel := s.channel ++ [packet] }
  | .close, s => St.wakeRx { s with closed := true }
  | .pollLock t, s => s.enter t .polling .refused
  | .dropLock t, s => { s.leave t with reader := Function.update s.reader t .pending }
  | .pollRecv t, s => s.recv t (.leaving none)
  | .lock t, s => s.enter t .receiving .queued
  | .relock t, s =>
      { s with
        reader := if s.line.head? = some t then Function.update s.reader t .receiving else s.reader
        woken := Function.update s.woken t false }
  | .recv t, s => St.recv { s with woken := Function.update s.woken t false } t .suspended
  | .release t result, s =>
      { s.leave t with
        reader := Function.update s.reader t (if result = none then .pending else .idle)
        returned := s.returned ++ (result.map (t, ·)).toList }
  | .cancel t, s => { s.leave t with reader := Function.update s.reader t .idle }
  | .abandon t, s => { s with reader := Function.update s.reader t .idle }

def St.initial : St := { Socket.initial with line := [], rxWaker := none }

/-- `TokioSocket.socket`, with the lock and the channel by their views. -/
def socket (capacity : ℕ) (polls awaits : ℕ → Prop) : Lts.Sys St Lbl :=
  Lts.Sys.restrict ⟨.initial, fun l s => TokioSocket.guard capacity l s.toSocket, update⟩
    fun l _ => l.Allowed polls awaits

/-! ### The lock -/

/-- In every reachable state: only the first of the line has the lock, and if it does not know it
yet it has been woken; a reader that awaits `recv()` and has not been woken has nothing to miss. -/
structure Inv (s : St) : Prop where
  mem : ∀ t, t ∈ s.line ↔ (s.reader t).inLine = true
  nodup : s.line.Nodup
  front : ∀ t, (s.reader t).holds = true → s.line.head? = some t
  granted : ∀ t, s.line.head? = some t → (s.reader t).holds = true ∨ s.woken t = true
  asleep : ∀ t, s.reader t = .suspended → s.woken t = false →
    s.rxWaker = some t ∧ s.ready = none

section Inv

variable {s s' : St} {t : ℕ}

theorem wakeFirst_mono {woken : ℕ → Bool} {line : List ℕ} {u : ℕ} (h : woken u = true) :
    wakeFirst woken line u = true := by
  cases line with
  | nil => exact h
  | cons v rest =>
      simp only [wakeFirst, Function.update_apply]
      split
      · rfl
      · exact h

theorem wakeFirst_head {woken : ℕ → Bool} {line : List ℕ} {u : ℕ} (h : line.head? = some u) :
    wakeFirst woken line u = true := by
  cases line with
  | nil => cases h
  | cons v rest =>
      cases h
      simp [wakeFirst]

theorem leave_woken_mono {u : ℕ} (h : s.woken u = true) : (s.leave t).woken u = true := by
  simp only [St.leave]
  split
  · exact wakeFirst_mono h
  · exact h

theorem woken_of_leave {u : ℕ} (h : (s.leave t).woken u = false) : s.woken u = false := by
  by_contra hwoken
  rw [leave_woken_mono (Bool.eq_true_of_not_eq_false hwoken)] at h
  cases h

theorem inLine_of_holds {r : Reader} (h : r.holds = true) : r.inLine = true := by
  cases r <;> first | rfl | cases h

/-- A reader whose waker the channel keeps is woken, if it was not before. -/
theorem wakeFirst_rxWaker {woken : ℕ → Bool} {rxWaker : Option ℕ}
    (h : woken t = false → rxWaker = some t) : wakeFirst woken rxWaker.toList t = true := by
  by_cases hwoken : woken t = true
  · exact wakeFirst_mono hwoken
  · rw [h (Bool.eq_false_of_not_eq_true hwoken)]
    exact wakeFirst_head rfl

/-- The channel's waker is called, whatever the channel is then ready with. -/
theorem Inv.wakeRx (h : Inv s) (hreader : s'.reader = s.reader) (hline : s'.line = s.line)
    (hwoken : s'.woken = wakeFirst s.woken s.rxWaker.toList) : Inv s' where
  mem := by
    rw [hline, hreader]
    exact h.mem
  nodup := by
    rw [hline]
    exact h.nodup
  front := by
    rw [hline, hreader]
    exact h.front
  granted := by
    intro t ht
    rw [hline] at ht
    rw [hreader, hwoken]
    exact (h.granted t ht).imp id wakeFirst_mono
  asleep := by
    intro t ht hwake
    rw [hreader] at ht
    rw [hwoken, wakeFirst_rxWaker fun hbefore => (h.asleep t ht hbefore).1] at hwake
    cases hwake

/-- A task joins the line. -/
theorem Inv.enter {locked waits : Reader} (h : Inv s) (ht : (s.reader t).inLine = false)
    (hlocked : locked = .polling ∨ locked = .receiving)
    (hwaits : waits = .refused ∨ waits = .queued) : Inv (s.enter t locked waits) := by
  have hnot : t ∉ s.line := by
    rw [h.mem, ht]
    exact Bool.false_ne_true
  have hlockedHolds : locked.holds = true := by
    rcases hlocked with rfl | rfl <;> rfl
  have hwaitsHolds : waits.holds = false := by
    rcases hwaits with rfl | rfl <;> rfl
  have hwaitsLine : waits.inLine = true := by
    rcases hwaits with rfl | rfl <;> rfl
  constructor
  -- the task stands at the end of the line, with the lock if it is the only one
  · intro u
    simp only [St.enter, List.mem_append, List.mem_singleton, Function.update_apply]
    split
    · rename_i hu
      subst hu
      refine iff_of_true (Or.inr rfl) ?_
      split
      · exact inLine_of_holds hlockedHolds
      · exact hwaitsLine
    · rename_i hu
      rw [or_iff_left hu]
      exact h.mem u
  · exact List.nodup_append.mpr ⟨h.nodup, List.nodup_singleton t, by
      intro u hu v hv huv
      rw [List.mem_singleton.mp hv] at huv
      exact hnot (huv ▸ hu)⟩
  · intro u
    simp only [St.enter, Function.update_apply]
    split
    · rename_i hu
      subst hu
      split
      · rename_i hempty
        intro _
        rw [hempty]
        rfl
      · rw [hwaitsHolds]
        exact fun hfalse => absurd hfalse Bool.false_ne_true
    · intro hholds
      rw [List.head?_append, h.front u hholds]
      rfl
  · intro u hu
    simp only [St.enter, List.head?_append, Function.update_apply] at hu ⊢
    split
    · rename_i hut
      subst hut
      left
      rw [if_pos]
      · exact hlockedHolds
      · by_contra hne
        rcases List.exists_cons_of_ne_nil hne with ⟨v, rest, hline⟩
        rw [hline] at hu
        cases hu
        rw [hline] at hnot
        exact hnot List.mem_cons_self
    · rename_i hut
      apply h.granted
      cases hline : s.line with
      | nil =>
          rw [hline] at hu
          cases hu
          exact absurd rfl hut
      | cons v rest =>
          rw [hline] at hu
          exact hu
  · intro u
    simp only [St.enter, Function.update_apply]
    split
    · intro hsusp
      exfalso
      rcases hlocked with rfl | rfl <;> rcases hwaits with rfl | rfl <;> split at hsusp <;>
        cases hsusp
    · exact h.asleep u

/-- A task leaves the line. -/
theorem Inv.leave {r : Reader} {returned : List (ℕ × Except IoError RoutedPacket)} (h : Inv s)
    (hr : r = .idle ∨ r = .pending) :
    Inv { s.leave t with reader := Function.update s.reader t r, returned := returned } := by
  have hline : r.inLine = false := by
    rcases hr with rfl | rfl <;> rfl
  have hholds : r.holds = false := by
    rcases hr with rfl | rfl <;> rfl
  constructor
  · intro u
    show u ∈ s.line.erase t ↔ (Function.update s.reader t r u).inLine = true
    rw [h.nodup.mem_erase_iff, Function.update_apply]
    split
    · rename_i hu
      rw [hline]
      exact iff_of_false (fun hne => hne.1 hu) Bool.false_ne_true
    · rename_i hu
      rw [and_iff_right hu]
      exact h.mem u
  · exact h.nodup.erase t
  · intro u
    show (Function.update s.reader t r u).holds = true → (s.line.erase t).head? = some u
    rw [Function.update_apply]
    split
    · rw [hholds]
      exact fun hfalse => absurd hfalse Bool.false_ne_true
    · rename_i hu
      intro huholds
      -- the holder is another one, and stays in front
      rcases List.head?_eq_some_iff.mp (h.front u huholds) with ⟨rest, hrest⟩
      rw [hrest, List.erase_cons_tail (by simpa using hu)]
      rfl
  · intro u
    show (s.line.erase t).head? = some u →
      (Function.update s.reader t r u).holds = true ∨ (s.leave t).woken u = true
    intro hu
    have hne : u ≠ t := by
      rintro rfl
      exact absurd (List.mem_of_head? hu) (h.nodup.not_mem_erase)
    rw [Function.update_of_ne hne]
    cases hline' : s.line with
    | nil =>
        rw [hline'] at hu
        cases hu
    | cons v rest =>
        rw [hline'] at hu
        by_cases hv : v = t
        · -- the lock passes to the next in line, which is woken
          right
          subst hv
          rw [List.erase_cons_head] at hu
          simp only [St.leave, hline', List.head?_cons, if_true, List.tail_cons]
          exact wakeFirst_head hu
        · rw [List.erase_cons_tail (by simpa using hv)] at hu
          refine (h.granted u ?_).imp id leave_woken_mono
          rw [hline']
          exact hu
  · intro u
    show Function.update s.reader t r u = .suspended → (s.leave t).woken u = false →
      s.rxWaker = some u ∧ s.ready = none
    rw [Function.update_apply]
    split
    · intro hsusp
      rcases hr with rfl | rfl <;> cases hsusp
    · intro hsusp hwake
      exact h.asleep u hsusp (woken_of_leave hwake)

/-- A task goes on where it stands in the line. -/
theorem Inv.move {r : Reader} (h : Inv s) (ht : (s.reader t).inLine = true)
    (hline : s'.line = s.line) (hreader : s'.reader = Function.update s.reader t r)
    (hwoken : ∀ u ≠ t, s'.woken u = s.woken u) (hr : r.inLine = true)
    (hfront : r.holds = true → s.line.head? = some t)
    (hgranted : s.line.head? = some t → r.holds = true)
    (hself : r = .suspended → s'.rxWaker = some t ∧ s'.ready = none)
    (hothers : ∀ u ≠ t, s.reader u = .suspended → s.woken u = false →
      s'.rxWaker = some u ∧ s'.ready = none) : Inv s' := by
  constructor
  · intro u
    rw [hline, hreader, Function.update_apply]
    split
    · rename_i hu
      subst hu
      rw [h.mem, hr, ht]
    · exact h.mem u
  · rw [hline]
    exact h.nodup
  · intro u
    rw [hline, hreader, Function.update_apply]
    split
    · rename_i hu
      rw [hu]
      exact hfront
    · exact h.front u
  · intro u hu
    rw [hline] at hu
    rw [hreader, Function.update_apply]
    split
    · rename_i hut
      subst hut
      exact Or.inl (hgranted hu)
    · rename_i hut
      rw [hwoken u hut]
      exact h.granted u hu
  · intro u
    rw [hreader, Function.update_apply]
    split
    · rename_i hu
      subst hu
      exact fun hsusp _ => hself hsusp
    · rename_i hu
      rw [hwoken u hu]
      exact hothers u hu

/-- The holder of the lock polls `recv()`. -/
theorem Inv.recv {waits : Reader} (h : Inv s) (ht : (s.reader t).holds = true)
    (hwaits : waits = .leaving none ∨ waits = .suspended) (woken : ℕ → Bool)
    (hwoken : ∀ u ≠ t, woken u = s.woken u) :
    Inv (St.recv { s with woken := woken } t waits) := by
  have hhead := h.front t ht
  have hwaitsHolds : waits.holds = true := by
    rcases hwaits with rfl | rfl <;> rfl
  -- nobody else awaits `recv()`
  have halone : ∀ u ≠ t, s.reader u ≠ .suspended := by
    intro u hu hsusp
    have huhead := h.front u (by rw [hsusp]; rfl)
    rw [hhead] at huhead
    cases huhead
    exact hu rfl
  have hready : ({ s with woken := woken } : St).ready = s.ready := rfl
  unfold St.recv
  cases hcase : s.ready with
  | some result =>
      simp only [hready, hcase]
      refine h.move (inLine_of_holds ht) rfl rfl hwoken rfl (fun _ => hhead) (fun _ => rfl) ?_ ?_
      · rintro ⟨⟩
      · exact fun u hu hsusp => absurd hsusp (halone u hu)
  | none =>
      simp only [hready, hcase]
      refine h.move (inLine_of_holds ht) rfl rfl hwoken (inLine_of_holds hwaitsHolds)
        (fun _ => hhead) (fun _ => hwaitsHolds) ?_ ?_
      · exact fun _ => ⟨rfl, hcase⟩
      · exact fun u hu hsusp => absurd hsusp (halone u hu)

theorem inv_step {capacity : ℕ} {l : Lbl} (hg : TokioSocket.guard capacity l s.toSocket)
    (h : Inv s) : Inv (update l s) := by
  cases l with
  | push packet => exact h.wakeRx rfl rfl rfl
  | close => exact h.wakeRx rfl rfl rfl
  | pollLock t =>
      refine h.enter ?_ (Or.inl rfl) (Or.inl rfl)
      rcases hg with hg | hg <;> rw [hg] <;> rfl
  | lock t =>
      refine h.enter ?_ (Or.inr rfl) (Or.inr rfl)
      rw [show s.reader t = _ from hg]
      rfl
  | dropLock t => exact h.leave (Or.inr rfl)
  | cancel t => exact h.leave (Or.inl rfl)
  | release t result =>
      refine h.leave ?_
      split
      · exact Or.inr rfl
      · exact Or.inl rfl
  | pollRecv t =>
      exact h.recv (by rw [show s.reader t = _ from hg]; rfl) (Or.inl rfl) s.woken fun _ _ => rfl
  | recv t =>
      refine h.recv ?_ (Or.inr rfl) _ fun u hu => Function.update_of_ne hu _ _
      rcases hg with hg | hg <;> rw [hg] <;> rfl
  | relock t =>
      have hqueued : s.reader t = .queued := hg
      have hset : Function.update s.reader t .queued = s.reader := by
        rw [← hqueued]
        exact Function.update_eq_self t s.reader
      by_cases hhead : s.line.head? = some t
      · exact h.move (by rw [hqueued]; rfl) rfl (if_pos hhead)
          (fun u hu => Function.update_of_ne hu _ _) rfl (fun _ => hhead) (fun _ => rfl)
          (by rintro ⟨⟩) fun u _ => h.asleep u
      · refine h.move (by rw [hqueued]; rfl) rfl ((if_neg hhead).trans hset.symm)
          (fun u hu => Function.update_of_ne hu _ _) rfl (by rintro ⟨⟩) ?_ (by rintro ⟨⟩)
          fun u _ => h.asleep u
        exact fun hfront => absurd hfront hhead
  | abandon t =>
      have hpending : s.reader t = .pending := hg
      refine ⟨?_, h.nodup, ?_, ?_, ?_⟩ <;> intro u <;>
        simp only [update, Function.update_apply] <;> split
      · rename_i hu
        rw [hu, h.mem, hpending]
        rfl
      · exact h.mem u
      · rintro ⟨⟩
      · exact h.front u
      · rename_i hu
        intro hhead
        rcases h.granted u hhead with hholds | hwake
        · rw [hu, hpending] at hholds
          cases hholds
        · exact Or.inr hwake
      · exact h.granted u
      · rintro ⟨⟩
      · exact h.asleep u

/-- If there is something to receive, then whoever is first in the line is awake. -/
theorem Inv.awake (h : Inv s) (hready : s.ready ≠ none) (ht : s.line.head? = some t) :
    s.Awake t := by
  have hmem : (s.reader t).inLine = true := (h.mem t).mp (List.mem_of_head? ht)
  have hwoken : (s.reader t).runs = false → (s.reader t).waits = true ∧ s.woken t = true := by
    intro hruns
    cases hreader : s.reader t with
    | idle | pending =>
        rw [hreader] at hmem
        cases hmem
    | polling | refused | receiving | leaving result =>
        rw [hreader] at hruns
        cases hruns
    | queued =>
        rcases h.granted t ht with hholds | hwake
        · rw [hreader] at hholds
          cases hholds
        · exact ⟨rfl, hwake⟩
    | suspended =>
        refine ⟨rfl, ?_⟩
        by_contra hwake
        exact hready (h.asleep t hreader (Bool.eq_false_of_not_eq_true hwake)).2
  unfold Socket.Awake
  cases hruns : (s.reader t).runs with
  | true => exact Or.inl rfl
  | false => exact Or.inr (hwoken hruns)

end Inv

/-! ### A socket with one user -/

section Lone

variable {capacity : ℕ} {polls awaits : ℕ → Prop} {s s' : St} {t u : ℕ} {l : Lbl}

/-- Who receives may receive. -/
structure Users (polls awaits : ℕ → Prop) (s : St) : Prop where
  user : ∀ t, s.reader t ≠ .idle → polls t ∨ awaits t
  polled : ∀ t, (s.reader t).polled = true → polls t

theorem Users.set {r : Reader} (h : Users polls awaits s)
    (hreader : s'.reader = Function.update s.reader t r)
    (huser : r ≠ .idle → polls t ∨ awaits t) (hpolled : r.polled = true → polls t) :
    Users polls awaits s' := by
  constructor <;> intro u <;> rw [hreader, Function.update_apply] <;> split
  · rename_i hu
    rw [hu]
    exact huser
  · exact h.user u
  · rename_i hu
    rw [hu]
    exact hpolled
  · exact h.polled u

/-- A task that is in a receive goes on with it. -/
theorem Users.goOn {r : Reader} (h : Users polls awaits s)
    (hreader : s'.reader = Function.update s.reader t r) (ht : s.reader t ≠ .idle)
    (hpolled : r.polled = true → (s.reader t).polled = true) : Users polls awaits s' :=
  h.set hreader (fun _ => h.user t ht) fun hr => h.polled t (hpolled hr)

theorem recv_reader (waits : Reader) : ∃ r, (s.recv t waits).reader = Function.update s.reader t r ∧
    (r = waits ∨ ∃ result, r = .leaving (some result)) := by
  unfold St.recv
  split
  · exact ⟨_, rfl, Or.inr ⟨_, rfl⟩⟩
  · exact ⟨_, rfl, Or.inl rfl⟩

theorem users_step (hg : TokioSocket.guard capacity l s.toSocket) (hl : l.Allowed polls awaits)
    (h : Users polls awaits s) : Users polls awaits (update l s) := by
  cases l with
  | push packet => exact ⟨h.user, h.polled⟩
  | close => exact ⟨h.user, h.polled⟩
  | pollLock t => exact h.set rfl (fun _ => Or.inl hl) fun _ => hl
  | lock t =>
      refine h.set rfl (fun _ => Or.inr hl) ?_
      split <;> rintro ⟨⟩
  | dropLock t =>
      have ht : s.reader t = .refused := hg
      exact h.goOn rfl (by rw [ht]; rintro ⟨⟩) fun _ => by rw [ht]; rfl
  | pollRecv t =>
      have ht : s.reader t = .polling := hg
      rcases @recv_reader s t (.leaving none) with ⟨r, hreader, _⟩
      exact h.goOn hreader (by rw [ht]; rintro ⟨⟩) fun _ => by rw [ht]; rfl
  | relock t =>
      have ht : s.reader t = .queued := hg
      by_cases hhead : s.line.head? = some t
      · exact h.goOn (if_pos hhead) (by rw [ht]; rintro ⟨⟩) (by rintro ⟨⟩)
      · have hreader : (update (.relock t) s).reader = s.reader := if_neg hhead
        constructor
        · rw [hreader]
          exact h.user
        · rw [hreader]
          exact h.polled
  | recv t =>
      rcases @recv_reader { s with woken := Function.update s.woken t false } t .suspended with
        ⟨r, hreader, hr⟩
      refine h.goOn hreader ?_ ?_
      · rcases hg with hg | hg <;> rw [hg] <;> rintro ⟨⟩
      · rcases hr with rfl | ⟨result, rfl⟩ <;> rintro ⟨⟩
  | release t result =>
      have ht : s.reader t = .leaving result := hg
      refine h.goOn rfl (by rw [ht]; rintro ⟨⟩) ?_
      rw [ht]
      cases result
      · exact fun _ => rfl
      · rintro ⟨⟩
  | cancel t => exact h.set rfl (fun hne => absurd rfl hne) (by rintro ⟨⟩)
  | abandon t => exact h.set rfl (fun hne => absurd rfl hne) (by rintro ⟨⟩)

/-- Nobody else uses a socket that is polled. -/
def Exclusive (polls awaits : ℕ → Prop) : Prop :=
  ∀ t u, polls t → polls u ∨ awaits u → u = t

/-- What then holds of the task that polls: it never finds the lock taken, and a poll that was
pending has left its waker with the channel. -/
structure Lone (s : St) : Prop where
  refused : ∀ t, s.reader t ≠ .refused
  asleep : ∀ t, s.reader t = .pending ∨ s.reader t = .leaving none → s.woken t = false →
    s.rxWaker = some t ∧ s.ready = none

theorem Users.eq_of_polled (h : Users polls awaits s) (hex : Exclusive polls awaits)
    (ht : (s.reader t).polled = true) (hu : polls u ∨ awaits u) : u = t :=
  hex t u (h.polled t ht) hu

theorem polled_of_pending (h : s.reader t = .pending ∨ s.reader t = .leaving none) :
    (s.reader t).polled = true := by
  rcases h with h | h <;> rw [h] <;> rfl

/-- A task that is done with its receive, or is told `Pending`. -/
theorem Lone.leave {r : Reader} (h : Lone s) (hr : r = .idle ∨ r = .pending)
    (hpending : r = .pending → s.reader t = .leaving none)
    (hreader : s'.reader = Function.update s.reader t r)
    (hwoken : ∀ u, s'.woken u = false → s.woken u = false) (hrx : s'.rxWaker = s.rxWaker)
    (hready : s'.ready = s.ready) : Lone s' := by
  constructor
  · intro u
    rw [hreader, Function.update_apply]
    split
    · rcases hr with rfl | rfl <;> rintro ⟨⟩
    · exact h.refused u
  · intro u hu hwake
    rw [hrx, hready]
    rw [hreader, Function.update_apply] at hu
    split at hu
    · rename_i hut
      subst hut
      refine h.asleep u (Or.inr (hpending ?_)) (hwoken u hwake)
      rcases hu with hu | hu
      · exact hu
      · rcases hr with rfl | rfl <;> cases hu
    · exact h.asleep u hu (hwoken u hwake)

/-- A step of a task that does not poll: then nobody does. -/
theorem Lone.awaiting {r : Reader} (hex : Exclusive polls awaits) (husers : Users polls awaits s)
    (ht : polls t ∨ awaits t) (hreader : s'.reader = Function.update s.reader t r)
    (hr : r.polled = false) : Lone s' := by
  have hnone : ∀ u, (s'.reader u).polled = false := by
    intro u
    rw [hreader, Function.update_apply]
    split
    · exact hr
    · rename_i hu
      by_contra hpolled
      exact hu (husers.eq_of_polled hex (Bool.eq_true_of_not_eq_false hpolled) ht).symm
  constructor
  · intro u hu
    have := hnone u
    rw [hu] at this
    cases this
  · intro u hu
    have := hnone u
    rw [polled_of_pending hu] at this
    cases this

/-- A step of the task that polls, which is alone. -/
theorem Lone.polling {r : Reader} (hex : Exclusive polls awaits) (husers : Users polls awaits s)
    (ht : polls t) (hreader : s'.reader = Function.update s.reader t r) (hr : r ≠ .refused)
    (hasleep : r = .pending ∨ r = .leaving none → s'.rxWaker = some t ∧ s'.ready = none) :
    Lone s' := by
  have hothers : ∀ u ≠ t, s.reader u = .idle := by
    intro u hu
    by_contra hidle
    exact hu (hex t u ht (husers.user u hidle))
  constructor
  · intro u
    rw [hreader, Function.update_apply]
    split
    · exact hr
    · rename_i hu
      rw [hothers u hu]
      rintro ⟨⟩
  · intro u
    rw [hreader, Function.update_apply]
    split
    · rename_i hu
      rw [hu]
      exact fun hpending _ => hasleep hpending
    · rename_i hu
      rw [hothers u hu]
      rintro (hcase | hcase) <;> cases hcase

theorem lone_step (hex : Exclusive polls awaits) (hg : TokioSocket.guard capacity l s.toSocket)
    (hl : l.Allowed polls awaits) (hinv : Inv s) (husers : Users polls awaits s) (h : Lone s) :
    Lone (update l s) := by
  cases l with
  | push packet | close =>
      refine ⟨h.refused, ?_⟩
      intro u hu hwake
      have hwoken : wakeFirst s.woken s.rxWaker.toList u = true :=
        wakeFirst_rxWaker fun hbefore => (h.asleep u hu hbefore).1
      rw [show wakeFirst s.woken s.rxWaker.toList u = false from hwake] at hwoken
      cases hwoken
  | pollLock t =>
      -- the line is empty: whoever stands in it uses the socket, and is this task
      have hline : s.line = [] := by
        refine List.eq_nil_iff_forall_not_mem.mpr ?_
        intro u hu
        have hmem := (hinv.mem u).mp hu
        obtain rfl : u = t := by
          refine hex t u hl (husers.user u ?_)
          intro hidle
          rw [hidle] at hmem
          cases hmem
        rcases hg with hg | hg <;> rw [hg] at hmem <;> cases hmem
      refine Lone.polling hex husers hl (show _ = Function.update s.reader t .polling from ?_)
        (by rintro ⟨⟩) (by rintro (hcase | hcase) <;> cases hcase)
      simp only [update, St.enter, hline, if_true]
  | dropLock t => exact absurd hg (h.refused t)
  | pollRecv t =>
      -- a poll that is pending leaves its waker with the channel
      have hpolls : polls t := husers.polled t (by rw [show s.reader t = _ from hg]; rfl)
      simp only [update, St.recv]
      cases hready : s.ready with
      | some result =>
          exact Lone.polling hex husers hpolls rfl (by rintro ⟨⟩)
            (by rintro (hcase | hcase) <;> cases hcase)
      | none => exact Lone.polling hex husers hpolls rfl (by rintro ⟨⟩) fun _ => ⟨rfl, hready⟩
  | lock t =>
      refine Lone.awaiting hex husers (Or.inr hl) rfl ?_
      split <;> rfl
  | relock t =>
      have ht : s.reader t = .queued := hg
      have huser := husers.user t (by rw [ht]; rintro ⟨⟩)
      by_cases hhead : s.line.head? = some t
      · exact Lone.awaiting hex husers huser (if_pos hhead) rfl
      · refine Lone.awaiting hex husers huser ((if_neg hhead).trans ?_)
          (show Reader.queued.polled = false from rfl)
        rw [← ht, Function.update_eq_self]
  | recv t =>
      have huser : polls t ∨ awaits t := by
        apply husers.user t
        rcases hg with hg | hg <;> rw [hg] <;> rintro ⟨⟩
      rcases @recv_reader { s with woken := Function.update s.woken t false } t .suspended with
        ⟨r, hreader, hr⟩
      refine Lone.awaiting hex husers huser hreader ?_
      rcases hr with rfl | ⟨result, rfl⟩ <;> rfl
  | release t result =>
      refine h.leave ?_ ?_ rfl (fun u => woken_of_leave) rfl rfl
      · cases result
        · exact Or.inr rfl
        · exact Or.inl rfl
      · cases result
        · exact fun _ => hg
        · rintro ⟨⟩
  | cancel t => exact h.leave (Or.inl rfl) (by rintro ⟨⟩) rfl (fun u => woken_of_leave) rfl rfl
  | abandon t => exact h.leave (Or.inl rfl) (by rintro ⟨⟩) rfl (fun u => id) rfl rfl

theorem not_stalled (hex : Exclusive polls awaits)
    (hs : (socket capacity polls awaits).Reachable s) : ¬ s.Stalled := by
  have h : Inv s ∧ Users polls awaits s ∧ Lone s := by
    refine (socket capacity polls awaits).invariant
      (fun s => Inv s ∧ Users polls awaits s ∧ Lone s) ?_ ?_ s hs
    · refine ⟨⟨?_, List.nodup_nil, ?_, ?_, ?_⟩, ⟨?_, ?_⟩, ⟨?_, ?_⟩⟩ <;> intro t
      · exact iff_of_false List.not_mem_nil Bool.false_ne_true
      · rintro ⟨⟩
      · rintro ⟨⟩
      · rintro ⟨⟩
      · exact fun hne => absurd rfl hne
      · rintro ⟨⟩
      · rintro ⟨⟩
      · rintro (hcase | hcase) <;> cases hcase
    · rintro l s ⟨hg, hl⟩ ⟨hinv, husers, hlone⟩
      exact ⟨inv_step hg hinv, users_step hg hl husers, lone_step hex hg hl hinv husers hlone⟩
  rcases h with ⟨hinv, _, hlone⟩
  rintro ⟨hready, ⟨t, hwaits, hwoken⟩, hawake⟩
  cases hreader : s.reader t with
  | pending => exact hready (hlone.asleep t (Or.inl hreader) hwoken).2
  | suspended => exact hready (hinv.asleep t hreader hwoken).2
  | queued =>
      -- the task waits for the lock, and the first in the line is awake
      have hmem : t ∈ s.line := (hinv.mem t).mpr (by rw [hreader]; rfl)
      rcases List.exists_cons_of_ne_nil (List.ne_nil_of_mem hmem) with ⟨u, rest, hline⟩
      exact hawake u (hinv.awake hready (by rw [hline]; rfl))
  | idle | polling | refused | receiving | leaving result =>
      rw [hreader] at hwaits
      cases hwaits

/-- Two tasks poll. The channel keeps the waker of the second one only, which gets the first
packet; nobody is woken for the next. -/
theorem stalls_of_polls (hcap : 0 < capacity) (packet : RoutedPacket) (hne : t ≠ u)
    (ht : polls t) (hu : polls u) :
    ∃ s, (socket capacity polls awaits).Reachable s ∧ s.Stalled := by
  have hne' : u ≠ t := hne.symm
  have hrun : ∃ s, (socket capacity polls awaits).Run .initial
      [.pollLock t, .pollRecv t, .release t none, .pollLock u, .pollRecv u, .release u none,
        .push packet, .pollLock u, .pollRecv u, .release u (some (.ok packet)), .push packet] s ∧
      s.ready = some (.ok packet) ∧ s.woken t = false ∧
      ∀ v, s.reader v = if v = t then .pending else .idle := by
    refine ⟨_, .cons ⟨?_, ht⟩ (.cons ⟨?_, trivial⟩ (.cons ⟨?_, trivial⟩ (.cons ⟨?_, hu⟩
      (.cons ⟨?_, trivial⟩ (.cons ⟨?_, trivial⟩ (.cons ⟨?_, trivial⟩ (.cons ⟨?_, hu⟩
      (.cons ⟨?_, trivial⟩ (.cons ⟨?_, trivial⟩ (.cons ⟨?_, trivial⟩ .nil)))))))))), ?_⟩
    all_goals
      simp [socket, Lts.Sys.restrict, update, TokioSocket.guard, St.initial, St.enter, St.recv,
        St.leave, St.wakeRx, wakeFirst, Socket.initial, Socket.ready, Function.update_apply, hne',
        hcap]
  rcases hrun with ⟨s, hrun, hready, hwoken, hreader⟩
  exact ⟨s, ⟨_, hrun⟩, Socket.stalled_of_reader (by rw [hready]; rintro ⟨⟩) hwoken hreader⟩

/-- One task awaits and another one polls. The one that polls finds the lock taken; nobody wakes
it when the other is done. -/
theorem stalls_of_awaits (hcap : 0 < capacity) (packet : RoutedPacket) (hne : t ≠ u)
    (ht : polls t) (hu : awaits u) :
    ∃ s, (socket capacity polls awaits).Reachable s ∧ s.Stalled := by
  have hne' : u ≠ t := hne.symm
  have hrun : ∃ s, (socket capacity polls awaits).Run .initial
      [.lock u, .recv u, .pollLock t, .dropLock t, .push packet, .recv u,
        .release u (some (.ok packet)), .push packet] s ∧
      s.ready = some (.ok packet) ∧ s.woken t = false ∧
      ∀ v, s.reader v = if v = t then .pending else .idle := by
    refine ⟨_, .cons ⟨?_, hu⟩ (.cons ⟨?_, trivial⟩ (.cons ⟨?_, ht⟩ (.cons ⟨?_, trivial⟩
      (.cons ⟨?_, trivial⟩ (.cons ⟨?_, trivial⟩ (.cons ⟨?_, trivial⟩ (.cons ⟨?_, trivial⟩
      .nil))))))), ?_⟩
    all_goals
      simp [socket, Lts.Sys.restrict, update, TokioSocket.guard, St.initial, St.enter, St.recv,
        St.leave, St.wakeRx, wakeFirst, Socket.initial, Socket.ready, Function.update_apply, hne,
        hne', hcap]
    -- the task that awaited is where it was in the beginning
    intro v
    by_cases hv : v = u <;> simp [hv, hne']
  rcases hrun with ⟨s, hrun, hready, hwoken, hreader⟩
  exact ⟨s, ⟨_, hrun⟩, Socket.stalled_of_reader (by rw [hready]; rintro ⟨⟩) hwoken hreader⟩

end Lone

end TokioView

/-! ## With async-std -/

namespace AsyncStdView

/-- The listeners of the pending `recv()` futures, by their tasks: those that wait for a
notification, in order, and those that have got one. -/
structure St extends Socket where
  listeners : List ℕ
  notified : List ℕ

open AsyncStdSocket (Lbl)

namespace St

/-- `notify_additional(1)`. -/
def notify (s : St) : St :=
  match s.listeners with
  | [] => s
  | t :: rest =>
      { s with
        listeners := rest
        notified := s.notified ++ [t]
        woken := Function.update s.woken t true }

/-- The drop of a listener, if there is one. -/
def dropListener (s : St) (t : ℕ) : St :=
  if t ∈ s.notified then notify { s with notified := s.notified.erase t }
  else { s with listeners := s.listeners.erase t }

/-- A poll of `recv()` that is pending: a listener that was notified is used up, and the next one
is at the end of the list. -/
def listen (s : St) (t : ℕ) : St :=
  if t ∈ s.listeners then s
  else { s with notified := s.notified.erase t, listeners := s.listeners ++ [t] }

/-- A poll of `recv()`; a future that is ready is dropped. -/
def recv (s : St) (t : ℕ) (waits : Reader) : St :=
  match s.ready with
  | some result =>
      dropListener
        { s with
          channel := s.channel.tail
          reader := Function.update s.reader t .idle
          returned := s.returned ++ [(t, result)] } t
  | none => listen { s with reader := Function.update s.reader t waits } t

end St

def update : Lbl → St → St
  | .push packet, s => St.notify { s with channel := s.channel ++ [packet] }
  | .close, s =>
      { s with
        closed := true
        listeners := []
        notified := s.notified ++ s.listeners
        woken := fun t => s.woken t || decide (t ∈ s.listeners) }
  | .poll t, s => St.recv { s with woken := Function.update s.woken t false } t .refused
  | .dropRecv t, s => St.dropListener { s with reader := Function.update s.reader t .pending } t
  | .recv t, s => St.recv { s with woken := Function.update s.woken t false } t .suspended
  | .cancel t, s => St.dropListener { s with reader := Function.update s.reader t .idle } t
  | .abandon t, s => { s with reader := Function.update s.reader t .idle }

def St.initial : St := { Socket.initial with listeners := [], notified := [] }

/-- `AsyncStdSocket.socket`, with the channel by its view. -/
def socket (capacity : ℕ) (polls awaits : ℕ → Prop) : Lts.Sys St Lbl :=
  Lts.Sys.restrict ⟨.initial, fun l s => AsyncStdSocket.guard capacity l s.toSocket, update⟩
    fun l _ => l.Allowed polls awaits

/-! ### Readers that await -/

/-- Nobody polls: every reader has a listener, and if one waits then there are as many notified
ones as packets. -/
structure Inv (s : St) : Prop where
  mem : ∀ t, t ∈ s.listeners ∨ t ∈ s.notified ↔ s.reader t = .suspended
  reader : ∀ t, s.reader t = .idle ∨ s.reader t = .suspended
  woken : ∀ t ∈ s.notified, s.woken t = true
  nodup : (s.listeners ++ s.notified).Nodup
  enough : s.listeners ≠ [] → s.channel.length ≤ s.notified.length ∧ s.closed = false

section Inv

variable {capacity : ℕ} {polls awaits : ℕ → Prop} {s : St} {t : ℕ} {l : Lbl}

/-- A notification makes up for one packet. -/
theorem Inv.notify (hmem : ∀ t, t ∈ s.listeners ∨ t ∈ s.notified ↔ s.reader t = .suspended)
    (hreader : ∀ t, s.reader t = .idle ∨ s.reader t = .suspended)
    (hwoken : ∀ t ∈ s.notified, s.woken t = true) (hnodup : (s.listeners ++ s.notified).Nodup)
    (henough : s.listeners ≠ [] → s.channel.length ≤ s.notified.length + 1 ∧ s.closed = false) :
    Inv s.notify := by
  unfold St.notify
  cases hl : s.listeners with
  | nil =>
      refine ⟨hmem, hreader, hwoken, hnodup, ?_⟩
      exact fun hne => absurd hl hne
  | cons u rest =>
      rw [hl] at hmem hnodup henough
      constructor
      · intro v
        rw [← hmem v]
        simp only [List.mem_append, List.mem_cons]
        tauto
      · exact hreader
      · intro v hv
        simp only [Function.update_apply]
        split
        · rfl
        · rename_i hne
          rcases List.mem_append.mp hv with hv | hv
          · exact hwoken v hv
          · exact absurd (List.mem_singleton.mp hv) hne
      · refine (List.Perm.nodup_iff ?_).mp hnodup
        rw [← List.append_assoc]
        exact (List.perm_append_singleton u (rest ++ s.notified)).symm
      · intro _
        have hlen := henough (List.cons_ne_nil u rest)
        simp only [List.length_append, List.length_singleton]
        exact hlen

/-- A reader is done. -/
theorem Inv.dropListener (h : Inv s) {channel : List RoutedPacket}
    {returned : List (ℕ × Except IoError RoutedPacket)} (woken : ℕ → Bool)
    (hwoken : ∀ u ≠ t, woken u = s.woken u) (hchannel : channel.length ≤ s.channel.length) :
    Inv (St.dropListener
      { s with
        channel := channel, woken := woken, returned := returned,
        reader := Function.update s.reader t .idle } t) := by
  have hparts := List.nodup_append.mp h.nodup
  have hreader : ∀ u, Function.update s.reader t .idle u = .idle ∨
      Function.update s.reader t .idle u = .suspended := by
    intro u
    rw [Function.update_apply]
    split
    · exact Or.inl rfl
    · exact h.reader u
  unfold St.dropListener
  split
  · rename_i ht
    have ht' : t ∈ s.notified := ht
    -- a notified listener passes its notification on
    apply Inv.notify
    · intro u
      simp only [hparts.2.1.mem_erase_iff, Function.update_apply]
      split
      · rename_i hu
        subst hu
        refine iff_of_false ?_ (by rintro ⟨⟩)
        rintro (hmem | hmem)
        · exact hparts.2.2 u hmem u ht' rfl
        · exact hmem.1 rfl
      · rename_i hu
        rw [← h.mem u]
        simp only [hu, ne_eq, not_false_eq_true, true_and]
    · exact hreader
    · intro u hu
      have hmem := hparts.2.1.mem_erase_iff.mp hu
      exact (hwoken u hmem.1).trans (h.woken u hmem.2)
    · exact h.nodup.sublist (List.Sublist.append_left List.erase_sublist _)
    · intro hne
      have hlen := h.enough hne
      have herase : (s.notified.erase t).length + 1 = s.notified.length :=
        List.length_erase_add_one ht'
      refine ⟨?_, hlen.2⟩
      show channel.length ≤ (s.notified.erase t).length + 1
      omega
  · rename_i ht
    have ht' : t ∉ s.notified := ht
    constructor
    · intro u
      simp only [hparts.1.mem_erase_iff, Function.update_apply]
      split
      · rename_i hu
        subst hu
        refine iff_of_false ?_ (by rintro ⟨⟩)
        rintro (hmem | hmem)
        · exact hmem.1 rfl
        · exact ht' hmem
      · rename_i hu
        rw [← h.mem u]
        simp only [hu, ne_eq, not_false_eq_true, true_and]
    · exact hreader
    · intro u hu
      rw [← h.woken u hu]
      apply hwoken
      rintro rfl
      exact ht' hu
    · exact h.nodup.sublist (List.Sublist.append_right List.erase_sublist _)
    · intro hne
      have hlen := h.enough (fun hnil => hne (by
        show s.listeners.erase t = []
        rw [hnil]
        rfl))
      exact ⟨hchannel.trans hlen.1, hlen.2⟩

/-- A reader finds nothing to receive. -/
theorem Inv.listen (h : Inv s) (hready : s.ready = none) (woken : ℕ → Bool)
    (hwoken : ∀ u ≠ t, woken u = s.woken u) :
    Inv (St.listen
      { s with woken := woken, reader := Function.update s.reader t .suspended } t) := by
  have hempty := Socket.ready_eq_none.mp hready
  have hparts := List.nodup_append.mp h.nodup
  have hreader : ∀ u, Function.update s.reader t .suspended u = .idle ∨
      Function.update s.reader t .suspended u = .suspended := by
    intro u
    rw [Function.update_apply]
    split
    · exact Or.inr rfl
    · exact h.reader u
  unfold St.listen
  split
  · rename_i ht
    have ht' : t ∈ s.listeners := ht
    -- the listener that there is goes on waiting
    refine ⟨?_, hreader, ?_, h.nodup, h.enough⟩
    · intro u
      rw [h.mem u]
      simp only [Function.update_apply]
      split
      · rename_i hu
        subst hu
        exact iff_of_true ((h.mem u).mp (Or.inl ht')) rfl
      · rfl
    · intro u hu
      rw [← h.woken u hu]
      apply hwoken
      rintro rfl
      exact hparts.2.2 u ht' u hu rfl
  · rename_i ht
    have ht' : t ∉ s.listeners := ht
    constructor
    · intro u
      simp only [hparts.2.1.mem_erase_iff, Function.update_apply, List.mem_append,
        List.mem_singleton]
      split
      · rename_i hu
        exact iff_of_true (Or.inl (Or.inr hu)) rfl
      · rename_i hu
        rw [← h.mem u]
        simp only [hu, ne_eq, not_false_eq_true, true_and, or_false]
    · exact hreader
    · intro u hu
      have hmem := hparts.2.1.mem_erase_iff.mp hu
      exact (hwoken u hmem.1).trans (h.woken u hmem.2)
    · refine List.nodup_append.mpr ⟨?_, hparts.2.1.erase t, ?_⟩
      · refine List.nodup_append.mpr ⟨hparts.1, List.nodup_singleton t, ?_⟩
        intro u hu v hv huv
        rw [List.mem_singleton.mp hv] at huv
        exact ht' (huv ▸ hu)
      · intro u hu v hv huv
        have hmem := hparts.2.1.mem_erase_iff.mp hv
        rcases List.mem_append.mp hu with hu | hu
        · exact hparts.2.2 u hu v hmem.2 huv
        · exact hmem.1 (huv ▸ List.mem_singleton.mp hu)
    · intro _
      refine ⟨?_, hempty.2⟩
      show s.channel.length ≤ _
      rw [hempty.1]
      exact Nat.zero_le _

theorem inv_step (hpolls : ∀ t, ¬ polls t) (hg : AsyncStdSocket.guard capacity l s.toSocket)
    (hl : l.Allowed polls awaits) (h : Inv s) : Inv (update l s) := by
  cases l with
  | push packet =>
      refine Inv.notify h.mem h.reader h.woken h.nodup ?_
      intro hne
      have hlen := h.enough hne
      refine ⟨?_, hlen.2⟩
      simp only [List.length_append, List.length_singleton]
      exact Nat.succ_le_succ hlen.1
  | close =>
      -- the end of the stream notifies all listeners
      refine ⟨?_, h.reader, ?_, ?_, fun hne => absurd rfl hne⟩
      · intro t
        show t ∈ [] ∨ t ∈ s.notified ++ s.listeners ↔ s.reader t = .suspended
        rw [← h.mem t]
        simp only [List.not_mem_nil, false_or, List.mem_append]
        exact or_comm
      · intro t ht
        simp only [update, Bool.or_eq_true, decide_eq_true_eq]
        exact (List.mem_append.mp ht).imp (h.woken t) id
      · show (s.notified ++ s.listeners).Nodup
        exact List.perm_append_comm.nodup_iff.mp h.nodup
  | poll t => exact absurd hl (hpolls t)
  | dropRecv t =>
      rcases h.reader t with ht | ht <;> rw [show s.reader t = _ from hg] at ht <;> cases ht
  | recv t =>
      simp only [update, St.recv]
      cases hready : s.ready with
      | some result =>
          simp only [show ({ s with woken := Function.update s.woken t false } : St).ready =
            some result from hready]
          refine h.dropListener _ (fun u hu => Function.update_of_ne hu _ _) ?_
          rw [List.length_tail]
          exact Nat.sub_le _ _
      | none =>
          simp only [show ({ s with woken := Function.update s.woken t false } : St).ready =
            none from hready]
          exact h.listen hready _ fun u hu => Function.update_of_ne hu _ _
  | cancel t => exact h.dropListener s.woken (fun _ _ => rfl) le_rfl
  | abandon t =>
      rcases h.reader t with ht | ht <;> rw [show s.reader t = _ from hg] at ht <;> cases ht

theorem not_stalled (hpolls : ∀ t, ¬ polls t)
    (hs : (socket capacity polls awaits).Reachable s) : ¬ s.Stalled := by
  have h : Inv s := by
    refine (socket capacity polls awaits).invariant Inv ?_ ?_ s hs
    · refine ⟨?_, fun _ => Or.inl rfl, ?_, List.nodup_nil, fun hne => absurd rfl hne⟩
      · intro t
        refine iff_of_false ?_ (by rintro ⟨⟩)
        rintro (hmem | hmem) <;> exact absurd hmem List.not_mem_nil
      · exact fun t ht => absurd ht List.not_mem_nil
    · exact fun l s hg => inv_step hpolls hg.1 hg.2
  rintro ⟨hready, ⟨t, hwaits, hwoken⟩, hawake⟩
  -- the sleeping reader has a listener that waits
  have ht : s.reader t = .suspended := by
    rcases h.reader t with ht | ht
    · rw [ht] at hwaits
      cases hwaits
    · exact ht
  have hlistens : t ∈ s.listeners := by
    rcases (h.mem t).mpr ht with hmem | hmem
    · exact hmem
    · rw [h.woken t hmem] at hwoken
      cases hwoken
  have henough := h.enough (List.ne_nil_of_mem hlistens)
  -- so there is a notified one, which is awake
  have hsome : s.notified ≠ [] := by
    intro hnil
    rw [hnil] at henough
    exact hready (Socket.ready_eq_none.mpr
      ⟨List.eq_nil_of_length_eq_zero (Nat.le_zero.mp henough.1), henough.2⟩)
  rcases List.exists_mem_of_ne_nil _ hsome with ⟨u, hu⟩
  refine hawake u (Or.inr ⟨?_, h.woken u hu⟩)
  rw [(h.mem u).mp (Or.inr hu)]
  rfl

/-- A task polls. Its listener goes with the future, and nobody is notified of the packet. -/
theorem stalls_of_polls (hcap : 0 < capacity) (packet : RoutedPacket) (ht : polls t) :
    ∃ s, (socket capacity polls awaits).Reachable s ∧ s.Stalled := by
  have hrun : ∃ s, (socket capacity polls awaits).Run .initial
      [.poll t, .dropRecv t, .push packet] s ∧ s.ready = some (.ok packet) ∧
      s.woken t = false ∧ ∀ v, s.reader v = if v = t then .pending else .idle := by
    refine ⟨_, .cons ⟨?_, ht⟩ (.cons ⟨?_, trivial⟩ (.cons ⟨?_, trivial⟩ .nil)), ?_⟩
    all_goals
      simp [socket, Lts.Sys.restrict, update, AsyncStdSocket.guard, St.initial, St.recv, St.listen,
        St.dropListener, St.notify, Socket.initial, Socket.ready, Function.update_apply, hcap]
  rcases hrun with ⟨s, hrun, hready, hwoken, hreader⟩
  exact ⟨s, ⟨_, hrun⟩, Socket.stalled_of_reader (by rw [hready]; rintro ⟨⟩) hwoken hreader⟩

end Inv

end AsyncStdView

/-! ## The sockets and their views -/

@[simp] theorem wake_nil (woken : ℕ → Bool) : wake woken [] = woken := by
  funext t
  simp [wake]

theorem wake_head? (woken : ℕ → Bool) (line : List ℕ) :
    wake woken line.head?.toList = TokioView.wakeFirst woken line := by
  cases line with
  | nil => exact wake_nil woken
  | cons u rest =>
      funext t
      by_cases ht : t = u <;> simp [wake, TokioView.wakeFirst, ht]

theorem wake_toList (woken : ℕ → Bool) (waker : Option ℕ) :
    wake woken waker.toList = TokioView.wakeFirst woken waker.toList := by
  cases waker with
  | none => exact wake_nil woken
  | some u => exact wake_head? woken [u]

namespace TokioView

variable {Λ κ : Type} {M : Mutex Λ} {R : Wakers κ} {line : Λ → List ℕ} {waker : κ → Option ℕ}

def view (line : Λ → List ℕ) (waker : κ → Option ℕ) (s : TokioSocket.St Λ κ) : St :=
  { s.toSocket with line := line s.mutex, rxWaker := waker s.wakers }

/-- The tasks that a drop of a guard or of a lock future wakes. -/
theorem wake_nextInLine (s : St) (t : ℕ) :
    wake s.woken (nextInLine s.line t) = (s.leave t).woken := by
  unfold nextInLine St.leave
  split
  · exact wake_head? _ _
  · exact wake_nil _

theorem view_dropLock (hM : M.Fair line) (s : TokioSocket.St Λ κ) (t : ℕ) :
    view line waker (s.dropLock M t) = (view line waker s).leave t := by
  have hwoken := wake_nextInLine (view line waker s) t
  simp only [view, TokioSocket.St.dropLock, hM.line_dropFuture, hM.dropFuture_wakes] at hwoken ⊢
  rw [hwoken]
  rfl

theorem view_dropRecv (hM : M.Fair line) (hR : R.KeepsLast waker) (s : TokioSocket.St Λ κ)
    (t : ℕ) : view line waker (s.dropRecv M R t) = (view line waker s).leave t := by
  have hwoken := wake_nextInLine (view line waker s) t
  simp only [view, TokioSocket.St.dropRecv, hM.line_dropGuard, hM.dropGuard_wakes, hR.waker_drop,
    hR.drop_wakes, wake_nil] at hwoken ⊢
  rw [hwoken]
  rfl

theorem view_pollRecv (hR : R.KeepsLast waker) (s : TokioSocket.St Λ κ) (t : ℕ) (waits : Reader) :
    view line waker (s.pollRecv R t waits) = (view line waker s).recv t waits := by
  have hready : (view line waker s).ready = s.ready := rfl
  unfold TokioSocket.St.pollRecv St.recv
  rw [hready]
  cases s.ready with
  | some result => rfl
  | none =>
      simp only [view, hR.pending]

theorem view_pollLock (hM : M.Fair line) (s : TokioSocket.St Λ κ) (t : ℕ)
    (locked waits : Reader) :
    view line waker (s.pollLock M t locked waits) = (view line waker s).enter t locked waits := by
  have hready : (if (M.poll t s.mutex).2 = true then locked else waits) =
      if line s.mutex = [] then locked else waits :=
    if_congr (hM.poll_ready t s.mutex) rfl rfl
  simp only [view, TokioSocket.St.pollLock, St.enter, hM.line_poll, hready]
  rfl

theorem view_update (hM : M.Fair line) (hR : R.KeepsLast waker) (l : TokioSocket.Lbl)
    (s : TokioSocket.St Λ κ) :
    view line waker (TokioSocket.update M R l s) = update l (view line waker s) := by
  cases l with
  | push packet =>
      simp only [view, TokioSocket.update, update, St.wakeRx, hR.waker_push, hR.push_wakes,
        wake_toList]
  | close =>
      simp only [view, TokioSocket.update, update, St.wakeRx, hR.waker_close, hR.close_wakes,
        wake_toList]
  | pollLock t => exact view_pollLock hM s t _ _
  | lock t => exact view_pollLock hM s t _ _
  | pollRecv t => exact view_pollRecv hR s t _
  | recv t => exact view_pollRecv hR _ t _
  | relock t =>
      have hready : (if (M.repoll t s.mutex).2 = true then Function.update s.reader t .receiving
          else s.reader) = if (line s.mutex).head? = some t then
            Function.update s.reader t .receiving else s.reader :=
        if_congr (hM.repoll_ready t s.mutex) rfl rfl
      simp only [view, TokioSocket.update, update, hM.line_repoll, hready]
      rfl
  | dropLock t =>
      exact congrArg (fun v : St => { v with reader := Function.update s.reader t .pending })
        (view_dropLock hM s t)
  | release t result =>
      exact congrArg (fun v : St =>
        { v with
          reader := Function.update s.reader t (if result = none then .pending else .idle)
          returned := s.returned ++ (result.map (t, ·)).toList }) (view_dropRecv hM hR s t)
  | cancel t =>
      -- either way the task leaves the line
      have hleave : view line waker
          (if s.reader t = .queued then s.dropLock M t else s.dropRecv M R t) =
            (view line waker s).leave t := by
        split
        · exact view_dropLock hM s t
        · exact view_dropRecv hM hR s t
      exact congrArg (fun v : St => { v with reader := Function.update s.reader t .idle }) hleave
  | abandon t => rfl

/-- The socket with a fair lock and a channel that keeps the last waker is known by its view. -/
theorem projects (hM : M.Fair line) (hR : R.KeepsLast waker) (capacity : ℕ)
    (polls awaits : ℕ → Prop) :
    Lts.Projects (TokioSocket.socket M R capacity polls awaits) (socket capacity polls awaits)
      (view line waker) := by
  have hfree : Lts.Projects
      ⟨.initial M R, fun l s => TokioSocket.guard capacity l s.toSocket, TokioSocket.update M R⟩
      ⟨.initial, fun l s => TokioSocket.guard capacity l s.toSocket, update⟩
      (view line waker) := by
    refine ⟨?_, fun l s => Iff.rfl, view_update hM hR⟩
    simp only [view, TokioSocket.St.initial, St.initial, hM.new, hR.new]
  exact hfree.restrict (TokioSocket.Lbl.Allowed polls awaits)

end TokioView

namespace AsyncStdView

variable {κ : Type} {R : Wakers κ} {listeners : κ → Listeners}

def view (listeners : κ → Listeners) (s : AsyncStdSocket.St κ) : St :=
  { s.toSocket with
    listeners := (listeners s.wakers).waiting
    notified := (listeners s.wakers).notified }

/-- A notification, by the view of the listeners. -/
theorem notify_eq (s : St) :
    s.notify =
      { s with
        listeners := (Listeners.notify ⟨s.listeners, s.notified⟩).1.waiting
        notified := (Listeners.notify ⟨s.listeners, s.notified⟩).1.notified
        woken := wake s.woken (Listeners.notify ⟨s.listeners, s.notified⟩).2 } := by
  rcases s with ⟨socket, _ | ⟨u, rest⟩, notified⟩
  · simp [St.notify, Listeners.notify]
  · have hwake : wake socket.woken [u] = Function.update socket.woken u true :=
      wake_head? socket.woken [u]
    simp [St.notify, Listeners.notify, hwake]

theorem dropListener_eq (s : St) (t : ℕ) :
    s.dropListener t =
      { s with
        listeners := (Listeners.drop ⟨s.listeners, s.notified⟩ t).1.waiting
        notified := (Listeners.drop ⟨s.listeners, s.notified⟩ t).1.notified
        woken := wake s.woken (Listeners.drop ⟨s.listeners, s.notified⟩ t).2 } := by
  unfold St.dropListener Listeners.drop
  split
  · exact notify_eq _
  · simp

theorem listen_eq (s : St) (t : ℕ) :
    s.listen t =
      { s with
        listeners := (Listeners.pending ⟨s.listeners, s.notified⟩ t).waiting
        notified := (Listeners.pending ⟨s.listeners, s.notified⟩ t).notified } := by
  unfold St.listen Listeners.pending
  split <;> rfl

theorem view_dropRecv (hR : R.OwnListeners listeners) (s : AsyncStdSocket.St κ) (t : ℕ) :
    view listeners (s.dropRecv R t) = (view listeners s).dropListener t := by
  rw [dropListener_eq]
  simp only [view, AsyncStdSocket.St.dropRecv, hR.view_drop, hR.drop_wakes]

theorem view_pollRecv (hR : R.OwnListeners listeners) (s : AsyncStdSocket.St κ) (t : ℕ)
    (waits : Reader) :
    view listeners (s.pollRecv R t waits) = (view listeners s).recv t waits := by
  have hready : (view listeners s).ready = s.ready := rfl
  unfold AsyncStdSocket.St.pollRecv St.recv
  rw [hready]
  cases s.ready with
  | some result => exact view_dropRecv hR _ t
  | none =>
      simp only [listen_eq, view, hR.pending]

theorem view_update (hR : R.OwnListeners listeners) (l : AsyncStdSocket.Lbl)
    (s : AsyncStdSocket.St κ) :
    view listeners (AsyncStdSocket.update R l s) = update l (view listeners s) := by
  cases l with
  | push packet =>
      simp only [update, notify_eq, view, AsyncStdSocket.update, hR.view_push, hR.push_wakes]
  | close =>
      simp only [update, view, AsyncStdSocket.update, hR.view_close, hR.close_wakes,
        Listeners.close]
      rfl
  | poll t => exact view_pollRecv hR _ t _
  | recv t => exact view_pollRecv hR _ t _
  | dropRecv t => exact view_dropRecv hR { s with reader := _ } t
  | cancel t => exact view_dropRecv hR { s with reader := _ } t
  | abandon t => rfl

/-- The socket whose channel has a listener for every future is known by its view. -/
theorem projects (hR : R.OwnListeners listeners) (capacity : ℕ) (polls awaits : ℕ → Prop) :
    Lts.Projects (AsyncStdSocket.socket R capacity polls awaits) (socket capacity polls awaits)
      (view listeners) := by
  have hfree : Lts.Projects
      ⟨.initial R, fun l s => AsyncStdSocket.guard capacity l s.toSocket, AsyncStdSocket.update R⟩
      ⟨.initial, fun l s => AsyncStdSocket.guard capacity l s.toSocket, update⟩
      (view listeners) := by
    refine ⟨?_, fun l s => Iff.rfl, view_update hR⟩
    simp only [view, AsyncStdSocket.St.initial, St.initial, hR.new]
  exact hfree.restrict (AsyncStdSocket.Lbl.Allowed polls awaits)

end AsyncStdView

/-! ## When a socket can stall -/

section Stalls

variable {Λ κ κ' : Type} {M : Mutex Λ} {R : Wakers κ} {R' : Wakers κ'}
  {line : Λ → List ℕ} {waker : κ → Option ℕ} {listeners : κ' → Listeners}

theorem tokio_stalls_iff (hM : M.Fair line) (hR : R.KeepsLast waker) {capacity : ℕ}
    (hcap : 0 < capacity) (polls awaits : ℕ → Prop) :
    (∃ s, (TokioSocket.socket M R capacity polls awaits).Reachable s ∧ s.Stalled) ↔
      ∃ t u, t ≠ u ∧ polls t ∧ (polls u ∨ awaits u) := by
  have packet : RoutedPacket := ⟨[], .v4 (Vector.replicate 4 0) 0⟩
  refine ((TokioView.projects hM hR capacity polls awaits).exists_iff
    fun s => s.toSocket.Stalled).trans ⟨?_, ?_⟩
  · rintro ⟨s, hs, hstalled⟩
    by_contra hnone
    refine TokioView.not_stalled ?_ hs hstalled
    intro t u ht hu
    by_contra hne
    exact hnone ⟨t, u, fun htu => hne htu.symm, ht, hu⟩
  · rintro ⟨t, u, hne, ht, hu | hu⟩
    · exact TokioView.stalls_of_polls hcap packet hne ht hu
    · exact TokioView.stalls_of_awaits hcap packet hne ht hu

theorem asyncStd_stalls_iff (hR : R'.OwnListeners listeners) {capacity : ℕ} (hcap : 0 < capacity)
    (polls awaits : ℕ → Prop) :
    (∃ s, (AsyncStdSocket.socket R' capacity polls awaits).Reachable s ∧ s.Stalled) ↔
      ∃ t, polls t := by
  have packet : RoutedPacket := ⟨[], .v4 (Vector.replicate 4 0) 0⟩
  refine ((AsyncStdView.projects hR capacity polls awaits).exists_iff
    fun s => s.toSocket.Stalled).trans ⟨?_, ?_⟩
  · rintro ⟨s, hs, hstalled⟩
    by_contra hnone
    exact AsyncStdView.not_stalled (fun t ht => hnone ⟨t, ht⟩) hs hstalled
  · rintro ⟨t, ht⟩
    exact AsyncStdView.stalls_of_polls hcap packet ht

/-- Some tasks use `poll_recv_from` and some use `recv_from` on the clones of one routed socket,
and any of them can give up. With tokio, if its lock is fair and its channel keeps the waker of
the last pending receive, a wake-up can be lost, so that a packet stays in the channel though a
task waits for it, if and only if one task polls while another one polls or awaits. With
async-std, if its channel has a listener for every pending future, that is so if and only if any
task polls. -/
theorem polled_receive_stalls_iff (hlock : M.Fair line) (hlast : R.KeepsLast waker)
    (hown : R'.OwnListeners listeners) {capacity : ℕ} (hcap : 0 < capacity)
    (polls awaits : ℕ → Prop) :
    ((∃ s, (TokioSocket.socket M R capacity polls awaits).Reachable s ∧ s.Stalled) ↔
      ∃ t u, t ≠ u ∧ polls t ∧ (polls u ∨ awaits u)) ∧
    ((∃ s, (AsyncStdSocket.socket R' capacity polls awaits).Reachable s ∧ s.Stalled) ↔
      ∃ t, polls t) :=
  ⟨tokio_stalls_iff hlock hlast hcap polls awaits, asyncStd_stalls_iff hown hcap polls awaits⟩

end Stalls

/-- A task that polls a socket for itself: with tokio it is always woken, with async-std it need
not be. Together with a task that awaits, with tokio it need not be either. -/
theorem polled_receive_stalls_iff_single :
    (¬ ∃ s, (TokioSocket.socket .line .last 1 (· = 0) fun _ => False).Reachable s ∧ s.Stalled) ∧
      (∃ s, (AsyncStdSocket.socket .listeners 1 (· = 0) fun _ => False).Reachable s ∧
        s.Stalled) ∧
      ∃ s, (TokioSocket.socket .line .last 1 (· = 0) (· = 1)).Reachable s ∧ s.Stalled := by
  have h := polled_receive_stalls_iff Mutex.fair_line Wakers.keepsLast_last
    Wakers.ownListeners_listeners Nat.zero_lt_one (· = 0)
  refine ⟨?_, (h fun _ => False).2.mpr ⟨0, rfl⟩,
    (h (· = 1)).1.mpr ⟨0, 1, Nat.zero_ne_one, rfl, Or.inr rfl⟩⟩
  rw [(h fun _ => False).1]
  rintro ⟨t, u, hne, ht, hu | hu⟩
  · exact hne (ht.trans hu.symm)
  · exact hu

end ReusePort.PolledReceive
