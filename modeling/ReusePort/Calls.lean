import Mathlib.Data.List.Basic

/-!
# ReusePort.Calls — programs that call their environment

A sequential program that asks its environment for everything it does not compute
itself: each call gets a reply, whose type depends on the call, and changes the state of
the environment. Nothing is assumed of that state, so a theorem over every `Env` holds
for any interleaving of what else happens there. The calls made and the replies got are
kept in a log, for statements about what a program has asked and in which order.

* `Prog` — programs that return a value or an error, or have not returned yet;
* `Prog.exec_bind_ok`, `Prog.exec_bind_error` — running a program forwards, step by step;
* `Prog.exec_bind_eq_ok`, `Prog.exec_mapM_induct`, `Prog.exec_forM_eq_ok` — what a
  successful run consists of;
* `Prog.Keeps` — the parts of the state that a program leaves alone;
* `Prog.Within` — programs that return, whatever the replies, with a bound on their calls.
-/

namespace Calls

/-- An environment: the reply to a call and the state it leaves, for every state. -/
structure Env {C : Type} (R : C → Type) (ω : Type) where
  answer : (c : C) → ω → R c × ω

/-- A call and the reply it got. -/
structure Event {C : Type} (R : C → Type) where
  call : C
  reply : R call

/-- The state of the environment and the calls made so far, oldest first. -/
structure State {C : Type} (R : C → Type) (ω : Type) where
  env : ω
  log : List (Event R)

/-- A program that returns an `α` or fails with an `ε`. Loops without a bound of their own
run on fuel; `none` is a run that has not returned within it. -/
abbrev Prog {C : Type} (R : C → Type) (ω ε α : Type) : Type :=
  ExceptT ε (StateT (State R ω) Option) α

namespace Prog

variable {C : Type} {R : C → Type} {ω ε δ α β : Type} {s t u : State R ω}

/-- The run of a program from a state. -/
def exec (x : Prog R ω ε α) (s : State R ω) : Option (Except ε α × State R ω) :=
  x.run.run s

/-- Ask the environment. -/
def call (env : Env R ω) (c : C) : Prog R ω ε (R c) := fun s =>
  some (.ok (env.answer c s.env).1,
    ⟨(env.answer c s.env).2, s.log ++ [⟨c, (env.answer c s.env).1⟩]⟩)

/-- A run that does not return. -/
def diverge : Prog R ω ε α := fun _ => none

/-- A result as a program: its value, or its error converted. -/
def ofResult (convert : δ → ε) : Except δ α → Prog R ω ε α
  | .ok a => pure a
  | .error e => throw (convert e)

/-- The result of `x` as a value; its failure is no failure of the whole. -/
def attempt (x : Prog R ω δ α) : Prog R ω ε (Except δ α) := fun s =>
  (x.exec s).map fun p => (.ok p.1, p.2)

/-! ## Running forwards -/

@[simp] theorem exec_pure (a : α) (s : State R ω) :
    (pure a : Prog R ω ε α).exec s = some (.ok a, s) := rfl

@[simp] theorem exec_throw (e : ε) (s : State R ω) :
    (throw e : Prog R ω ε α).exec s = some (.error e, s) := rfl

@[simp] theorem exec_diverge (s : State R ω) : (diverge : Prog R ω ε α).exec s = none := rfl

theorem exec_call (env : Env R ω) (c : C) (s : State R ω) :
    (call env c : Prog R ω ε (R c)).exec s =
      some (.ok (env.answer c s.env).1,
        ⟨(env.answer c s.env).2, s.log ++ [⟨c, (env.answer c s.env).1⟩]⟩) := rfl

theorem exec_bind (x : Prog R ω ε α) (f : α → Prog R ω ε β) (s : State R ω) :
    (x >>= f).exec s =
      match x.exec s with
      | some (.ok a, t) => (f a).exec t
      | some (.error e, t) => some (.error e, t)
      | none => none := by
  show (x s).bind _ = match x s with
    | some (.ok a, t) => (f a).exec t
    | some (.error e, t) => some (.error e, t)
    | none => none
  cases x s with
  | none => rfl
  | some p => rcases p with ⟨_ | _, _⟩ <;> rfl

theorem exec_bind_ok {x : Prog R ω ε α} {f : α → Prog R ω ε β} {a : α}
    (h : x.exec s = some (.ok a, t)) : (x >>= f).exec s = (f a).exec t := by
  rw [exec_bind, h]

theorem exec_bind_error {x : Prog R ω ε α} {f : α → Prog R ω ε β} {e : ε}
    (h : x.exec s = some (.error e, t)) : (x >>= f).exec s = some (.error e, t) := by
  rw [exec_bind, h]

theorem exec_bind_call (env : Env R ω) (c : C) (f : R c → Prog R ω ε β) (s : State R ω) :
    (call env c >>= f).exec s = (f (env.answer c s.env).1).exec
      ⟨(env.answer c s.env).2, s.log ++ [⟨c, (env.answer c s.env).1⟩]⟩ :=
  exec_bind_ok (exec_call env c s)

theorem exec_attempt {x : Prog R ω δ α} {r : Except δ α} (h : x.exec s = some (r, t)) :
    (attempt x : Prog R ω ε (Except δ α)).exec s = some (.ok r, t) := by
  show (x.exec s).map _ = _
  rw [h]
  rfl

/-! ## Successful runs -/

theorem exec_bind_eq_ok {x : Prog R ω ε α} {f : α → Prog R ω ε β} {b : β} :
    (x >>= f).exec s = some (.ok b, u) ↔
      ∃ a t, x.exec s = some (.ok a, t) ∧ (f a).exec t = some (.ok b, u) := by
  rw [exec_bind]
  constructor
  · intro h
    cases hx : x.exec s with
    | none => simp [hx] at h
    | some p =>
        rcases p with ⟨_ | a, t⟩
        · simp [hx] at h
        · rw [hx] at h
          exact ⟨a, t, rfl, h⟩
  · rintro ⟨a, t, hx, hf⟩
    rw [hx]
    exact hf

theorem exec_attempt_eq {x : Prog R ω δ α} {q : Except ε (Except δ α)} :
    (attempt x : Prog R ω ε (Except δ α)).exec s = some (q, t) ↔
      ∃ r, q = .ok r ∧ x.exec s = some (r, t) := by
  show (x.exec s).map _ = _ ↔ _
  cases x.exec s with
  | none => simp
  | some p =>
      obtain ⟨r, t'⟩ := p
      simp only [Option.map_some, Option.some.injEq, Prod.mk.injEq]
      constructor
      · rintro ⟨rfl, rfl⟩
        exact ⟨r, rfl, rfl, rfl⟩
      · rintro ⟨_, rfl, rfl, rfl⟩
        exact ⟨rfl, rfl⟩

theorem exec_ofResult_eq_ok {convert : δ → ε} {r : Except δ α} {a : α} :
    (ofResult convert r : Prog R ω ε α).exec s = some (.ok a, t) ↔ r = .ok a ∧ s = t := by
  cases r with
  | ok b => simp [ofResult]
  | error e => simp [ofResult]

/-- Induction over a successful `mapM`: what holds of the values found so far and the
current state, and survives every further element, holds at the end. -/
theorem exec_mapM_induct {f : β → Prog R ω ε α} {motive : List α → State R ω → Prop}
    {as : List α} (bs : List β)
    (hstep : ∀ as b a s t, motive as s → (f b).exec s = some (.ok a, t) → motive (as ++ [a]) t)
    (hnil : motive [] s) (h : (bs.mapM f).exec s = some (.ok as, t)) :
    as.length = bs.length ∧ motive as t := by
  suffices hgen : ∀ found, motive found s → as.length = bs.length ∧ motive (found ++ as) t
    from hgen [] hnil
  clear hnil
  induction bs generalizing as s with
  | nil =>
      intro found hfound
      rw [List.mapM_nil, exec_pure] at h
      cases h
      exact ⟨rfl, by rwa [List.append_nil]⟩
  | cons b bs ih =>
      intro found hfound
      rw [List.mapM_cons, exec_bind_eq_ok] at h
      obtain ⟨a, s₁, hhead, h⟩ := h
      rw [exec_bind_eq_ok] at h
      obtain ⟨as', s₂, htail, h⟩ := h
      rw [exec_pure] at h
      cases h
      obtain ⟨hlen, hend⟩ := ih htail (found ++ [a]) (hstep found b a s s₁ hfound hhead)
      exact ⟨by rw [List.length_cons, hlen, List.length_cons], by rwa [List.append_cons]⟩

/-- The same forwards: if every element succeeds, the whole does. -/
theorem exec_mapM_of_ok {f : β → Prog R ω ε α} {motive : List α → State R ω → Prop}
    (bs : List β)
    (hstep : ∀ as b s, motive as s →
      ∃ a t, (f b).exec s = some (.ok a, t) ∧ motive (as ++ [a]) t)
    (hnil : motive [] s) :
    ∃ as t, (bs.mapM f).exec s = some (.ok as, t) ∧ as.length = bs.length ∧ motive as t := by
  suffices hgen : ∀ found, motive found s → ∃ as t, (bs.mapM f).exec s = some (.ok as, t) ∧
      as.length = bs.length ∧ motive (found ++ as) t from hgen [] hnil
  clear hnil
  induction bs generalizing s with
  | nil =>
      intro found hfound
      exact ⟨[], s, rfl, rfl, by rwa [List.append_nil]⟩
  | cons b bs ih =>
      intro found hfound
      obtain ⟨a, s₁, hhead, hmotive⟩ := hstep found b s hfound
      obtain ⟨as, t, htail, hlen, hend⟩ := ih (found ++ [a]) hmotive
      refine ⟨a :: as, t, ?_, by rw [List.length_cons, hlen, List.length_cons], ?_⟩
      · rw [List.mapM_cons, exec_bind_ok hhead, exec_bind_ok htail]
        rfl
      · rwa [List.append_cons]

/-- What a loop has done: if every pass adds `g b` to the observed list `obs`, the loop
adds them one after the other. -/
theorem exec_forM_eq_ok {γ : Type} {obs : State R ω → List γ} {f : β → Prog R ω ε PUnit}
    {g : β → List γ} (bs : List β)
    (hpass : ∀ b ∈ bs, ∀ s t, (f b).exec s = some (.ok ⟨⟩, t) → obs t = obs s ++ g b)
    (h : (forM bs f).exec s = some (.ok ⟨⟩, t)) : obs t = obs s ++ bs.flatMap g := by
  induction bs generalizing s with
  | nil =>
      rw [List.forM_nil, exec_pure] at h
      cases h
      simp
  | cons b bs ih =>
      rw [List.forM_cons, exec_bind_eq_ok] at h
      obtain ⟨_, s₁, hhead, htail⟩ := h
      have hrest := ih (fun b' hb' => hpass b' (List.mem_cons_of_mem b hb')) htail
      rw [hrest, hpass b (List.mem_cons_self ..) s s₁ hhead, List.flatMap_cons,
        List.append_assoc]

/-- A loop whose passes succeed or fail as `good` says, as long as `P` holds between
them: it succeeds if all are good, and fails at the first that is not. -/
theorem exec_forM_cases {f : β → Prog R ω ε PUnit} {P : State R ω → Prop} {good : β → Prop}
    (bs : List β)
    (hok : ∀ b ∈ bs, good b → ∀ s, P s → ∃ t, (f b).exec s = some (.ok ⟨⟩, t) ∧ P t)
    (herror : ∀ b ∈ bs, ¬ good b → ∀ s, P s → ∃ e t, (f b).exec s = some (.error e, t))
    (hs : P s) :
    ∃ r t, (forM bs f).exec s = some (r, t) ∧
      ((∀ b ∈ bs, good b) → r = .ok ⟨⟩ ∧ P t) ∧
      ((¬ ∀ b ∈ bs, good b) → ∃ e, r = .error e) := by
  induction bs generalizing s with
  | nil => exact ⟨_, s, rfl, fun _ => ⟨rfl, hs⟩, fun h => absurd (by simp) h⟩
  | cons b bs ih =>
      rw [List.forM_cons]
      by_cases hb : good b
      · obtain ⟨s₁, hhead, hs₁⟩ := hok b (List.mem_cons_self ..) hb s hs
        obtain ⟨r, t, htail, hall, hnot⟩ :=
          ih (fun b' hb' => hok b' (List.mem_cons_of_mem b hb'))
            (fun b' hb' => herror b' (List.mem_cons_of_mem b hb')) hs₁
        refine ⟨r, t, by rw [exec_bind_ok hhead, htail], ?_, ?_⟩
        · intro hgood
          exact hall fun b' hb' => hgood b' (List.mem_cons_of_mem b hb')
        · intro hbad
          apply hnot
          intro hgood
          apply hbad
          intro b' hb'
          rcases List.mem_cons.mp hb' with rfl | hb'
          · exact hb
          · exact hgood b' hb'
      · obtain ⟨e, t, hhead⟩ := herror b (List.mem_cons_self ..) hb s hs
        refine ⟨.error e, t, exec_bind_error hhead, ?_, fun _ => ⟨e, rfl⟩⟩
        intro hgood
        exact absurd (hgood b (List.mem_cons_self ..)) hb

/-! ## What a program leaves alone -/

/-- Whatever `x` returns, it leaves what `f` reads of the state unchanged. -/
def Keeps {γ : Type} (f : State R ω → γ) (x : Prog R ω ε α) : Prop :=
  ∀ s r t, x.exec s = some (r, t) → f t = f s

namespace Keeps

variable {γ : Type} {f : State R ω → γ}

theorem pure (a : α) : Keeps f (Pure.pure a : Prog R ω ε α) := by
  rintro s r t ⟨⟩
  rfl

theorem throw (e : ε) : Keeps f (MonadExcept.throw e : Prog R ω ε α) := by
  rintro s r t ⟨⟩
  rfl

theorem ofResult (convert : δ → ε) (r : Except δ α) :
    Keeps f (Prog.ofResult convert r : Prog R ω ε α) := by
  cases r with
  | ok a => exact pure a
  | error e => exact throw (convert e)

theorem call {env : Env R ω} {c : C}
    (h : ∀ s : State R ω, f ⟨(env.answer c s.env).2,
      s.log ++ [⟨c, (env.answer c s.env).1⟩]⟩ = f s) :
    Keeps f (Prog.call env c : Prog R ω ε (R c)) := by
  rintro s r t ⟨⟩
  exact h s

theorem bind {x : Prog R ω ε α} {g : α → Prog R ω ε β} (hx : Keeps f x)
    (hg : ∀ a, Keeps f (g a)) : Keeps f (x >>= g) := by
  intro s r u h
  rw [exec_bind] at h
  cases hxs : x.exec s with
  | none => simp [hxs] at h
  | some p =>
      rcases p with ⟨e | a, t⟩
      · simp only [hxs, Option.some.injEq, Prod.mk.injEq] at h
        rw [← h.2]
        exact hx s _ t hxs
      · rw [hxs] at h
        rw [hg a t r u h, hx s _ t hxs]

theorem forM {g : β → Prog R ω ε PUnit} (bs : List β) (h : ∀ b, Keeps f (g b)) :
    Keeps f (ForM.forM bs g) := by
  induction bs with
  | nil => exact pure PUnit.unit
  | cons b bs ih =>
      rw [List.forM_cons]
      exact (h b).bind fun _ => ih

end Keeps

/-! ## Programs that return -/

/-- From every state with the property `P`, `x` returns after at most `k` calls, in a state with
`P` again, and if it succeeds then with a value that meets `post`. -/
def Within (P : State R ω → Prop) (x : Prog R ω ε α) (k : ℕ) (post : α → Prop) : Prop :=
  ∀ s, P s → ∃ r t, x.exec s = some (r, t) ∧ t.log.length ≤ s.log.length + k ∧ P t ∧
    ∀ a, r = .ok a → post a

/-- A property of the state that every call keeps. -/
def Stable (env : Env R ω) (P : State R ω → Prop) : Prop :=
  ∀ c s, P s → P ⟨(env.answer c s.env).2, s.log ++ [⟨c, (env.answer c s.env).1⟩]⟩

namespace Within

variable {P : State R ω → Prop} {post : α → Prop} {k m : ℕ}

theorem le {x : Prog R ω ε α} (h : Within P x k post) (hk : k ≤ m) : Within P x m post := by
  intro s hs
  rcases h s hs with ⟨r, t, hexec, hlen, ht, hr⟩
  exact ⟨r, t, hexec, by omega, ht, hr⟩

theorem pure {a : α} (h : post a) : Within P (Pure.pure a : Prog R ω ε α) k post := by
  intro s hs
  refine ⟨.ok a, s, rfl, by omega, hs, ?_⟩
  rintro _ ⟨⟩
  exact h

theorem throw (e : ε) : Within P (MonadExcept.throw e : Prog R ω ε α) k post := by
  intro s hs
  exact ⟨.error e, s, rfl, by omega, hs, by rintro _ ⟨⟩⟩

theorem ofResult (convert : δ → ε) (r : Except δ α) :
    Within P (Prog.ofResult convert r : Prog R ω ε α) k fun _ => True := by
  cases r with
  | ok a => exact pure trivial
  | error e => exact throw (convert e)

theorem bind {x : Prog R ω ε α} {g : α → Prog R ω ε β} {post' : β → Prop}
    (hx : Within P x k post) (hg : ∀ a, post a → Within P (g a) m post') :
    Within P (x >>= g) (m + k) post' := by
  intro s hs
  rcases hx s hs with ⟨e | a, t, hexec, hlen, ht, hr⟩
  · exact ⟨.error e, t, exec_bind_error hexec, by omega, ht, by rintro _ ⟨⟩⟩
  · rcases hg a (hr a rfl) t ht with ⟨r, u, hexec', hlen', hu, hr'⟩
    exact ⟨r, u, (exec_bind_ok hexec).trans hexec', by omega, hu, hr'⟩

theorem call_bind {env : Env R ω} (hP : Stable env P) {c : C} {g : R c → Prog R ω ε α}
    (hg : ∀ reply, Within P (g reply) k post) :
    Within P (Prog.call env c >>= g) (k + 1) post := by
  intro s hs
  rcases hg _ _ (hP c s hs) with ⟨r, t, hexec, hlen, ht, hr⟩
  refine ⟨r, t, (exec_bind_call env c g s).trans hexec, ?_, ht, hr⟩
  simp only [List.length_append, List.length_singleton] at hlen
  omega

theorem ofResult_bind {convert : δ → ε} {r : Except δ β} {g : β → Prog R ω ε α}
    (hg : ∀ b, Within P (g b) k post) : Within P (Prog.ofResult convert r >>= g) k post :=
  bind (k := 0) (ofResult convert r) fun b _ => hg b

theorem attempt {x : Prog R ω δ α} (hx : Within P x k post) :
    Within P (Prog.attempt x : Prog R ω ε (Except δ α)) k fun r => ∀ a, r = .ok a → post a := by
  intro s hs
  rcases hx s hs with ⟨r, t, hexec, hlen, ht, hr⟩
  refine ⟨.ok r, t, exec_attempt hexec, hlen, ht, ?_⟩
  rintro _ ⟨⟩
  exact hr

theorem forM {g : β → Prog R ω ε PUnit} (bs : List β)
    (h : ∀ b ∈ bs, Within P (g b) k fun _ => True) :
    Within P (ForM.forM bs g) (bs.length * k) fun _ => True := by
  induction bs with
  | nil => exact pure trivial
  | cons b bs ih =>
      rw [List.forM_cons, List.length_cons, Nat.succ_mul]
      exact (h b List.mem_cons_self).bind fun _ _ =>
        ih fun b' hb' => h b' (List.mem_cons_of_mem b hb')

theorem mapM {g : β → Prog R ω ε α} (bs : List β) (h : ∀ b, Within P (g b) k post) :
    Within P (bs.mapM g) (bs.length * k) fun as => as.length = bs.length := by
  induction bs with
  | nil =>
      rw [List.mapM_nil]
      exact pure rfl
  | cons b bs ih =>
      rw [List.mapM_cons, List.length_cons, Nat.succ_mul]
      refine (h b).bind fun a _ => (ih.bind fun as has => pure (k := 0) ?_).le
        (Nat.le_of_eq (Nat.zero_add _))
      rw [List.length_cons, has]

end Within

end Prog

end Calls
