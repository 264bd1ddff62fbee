import SteamSalesTray.Lib.Program

/-! A thread beside a process: it takes up one task after another, each of them a program, and the
calls of its tasks act on the state that the calls of the process act on.

The thread is part of the environment of the process: `Thread.beside` is the process with it.  From
the side of the thread it is the process that interferes, and `Thread.among` is the contract of a
task under a relation that says what can happen between two of its calls. -/

namespace Interaction

variable {Op Op' : Type} {Ans : Op → Type} {Ans' : Op' → Type} {σ ε ε' ι θ α β : Type}

/-- Whatever the answers, the program makes exactly one call that is a `target`. -/
def Program.Once (target : Op → Prop) : Program Op Ans α → Prop
  | .ret _ => False
  | .call op next =>
    (target op ∧ ∀ answer, (next answer).Every fun op => ¬target op) ∨
      (¬target op ∧ ∀ answer, (next answer).Once target)

theorem Program.Every.once_bind {target : Op → Prop} {p : Program Op Ans α}
    {f : α → Program Op Ans β} (hp : p.Every fun op => ¬target op)
    (hf : ∀ value, (f value).Once target) : (p >>= f).Once target := by
  induction p with
  | ret value => exact hf value
  | call op next ih => exact .inr ⟨hp.1, fun answer => ih answer (hp.2 answer)⟩

/-- How the calls of a thread are executed, and what becomes of the state when it takes up a task,
with the program of that task; `none` is a task that cannot be taken up there. -/
structure Thread (Op : Type) (Ans : Op → Type) (σ ε θ : Type) where
  exec : (op : Op) → ε → σ → Ans op × σ
  begins : θ → σ → Option (σ × Program Op Ans Unit)

/-- A state, and what is left of the task of a thread. -/
structure Shared (Op : Type) (Ans : Op → Type) (σ : Type) where
  state : σ
  rest : Program Op Ans Unit

/-- The thread has no task. -/
def Shared.Waits (s : Shared Op Ans σ) : Prop :=
  match s.rest with
  | .ret _ => True
  | .call _ _ => False

instance (s : Shared Op Ans σ) : Decidable s.Waits :=
  match h : s.rest with
  | .ret _ => .isTrue (by simp [Shared.Waits, h])
  | .call _ _ => .isFalse (by simp [Shared.Waits, h])

inductive ThreadMove (ι θ ε : Type) where
  | act (move : ι)
  | begins (task : θ)
  | call (reply : ε)

/-- Some tasks are taken up and some replies given, with any moves of the environment. -/
def ThreadMove.Allowed (tasks : θ → Prop) (replies : ε → Prop) : ThreadMove ι θ ε → Prop
  | .act _ => True
  | .begins task => tasks task
  | .call reply => replies reply

namespace Thread

variable (N : Thread Op' Ans' σ ε' θ)

/-- The thread takes up a task when it waits for one, and makes its next call when it does not. -/
def act (M : Machine Op Ans σ ε ι) (move : ThreadMove ι θ ε') (s : Shared Op' Ans' σ) :
    Shared Op' Ans' σ :=
  match move, s.rest with
  | .act move, _ => { s with state := M.act move s.state }
  | .begins task, .ret _ =>
    match N.begins task s.state with
    | some (state, rest) => ⟨state, rest⟩
    | none => s
  | .call reply, .call op next =>
    ⟨(N.exec op reply s.state).2, next (N.exec op reply s.state).1⟩
  | _, _ => s

/-- The process with the thread beside it.  A kill ends both. -/
def beside (M : Machine Op Ans σ ε ι) :
    Machine Op Ans (Shared Op' Ans' σ) ε (ThreadMove ι θ ε') where
  exec op reply s :=
    ((M.exec op reply s.state).1, { s with state := (M.exec op reply s.state).2 })
  act := N.act M
  crash s := ⟨M.crash s.state, .ret ()⟩

/-- What a move of the thread can do: a move of the environment, a task that is taken up, a call of
a task, or nothing. -/
theorem act_cases {motive : Shared Op' Ans' σ → Prop} (M : Machine Op Ans σ ε ι)
    (move : ThreadMove ι θ ε') (s : Shared Op' Ans' σ) (nothing : motive s)
    (acts : ∀ m, move = .act m → motive ⟨M.act m s.state, s.rest⟩)
    (begins : ∀ task state rest, move = .begins task → s.rest = .ret () →
      N.begins task s.state = some (state, rest) → motive ⟨state, rest⟩)
    (calls : ∀ reply op next, move = .call reply → s.rest = .call op next →
      motive ⟨(N.exec op reply s.state).2, next (N.exec op reply s.state).1⟩) :
    motive (N.act M move s) := by
  obtain ⟨state, rest⟩ := s
  cases move with
  | act m => exact acts m rfl
  | begins task =>
    cases rest with
    | call op next => exact nothing
    | ret value =>
      show motive (match N.begins task state with
        | some (state, rest) => ⟨state, rest⟩
        | none => ⟨state, .ret value⟩)
      cases hbegins : N.begins task state with
      | none => exact nothing
      | some begun => exact begins task begun.1 begun.2 rfl rfl hbegins
  | call reply =>
    cases rest with
    | ret value => exact nothing
    | call op next => exact calls reply op next rfl rfl

/-! ### A task among the moves of others -/

section Among

variable {rely : σ → σ → Prop} {replies : ε' → σ → Prop} {I : σ → Prop}

/-- The tasks of the thread, while anything can happen that is in `rely`; what happens is said by
the state after it. -/
def among (replies : ε' → σ → Prop) (hI : ∀ s s', rely s s' → I s → I s') :
    Contract Op' Ans' σ ε' σ where
  machine := ⟨N.exec, fun after _ => after, id⟩
  rules := ⟨fun _ => True, fun _ reply s => replies reply s, fun after s => rely s after,
    fun _ => True⟩
  inv := I
  inv_act after s := hI s after

variable {N} {hI : ∀ s s', rely s s' → I s → I s'} {J : σ → Prop}

theorem moves_of_rely {s s' : σ} (h : rely s s') : (N.among replies hI).Moves s s' :=
  Relation.ReflTransGen.single ⟨s', h, rfl⟩

variable (N) in
/-- What the process does is relied on, and each task keeps `I` and comes to `J` again. -/
structure Guards (M : Machine Op Ans σ ε ι) (R : Rules Op (Shared Op' Ans' σ) ε (ThreadMove ι θ ε'))
    (replies : ε' → σ → Prop) (hI : ∀ s s', rely s s' → I s → I s') (J : σ → Prop) : Prop where
  exec : ∀ op reply s, R.call op reply s → I s.state → rely s.state (M.exec op reply s.state).2
  act : ∀ move s, R.act (.act move) s → I s.state → rely s.state (M.act move s.state)
  begins : ∀ task s state rest, R.act (.begins task) s → I s.state → J s.state →
    N.begins task s.state = some (state, rest) →
      I state ∧ (N.among replies hI).Safe (fun _ => J) rest state
  call : ∀ reply s, R.act (.call reply) s → replies reply s.state
  crash : ∀ s, R.kill s → I s.state → I (M.crash s.state) ∧
    (N.among replies hI).Safe (fun _ : Unit => J) (.ret ()) (M.crash s.state)

variable (N) in
/-- The state is in `I`, and what is left of the task comes to `J`. -/
structure Guarded (replies : ε' → σ → Prop) (hI : ∀ s s', rely s s' → I s → I s') (J : σ → Prop)
    (s : Shared Op' Ans' σ) : Prop where
  state : I s.state
  rest : (N.among replies hI).Safe (fun _ => J) s.rest s.state

theorem Guarded.of_waits {s : Shared Op' Ans' σ} (h : N.Guarded replies hI J s)
    (hwaits : s.Waits) : J s.state := by
  obtain ⟨state, rest⟩ := s
  cases rest with
  | ret value => exact h.rest state Relation.ReflTransGen.refl
  | call op next => exact hwaits.elim

namespace Guards

variable {M : Machine Op Ans σ ε ι} {R : Rules Op (Shared Op' Ans' σ) ε (ThreadMove ι θ ε')}
  (h : N.Guards M R replies hI J)
include h

theorem kept_exec {op : Op} {reply : ε} {s : Shared Op' Ans' σ} (hcall : R.call op reply s)
    (hs : N.Guarded replies hI J s) :
    N.Guarded replies hI J ((N.beside M).exec op reply s).2 := by
  have hrely := h.exec op reply s hcall hs.state
  exact ⟨hI _ _ hrely hs.state, hs.rest.moves (moves_of_rely hrely)⟩

theorem kept_act {move : ThreadMove ι θ ε'} {s : Shared Op' Ans' σ} (hmove : R.act move s)
    (hs : N.Guarded replies hI J s) : N.Guarded replies hI J (N.act M move s) := by
  refine N.act_cases M move s hs ?_ ?_ ?_
  · rintro m rfl
    have hrely := h.act m s hmove hs.state
    exact ⟨hI _ _ hrely hs.state, hs.rest.moves (moves_of_rely hrely)⟩
  · rintro task state rest rfl hrest hbegins
    have hJ : J s.state := hs.of_waits (by simp [Shared.Waits, hrest])
    obtain ⟨hafter, hsafe⟩ := h.begins task s state rest hmove hs.state hJ hbegins
    exact ⟨hafter, hsafe⟩
  · rintro reply op next rfl hrest
    have hsafe := hs.rest
    rw [hrest] at hsafe
    obtain ⟨hafter, hnext⟩ :=
      hsafe s.state Relation.ReflTransGen.refl reply (h.call reply s hmove)
    exact ⟨hafter, hnext⟩

theorem kept_crash {s : Shared Op' Ans' σ} (hkill : R.kill s) (hs : N.Guarded replies hI J s) :
    N.Guarded replies hI J ((N.beside M).crash s) :=
  ⟨(h.crash s hkill hs.state).1, (h.crash s hkill hs.state).2⟩

/-- Beside the process, whatever that does, `I` holds in every state of every run, and `J` wherever
the thread waits. -/
theorem run {main : Program Op Ans α} {c : Config Op Ans (Shared Op' Ans' σ) α}
    (hc : N.Guarded replies hI J c.state) {es : List (Event ε (ThreadMove ι θ ε'))}
    (hes : R.Admitted (N.beside M) main c es) :
    N.Guarded replies hI J ((N.beside M).run main c es).state :=
  hes.invariant (fun _ _ _ hcall hs => h.kept_exec hcall hs)
    (fun _ _ hmove hs => h.kept_act hmove hs) (fun _ hkill hs => h.kept_crash hkill hs) hc

end Guards

end Among

/-! ### A task alone -/

theorem alone_keeps (s s' : σ) (h : (fun _ _ : σ => False) s s') (_ : (fun _ : σ => True) s) :
    (fun _ : σ => True) s' := h.elim

/-- The thread while nothing else happens. -/
def alone (replies : ε' → Prop) : Contract Op' Ans' σ ε' σ :=
  N.among (fun reply _ => replies reply) alone_keeps

section Alone

variable {N} {replies : ε' → Prop} {R : σ → σ → Prop} {fresh due : σ → Prop}

theorem alone_stable (P : σ → Prop) : (N.alone replies).Stable P := fun _ _ h => h.elim

theorem alone_moves {s s' : σ} (h : (N.alone replies).Moves s s') : s' = s := by
  induction h with
  | refl => rfl
  | tail _ hstep _ =>
    obtain ⟨after, hrely, -⟩ := hstep
    exact hrely.elim

/-- A task that is at its end leads to what holds already. -/
theorem safe_ret {value : α} {Q : α → σ → Prop} {s : σ} :
    (N.alone replies).Safe Q (.ret value) s ↔ Q value s :=
  ⟨fun h => h s Relation.ReflTransGen.refl, fun h _ hmoves => alone_moves hmoves ▸ h⟩

theorem safe_call {op : Op'} {next : Ans' op → Program Op' Ans' α} {Q : α → σ → Prop} {s : σ} :
    (N.alone replies).Safe Q (.call op next) s ↔ ∀ reply, replies reply →
      (N.alone replies).Safe Q (next (N.exec op reply s).1) (N.exec op reply s).2 := by
  constructor
  · intro h reply hreply
    exact (h s Relation.ReflTransGen.refl reply hreply).2
  · intro h s' hmoves reply hreply
    obtain rfl := alone_moves hmoves
    exact ⟨trivial, h reply hreply⟩

theorem spec_perform {op : Op'} {P : σ → Prop} {Q : Ans' op → σ → Prop}
    (h : ∀ s reply, P s → replies reply → Q (N.exec op reply s).1 (N.exec op reply s).2) :
    (N.alone replies).Spec P (.perform op) Q :=
  Contract.Spec.perform (alone_stable P) (fun answer => alone_stable (Q answer))
    fun s reply _ hP hreply => ⟨trivial, h s reply hP hreply⟩

variable (N) in
/-- Related states answer every call alike and stay related. -/
def Agrees (R : σ → σ → Prop) : Prop :=
  ∀ op reply s s', R s s' → (N.exec op reply s).1 = (N.exec op reply s').1 ∧
    R (N.exec op reply s).2 (N.exec op reply s').2

/-- States that a task cannot tell apart are states that it leads on from alike. -/
theorem safe_related (hR : N.Agrees R) {Q : α → σ → Prop}
    (hQ : ∀ value s s', R s s' → Q value s → Q value s') {p : Program Op' Ans' α} {s s' : σ}
    (h : R s s') (hp : (N.alone replies).Safe Q p s) : (N.alone replies).Safe Q p s' := by
  induction p generalizing s s' with
  | ret value => exact safe_ret.mpr (hQ value s s' h (safe_ret.mp hp))
  | call op next ih =>
    refine safe_call.mpr fun reply hreply => ?_
    obtain ⟨hanswer, hafter⟩ := hR op reply s s' h
    have hnext := safe_call.mp hp reply hreply
    have hrest := ih _ hafter hnext
    exact hanswer ▸ hrest

variable (N) in
/-- A task that leads to `fresh` is due, or what is left of the present one does. -/
def Settled (replies : ε' → Prop) (due fresh : σ → Prop) (s : Shared Op' Ans' σ) : Prop :=
  due s.state ∨ (N.alone replies).Safe (fun _ => fresh) s.rest s.state

theorem Settled.fresh_of_waits {s : Shared Op' Ans' σ} (h : N.Settled replies due fresh s)
    (hwaits : s.Waits) (hdue : ¬due s.state) : fresh s.state := by
  obtain ⟨state, rest⟩ := s
  have hsafe := h.resolve_left hdue
  cases rest with
  | ret value => exact safe_ret.mp hsafe
  | call op next => exact hwaits.elim

variable (N) in
/-- The tasks come to `fresh` where they are taken up in a state that is so or where a task is due,
calls leave due what is due, and the environment changes nothing that matters to a task. -/
structure Settles (M : Machine Op Ans σ ε ι) (tasks : θ → Prop) (replies : ε' → Prop)
    (due fresh : σ → Prop) (R : σ → σ → Prop) : Prop where
  agrees : N.Agrees R
  fresh_related : ∀ s s', R s s' → fresh s → fresh s'
  act_related : ∀ move s, R s (M.act move s)
  act_due : ∀ move s, due s → due (M.act move s)
  call_due : ∀ op reply s, replies reply → due s → due (N.exec op reply s).2
  begins : ∀ task s state rest, tasks task → N.begins task s = some (state, rest) →
    due s ∨ fresh s → due state ∨ (N.alone replies).Safe (fun _ => fresh) rest state

theorem Settles.act {M : Machine Op Ans σ ε ι} {tasks : θ → Prop}
    (h : N.Settles M tasks replies due fresh R) {move : ThreadMove ι θ ε'}
    (hmove : move.Allowed tasks replies) {s : Shared Op' Ans' σ}
    (hs : N.Settled replies due fresh s) : N.Settled replies due fresh (N.act M move s) := by
  refine N.act_cases M move s hs (fun m _ => ?_) ?_ ?_
  · refine hs.imp (h.act_due m s.state) fun hsafe => ?_
    exact safe_related h.agrees (fun _ => h.fresh_related) (h.act_related m s.state) hsafe
  · rintro task state rest rfl hrest hbegins
    refine h.begins task s.state state rest hmove hbegins (hs.imp_right fun hsafe => ?_)
    rw [hrest] at hsafe
    exact safe_ret.mp hsafe
  · rintro reply op next rfl hrest
    refine hs.imp (h.call_due op reply s.state hmove) fun hsafe => ?_
    rw [hrest] at hsafe
    exact safe_call.mp hsafe reply hmove

end Alone

end Thread

end Interaction
