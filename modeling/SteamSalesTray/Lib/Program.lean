import Mathlib.Logic.Relation

/-! Programs that call an environment and go on with its answers, the runs of a process that
executes such a program over and over, and rules to prove what holds in every state of a run.

Between two calls the environment may move on its own, and the process may be killed before any
call.  `Contract.sound` turns a proof about one execution of the program into a fact about every
state of every run. -/

namespace Interaction

/-- A program that returns a value, or makes a call and goes on with the answer. -/
inductive Program (Op : Type) (Ans : Op → Type) (α : Type) : Type where
  | ret (value : α)
  | call (op : Op) (next : Ans op → Program Op Ans α)

variable {Op : Type} {Ans : Op → Type} {σ ε ι α β : Type}

namespace Program

def bind : Program Op Ans α → (α → Program Op Ans β) → Program Op Ans β
  | .ret value, f => f value
  | .call op next, f => .call op fun answer => (next answer).bind f

instance : Monad (Program Op Ans) where
  pure := .ret
  bind := bind

def perform (op : Op) : Program Op Ans (Ans op) := .call op .ret

/-- Every call that the program can make, whatever the answers, is `allowed`. -/
def Every (allowed : Op → Prop) : Program Op Ans α → Prop
  | .ret _ => True
  | .call op next => allowed op ∧ ∀ answer, (next answer).Every allowed

theorem Every.bind {allowed : Op → Prop} {p : Program Op Ans α} {f : α → Program Op Ans β}
    (hp : p.Every allowed) (hf : ∀ value, (f value).Every allowed) :
    (p >>= f).Every allowed := by
  induction p with
  | ret value => exact hf value
  | call op next ih => exact ⟨hp.1, fun answer => ih answer (hp.2 answer)⟩

theorem Every.mono {allowed allowed' : Op → Prop} {p : Program Op Ans α} (hp : p.Every allowed)
    (h : ∀ op, allowed op → allowed' op) : p.Every allowed' := by
  induction p with
  | ret value => trivial
  | call op next ih => exact ⟨h op hp.1, fun answer => ih answer (hp.2 answer)⟩

def Returns (R : α → Prop) : Program Op Ans α → Prop
  | .ret value => R value
  | .call _ next => ∀ answer, (next answer).Returns R

theorem Returns.bind {R : α → Prop} {Q : β → Prop} {p : Program Op Ans α}
    {f : α → Program Op Ans β} (hp : p.Returns R) (hf : ∀ value, R value → (f value).Returns Q) :
    (p >>= f).Returns Q := by
  induction p with
  | ret value => exact hf value hp
  | call op next ih => exact fun answer => ih answer (hp answer)

theorem Returns.mono {R Q : α → Prop} {p : Program Op Ans α} (hp : p.Returns R)
    (h : ∀ value, R value → Q value) : p.Returns Q := by
  induction p with
  | ret value => exact h value hp
  | call op next ih => exact fun answer => ih answer (hp answer)

theorem returns_any (p : Program Op Ans α) : p.Returns fun _ => True := by
  induction p with
  | ret value => trivial
  | call op next ih => exact ih

theorem every_of_forall {allowed : Op → Prop} (h : ∀ op, allowed op) (p : Program Op Ans α) :
    p.Every allowed := by
  induction p with
  | ret value => trivial
  | call op next ih => exact ⟨h op, ih⟩

end Program

/-- How calls are executed on a state, given what the environment decides for the call, how the
environment moves on its own, and what a state becomes when the process is killed. -/
structure Machine (Op : Type) (Ans : Op → Type) (σ ε ι : Type) where
  exec : (op : Op) → ε → σ → Ans op × σ
  act : ι → σ → σ
  crash : σ → σ

/-- A state and the rest of the program that the process executes, if it executes one. -/
structure Config (Op : Type) (Ans : Op → Type) (σ α : Type) where
  state : σ
  current : Option (Program Op Ans α)

inductive Event (ε ι : Type) where
  | start
  | call (reply : ε)
  | act (move : ι)
  | kill

namespace Machine

variable (M : Machine Op Ans σ ε ι) (main : Program Op Ans α)

/-- One event.  `start` does nothing while the program runs, and `call` nothing once it has
returned. -/
def step (c : Config Op Ans σ α) : Event ε ι → Config Op Ans σ α
  | .start =>
    match c.current with
    | some (.call _ _) => c
    | _ => { c with current := some main }
  | .call reply =>
    match c.current with
    | some (.call op next) =>
      let result := M.exec op reply c.state
      { state := result.2, current := some (next result.1) }
    | _ => c
  | .act move => { c with state := M.act move c.state }
  | .kill => { state := M.crash c.state, current := none }

def run (c : Config Op Ans σ α) (events : List (Event ε ι)) : Config Op Ans σ α :=
  events.foldl (M.step main) c

@[simp] theorem run_cons (c : Config Op Ans σ α) (e : Event ε ι) (es : List (Event ε ι)) :
    M.run main c (e :: es) = M.run main (M.step main c e) es := rfl

theorem run_append (c : Config Op Ans σ α) (es es' : List (Event ε ι)) :
    M.run main c (es ++ es') = M.run main (M.run main c es) es' := List.foldl_append

end Machine

/-- The process is about to make the call. -/
def Config.Calls (c : Config Op Ans σ α) (op : Op) : Prop :=
  ∃ next, c.current = some (.call op next)

inductive Entry (Op : Type) (Ans : Op → Type) (σ ι : Type) where
  | call (op : Op) (answer : Ans op) (after : σ)
  | act (move : ι) (after : σ)
  | kill (after : σ)

def Entry.after : Entry Op Ans σ ι → σ
  | .call _ _ s | .act _ s | .kill s => s

structure Traced (Op : Type) (Ans : Op → Type) (σ ι : Type) where
  state : σ
  past : List (Entry Op Ans σ ι)

namespace Machine

/-- The machine that keeps a record of its run. -/
def traced (M : Machine Op Ans σ ε ι) : Machine Op Ans (Traced Op Ans σ ι) ε ι where
  exec op reply t :=
    let result := M.exec op reply t.state
    (result.1, ⟨result.2, .call op result.1 result.2 :: t.past⟩)
  act move t := ⟨M.act move t.state, .act move (M.act move t.state) :: t.past⟩
  crash t := ⟨M.crash t.state, .kill (M.crash t.state) :: t.past⟩

def forget (c : Config Op Ans (Traced Op Ans σ ι) α) : Config Op Ans σ α :=
  ⟨c.state.state, c.current⟩

theorem forget_step (M : Machine Op Ans σ ε ι) (main : Program Op Ans α)
    (c : Config Op Ans (Traced Op Ans σ ι) α) (e : Event ε ι) :
    forget (M.traced.step main c e) = M.step main (forget c) e := by
  obtain ⟨t, current⟩ := c
  cases e with
  | start =>
    match current with
    | none => rfl
    | some (.ret _) => rfl
    | some (.call _ _) => rfl
  | call reply =>
    match current with
    | none => rfl
    | some (.ret _) => rfl
    | some (.call _ _) => rfl
  | act move => rfl
  | kill => rfl

theorem forget_run (M : Machine Op Ans σ ε ι) (main : Program Op Ans α)
    (c : Config Op Ans (Traced Op Ans σ ι) α) (es : List (Event ε ι)) :
    forget (M.traced.run main c es) = M.run main (forget c) es := by
  induction es generalizing c with
  | nil => rfl
  | cons e es ih => rw [run_cons, run_cons, ih, forget_step]

end Machine

/-- Related states answer every call alike and stay related. -/
structure Machine.Agrees (M : Machine Op Ans σ ε ι) (R : σ → σ → Prop) : Prop where
  exec : ∀ op reply s s', R s s' → (M.exec op reply s).1 = (M.exec op reply s').1 ∧
    R (M.exec op reply s).2 (M.exec op reply s').2
  act : ∀ move s s', R s s' → R (M.act move s) (M.act move s')
  crash : ∀ s s', R s s' → R (M.crash s) (M.crash s')

/-- The same events from related states, with the same program under way, lead to related states. -/
theorem Machine.Agrees.run {M : Machine Op Ans σ ε ι} {R : σ → σ → Prop} (h : M.Agrees R)
    (main : Program Op Ans α) {s s' : σ} (hs : R s s') (current : Option (Program Op Ans α))
    (es : List (Event ε ι)) :
    R (M.run main ⟨s, current⟩ es).state (M.run main ⟨s', current⟩ es).state := by
  induction es generalizing s s' current with
  | nil => exact hs
  | cons e es ih =>
    cases e with
    | start =>
      rcases current with _ | _ | ⟨op, next⟩
      · exact ih hs (some main)
      · exact ih hs (some main)
      · exact ih hs _
    | call reply =>
      rcases current with _ | _ | ⟨op, next⟩
      · exact ih hs none
      · exact ih hs _
      · obtain ⟨hanswer, hafter⟩ := h.exec op reply s s' hs
        have hrest := ih hafter (some (next (M.exec op reply s).1))
        rw [hanswer] at hrest
        simp only [Machine.run_cons, Machine.step, hanswer]
        exact hrest
    | act move => exact ih (h.act move s s' hs) current
    | kill => exact ih (h.crash s s' hs) none

/-! ### Refinement -/

/-- What the environment does on its own is not counted among the events of the process. -/
def Event.own : Event ε ι → Option (Event ε Empty)
  | .start => some .start
  | .call reply => some (.call reply)
  | .act _ => none
  | .kill => some .kill

/-- `M` does what `N` does: a call of `M` is one of `N`, and a move of the environment of `M` is
some moves of that of `N`. -/
structure Machine.Refines {τ κ : Type} (M : Machine Op Ans σ ε ι) (N : Machine Op Ans τ ε κ)
    (inv : σ → Prop) (abs : σ → τ) : Prop where
  exec : ∀ op reply s, inv s → inv (M.exec op reply s).2 ∧
    (M.exec op reply s).1 = (N.exec op reply (abs s)).1 ∧
      abs (M.exec op reply s).2 = (N.exec op reply (abs s)).2
  act : ∀ move s, inv s → inv (M.act move s) ∧
    ∃ moves : List κ, abs (M.act move s) = moves.foldl (fun t move => N.act move t) (abs s)
  crash : ∀ s, inv s → inv (M.crash s) ∧ abs (M.crash s) = N.crash (abs s)

def Config.map {τ : Type} (abs : σ → τ) (c : Config Op Ans σ α) : Config Op Ans τ α :=
  ⟨abs c.state, c.current⟩

theorem Machine.run_moves {τ κ : Type} (N : Machine Op Ans τ ε κ) (main : Program Op Ans α)
    (c : Config Op Ans τ α) (moves : List κ) :
    N.run main c (moves.map .act) =
      ⟨moves.foldl (fun t move => N.act move t) c.state, c.current⟩ := by
  induction moves generalizing c with
  | nil => rfl
  | cons move moves ih => exact ih _

structure Rules (Op σ ε ι : Type) where
  start : σ → Prop
  call : Op → ε → σ → Prop
  act : ι → σ → Prop
  kill : σ → Prop

def Rules.Admits (R : Rules Op σ ε ι) (c : Config Op Ans σ α) : Event ε ι → Prop
  | .start => R.start c.state
  | .call reply =>
    match c.current with
    | some (.call op _) => R.call op reply c.state
    | _ => True
  | .act move => R.act move c.state
  | .kill => R.kill c.state

/-- Every event of the run is admitted in the state that it happens in. -/
def Rules.Admitted (R : Rules Op σ ε ι) (M : Machine Op Ans σ ε ι) (main : Program Op Ans α) :
    Config Op Ans σ α → List (Event ε ι) → Prop
  | _, [] => True
  | c, e :: es => R.Admits c e ∧ R.Admitted M main (M.step main c e) es

/-- Events that are admitted in any state make an admitted run. -/
theorem Rules.admitted_of_events {R : Rules Op σ ε ι} {es : List (Event ε ι)}
    (h : ∀ e ∈ es, ∀ c : Config Op Ans σ α, R.Admits c e) (M : Machine Op Ans σ ε ι)
    (main : Program Op Ans α) (c : Config Op Ans σ α) : R.Admitted M main c es := by
  induction es generalizing c with
  | nil => trivial
  | cons e es ih =>
    obtain ⟨he, hes⟩ := List.forall_mem_cons.mp h
    exact ⟨he c, ih hes _⟩

theorem Rules.admits_call {R : Rules Op σ ε ι} {reply : ε} (h : ∀ op s, R.call op reply s)
    (c : Config Op Ans σ α) : R.Admits c (.call reply) := by
  obtain ⟨s, current⟩ := c
  rcases current with _ | _ | ⟨op, next⟩
  · trivial
  · trivial
  · exact h op s

/-- Rules that allow everything admit every run. -/
theorem Rules.admitted_of_all {R : Rules Op σ ε ι} (hstart : ∀ s, R.start s)
    (hcall : ∀ op reply s, R.call op reply s) (hact : ∀ move s, R.act move s)
    (hkill : ∀ s, R.kill s) (M : Machine Op Ans σ ε ι) (main : Program Op Ans α)
    (c : Config Op Ans σ α) (es : List (Event ε ι)) : R.Admitted M main c es := by
  refine Rules.admitted_of_events (fun e _ c => ?_) M main c
  cases e with
  | start => exact hstart c.state
  | call reply => exact Rules.admits_call (fun op s => hcall op reply s) c
  | act move => exact hact move c.state
  | kill => exact hkill c.state

/-- The rules that allow everything. -/
def Rules.any : Rules Op σ ε ι := ⟨fun _ => True, fun _ _ _ => True, fun _ _ => True, fun _ => True⟩

theorem Rules.any_admitted (M : Machine Op Ans σ ε ι) (main : Program Op Ans α)
    (c : Config Op Ans σ α) (es : List (Event ε ι)) : Rules.any.Admitted M main c es :=
  Rules.admitted_of_all (fun _ => trivial) (fun _ _ _ => trivial) (fun _ _ => trivial)
    (fun _ => trivial) M main c es

/-- The rules of `N`, said of the states of a machine that refines it.  Moves are not counted. -/
def Rules.comap {τ κ : Type} (R : Rules Op τ ε κ) (abs : σ → τ) : Rules Op σ ε ι where
  start s := R.start (abs s)
  call op reply s := R.call op reply (abs s)
  act _ _ := True
  kill s := R.kill (abs s)

theorem Rules.Admitted.append {R : Rules Op σ ε ι} {M : Machine Op Ans σ ε ι}
    {main : Program Op Ans α} {c : Config Op Ans σ α} {es es' : List (Event ε ι)}
    (h : R.Admitted M main c es) (h' : R.Admitted M main (M.run main c es) es') :
    R.Admitted M main c (es ++ es') := by
  induction es generalizing c with
  | nil => exact h'
  | cons e es ih => exact ⟨h.1, ih h.2 h'⟩

theorem Rules.Admitted.mono {R R' : Rules Op σ ε ι} {M : Machine Op Ans σ ε ι}
    {main : Program Op Ans α} {c : Config Op Ans σ α} {es : List (Event ε ι)}
    (h : ∀ (c : Config Op Ans σ α) e, R.Admits c e → R'.Admits c e)
    (hes : R.Admitted M main c es) : R'.Admitted M main c es := by
  induction es generalizing c with
  | nil => trivial
  | cons e es ih => exact ⟨h c e hes.1, ih hes.2⟩

namespace Machine.Refines

variable {τ κ : Type} {M : Machine Op Ans σ ε ι} {N : Machine Op Ans τ ε κ} {inv : σ → Prop}
  {abs : σ → τ} {R : Rules Op τ ε κ} (h : M.Refines N inv abs) (hact : ∀ move t, R.act move t)
include h hact

theorem step (main : Program Op Ans α) {c : Config Op Ans σ α} (hc : inv c.state)
    {e : Event ε ι} (he : (R.comap abs).Admits c e) :
    inv (M.step main c e).state ∧ ∃ es : List (Event ε κ),
      es.filterMap Event.own = e.own.toList ∧ R.Admitted N main (c.map abs) es ∧
        N.run main (c.map abs) es = (M.step main c e).map abs := by
  obtain ⟨s, current⟩ := c
  cases e with
  | start =>
    rcases current with _ | _ | ⟨op, next⟩ <;> exact ⟨hc, [.start], rfl, ⟨he, trivial⟩, rfl⟩
  | call reply =>
    rcases current with _ | _ | ⟨op, next⟩
    · exact ⟨hc, [.call reply], rfl, ⟨trivial, trivial⟩, rfl⟩
    · exact ⟨hc, [.call reply], rfl, ⟨trivial, trivial⟩, rfl⟩
    · obtain ⟨hinv, hanswer, habs⟩ := h.exec op reply s hc
      refine ⟨hinv, [.call reply], rfl, ⟨he, trivial⟩, ?_⟩
      show (⟨(N.exec op reply (abs s)).2, some (next (N.exec op reply (abs s)).1)⟩ :
        Config Op Ans τ α) = ⟨abs (M.exec op reply s).2, some (next (M.exec op reply s).1)⟩
      rw [hanswer, habs]
  | act move =>
    obtain ⟨hinv, moves, hmoves⟩ := h.act move s hc
    refine ⟨hinv, moves.map .act, ?_, ?_, ?_⟩
    · rw [List.filterMap_map]
      exact List.filterMap_eq_nil_iff.mpr fun _ _ => rfl
    · refine Rules.admitted_of_events (fun e he c => ?_) N main _
      obtain ⟨m, -, rfl⟩ := List.mem_map.mp he
      exact hact m c.state
    · rw [run_moves]
      exact congrArg (Config.mk · current) hmoves.symm
  | kill =>
    obtain ⟨hinv, habs⟩ := h.crash s hc
    exact ⟨hinv, [.kill], rfl, ⟨he, trivial⟩, congrArg (Config.mk · none) habs.symm⟩

/-- For every run of `M` there is one of `N` with the same starts, replies and kills that leads to
the same program in the same abstract state; rules that are kept in one are kept in the other. -/
theorem run (main : Program Op Ans α) {c : Config Op Ans σ α} (hc : inv c.state)
    {es : List (Event ε ι)} (hes : (R.comap abs).Admitted M main c es) :
    inv (M.run main c es).state ∧ ∃ es' : List (Event ε κ),
      es'.filterMap Event.own = es.filterMap Event.own ∧ R.Admitted N main (c.map abs) es' ∧
        N.run main (c.map abs) es' = (M.run main c es).map abs := by
  induction es generalizing c with
  | nil => exact ⟨hc, [], rfl, trivial, rfl⟩
  | cons e es ih =>
    obtain ⟨hstep, first, hown, hadmitted, hfirst⟩ := h.step hact main hc hes.1
    obtain ⟨hrun, rest, hrest, hadmitted', hlast⟩ := ih hstep hes.2
    refine ⟨hrun, first ++ rest, ?_, ?_, ?_⟩
    · rw [List.filterMap_append, hown, hrest, List.filterMap_cons]
      cases e.own <;> rfl
    · exact hadmitted.append (hfirst.symm ▸ hadmitted')
    · rw [run_append, hfirst, hlast, run_cons]

end Machine.Refines

/-- What admitted calls, moves and kills keep holds in every state of a run, whatever the program
is. -/
theorem Rules.Admitted.invariant {R : Rules Op σ ε ι} {M : Machine Op Ans σ ε ι}
    {main : Program Op Ans α} {I : σ → Prop}
    (hexec : ∀ op reply s, R.call op reply s → I s → I (M.exec op reply s).2)
    (hact : ∀ move s, R.act move s → I s → I (M.act move s))
    (hcrash : ∀ s, R.kill s → I s → I (M.crash s))
    {c : Config Op Ans σ α} (hc : I c.state) {es : List (Event ε ι)}
    (hes : R.Admitted M main c es) : I (M.run main c es).state := by
  induction es generalizing c with
  | nil => exact hc
  | cons e es ih =>
    refine ih ?_ hes.2
    have he := hes.1
    obtain ⟨s, current⟩ := c
    cases e with
    | start => rcases current with _ | _ | ⟨op, next⟩ <;> exact hc
    | call reply =>
      rcases current with _ | _ | ⟨op, next⟩
      · exact hc
      · exact hc
      · exact hexec op reply s he hc
    | act move => exact hact move s he hc
    | kill => exact hcrash s he hc

/-- The rules that admit the moves of the environment that `P` holds of. -/
def Rules.moves (P : ι → σ → Prop) : Rules Op σ ε ι where
  start _ := True
  call _ _ _ := True
  act := P
  kill _ := True

/-- A run is admitted if `P` holds of each of its moves where it is made. -/
theorem Rules.moves_admitted {M : Machine Op Ans σ ε ι} {main : Program Op Ans α}
    {P : ι → σ → Prop} {c : Config Op Ans σ α} {es : List (Event ε ι)}
    (h : ∀ before move later, es = before ++ .act move :: later →
      P move (M.run main c before).state) :
    (Rules.moves P).Admitted M main c es := by
  induction es generalizing c with
  | nil => trivial
  | cons e es ih =>
    refine ⟨?_, ih fun before move later hes => h (e :: before) move later (by rw [hes]; rfl)⟩
    cases e with
    | start => trivial
    | call reply => exact Rules.admits_call (fun _ _ => trivial) c
    | act move => exact h [] move es rfl
    | kill => trivial

section Decidable

variable (R : Rules Op σ ε ι) [DecidablePred R.start] [∀ op reply s, Decidable (R.call op reply s)]
  [∀ move s, Decidable (R.act move s)] [DecidablePred R.kill]

instance (c : Config Op Ans σ α) (e : Event ε ι) : Decidable (R.Admits c e) :=
  match e with
  | .start => inferInstanceAs (Decidable (R.start c.state))
  | .call reply =>
    match h : c.current with
    | some (.call op _) => decidable_of_iff (R.call op reply c.state) (by simp [Rules.Admits, h])
    | some (.ret _) => .isTrue (by simp [Rules.Admits, h])
    | none => .isTrue (by simp [Rules.Admits, h])
  | .act move => inferInstanceAs (Decidable (R.act move c.state))
  | .kill => inferInstanceAs (Decidable (R.kill c.state))

instance decidableAdmitted (M : Machine Op Ans σ ε ι) (main : Program Op Ans α) :
    (c : Config Op Ans σ α) → (es : List (Event ε ι)) → Decidable (R.Admitted M main c es)
  | _, [] => .isTrue trivial
  | c, e :: es =>
    have := decidableAdmitted M main (M.step main c e) es
    inferInstanceAs (Decidable (R.Admits c e ∧ R.Admitted M main (M.step main c e) es))

end Decidable

def Config.Idle (c : Config Op Ans σ α) : Prop :=
  match c.current with
  | some (.call _ _) => False
  | _ => True

def Config.returned (c : Config Op Ans σ α) : Option α :=
  match c.current with
  | some (.ret value) => some value
  | _ => none

theorem Config.idle_of_returned {c : Config Op Ans σ α} {value : α} (h : c.returned = some value) :
    c.Idle := by
  obtain ⟨s, current⟩ := c
  rcases current with _ | value' | ⟨op, next⟩
  · trivial
  · trivial
  · cases h

/-- The event can be part of an execution that is under way. -/
def Event.Within : Event ε ι → Prop
  | .start | .kill => False
  | .call _ | .act _ => True

/-- One whole execution of the program, from its start in `c` to its end with `value` in `c'`. -/
structure Execution (R : Rules Op σ ε ι) (M : Machine Op Ans σ ε ι) (main : Program Op Ans α)
    (c : Config Op Ans σ α) (es : List (Event ε ι)) (value : α) (c' : Config Op Ans σ α) :
    Prop where
  idle : c.Idle
  within : ∀ e ∈ es, e.Within
  admitted : R.Admitted M main c (.start :: es)
  run : M.run main c (.start :: es) = c'
  ends : c'.returned = some value

/-- Once the program has returned, and where it is not started again, only the environment moves. -/
theorem Rules.Admitted.returned {R : Rules Op σ ε ι} {M : Machine Op Ans σ ε ι}
    {main : Program Op Ans α} {I : σ → Prop}
    (hact : ∀ move s, R.act move s → I s → I (M.act move s)) {c : Config Op Ans σ α} {value : α}
    (hc : c.returned = some value) (hI : I c.state) {es : List (Event ε ι)}
    (hes : R.Admitted M main c es) (hwithin : ∀ e ∈ es, e.Within) :
    (M.run main c es).returned = some value ∧ I (M.run main c es).state := by
  induction es generalizing c with
  | nil => exact ⟨hc, hI⟩
  | cons e es ih =>
    obtain ⟨he, hrest⟩ := List.forall_mem_cons.mp hwithin
    obtain ⟨s, current⟩ := c
    rcases current with _ | value' | ⟨op, next⟩
    · cases hc
    · cases e with
      | start => exact he.elim
      | kill => exact he.elim
      | call reply => exact ih hc hI hes.2 hrest
      | act move => exact ih hc (hact move s hes.1 hI) hes.2 hrest
    · cases hc

/-- Once the program has returned, rules that allow the environment every move allow all that is not
a new start. -/
theorem Rules.admitted_returned {R : Rules Op σ ε ι} {M : Machine Op Ans σ ε ι}
    {main : Program Op Ans α} (hact : ∀ move s, R.act move s) {c : Config Op Ans σ α} {value : α}
    (hc : c.returned = some value) {es : List (Event ε ι)} (hwithin : ∀ e ∈ es, e.Within) :
    R.Admitted M main c es := by
  induction es generalizing c with
  | nil => trivial
  | cons e es ih =>
    obtain ⟨he, hrest⟩ := List.forall_mem_cons.mp hwithin
    obtain ⟨s, current⟩ := c
    rcases current with _ | value' | ⟨op, next⟩
    · cases hc
    · cases e with
      | start => exact he.elim
      | kill => exact he.elim
      | call reply => exact ⟨trivial, ih hc hrest⟩
      | act move => exact ⟨hact move s, ih hc hrest⟩
    · cases hc

theorem Execution.under {R R' : Rules Op σ ε ι} {M : Machine Op Ans σ ε ι} {main : Program Op Ans α}
    {c c' : Config Op Ans σ α} {es : List (Event ε ι)} {value : α}
    (h : Execution R M main c es value c') (hadmitted : R'.Admitted M main c (.start :: es)) :
    Execution R' M main c es value c' := { h with admitted := hadmitted }

/-- An execution with a record of its calls. -/
theorem Execution.traced {R : Rules Op σ ε ι} {M : Machine Op Ans σ ε ι} {main : Program Op Ans α}
    {c c' : Config Op Ans σ α} {es : List (Event ε ι)} {value : α}
    (h : Execution R M main c es value c') (past : List (Entry Op Ans σ ι)) :
    Execution Rules.any M.traced main ⟨⟨c.state, past⟩, c.current⟩ es value
      (M.traced.run main ⟨⟨c.state, past⟩, c.current⟩ (.start :: es)) where
  idle := h.idle
  within := h.within
  admitted := Rules.any_admitted _ _ _ _
  run := rfl
  ends := by
    have hforget := Machine.forget_run M main ⟨⟨c.state, past⟩, c.current⟩ (.start :: es)
    have hrun : Machine.forget (M.traced.run main ⟨⟨c.state, past⟩, c.current⟩ (.start :: es)) =
        c' := hforget.trans h.run
    have hends := h.ends
    rw [← hrun] at hends
    exact hends

/-- Calls whose answer the rules allow in any state make an execution, if the program returns. -/
theorem Execution.of_calls {R : Rules Op σ ε ι} {M : Machine Op Ans σ ε ι} {main : Program Op Ans α}
    {c : Config Op Ans σ α} {reply : ε} {n : Nat} {value : α} (hidle : c.Idle)
    (hstart : ∀ s, R.start s) (hcall : ∀ op s, R.call op reply s)
    (hends : (M.run main c (.start :: List.replicate n (.call reply))).returned = some value) :
    Execution R M main c (List.replicate n (.call reply)) value
      (M.run main c (.start :: List.replicate n (.call reply))) where
  idle := hidle
  within e he := by
    obtain ⟨-, rfl⟩ := List.mem_replicate.mp he
    trivial
  admitted := by
    refine Rules.admitted_of_events (fun e he c => ?_) M main c
    rcases List.mem_cons.mp he with rfl | he
    · exact hstart c.state
    · obtain ⟨-, rfl⟩ := List.mem_replicate.mp he
      exact Rules.admits_call hcall c
  run := rfl
  ends := hends

/-- Calls that are answered bring any program to its end. -/
theorem Machine.calls_return (M : Machine Op Ans σ ε ι) (main p : Program Op Ans α) (s : σ)
    (reply : Nat → ε) :
    ∃ n s' value, M.run main ⟨s, some p⟩ ((List.range n).map fun i => .call (reply i)) =
      ⟨s', some (.ret value)⟩ := by
  induction p generalizing s reply with
  | ret value => exact ⟨0, s, value, rfl⟩
  | call op next ih =>
    obtain ⟨n, s', value, hrun⟩ := ih _ (M.exec op (reply 0) s).2 fun i => reply (i + 1)
    refine ⟨n + 1, s', value, ?_⟩
    rw [List.range_succ_eq_map, List.map_cons, List.map_map]
    exact hrun

/-- Answers that the rules allow in every state bring any program to its end. -/
theorem Rules.answers_return {R : Rules Op σ ε ι} {answer : Op → σ → ε}
    (hanswer : ∀ op s, R.call op (answer op s) s) (M : Machine Op Ans σ ε ι)
    (main p : Program Op Ans α) (s : σ) :
    ∃ es s' value, (∀ e ∈ es, e.Within) ∧ R.Admitted M main ⟨s, some p⟩ es ∧
      M.run main ⟨s, some p⟩ es = ⟨s', some (.ret value)⟩ := by
  induction p generalizing s with
  | ret value => exact ⟨[], s, value, nofun, trivial, rfl⟩
  | call op next ih =>
    obtain ⟨es, s', value, hwithin, hadmitted, hrun⟩ :=
      ih (M.exec op (answer op s) s).1 (M.exec op (answer op s) s).2
    refine ⟨.call (answer op s) :: es, s', value, ?_, ⟨hanswer op s, hadmitted⟩, hrun⟩
    exact List.forall_mem_cons.mpr ⟨trivial, hwithin⟩

/-- So there is an execution in which the calls are answered so. -/
theorem Execution.of_answers {R : Rules Op σ ε ι} {answer : Op → σ → ε}
    (hanswer : ∀ op s, R.call op (answer op s) s) {M : Machine Op Ans σ ε ι}
    {main : Program Op Ans α} {s : σ} (hstart : R.start s) :
    ∃ es value c', Execution R M main ⟨s, none⟩ es value c' := by
  obtain ⟨es, s', value, hwithin, hadmitted, hrun⟩ := Rules.answers_return hanswer M main main s
  exact ⟨es, value, _, trivial, hwithin, ⟨hstart, hadmitted⟩, hrun, rfl⟩

theorem Machine.step_start (M : Machine Op Ans σ ε ι) (main : Program Op Ans α)
    {c : Config Op Ans σ α} (h : c.Idle) : M.step main c .start = ⟨c.state, some main⟩ := by
  obtain ⟨s, current⟩ := c
  match current, h with
  | none, _ => rfl
  | some (.ret _), _ => rfl
  | some (.call _ _), h => exact h.elim

/-- Events that are, but for moves, those of a part of an execution are of such a part too. -/
theorem Event.within_of_own {κ : Type} {es : List (Event ε ι)} {es' : List (Event ε κ)}
    (h : ∀ e ∈ es, e.Within) (hown : es'.filterMap Event.own = es.filterMap Event.own) :
    ∀ e ∈ es', e.Within := by
  have hcalls : ∀ e ∈ es.filterMap Event.own, e.Within := by
    intro e he
    obtain ⟨e', he', hsome⟩ := List.mem_filterMap.mp he
    have hwithin := h e' he'
    cases e' with
    | start => exact hwithin.elim
    | kill => exact hwithin.elim
    | act move => cases hsome
    | call reply =>
      cases hsome
      trivial
  intro e he
  rw [← hown] at hcalls
  cases e with
  | start => exact hcalls .start (List.mem_filterMap.mpr ⟨.start, he, rfl⟩)
  | kill => exact hcalls .kill (List.mem_filterMap.mpr ⟨.kill, he, rfl⟩)
  | act move => trivial
  | call reply => trivial

/-- For an execution of `M` there is one of `N` with the same replies. -/
theorem Machine.Refines.execution {τ κ : Type} {M : Machine Op Ans σ ε ι} {N : Machine Op Ans τ ε κ}
    {inv : σ → Prop} {abs : σ → τ} {R : Rules Op τ ε κ} (h : M.Refines N inv abs)
    (hact : ∀ move t, R.act move t) {main : Program Op Ans α} {c c' : Config Op Ans σ α}
    {es : List (Event ε ι)} {value : α} (hc : inv c.state)
    (hes : Execution (R.comap abs) M main c es value c') :
    ∃ es' : List (Event ε κ), Execution R N main (c.map abs) es' value (c'.map abs) := by
  have hidle : (c.map abs).Idle := hes.idle
  have hstart := hes.admitted.2
  rw [M.step_start main hes.idle] at hstart
  obtain ⟨-, es', hown, hadmitted, hrun⟩ := h.run hact main (c := ⟨c.state, some main⟩) hc hstart
  have hstep : N.step main (c.map abs) .start = Config.map abs ⟨c.state, some main⟩ :=
    N.step_start main hidle
  refine ⟨es', hidle, Event.within_of_own hes.within hown, ⟨hes.admitted.1, ?_⟩, ?_, hes.ends⟩
  · rw [hstep]
    exact hadmitted
  · rw [run_cons, hstep, hrun, ← hes.run, run_cons, M.step_start main hes.idle]

instance (c : Config Op Ans σ α) : Decidable c.Idle :=
  match h : c.current with
  | some (.call _ _) => .isFalse fun hidle => by simp [Config.Idle, h] at hidle
  | some (.ret _) => .isTrue (by simp [Config.Idle, h])
  | none => .isTrue (by simp [Config.Idle, h])

instance (e : Event ε ι) : Decidable e.Within :=
  match e with
  | .start | .kill => .isFalse id
  | .call _ | .act _ => .isTrue trivial

/-- A machine, the rules of its runs, and an invariant that the environment's own moves keep. -/
structure Contract (Op : Type) (Ans : Op → Type) (σ ε ι : Type) where
  machine : Machine Op Ans σ ε ι
  rules : Rules Op σ ε ι
  inv : σ → Prop
  inv_act : ∀ move s, rules.act move s → inv s → inv (machine.act move s)

namespace Contract

variable (K : Contract Op Ans σ ε ι)

/-- The environment's own moves keep `P` where the invariant holds. -/
def Stable (P : σ → Prop) : Prop :=
  ∀ move s, K.rules.act move s → K.inv s → P s → P (K.machine.act move s)

/-- `s'` comes from `s` by moves of the environment alone. -/
def Moves : σ → σ → Prop :=
  Relation.ReflTransGen fun s s' => ∃ move, K.rules.act move s ∧ s' = K.machine.act move s

/-- From `s`, whatever the environment does, the program keeps the invariant after every call and
returns only in states that satisfy `Q`. -/
def Safe (Q : α → σ → Prop) : Program Op Ans α → σ → Prop
  | .ret value, s => ∀ s', K.Moves s s' → Q value s'
  | .call op next, s => ∀ s', K.Moves s s' → ∀ reply, K.rules.call op reply s' →
      K.inv (K.machine.exec op reply s').2 ∧
        Safe Q (next (K.machine.exec op reply s').1) (K.machine.exec op reply s').2

/-- Started where the invariant and `P` hold, the program is safe with respect to `Q`. -/
def Spec (P : σ → Prop) (p : Program Op Ans α) (Q : α → σ → Prop) : Prop :=
  ∀ s, K.inv s → P s → K.Safe Q p s

variable {K}

theorem inv_moves {s s' : σ} (h : K.Moves s s') (hs : K.inv s) : K.inv s' := by
  induction h with
  | refl => exact hs
  | tail _ hstep ih =>
    obtain ⟨move, hmove, rfl⟩ := hstep
    exact K.inv_act _ _ hmove ih

theorem Stable.moves {P : σ → Prop} (hP : K.Stable P) {s s' : σ} (h : K.Moves s s')
    (hs : K.inv s) (hPs : P s) : P s' := by
  induction h with
  | refl => exact hPs
  | tail hmoves hstep ih =>
    obtain ⟨move, hmove, rfl⟩ := hstep
    exact hP _ _ hmove (inv_moves hmoves hs) ih

theorem Stable.and {P Q : σ → Prop} (hP : K.Stable P) (hQ : K.Stable Q) :
    K.Stable fun s => P s ∧ Q s :=
  fun move s hmove hs h => ⟨hP move s hmove hs h.1, hQ move s hmove hs h.2⟩

theorem Stable.or {P Q : σ → Prop} (hP : K.Stable P) (hQ : K.Stable Q) :
    K.Stable fun s => P s ∨ Q s :=
  fun move s hmove hs h => h.imp (hP move s hmove hs) (hQ move s hmove hs)

theorem stable_const (p : Prop) : K.Stable fun _ => p := fun _ _ _ _ h => h

/-- Stable is what depends only on a part of the state that no move changes. -/
theorem stable_of_kept {τ : Type} {f : σ → τ} (hf : ∀ move s, f (K.machine.act move s) = f s)
    (P : τ → Prop) : K.Stable fun s => P (f s) := by
  intro move s _ _ h
  rw [hf]
  exact h

theorem Safe.moves {Q : α → σ → Prop} {p : Program Op Ans α} {s s' : σ} (h : K.Moves s s')
    (hp : K.Safe Q p s) : K.Safe Q p s' := by
  cases p with
  | ret value => exact fun s'' h' => hp s'' (Relation.ReflTransGen.trans h h')
  | call op next => exact fun s'' h' => hp s'' (Relation.ReflTransGen.trans h h')

namespace Spec

variable {P : σ → Prop} {Q : α → σ → Prop}

theorem ret {value : α} (hP : K.Stable P) (h : ∀ s, K.inv s → P s → Q value s) :
    K.Spec P (.ret value) Q :=
  fun _ hs hPs _ hmoves => h _ (inv_moves hmoves hs) (hP.moves hmoves hs hPs)

theorem done {value : α} (hP : K.Stable P) : K.Spec P (.ret value) fun _ => P :=
  ret hP fun _ _ h => h

/-- A call that takes `P` to `R answer`, and what follows it. -/
theorem call {op : Op} {next : Ans op → Program Op Ans α} {R : Ans op → σ → Prop}
    (hP : K.Stable P)
    (hcall : ∀ s reply, K.inv s → P s → K.rules.call op reply s →
      K.inv (K.machine.exec op reply s).2 ∧
        R (K.machine.exec op reply s).1 (K.machine.exec op reply s).2)
    (hnext : ∀ answer, K.Spec (R answer) (next answer) Q) : K.Spec P (.call op next) Q := by
  intro s hs hPs s' hmoves reply hreply
  obtain ⟨hinv, hR⟩ := hcall s' reply (inv_moves hmoves hs) (hP.moves hmoves hs hPs) hreply
  exact ⟨hinv, hnext _ _ hinv hR⟩

theorem perform {op : Op} {Q : Ans op → σ → Prop} (hP : K.Stable P)
    (hQ : ∀ answer, K.Stable (Q answer))
    (hcall : ∀ s reply, K.inv s → P s → K.rules.call op reply s →
      K.inv (K.machine.exec op reply s).2 ∧
        Q (K.machine.exec op reply s).1 (K.machine.exec op reply s).2) :
    K.Spec P (.perform op) Q :=
  call hP hcall fun answer => ret (hQ answer) fun _ _ h => h

theorem bind {p : Program Op Ans β} {f : β → Program Op Ans α} {R : β → σ → Prop}
    (hp : K.Spec P p R) (hf : ∀ value, K.Spec (R value) (f value) Q) :
    K.Spec P (p >>= f) Q := by
  suffices h : ∀ (p : Program Op Ans β) (s : σ), K.inv s → K.Safe R p s → K.Safe Q (p >>= f) s from
    fun s hs hPs => h p s hs (hp s hs hPs)
  intro p
  induction p with
  | ret value => exact fun s hs h => hf value s hs (h s Relation.ReflTransGen.refl)
  | call op next ih =>
    intro s _ h s' hmoves reply hreply
    obtain ⟨hinv, hsafe⟩ := h s' hmoves reply hreply
    exact ⟨hinv, ih _ _ hinv hsafe⟩

theorem mono {P' : σ → Prop} {Q' : α → σ → Prop} {p : Program Op Ans α} (hp : K.Spec P p Q)
    (hPre : ∀ s, K.inv s → P' s → P s) (hPost : ∀ value s, Q value s → Q' value s) :
    K.Spec P' p Q' := by
  suffices h : ∀ (p : Program Op Ans α) (s : σ), K.Safe Q p s → K.Safe Q' p s from
    fun s hs hPs => h p s (hp s hs (hPre s hs hPs))
  intro p
  induction p with
  | ret value => exact fun s h s' hmoves => hPost value s' (h s' hmoves)
  | call op next ih =>
    intro s h s' hmoves reply hreply
    obtain ⟨hinv, hsafe⟩ := h s' hmoves reply hreply
    exact ⟨hinv, ih _ _ hsafe⟩

theorem pre {P' : σ → Prop} {p : Program Op Ans α} (hp : K.Spec P p Q)
    (h : ∀ s, K.inv s → P' s → P s) : K.Spec P' p Q :=
  hp.mono h fun _ _ hQ => hQ

theorem post {Q' : α → σ → Prop} {p : Program Op Ans α} (hp : K.Spec P p Q)
    (h : ∀ value s, Q value s → Q' value s) : K.Spec P p Q' :=
  hp.mono (fun _ _ hP => hP) h

/-- What does not depend on the state is known before the program starts. -/
theorem given {R : Prop} {p : Program Op Ans α} (h : R → K.Spec P p Q) :
    K.Spec (fun s => P s ∧ R) p Q :=
  fun s hs hPs => h hPs.2 s hs hPs.1

theorem or {P' : σ → Prop} {Q' : α → σ → Prop} {p : Program Op Ans α} (hp : K.Spec P p Q)
    (hp' : K.Spec P' p Q') :
    K.Spec (fun s => P s ∨ P' s) p fun value s => Q value s ∨ Q' value s := by
  rintro s hs (h | h)
  · exact hp.post (fun _ _ => .inl) s hs h
  · exact hp'.post (fun _ _ => .inr) s hs h

/-- What the environment and every call leave as it is holds afterwards too. -/
theorem frame {F : σ → Prop} {p : Program Op Ans α} (hp : K.Spec P p Q) (hF : K.Stable F)
    (hkept : p.Every fun op => ∀ s reply, F s → F (K.machine.exec op reply s).2) :
    K.Spec (fun s => P s ∧ F s) p fun value s => Q value s ∧ F s := by
  suffices h : ∀ (p : Program Op Ans α) (s : σ), K.inv s → F s → K.Safe Q p s →
      (p.Every fun op => ∀ s reply, F s → F (K.machine.exec op reply s).2) →
      K.Safe (fun value s => Q value s ∧ F s) p s from
    fun s hs hPs => h p s hs hPs.2 (hp s hs hPs.1) hkept
  intro p
  induction p with
  | ret value => exact fun s hs hFs h _ s' hmoves => ⟨h s' hmoves, hF.moves hmoves hs hFs⟩
  | call op next ih =>
    intro s hs hFs h hkept s' hmoves reply hreply
    obtain ⟨hinv, hsafe⟩ := h s' hmoves reply hreply
    have hafter := hkept.1 s' reply (hF.moves hmoves hs hFs)
    exact ⟨hinv, ih _ _ hinv hafter hsafe (hkept.2 _)⟩

theorem returns {p : Program Op Ans α} {R : α → Prop} (hp : K.Spec P p Q) (hR : p.Returns R) :
    K.Spec P p fun value s => Q value s ∧ R value := by
  suffices h : ∀ (p : Program Op Ans α) (s : σ), p.Returns R → K.Safe Q p s →
      K.Safe (fun value s => Q value s ∧ R value) p s from
    fun s hs hPs => h p s hR (hp s hs hPs)
  intro p
  induction p with
  | ret value => exact fun s hvalue h s' hmoves => ⟨h s' hmoves, hvalue⟩
  | call op next ih =>
    intro s hvalue h s' hmoves reply hreply
    obtain ⟨hinv, hsafe⟩ := h s' hmoves reply hreply
    exact ⟨hinv, ih _ _ (hvalue _) hsafe⟩

/-- A program whose every call keeps the invariant and `P` keeps them as a whole. -/
theorem every {p : Program Op Ans α} (hP : K.Stable P)
    (hp : p.Every fun op => ∀ s reply, K.inv s → P s → K.rules.call op reply s →
      K.inv (K.machine.exec op reply s).2 ∧ P (K.machine.exec op reply s).2) :
    K.Spec P p fun _ => P := by
  induction p with
  | ret value => exact ret hP fun _ _ h => h
  | call op next ih => exact call hP hp.1 fun answer => ih answer (hp.2 answer)

end Spec

/-- The invariant holds, `I` holds between two executions, and what is left of an execution is
safe. -/
structure Good (K : Contract Op Ans σ ε ι) (I : σ → Prop) (Q : α → σ → Prop)
    (c : Config Op Ans σ α) : Prop where
  inv : K.inv c.state
  idle : c.current = none → I c.state
  safe : ∀ p, c.current = some p → K.Safe Q p c.state

theorem Good.between {I : σ → Prop} {Q : α → σ → Prop} {s : σ} (h : K.inv s) (hI : I s) :
    K.Good I Q ({ state := s, current := none } : Config Op Ans σ α) :=
  ⟨h, fun _ => hI, nofun⟩

/-- A returned program has reached its postcondition. -/
theorem Good.post {I : σ → Prop} {Q : α → σ → Prop} {c : Config Op Ans σ α} (h : K.Good I Q c)
    {value : α} (hc : c.current = some (.ret value)) : Q value c.state :=
  h.safe _ hc c.state Relation.ReflTransGen.refl

/-- What holds between two executions holds wherever none is under way. -/
theorem Good.of_idle {I : σ → Prop} {Q : α → σ → Prop} {c : Config Op Ans σ α} (h : K.Good I Q c)
    (hidle : c.Idle) (hreturn : ∀ value s, K.inv s → Q value s → I s) : I c.state := by
  obtain ⟨s, current⟩ := c
  rcases current with _ | value | ⟨op, next⟩
  · exact h.idle rfl
  · exact hreturn value s h.inv (h.post rfl)
  · exact hidle.elim

theorem Safe.run {main : Program Op Ans α} {Q : α → σ → Prop} {es : List (Event ε ι)}
    (hes : ∀ e ∈ es, e.Within) {s : σ} {p : Program Op Ans α} (hs : K.inv s) (hp : K.Safe Q p s)
    (hadmitted : K.rules.Admitted K.machine main ⟨s, some p⟩ es) :
    ∃ s' p', K.machine.run main ⟨s, some p⟩ es = ⟨s', some p'⟩ ∧ K.inv s' ∧ K.Safe Q p' s' := by
  induction es generalizing s p with
  | nil => exact ⟨s, p, rfl, hs, hp⟩
  | cons e es ih =>
    obtain ⟨hwithin, hrest⟩ := List.forall_mem_cons.mp hes
    obtain ⟨he, hadmitted⟩ := hadmitted
    cases e with
    | start => exact hwithin.elim
    | kill => exact hwithin.elim
    | act move =>
      refine ih hrest (K.inv_act move s he hs) ?_ hadmitted
      exact hp.moves (Relation.ReflTransGen.single ⟨move, he, rfl⟩)
    | call reply =>
      cases p with
      | ret value => exact ih hrest hs hp hadmitted
      | call op next =>
        obtain ⟨hs', hp'⟩ := hp s Relation.ReflTransGen.refl reply he
        exact ih hrest hs' hp' hadmitted

theorem Spec.execution {main : Program Op Ans α} {P : σ → Prop} {Q : α → σ → Prop}
    (hmain : K.Spec P main Q) {c c' : Config Op Ans σ α} {es : List (Event ε ι)} {value : α}
    (h : Execution K.rules K.machine main c es value c') (hs : K.inv c.state) (hP : P c.state) :
    K.inv c'.state ∧ Q value c'.state := by
  have hadmitted := h.admitted.2
  rw [Machine.step_start _ _ h.idle] at hadmitted
  obtain ⟨s', p', hrun, hs', hp'⟩ := Safe.run h.within hs (hmain _ hs hP) hadmitted
  have hc' : c' = ⟨s', some p'⟩ := by
    rw [← h.run, Machine.run_cons, Machine.step_start _ _ h.idle, hrun]
  subst hc'
  have hends := h.ends
  cases p' with
  | call op next => cases hends
  | ret value' =>
    obtain rfl := Option.some.inj hends
    exact ⟨hs', hp' s' Relation.ReflTransGen.refl⟩

/-- Where an execution has ended, a run goes on. -/
theorem Spec.execution_good {main : Program Op Ans α} {I P : σ → Prop} {Q : α → σ → Prop}
    (hmain : K.Spec P main Q) (hQ : ∀ value, K.Stable (Q value)) {c c' : Config Op Ans σ α}
    {es : List (Event ε ι)} {value : α} (h : Execution K.rules K.machine main c es value c')
    (hs : K.inv c.state) (hP : P c.state) : K.Good I Q c' := by
  obtain ⟨hinv, hpost⟩ := hmain.execution h hs hP
  have hends := h.ends
  obtain ⟨s, current⟩ := c'
  rcases current with _ | value' | ⟨op, next⟩
  · cases hends
  · obtain rfl := Option.some.inj hends
    refine ⟨hinv, nofun, ?_⟩
    rintro p ⟨⟩
    exact fun s' hmoves => (hQ value').moves hmoves hinv hpost
  · cases hends

section Sound

variable {main : Program Op Ans α} {I P : σ → Prop} {Q : α → σ → Prop} (hI : K.Stable I)
  (hkill : ∀ s, K.rules.kill s → K.inv s → K.inv (K.machine.crash s) ∧ I (K.machine.crash s))
  (hstart : ∀ s, K.rules.start s → K.inv s → I s → P s) (hmain : K.Spec P main Q)
  (hreturn : ∀ value s, K.inv s → Q value s → I s)
include hI hkill hstart hmain hreturn

theorem Good.step {c : Config Op Ans σ α} (hc : K.Good I Q c) {e : Event ε ι}
    (he : K.rules.Admits c e) : K.Good I Q (K.machine.step main c e) := by
  obtain ⟨s, current⟩ := c
  obtain ⟨hinv, hidle, hsafe⟩ := hc
  cases e with
  | start =>
    have hfresh : I s → K.Good I Q { state := s, current := some main } := fun hs =>
      ⟨hinv, nofun, by rintro p ⟨⟩; exact hmain s hinv (hstart s he hinv hs)⟩
    match current, hidle, hsafe with
    | none, hidle, _ => exact hfresh (hidle rfl)
    | some (.ret value), _, hsafe =>
      exact hfresh (hreturn value s hinv (hsafe _ rfl s Relation.ReflTransGen.refl))
    | some (.call op next), _, hsafe => exact ⟨hinv, nofun, hsafe⟩
  | call reply =>
    match current, hidle, hsafe, he with
    | none, hidle, hsafe, _ => exact ⟨hinv, hidle, hsafe⟩
    | some (.ret _), hidle, hsafe, _ => exact ⟨hinv, hidle, hsafe⟩
    | some (.call op next), _, hsafe, he =>
      obtain ⟨hinv', hsafe'⟩ := hsafe _ rfl s Relation.ReflTransGen.refl reply he
      exact ⟨hinv', nofun, by rintro p ⟨⟩; exact hsafe'⟩
  | act move =>
    refine ⟨K.inv_act move s he hinv, fun hnone => hI move s he hinv (hidle hnone), fun p hp => ?_⟩
    exact (hsafe p hp).moves (Relation.ReflTransGen.single ⟨move, he, rfl⟩)
  | kill =>
    obtain ⟨hcrash, hidle'⟩ := hkill s he hinv
    exact Good.between hcrash hidle'

theorem sound {c : Config Op Ans σ α} (hc : K.Good I Q c) {es : List (Event ε ι)}
    (hes : K.rules.Admitted K.machine main c es) : K.Good I Q (K.machine.run main c es) := by
  induction es generalizing c with
  | nil => exact hc
  | cons e es ih => exact ih (hc.step hI hkill hstart hmain hreturn hes.1) hes.2

end Sound

/-- The invariant holds in every state of every admitted run, where it is all that a new execution
needs. -/
theorem sound_inv {main : Program Op Ans α} {P : σ → Prop} {Q : α → σ → Prop}
    (hkill : ∀ s, K.rules.kill s → K.inv s → K.inv (K.machine.crash s))
    (hstart : ∀ s, K.rules.start s → K.inv s → P s) (hmain : K.Spec P main Q) {s : σ}
    (hs : K.inv s) {es : List (Event ε ι)}
    (hes : K.rules.Admitted K.machine main ⟨s, none⟩ es) :
    K.inv (K.machine.run main ⟨s, none⟩ es).state :=
  (sound (stable_const True) (fun s h hs => ⟨hkill s h hs, trivial⟩)
    (fun s h hs _ => hstart s h hs) hmain (fun _ _ _ _ => trivial)
    (Good.between hs trivial) hes).inv

/-- The allowed calls of `K'` do in the states of `F` what they do in `K` in the states that these
stand for. -/
structure Covers {τ κ ε' : Type} (K' : Contract Op Ans σ ε ι) (K : Contract Op Ans τ ε' κ)
    (abs : σ → τ) (toReply : ε → ε') (allowed : Op → Prop) (F : σ → Prop) : Prop where
  act : ∀ move s, K'.rules.act move s → F s →
    K.Moves (abs s) (abs (K'.machine.act move s)) ∧ F (K'.machine.act move s)
  rules : ∀ op reply s, allowed op → K'.rules.call op reply s → F s →
    K.rules.call op (toReply reply) (abs s)
  exec : ∀ op reply s, allowed op → K'.rules.call op reply s → F s →
    (K'.machine.exec op reply s).1 = (K.machine.exec op (toReply reply) (abs s)).1 ∧
      abs (K'.machine.exec op reply s).2 = (K.machine.exec op (toReply reply) (abs s)).2
  keeps : ∀ op reply s, allowed op → K'.rules.call op reply s → F s →
    K'.inv (K'.machine.exec op reply s).2 ∧ F (K'.machine.exec op reply s).2

namespace Covers

variable {τ κ ε' : Type} {K' : Contract Op Ans σ ε ι} {K : Contract Op Ans τ ε' κ} {abs : σ → τ}
  {toReply : ε → ε'} {allowed : Op → Prop} {F : σ → Prop}
  (h : K'.Covers K abs toReply allowed F)
include h

theorem moves {s s' : σ} (hmoves : K'.Moves s s') (hs : F s) :
    K.Moves (abs s) (abs s') ∧ F s' := by
  induction hmoves with
  | refl => exact ⟨Relation.ReflTransGen.refl, hs⟩
  | tail _ hstep ih =>
    obtain ⟨move, hmove, rfl⟩ := hstep
    obtain ⟨hlast, hkept⟩ := h.act move _ hmove ih.2
    exact ⟨ih.1.trans hlast, hkept⟩

/-- What is proved of a program in `K` holds of it in `K'`. -/
theorem spec {P : τ → Prop} {Q : α → τ → Prop} {p : Program Op Ans α} (hall : p.Every allowed)
    (hp : K.Spec P p Q) :
    K'.Spec (fun s => K.inv (abs s) ∧ P (abs s) ∧ F s) p fun value s => Q value (abs s) ∧ F s := by
  suffices hsafe : ∀ (p : Program Op Ans α) (s : σ), p.Every allowed → F s → K.Safe Q p (abs s) →
      K'.Safe (fun value s => Q value (abs s) ∧ F s) p s from
    fun s _ hs => hsafe p s hall hs.2.2 (hp _ hs.1 hs.2.1)
  intro p
  induction p with
  | ret value =>
    intro s _ hs hreturn s' hmoves
    obtain ⟨habs, hkept⟩ := h.moves hmoves hs
    exact ⟨hreturn _ habs, hkept⟩
  | call op next ih =>
    intro s hall hs hcall s' hmoves reply hreply
    obtain ⟨habs, hkept⟩ := h.moves hmoves hs
    obtain ⟨hanswer, hafter⟩ := h.exec op reply s' hall.1 hreply hkept
    obtain ⟨hinv, hF⟩ := h.keeps op reply s' hall.1 hreply hkept
    have hrest := (hcall _ habs _ (h.rules op reply s' hall.1 hreply hkept)).2
    rw [← hanswer, ← hafter] at hrest
    exact ⟨hinv, ih _ _ (hall.2 _) hF hrest⟩

end Covers

end Contract

/-- An execution ends with a value that the program can return. -/
theorem Execution.returns {R : Rules Op σ ε ι} {M : Machine Op Ans σ ε ι} {main : Program Op Ans α}
    {c c' : Config Op Ans σ α} {es : List (Event ε ι)} {value : α}
    (h : Execution R M main c es value c') {Q : α → Prop} (hQ : main.Returns Q) : Q value := by
  let K : Contract Op Ans σ ε ι := ⟨M, R, fun _ => True, fun _ _ _ _ => trivial⟩
  have hmain : K.Spec (fun _ => True) main fun _ _ => True :=
    Contract.Spec.every (Contract.stable_const True)
      (Program.every_of_forall (fun _ _ _ _ _ _ => ⟨trivial, trivial⟩) main)
  exact ((hmain.returns hQ).execution h trivial trivial).2.2

end Interaction
