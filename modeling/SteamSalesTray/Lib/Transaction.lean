/-! A connection to a transactional store: the tables that are committed, the tables of the open
transaction if there is one, and the statements that act on them.

A statement that fails is undone alone.  `BEGIN` fails inside a transaction, `ROLLBACK` drops the
open transaction, and a `COMMIT` that fails either rolls the transaction back or, when the store is
busy, leaves it open. -/

namespace Transaction

/-- How a statement ends.  `busy` differs from `failed` for `COMMIT` alone. -/
inductive Outcome where
  | done
  | failed
  | busy
deriving DecidableEq, Repr

/-- A statement: how it ends, and the tables it makes unless it breaks a constraint. -/
structure Statement (τ : Type) where
  outcome : Outcome
  apply : τ → Option τ

structure Connection (τ : Type) where
  committed : τ
  tx : Option τ
deriving DecidableEq

variable {τ : Type}

/-- The tables that the statement makes when it is executed, unless it fails. -/
def Statement.effect (s : Statement τ) (t : τ) : Option τ :=
  if s.outcome = .done then s.apply t else none

theorem Statement.apply_of_effect {s : Statement τ} {t t' : τ} (h : s.effect t = some t') :
    s.apply t = some t' := by
  unfold effect at h
  split at h
  · exact h
  · cases h

def applyAll : List (Statement τ) → τ → Option τ
  | [], t => some t
  | s :: rest, t => (s.effect t).bind (applyAll rest)

/-- What holds before the statements and is kept by each of them holds after them. -/
theorem applyAll_keeps {P : τ → Prop} {steps : List (Statement τ)} {t t' : τ}
    (h : applyAll steps t = some t') (ht : P t)
    (hkeep : ∀ s ∈ steps, ∀ a b, P a → s.apply a = some b → P b) : P t' := by
  induction steps generalizing t with
  | nil =>
    obtain rfl := Option.some.inj h
    exact ht
  | cons s rest ih =>
    obtain ⟨t1, hs, hrest⟩ := Option.bind_eq_some_iff.mp h
    exact ih hrest (hkeep s (by simp) _ _ ht (Statement.apply_of_effect hs))
      fun s' hs' => hkeep s' (by simp [hs'])

/-- Statements that all end well make what their script makes, whatever their outcomes are. -/
theorem applyAll_script {steps : List (Statement τ)} {t t' : τ} (h : applyAll steps t = some t') :
    steps.foldlM (fun t s => s.apply t) t = some t' := by
  induction steps generalizing t with
  | nil => exact h
  | cons s rest ih =>
    obtain ⟨t1, hs, hrest⟩ := Option.bind_eq_some_iff.mp h
    rw [List.foldlM_cons, Statement.apply_of_effect hs]
    exact ih hrest

/-- The statement takes related tables to related tables, or fails on both. -/
def Statement.Respects (R : τ → τ → Prop) (s : Statement τ) : Prop :=
  ∀ t t', R t t' → Option.Rel R (s.apply t) (s.apply t')

theorem Statement.Respects.effect {R : τ → τ → Prop} {s : Statement τ} (hs : s.Respects R)
    {t t' : τ} (h : R t t') : Option.Rel R (s.effect t) (s.effect t') := by
  unfold Statement.effect
  split
  · exact hs t t' h
  · exact .none

theorem applyAll_related {R : τ → τ → Prop} {steps : List (Statement τ)}
    (hsteps : ∀ s ∈ steps, s.Respects R) {t t' : τ} (h : R t t') :
    Option.Rel R (applyAll steps t) (applyAll steps t') := by
  induction steps generalizing t t' with
  | nil => exact .some h
  | cons s rest ih =>
    have heffect := (hsteps s (by simp)).effect h
    unfold applyAll
    generalize s.effect t = a at heffect ⊢
    generalize s.effect t' = b at heffect ⊢
    cases heffect with
    | none => exact .none
    | some hab => exact ih (fun s' hs' => hsteps s' (by simp [hs'])) hab

namespace Connection

def visible (c : Connection τ) : τ := c.tx.getD c.committed

/-- The process dies: an open transaction is lost. -/
def drop (c : Connection τ) : Connection τ := { c with tx := none }

def write (c : Connection τ) (t : τ) : Connection τ :=
  match c.tx with
  | some _ => { c with tx := some t }
  | none => { c with committed := t }

def exec (s : Statement τ) (c : Connection τ) : Bool × Connection τ :=
  match s.effect c.visible with
  | some t => (true, c.write t)
  | none => (false, c)

def execAll : List (Statement τ) → Connection τ → Bool × Connection τ
  | [], c => (true, c)
  | s :: rest, c =>
    match c.exec s with
    | (true, c') => execAll rest c'
    | (false, c') => (false, c')

def beginImmediate (o : Outcome) (c : Connection τ) : Bool × Connection τ :=
  match c.tx, o with
  | none, .done => (true, { c with tx := some c.committed })
  | _, _ => (false, c)

def rollback (c : Connection τ) : Connection τ := { c with tx := none }

def commit (o : Outcome) (c : Connection τ) : Bool × Connection τ :=
  match c.tx, o with
  | some t, .done => (true, { committed := t, tx := none })
  | some _, .failed => (false, { c with tx := none })
  -- A busy `COMMIT` leaves the transaction open.
  | _, _ => (false, c)

/-- `BEGIN`, the statements with a `ROLLBACK` after the first that fails, and a `COMMIT` whose
result is returned as it is. -/
def transact (begins : Outcome) (steps : List (Statement τ)) (commits : Outcome)
    (c : Connection τ) : Bool × Connection τ :=
  match c.beginImmediate begins with
  | (false, c) => (false, c)
  | (true, c) =>
    match c.execAll steps with
    | (false, c) => (false, c.rollback)
    | (true, c) => c.commit commits

@[simp] theorem visible_some (t t' : τ) : (Connection.mk t (some t')).visible = t' := rfl

theorem visible_of_closed {c : Connection τ} (h : c.tx = none) : c.visible = c.committed := by
  simp [visible, h]

@[simp] theorem drop_visible (c : Connection τ) : c.drop.visible = c.committed := rfl

theorem execAll_some {steps : List (Statement τ)} {t t' : τ} (d : τ)
    (h : applyAll steps t = some t') : execAll steps ⟨d, some t⟩ = (true, ⟨d, some t'⟩) := by
  induction steps generalizing t with
  | nil =>
    obtain rfl := Option.some.inj h
    rfl
  | cons s rest ih =>
    obtain ⟨t1, hs, hrest⟩ := Option.bind_eq_some_iff.mp h
    simp only [execAll, exec, visible_some, hs]
    exact ih hrest

theorem execAll_none {steps : List (Statement τ)} {t : τ} (d : τ)
    (h : applyAll steps t = none) :
    ∃ t', execAll steps ⟨d, some t⟩ = (false, ⟨d, some t'⟩) := by
  induction steps generalizing t with
  | nil => cases h
  | cons s rest ih =>
    simp only [execAll, exec, visible_some]
    cases hs : s.effect t with
    | none => exact ⟨t, rfl⟩
    | some t1 => exact ih (by simpa [applyAll, hs] using h)

/-- A whole transaction at once: it is committed, or its `COMMIT` leaves it open, or nothing has
changed. -/
theorem transact_eq (begins : Outcome) (steps : List (Statement τ)) (commits : Outcome)
    (c : Connection τ) :
    c.transact begins steps commits =
      match c.tx, begins, applyAll steps c.committed, commits with
      | none, .done, some t, .done => (true, ⟨t, none⟩)
      | none, .done, some t, .busy => (false, ⟨c.committed, some t⟩)
      | _, _, _, _ => (false, c) := by
  obtain ⟨d, tx⟩ := c
  cases tx with
  | some t => rfl
  | none =>
    cases begins with
    | failed => rfl
    | busy => rfl
    | done =>
      simp only [transact, beginImmediate]
      cases happ : applyAll steps d with
      | none =>
        obtain ⟨t', ht'⟩ := execAll_none d happ
        simp [ht', rollback]
      | some t =>
        simp only [execAll_some d happ, commit]
        cases commits <;> rfl

/-- `P` holds of what is committed and of what the connection sees. -/
def Both (P : τ → Prop) (c : Connection τ) : Prop := P c.committed ∧ P c.visible

/-- `t` is visible: in a transaction, or committed where no transaction was open. -/
inductive Becomes (c : Connection τ) (t : τ) : Connection τ → Prop where
  | inTransaction : Becomes c t ⟨c.committed, some t⟩
  | atOnce (h : c.tx = none) : Becomes c t ⟨t, none⟩

theorem Both.mono {P Q : τ → Prop} {c : Connection τ} (h : c.Both P) (hPQ : ∀ t, P t → Q t) :
    c.Both Q :=
  ⟨hPQ _ h.1, hPQ _ h.2⟩

theorem Both.drop {P : τ → Prop} {c : Connection τ} (h : c.Both P) : c.drop.Both P := ⟨h.1, h.1⟩

theorem Becomes.visible {c c' : Connection τ} {t : τ} (hc : c.Becomes t c') : c'.visible = t := by
  cases hc with
  | inTransaction => rfl
  | atOnce h => rfl

theorem Becomes.both {P : τ → Prop} {c c' : Connection τ} {t : τ} (hc : c.Becomes t c')
    (h : c.Both P) (ht : P t) : c'.Both P := by
  cases hc with
  | inTransaction => exact ⟨h.1, ht⟩
  | atOnce htx => exact ⟨ht, ht⟩

/-- Outside a transaction a write is committed too. -/
theorem write_both {P : τ → Prop} {c : Connection τ} {t : τ} (hc : c.tx ≠ none → P c.committed)
    (ht : P t) : (c.write t).Both P := by
  obtain ⟨d, tx⟩ := c
  cases tx with
  | none => exact ⟨ht, ht⟩
  | some _ => exact ⟨hc nofun, ht⟩

theorem exec_cases (s : Statement τ) (c : Connection τ) :
    c.exec s = (false, c) ∨
      ∃ t, s.effect c.visible = some t ∧ c.Becomes t (c.exec s).2 ∧ (c.exec s).1 = true ∧
        (c.tx = none → (c.exec s).2 = ⟨t, none⟩) := by
  obtain ⟨d, tx⟩ := c
  simp only [exec]
  split
  · rename_i t ht
    refine .inr ⟨t, ht, ?_, rfl, ?_⟩
    · cases tx with
      | none => exact .atOnce rfl
      | some _ => exact .inTransaction
    · rintro ⟨⟩
      rfl
  · exact .inl rfl

/-- A transaction either changes nothing and returns false, or shows what its statements made,
committed exactly when it returns true. -/
theorem transact_cases (begins : Outcome) (steps : List (Statement τ)) (commits : Outcome)
    (c : Connection τ) :
    c.transact begins steps commits = (false, c) ∨
      ∃ t, c.tx = none ∧ applyAll steps c.committed = some t ∧
        c.Becomes t (c.transact begins steps commits).2 ∧
        ((c.transact begins steps commits).1 = true →
          (c.transact begins steps commits).2 = ⟨t, none⟩) := by
  rw [transact_eq]
  split
  · rename_i t htx ht
    exact .inr ⟨t, htx, ht, .atOnce htx, fun _ => rfl⟩
  · rename_i t htx ht
    exact .inr ⟨t, htx, ht, .inTransaction, nofun⟩
  · exact .inl rfl

/-- The call is given up in its `COMMIT`, which leaves the transaction open. -/
def LeftOpen (begins : Outcome) (steps : List (Statement τ)) (commits : Outcome)
    (c : Connection τ) : Prop :=
  c.tx = none ∧ begins = .done ∧ (∃ t, applyAll steps c.committed = some t) ∧ commits = .busy

/-- A transaction whose own `BEGIN` worked and that returns false has changed nothing and is
closed, except when its `COMMIT` leaves it open. -/
theorem transact_undone_iff (begins : Outcome) (steps : List (Statement τ)) (commits : Outcome)
    (c : Connection τ) :
    ((c.beginImmediate begins).1 = true → (c.transact begins steps commits).1 = false →
        (c.transact begins steps commits).2.visible = c.visible ∧
          (c.transact begins steps commits).2.tx = none) ↔
      ¬c.LeftOpen begins steps commits := by
  obtain ⟨d, tx⟩ := c
  rw [transact_eq]
  cases tx with
  | some t => simp [beginImmediate, LeftOpen]
  | none =>
    cases begins with
    | failed => simp [beginImmediate, LeftOpen]
    | busy => simp [beginImmediate, LeftOpen]
    | done =>
      cases h : applyAll steps d with
      | none => simp [beginImmediate, LeftOpen, h]
      | some t => cases commits <;> simp [beginImmediate, LeftOpen, h]

theorem transact_true_iff (begins : Outcome) (steps : List (Statement τ)) (commits : Outcome)
    (c : Connection τ) :
    (c.transact begins steps commits).1 = true ↔
      c.tx = none ∧ begins = .done ∧ (∃ t, applyAll steps c.committed = some t) ∧
        commits = .done := by
  obtain ⟨d, tx⟩ := c
  rw [transact_eq]
  cases tx with
  | some t => simp
  | none =>
    cases begins with
    | failed => simp
    | busy => simp
    | done =>
      cases applyAll steps d with
      | none => simp
      | some t => cases commits <;> simp

theorem transact_false {begins : Outcome} {steps : List (Statement τ)} {commits : Outcome}
    {c : Connection τ} (h : (c.transact begins steps commits).1 = false) :
    (c.transact begins steps commits).2.committed = c.committed := by
  rw [transact_eq] at h ⊢
  split at h
  · cases h
  · rfl
  · rfl

theorem transact_done {steps : List (Statement τ)} {c : Connection τ} {t : τ} (htx : c.tx = none)
    (ht : applyAll steps c.committed = some t) :
    c.transact .done steps .done = (true, ⟨t, none⟩) := by
  rw [transact_eq, htx, ht]

/-! ### Two connections -/

/-- The committed tables of two connections are related, and so are those of their open
transactions. -/
structure Related (R : τ → τ → Prop) (c c' : Connection τ) : Prop where
  committed : R c.committed c'.committed
  tx : Option.Rel R c.tx c'.tx

section Related

variable {R : τ → τ → Prop} {c c' : Connection τ}

theorem Related.visible (h : Related R c c') : R c.visible c'.visible := by
  obtain ⟨d, tx⟩ := c
  obtain ⟨d', tx'⟩ := c'
  obtain ⟨hcommitted, htx⟩ := h
  cases htx with
  | some htx => exact htx
  | none => exact hcommitted

theorem Related.drop (h : Related R c c') : Related R c.drop c'.drop := ⟨h.committed, .none⟩

theorem Related.exec (h : Related R c c') {s : Statement τ} (hs : s.Respects R) :
    (c.exec s).1 = (c'.exec s).1 ∧ Related R (c.exec s).2 (c'.exec s).2 := by
  have heffect := hs.effect h.visible
  obtain ⟨d, tx⟩ := c
  obtain ⟨d', tx'⟩ := c'
  obtain ⟨hcommitted, htx⟩ := h
  simp only [Connection.exec]
  generalize s.effect (Connection.mk d tx).visible = a at heffect ⊢
  generalize s.effect (Connection.mk d' tx').visible = b at heffect ⊢
  cases heffect with
  | none => exact ⟨rfl, hcommitted, htx⟩
  | some ht =>
    cases htx with
    | none => exact ⟨rfl, ht, .none⟩
    | some _ => exact ⟨rfl, hcommitted, .some ht⟩

/-- Related connections execute a transaction of respectful statements alike. -/
theorem Related.transact (h : Related R c c') {steps : List (Statement τ)}
    (hsteps : ∀ s ∈ steps, s.Respects R) (begins commits : Outcome) :
    (c.transact begins steps commits).1 = (c'.transact begins steps commits).1 ∧
      Related R (c.transact begins steps commits).2 (c'.transact begins steps commits).2 := by
  have happly := applyAll_related hsteps h.committed
  obtain ⟨d, tx⟩ := c
  obtain ⟨d', tx'⟩ := c'
  obtain ⟨hcommitted, htx⟩ := h
  rw [transact_eq, transact_eq]
  dsimp only at happly hcommitted htx ⊢
  generalize applyAll steps d = a at happly ⊢
  generalize applyAll steps d' = b at happly ⊢
  cases htx with
  | some htx => exact ⟨rfl, hcommitted, .some htx⟩
  | none =>
    cases happly with
    | none => cases begins <;> exact ⟨rfl, hcommitted, .none⟩
    | some ht =>
      cases begins with
      | done =>
        cases commits with
        | done => exact ⟨rfl, ht, .none⟩
        | failed => exact ⟨rfl, hcommitted, .none⟩
        | busy => exact ⟨rfl, hcommitted, .some ht⟩
      | failed => exact ⟨rfl, hcommitted, .none⟩
      | busy => exact ⟨rfl, hcommitted, .none⟩

end Related

end Connection

end Transaction
