import Mathlib.Logic.Basic

/-!
# Connections with transactions

A `Block` works on one connection: what it writes stays in the open transaction until a
commit. An exception ends the block and keeps the connection as it is then;
`withConnection` commits or rolls back what is left, as a context manager does.
-/

namespace Connections
set_option autoImplicit false

structure Connection (D : Type) where
  committed : D
  /-- The state that the open transaction has reached. -/
  transaction : Option D

abbrev Block (E D : Type) := ExceptT E (StateM (Connection D))

section Statements
variable {E D α : Type}

def Connection.view (c : Connection D) : D := c.transaction.getD c.committed

/-- What the code computes before it uses the connection. -/
def evaluate (r : Except E α) : Block E D α := fun c => (r, c)

/-- A statement that writes opens a transaction, also when it fails. -/
def execute (statement : D → Except E D) : Block E D Unit := fun c =>
  match statement c.view with
  | .ok d => (.ok (), { c with transaction := some d })
  | .error e => (.error e, { c with transaction := some c.view })

/-- Nothing is left to do, and to refuse, when no transaction is open. -/
def commit (refused : Option E) : Block E D Unit := fun c =>
  match c.transaction, refused with
  | none, _ => (.ok (), c)
  | some d, none => (.ok (), ⟨d, none⟩)
  | some _, some e => (.error e, c)

/-- `with connect() as conn: body`; `closing` is the refusal of the commit at its end. -/
def withConnection (connect : Except E Unit) (closing : Option E) (d : D)
    (body : Block E D α) : Except E α × D :=
  match connect with
  | .error e => (.error e, d)
  | .ok () =>
    match body ⟨d, none⟩ with
    | (.error e, c) => (.error e, c.committed)
    | (.ok a, c) =>
      match commit closing c with
      | (.ok (), c') => (.ok a, c'.committed)
      | (.error e, c') => (.error e, c'.committed)

end Statements

section Bind
variable {E D α β : Type} {m : Block E D α} {f : α → Block E D β} {c c' : Connection D}

theorem bind_ok {a : α} (h : m c = (.ok a, c')) : (m >>= f) c = f a c' := by
  change StateT.bind m (ExceptT.bindCont f) c = _
  simp only [StateT.bind, h]
  rfl

theorem bind_error {e : E} (h : m c = (.error e, c')) : (m >>= f) c = (.error e, c') := by
  change StateT.bind m (ExceptT.bindCont f) c = _
  simp only [StateT.bind, h]
  rfl

end Bind

section OneWrite
variable {E D W : Type} {connect : Except E Unit} {closing refused : Option E} {d d' : D}
  {value : Except E W} {statement : W → D → Except E D}

/-- A block that writes once and commits. -/
def saveOnce (value : Except E W) (statement : W → D → Except E D) (refused : Option E) :
    Block E D Unit := do
  let w ← evaluate value
  execute (statement w)
  commit refused

theorem saveOnce_of_error {e : E} (h : value = .error e) (c : Connection D) :
    saveOnce value statement refused c = (.error e, c) :=
  bind_error (congrArg (·, c) h)

theorem saveOnce_of_failure {w : W} {e : E} (hvalue : value = .ok w)
    (h : statement w d = .error e) :
    saveOnce value statement refused ⟨d, none⟩ = (.error e, ⟨d, some d⟩) := by
  have hexec : execute (statement w) ⟨d, none⟩ = (.error e, ⟨d, some d⟩) := by
    simp [execute, Connection.view, h]
  calc saveOnce value statement refused ⟨d, none⟩
      = (execute (statement w) >>= fun _ => commit refused) ⟨d, none⟩ :=
        bind_ok (congrArg (·, _) hvalue)
    _ = (.error e, ⟨d, some d⟩) := bind_error hexec

theorem saveOnce_of_ok {w : W} (hvalue : value = .ok w) (h : statement w d = .ok d') :
    saveOnce value statement refused ⟨d, none⟩ = commit refused ⟨d, some d'⟩ := by
  have hexec : execute (statement w) ⟨d, none⟩ = (.ok (), ⟨d, some d'⟩) := by
    simp [execute, Connection.view, h]
  calc saveOnce value statement refused ⟨d, none⟩
      = (execute (statement w) >>= fun _ => commit refused) ⟨d, none⟩ :=
        bind_ok (congrArg (·, _) hvalue)
    _ = commit refused ⟨d, some d'⟩ := bind_ok hexec

theorem withConnection_of_saved {w : W} (hvalue : value = .ok w)
    (h : statement w d = .ok d') :
    withConnection (.ok ()) closing d (saveOnce value statement none) = (.ok (), d') := by
  simp only [withConnection, saveOnce_of_ok hvalue h, commit]

/-- Either everything succeeds and the write is kept, or an exception leaves the store as it
was. -/
theorem withConnection_saveOnce :
    (∃ w d', connect = .ok () ∧ value = .ok w ∧ statement w d = .ok d' ∧ refused = none ∧
      withConnection connect closing d (saveOnce value statement refused) = (.ok (), d')) ∨
    ∃ e, withConnection connect closing d (saveOnce value statement refused) = (.error e, d) := by
  cases connect with
  | error e => exact .inr ⟨e, rfl⟩
  | ok _ =>
    cases hvalue : value with
    | error e =>
      refine .inr ⟨e, ?_⟩
      simp only [withConnection]
      rw [saveOnce_of_error rfl]
    | ok w =>
      cases hstatement : statement w d with
      | error e =>
        refine .inr ⟨e, ?_⟩
        simp only [withConnection, saveOnce_of_failure rfl hstatement]
      | ok d' =>
        cases refused with
        | some e =>
          refine .inr ⟨e, ?_⟩
          simp only [withConnection, saveOnce_of_ok rfl hstatement, commit]
        | none => exact .inl ⟨w, d', rfl, rfl, hstatement, rfl,
            withConnection_of_saved rfl hstatement⟩

end OneWrite

end Connections
