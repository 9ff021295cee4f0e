import Gloora.Lib.Schedules
import Gloora.Play
import Gloora.Programs

/-!
# Concrete interleavings

An `Interleaving` is a schedule of requests to the plain platform, from given tables.
-/

namespace Gloora
set_option autoImplicit false

open PyText Runs Threads Transactions

instance (P : Platform) (jar : Nat → List Session) (a : Incoming) :
    Decidable ((site P).admits jar a) :=
  inferInstanceAs (Decidable (a.cookie = {} ∨ a.cookie ∈ jar a.browser))

structure Interleaving where
  tables : Db
  choices : List (Choice Incoming)
  served : ((site plain).schedule (Server.start tables fun _ => []) choices).isSome = true

namespace Interleaving
variable (c : Interleaving)

def events : List ServerMove :=
  (((site plain).schedule (Server.start c.tables fun _ => []) c.choices).get c.served).1

def final : Server :=
  (((site plain).schedule (Server.start c.tables fun _ => []) c.choices).get c.served).2

theorem run : Run (PoolStep plain) (Server.start c.tables fun _ => []) c.events c.final :=
  schedule_run (Option.some_get c.served).symm

end Interleaving

/-- How such a run goes on. -/
structure Resumption (c : Interleaving) where
  choices : List (Choice Incoming)
  served : ((site plain).schedule c.final choices).isSome = true

namespace Resumption
variable {c : Interleaving} (r : Resumption c)

def events : List ServerMove := (((site plain).schedule c.final r.choices).get r.served).1

def final : Server := (((site plain).schedule c.final r.choices).get r.served).2

theorem run : Run (PoolStep plain) c.final r.events r.final :=
  schedule_run (Option.some_get r.served).symm

end Resumption

/-- A request of a browser without a cookie. -/
def comes (browser : Nat) (request : Request) : Choice Incoming :=
  .arrives ⟨browser, {}, calmly 0 "order", request⟩

/-- The next `n` calls of request `i`. -/
def works (i n : Nat) : List (Choice Incoming) := List.replicate n (.serves i)

/-- The events of a script, each with the number of moves it makes before the next arrives. -/
def oneByOne (events : List (Event × Nat)) : List (Choice Incoming) :=
  events.zipIdx.flatMap fun x =>
    .arrives ⟨x.1.1.browser, x.1.1.cookie, x.1.1.env, x.1.1.request⟩ :: works x.2 x.1.2

/-- The tables after the salon of `opening` is registered. -/
def openedSalon : Db := (play plain Sys.init (opening "1")).2.db

/-- The request ends in an exception. -/
def failed (m : ServerMove) : Bool :=
  match m.act with
  | .ends reply => (reply initAllDatabases).body.failed
  | _ => false

def refusedCall (x : Command Write × Except Text Db) : Bool :=
  match x.2 with
  | .ok _ => false
  | .error _ => true

def refused (m : ServerMove) : Bool := m.call?.any refusedCall

end Gloora
