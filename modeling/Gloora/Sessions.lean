import Gloora.Effects

/-!
# The session a reply leaves behind

`Leaves` lists the sessions a handler can end with. A key of a passkey or of a password reset
is set or removed by one request alone, and a passkey is remembered only if it was right.
-/

namespace Gloora
set_option autoImplicit false

open PyText

inductive Leaves (P : Platform) (db : Db) (s : Session) : Request → Session → Prop where
  | same (req : Request) : Leaves P db s req s
  | fresh (req : Request) : Leaves P db s req {}
  | admin (req : Request) : Leaves P db s req adminSession
  | user (req : Request) (id : Nat) (u : User) : Leaves P db s req (userSession id u)
  | booking (req : Request) (booking : Option PendingBooking) :
      Leaves P db s req { s with pendingBooking := booking }
  | toggle (id : Nat) (key : Option Text)
      (haccepted : wrongPasskey P (db.salons.find? id) key = .ok false) :
      Leaves P db s (.toggleVerify id key) { s with verifiedSalonToggleId := some id }
  | worker (id : Nat) (key : Option Text)
      (haccepted : wrongPasskey P (db.salons.find? id) key = .ok false) :
      Leaves P db s (.verifyWorkerAccessPost id key) { s with verifiedWorkerSalonId := some id }
  | salon (id : Nat) (key : Option Text)
      (haccepted : wrongPasskey P (db.salons.find? id) key = .ok false) :
      Leaves P db s (.verifyWorkerPage id key) { s with verifiedSalonId := some id }
  | reset (password : Option Text) : Leaves P db s (.resetPassword password)
      { s with resetMobile := none, resetOtp := none, otpVerified := false }

variable (P : Platform) (env : Env) (db : Db) (s : Session)

theorem handle_leaves (req : Request) : Leaves P db s req (handle P env db s req).session := by
  cases req with
  | logout => exact .fresh _
  | adminLogout => exact .fresh _
  | loginPage form =>
    cases form with
    | none => exact .same _
    | some form =>
      simp only [handle, loginPage]
      repeat' split
      all_goals first | exact .same _ | exact .admin _ | exact .user _ _ _
  | auth page action form =>
    simp only [handle, handleAuth]
    repeat' split
    all_goals first | exact .same _ | exact .admin _ | exact .user _ _ _
  | forgotPassword page mobile =>
    cases page
    · simp only [handle, forgotPasswordMale]
      split <;> exact .same _
    · simp only [handle, forgotPasswordFemale]
      repeat' split
      all_goals exact .same _
  | toggleVerify id key =>
    simp only [handle, toggleVerify]
    repeat' split
    all_goals first | exact .same _ | exact .toggle _ _ (by assumption)
  | verifyWorkerAccessPost id key =>
    simp only [handle, verifyWorkerAccessPost]
    repeat' split
    all_goals first | exact .same _ | exact .worker _ _ (by assumption)
  | verifyWorkerPage id key =>
    simp only [handle, verifyWorkerPage]
    repeat' split
    all_goals first | exact .same _ | exact .salon _ _ (by assumption)
  | resetPassword password =>
    simp only [handle, resetPassword]
    repeat' split
    all_goals first | exact .same _ | exact .reset _
  | bookSlotForSalon salonId form =>
    simp only [handle, bookSlotForSalon]
    repeat' split
    all_goals first | exact .same _ | exact .booking _ _
  | paymentSuccess form =>
    simp only [handle, paymentSuccess]
    repeat' split
    all_goals first | exact .same _ | exact .booking _ _
  | _ =>
    simp only [handle, adminDashboard, databaseViews, deleteUser, deleteSalon, deleteService,
      deleteBooking, deleteRow, verifyOtp, resetPasswordGet, registerSalon, listSalons, recommend,
      rateSalon, workerTogglePage, updateWorkerCount, getBookedSlots, payment]
    repeat' split
    all_goals exact .same _

end Gloora
