import TpmRs.Base.Structures

/-!
# Sessions and authorization areas

A session computes its part of a command and validates its part of the response. An
authorization area holds up to three sessions of different types; `sessionList` is
the list of those that the client uses, in order.
-/

namespace TpmRs

open Library Library.Fallible

/-- The `Session` trait. -/
class Session (S : Type) where
  getAuthCommand : S → TpmsAuthCommand
  validateAuthResponse : S → TpmsAuthResponse → Except (Fault TssError) Unit

/-- The placeholder that has no instances. -/
inductive NoSession

instance : Session NoSession where
  getAuthCommand := nofun
  validateAuthResponse := nofun

/-- A password session. -/
structure PasswordSession where
  auth : Tpm2bAuth
  deriving DecidableEq

namespace PasswordSession

def new (password : List U8) : Except TpmRcError PasswordSession := do
  let auth ← Tpm2b.fromBytes _ password
  pure { auth := auth }

instance : Session PasswordSession where
  getAuthCommand self :=
    { sessionHandle := .rsPw
      nonce := .default
      sessionAttributes := ⟨0⟩
      hmac := self.auth }
  validateAuthResponse _ auth :=
    if auth.nonce.getSize ≠ 0 ∨ auth.sessionAttributes.val ≠ 0x1 ∨ auth.hmac.getSize ≠ 0 then
      .error (.err (.ofTssTcs .badParameter))
    else .ok ()

theorem wellFormed_getAuthCommand {self : PasswordSession} (h : self.auth.WellFormed) :
    TpmsAuthCommand.ty.WellFormed (Session.getAuthCommand self) := by
  have hnonce : (Tpm2b.default : Tpm2bNonce).WellFormed := Tpm2b.wellFormed_default
  simp only [TpmsAuthCommand.ty, Ty.WellFormed, NamedFields.WellFormed, TpmsAuthCommand.fields,
    Session.getAuthCommand, Equiv.coe_fn_mk, and_true]
  exact ⟨Ty.wellFormed_newtype _ _ _, hnonce, Ty.wellFormed_newtype _ _ _, h⟩

theorem validateAuthResponse_ne_panic (self : PasswordSession) (auth : TpmsAuthResponse) :
    Session.validateAuthResponse self auth ≠ .error .panic := by
  simp only [Session.validateAuthResponse]
  split_ifs <;> simp

/-- Every session that `new` returns sends well-formed authorizations. -/
theorem wellFormed_getAuthCommand_of_new {password : List U8} {self : PasswordSession}
    (h : new password = .ok self) :
    TpmsAuthCommand.ty.WellFormed (Session.getAuthCommand self) := by
  cases hauth : Tpm2b.fromBytes TpmtHa.unionSize password with
  | error e =>
    rw [new, hauth] at h
    cases h
  | ok auth =>
    rw [new, hauth] at h
    obtain rfl : { auth := auth } = self := Except.ok.inj h
    exact wellFormed_getAuthCommand (Tpm2b.wellFormed_of_fromBytes hauth)

end PasswordSession

/-- The `AuthorizationArea` trait. -/
class AuthorizationArea (AA : Type) (T U V : outParam Type) where
  decomposeRef : AA → Option T × Option U × Option V

namespace AuthorizationArea

instance : AuthorizationArea Unit NoSession NoSession NoSession where
  decomposeRef _ := (none, none, none)

instance {T : Type} [Session T] : AuthorizationArea T T NoSession NoSession where
  decomposeRef self := (some self, none, none)

instance {T U : Type} [Session T] [Session U] : AuthorizationArea (T × U) T U NoSession where
  decomposeRef self := (some self.1, some self.2, none)

instance {T U V : Type} [Session T] [Session U] [Session V] :
    AuthorizationArea (T × U × V) T U V where
  decomposeRef self := (some self.1, some self.2.1, some self.2.2)

variable {AA T U V : Type} [AuthorizationArea AA T U V]

def isEmpty (self : AA) : Bool := (decomposeRef self).1.isNone

/-- The two operations of a session. -/
structure SessionOps where
  authCommand : TpmsAuthCommand
  validate : TpmsAuthResponse → Except (Fault TssError) Unit

def SessionOps.of {S : Type} [Session S] (session : S) : SessionOps where
  authCommand := Session.getAuthCommand session
  validate := Session.validateAuthResponse session

variable [Session T] [Session U] [Session V]

/-- The sessions in the area up to the first that is missing. -/
def sessionList (self : AA) : List SessionOps :=
  match decomposeRef self with
  | (none, _, _) => []
  | (some s1, none, _) => [.of s1]
  | (some s1, some s2, none) => [.of s1, .of s2]
  | (some s1, some s2, some s3) => [.of s1, .of s2, .of s3]

theorem length_sessionList_le (self : AA) : (sessionList self).length ≤ 3 := by
  unfold sessionList
  split <;> simp

theorem isEmpty_eq (self : AA) : isEmpty self = (sessionList self).isEmpty := by
  rcases h : decomposeRef self with ⟨_ | s1, _ | s2, _ | s3⟩ <;> simp [isEmpty, sessionList, h]

end AuthorizationArea
end TpmRs
