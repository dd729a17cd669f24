import Mathlib.Logic.Function.Basic
import AiopsBackend.System

/-!
# What passwords are for

The abstract state knows the account of every address, the password of every account, in the clear,
and the account that every reset link is for as long as it has not been used. `CredentialStep` says
what a call and its outcome do to it: only who names the password of an account logs in or changes
it, and a reset takes a link that was requested for the account. There are no hashes and no tables,
and time does not occur: a link may also be refused.
-/

namespace AiopsBackend

structure Credentials where
  account : String → Option Uuid
  password : Uuid → Option String
  link : String → Option Uuid

namespace Credentials

variable (c : Credentials)

/-- A new account. -/
def register (address : String) (u : Uuid) (password : String) : Credentials :=
  { c with
    account := Function.update c.account address (some u)
    password := Function.update c.password u (some password) }

def setPassword (u : Uuid) (password : String) : Credentials :=
  { c with password := Function.update c.password u (some password) }

def issue (link : String) (u : Uuid) : Credentials :=
  { c with link := Function.update c.link link (some u) }

def spend (link : String) : Credentials :=
  { c with link := Function.update c.link link none }

section

variable (address password link : String) (u : Uuid)

@[simp] theorem register_account_self : (c.register address u password).account address = some u :=
  Function.update_self _ _ _

@[simp] theorem register_password_self :
    (c.register address u password).password u = some password := Function.update_self _ _ _

@[simp] theorem setPassword_self : (c.setPassword u password).password u = some password :=
  Function.update_self _ _ _

@[simp] theorem issue_self : (c.issue link u).link link = some u := Function.update_self _ _ _

@[simp] theorem spend_self : (c.spend link).link link = none := Function.update_self _ _ _

variable {address password link u}

theorem register_password_of_ne {v : Uuid} (h : v ≠ u) :
    (c.register address u password).password v = c.password v := Function.update_of_ne h _ _

theorem setPassword_of_ne {v : Uuid} (h : v ≠ u) :
    (c.setPassword u password).password v = c.password v := Function.update_of_ne h _ _

theorem issue_of_ne {l : String} (h : l ≠ link) : (c.issue link u).link l = c.link l :=
  Function.update_of_ne h _ _

theorem spend_of_ne {l : String} (h : l ≠ link) : (c.spend link).link l = c.link l :=
  Function.update_of_ne h _ _

end

/-- The address and the password belong to the account `u`. -/
def Knows (address password : String) (u : Uuid) : Prop :=
  c.account address = some u ∧ c.password u = some password

end Credentials

/-- The calls that look at a password or replace it, or hand out a link for that. -/
def Op.credential : Op → Bool
  | .pub (.register _ _) => true
  | .pub (.login _ _) => true
  | .pub (.passwordResetRequest _) => true
  | .pub (.passwordResetConfirm _ _) => true
  | .me _ (.changePassword _ _) => true
  | _ => false

/-- One call on the credentials. -/
inductive CredentialStep (P : Platform) (c : Credentials) (e : Event) : Credentials → Prop
  | failed {exc : Exc} (hres : e.result = .error exc) : CredentialStep P c e c
  | other {r : Reply} (hres : e.result = .ok r) (hop : e.op.credential = false) :
      CredentialStep P c e c
  | register {email password : String} {u : User} (hop : e.op = .pub (.register email password))
      (hres : e.result = .ok (.user u)) (hfree : c.account (P.lower email) = none)
      (hnew : c.password u.id = none) :
      CredentialStep P c e (c.register (P.lower email) u.id password)
  | login {email password : String} {u : User} {t : AuthTokens}
      (hop : e.op = .pub (.login email password)) (hres : e.result = .ok (.auth u t))
      (hknows : c.Knows (P.lower email) password u.id) : CredentialStep P c e c
  | changePassword {caller : Uuid} {currentPassword newPassword : String}
      (hop : e.op = .me caller (.changePassword currentPassword newPassword))
      (hres : e.result = .ok .done) (hpass : c.password caller = some currentPassword)
      (hne : currentPassword ≠ newPassword) :
      CredentialStep P c e (c.setPassword caller newPassword)
  | request {email link : String} {u : Uuid} (hop : e.op = .pub (.passwordResetRequest email))
      (hres : e.result = .ok (.emailed (some link))) (haccount : c.account (P.lower email) = some u)
      (hnew : c.link link = none) : CredentialStep P c e (c.issue link u)
  | requestMissed {email : String} (hop : e.op = .pub (.passwordResetRequest email))
      (hres : e.result = .ok (.emailed none)) : CredentialStep P c e c
  | reset {link newPassword : String} {u : Uuid}
      (hop : e.op = .pub (.passwordResetConfirm link newPassword)) (hres : e.result = .ok .done)
      (hlink : c.link link = some u) :
      CredentialStep P c e ((c.setPassword u newPassword).spend link)

/-- Nobody has an account yet. -/
def Credentials.empty : Credentials := ⟨fun _ => none, fun _ => none, fun _ => none⟩

end AiopsBackend
