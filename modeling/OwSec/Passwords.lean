import OwSec.Service

/-!
# Password hashes and the password history

The password functions of `AuthService.cpp`.  A stored password is `salt|hash`, or a bare
hash for the default user of a fresh installation, and the hash covers the salt, the
password and the lower-cased e-mail address.  The regular expressions that a new password
must match come from the configuration; the source has one for users and one for
subscribers and otherwise the same code twice.
-/

namespace OwSec

open SecurityObjects

variable (svc : Service)

/-- `AuthService::ValidatePassword`. -/
def validatePassword (password : String) : Bool := svc.passwordValidation password

/-- `AuthService::ValidateSubPassword`. -/
def validateSubPassword (password : String) : Bool := svc.subPasswordValidation password

/-- `AuthService::ComputeNewPasswordHash`. -/
def computeNewPasswordHash (salt userName password : String) : String :=
  let uName := trim (toLower userName)
  salt ++ "|" ++ svc.sha2Hex (salt ++ password ++ uName)

/-- `AuthService::ValidatePasswordHash`; `ValidateSubPasswordHash` has the same body. -/
def validatePasswordHash (userName password storedPassword : String) : Bool :=
  let uName := trim (toLower userName)
  match tokenize '|' storedPassword with
  | [hash] => hash == svc.sha2Hex (password ++ uName)
  | [salt, hash] => hash == svc.sha2Hex (salt ++ password ++ uName)
  | _ => false

/-- The loop of `AuthService::SetPassword` over the history: `some true` when the new
password was used before, `none` when an entry has no first token to read. -/
def passwordAlreadyUsed (lastPasswords : List String) (email newPassword : String) :
    List String → Option Bool
  | [] => some false
  | i :: rest =>
    match tokenize '|' i with
    | [salt, _] =>
      let hash := svc.sha2Hex (salt ++ newPassword ++ email)
      let reused := lastPasswords.any fun j ↦
        match tokenize '|' j with
        | [_, oldHash] => oldHash == hash
        | _ => false
      if reused then some true else passwordAlreadyUsed lastPasswords email newPassword rest
    | hash :: _ =>
      if hash == svc.sha2Hex (newPassword ++ email) then some true
      else passwordAlreadyUsed lastPasswords email newPassword rest
    | [] => none

/-- What `AuthService::SetPassword` does to a record. -/
inductive SetPasswordResult
  /-- `true`: the record with the new password. -/
  | applied (user : UserInfo)
  /-- `false`: the password is in the history. -/
  | refused
  /-- An exception of the tokenizer leaves the function. -/
  | exception

/-- `AuthService::SetPassword`; `SetSubPassword` has the same body.  A refused record is
not used by any caller, so it is not returned. -/
def setPassword (salt newPassword : String) (user : UserInfo) : SetPasswordResult :=
  let email := toLower user.email
  match passwordAlreadyUsed svc user.lastPasswords email newPassword user.lastPasswords with
  | none => .exception
  | some true => .refused
  | some false =>
    let history :=
      if user.lastPasswords.length == svc.howManyOldPassword then user.lastPasswords.tail
      else user.lastPasswords
    let newHash := computeNewPasswordHash svc salt email newPassword
    .applied
      { user with
        email := email
        lastPasswords := history ++ [newHash]
        currentPassword := newHash
        changePassword := false }

/-- A password change leaves everything but the e-mail's case and the password fields. -/
theorem setPassword_applied {salt newPassword : String} {user user' : UserInfo}
    (h : setPassword svc salt newPassword user = .applied user') :
    user' = { user with
      email := toLower user.email
      lastPasswords := user'.lastPasswords
      currentPassword := user'.currentPassword
      changePassword := false } := by
  simp only [setPassword] at h
  cases hused : passwordAlreadyUsed svc user.lastPasswords (toLower user.email) newPassword
      user.lastPasswords with
  | none => simp [hused] at h
  | some used =>
    cases used with
    | true => simp [hused] at h
    | false =>
      simp only [hused, SetPasswordResult.applied.injEq] at h
      rw [← h]

end OwSec
