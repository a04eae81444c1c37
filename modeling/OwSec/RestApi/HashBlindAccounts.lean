import OwSec.RestApi.HashBlind
import OwSec.RestApi.SubUsers

/-!
# Password hashes and the records of the accounts

The four handlers that read and write the records of users and subscribers.  Every path that shows
a record clears its password columns first, and nothing else that is decided on the way looks at
them, unless the request sets a password: then the old ones are compared with the new one.
-/

namespace OwSec

open SecurityObjects Kit ACLProcessor

namespace RestApi

variable (svc : Service)

/-- Showing the record of an address. -/
theorem SameRuns.showByEmail (isSub : Bool) (email : String) :
    let show_ : Handling Response := do
      let user ← UserHandler.getUserByEmail svc isSub email
      let user ← Command.orStop user .notFound
      return .user (sanitize user)
    SameReply show_ show_ := by
  refine .bind (SameRuns.getUserByEmail svc isSub email) fun o o' ho ↦ ?_
  refine .bind (.orStop ho _) fun u v huv ↦ ?_
  exact .pure (congrArg Response.user huv.sanitize_eq)

namespace UserHandler

variable {c d : Context}

theorem doGet_same (h : c.SameButPasswords d) : SameReply (doGet svc c) (doGet svc d) := by
  obtain ⟨hash, hashes, rfl⟩ := h
  refine .bind (.ensure rfl _) fun _ _ _ ↦ ?_
  refine .bind (.ensure rfl _) fun _ _ _ ↦ ?_
  refine .ite_bind Iff.rfl (fun _ ↦ SameRuns.getUserByEmail svc false _)
    (fun _ ↦ SameRuns.getUserById svc false _) fun o o' ho ↦ ?_
  refine .bind (.orStop ho _) fun u v huv ↦ ?_
  obtain ⟨hash', hashes', rfl⟩ := huv.exists_eq
  refine .bind (.ensure rfl _) fun _ _ _ ↦ ?_
  exact .pure rfl

theorem doDelete_same (h : c.SameButPasswords d) : SameReply (doDelete svc c) (doDelete svc d) := by
  obtain ⟨hash, hashes, rfl⟩ := h
  refine .bind (.ensure rfl _) fun _ _ _ ↦ ?_
  refine .bind (SameRuns.getUserById svc false _) fun o o' ho ↦ ?_
  refine .bind (.orStop ho _) fun u v huv ↦ ?_
  obtain ⟨hash', hashes', rfl⟩ := huv.exists_eq
  refine .bind (.ensure rfl _) fun _ _ _ ↦ ?_
  refine .bind (SameRuns.writeUser (f := fun p ↦ p.deleteUser _) fun _ _ hpq ↦ hpq.deleteUser _)
    fun _ _ _ ↦ ?_
  refine .bind (SameRuns.writeUser (f := fun p ↦ p.deleteUserFromCache svc _)
    fun _ _ hpq ↦ hpq.deleteUserFromCache _) fun _ _ _ ↦ ?_
  refine .bind (SameRuns.write fun _ _ _ ↦ rfl) fun _ _ _ ↦ ?_
  refine .bind (SameRuns.write fun _ _ _ ↦ rfl) fun _ _ _ ↦ ?_
  refine .bind (SameRuns.writeUser (f := fun p ↦
    { p with tokens := p.tokens.revokeAllTokens svc _ }) fun _ _ hpq ↦ hpq.revokeAllTokens _)
    fun _ _ _ ↦ ?_
  refine .bind (SameRuns.write fun _ _ _ ↦ rfl) fun _ _ _ ↦ ?_
  exact .pure rfl

theorem doPost_same (h : c.SameButPasswords d) : SameReply (doPost svc c) (doPost svc d) := by
  obtain ⟨hash, hashes, rfl⟩ := h
  refine .bind (.ensure rfl _) fun _ _ _ ↦ ?_
  refine .bind_eq (.orStop_eq _ _) fun newUser ↦ ?_
  refine .bind (.ensure rfl _) fun _ _ _ ↦ ?_
  refine .bind (.ensure rfl _) fun _ _ _ ↦ ?_
  refine .bind (.ensure rfl _) fun _ _ _ ↦ ?_
  refine .bind (SameRuns.getUserByEmail svc true _) fun o o' ho ↦ ?_
  refine .bind (.ensure ?_ _) fun _ _ _ ↦ ?_
  · cases ho <;> rfl
  refine .bind (.ensure rfl _) fun _ _ _ ↦ ?_
  refine .bind_eq (SameRuns.createUser svc false _ _) fun created ↦ ?_
  refine .bind_eq (.orStop_eq _ _) fun newUser ↦ ?_
  refine .ite Iff.rfl (fun _ ↦ ?_) fun _ ↦ SameRuns.showByEmail svc false _
  refine .bind (SameRuns.verifyEmailWith _ _ _ _ (UserInfo.SameButPasswords.refl _))
    fun u v huv ↦ ?_
  obtain ⟨hash', hashes', rfl⟩ := huv.exists_eq
  refine .bind (SameRuns.updateUserInfo svc false _ huv) fun _ _ _ ↦ ?_
  exact SameRuns.showByEmail svc false _

section Edits

variable {u v : UserInfo} (hash : String) (hashes : List String) (caller : UserInfo)
  (raw : JsonObject)

theorem applyOwnerUpdate_same (h : u.SameButPasswords v) :
    ExceptRel UserInfo.SameButPasswords (applyOwnerUpdate svc.json caller raw u)
      (applyOwnerUpdate svc.json (caller.rehash hash hashes) raw v) := by
  obtain ⟨hash', hashes', rfl⟩ := h.exists_eq
  unfold applyOwnerUpdate
  refine .ite Iff.rfl (fun _ ↦ ?_) fun _ ↦ .ok h
  exact .bind_eq (.refl _) fun _ ↦ .ok rfl

theorem applyProfileFields_same (h : u.SameButPasswords v) :
    ExceptRel UserInfo.SameButPasswords (applyProfileFields svc.json raw u)
      (applyProfileFields svc.json raw v) := by
  obtain ⟨hash', hashes', rfl⟩ := h.exists_eq
  refine .bind_eq (.refl _) fun _ ↦ ?_
  refine .bind_eq (.refl _) fun _ ↦ ?_
  refine .bind_eq (.refl _) fun _ ↦ ?_
  refine .bind_eq (.refl _) fun _ ↦ ?_
  refine .bind_eq (.refl _) fun _ ↦ ?_
  exact .ok rfl

theorem applyAdminStatusFields_same (h : u.SameButPasswords v) :
    ExceptRel UserInfo.SameButPasswords (applyAdminStatusFields svc.json raw u)
      (applyAdminStatusFields svc.json raw v) := by
  obtain ⟨hash', hashes', rfl⟩ := h.exists_eq
  refine .bind_eq (.refl _) fun _ ↦ ?_
  refine .bind_eq (.refl _) fun _ ↦ ?_
  exact .ok rfl

theorem applyRoleChange_same (h : u.SameButPasswords v) :
    ExceptRel UserInfo.SameButPasswords (applyRoleChange svc.json caller u raw)
      (applyRoleChange svc.json (caller.rehash hash hashes) v raw) := by
  obtain ⟨hash', hashes', rfl⟩ := h.exists_eq
  refine .bind_eq (.refl _) fun role ↦ ?_
  cases role with
  | none => exact .ok rfl
  | some newRole =>
    refine .ite Iff.rfl (fun _ ↦ ?_) fun _ ↦ .ok rfl
    exact .ite Iff.rfl (fun _ ↦ .ok rfl) fun _ ↦ .error _

theorem appendNotes_same (now : ℕ) (h : u.SameButPasswords v) :
    ExceptRel UserInfo.SameButPasswords (appendNotes svc.json now caller raw u)
      (appendNotes svc.json now (caller.rehash hash hashes) raw v) := by
  obtain ⟨hash', hashes', rfl⟩ := h.exists_eq
  unfold appendNotes
  rcases raw.get? "notes" with _ | j
  · exact .ok h
  · exact .bind_eq (.refl _) fun _ ↦ .ok rfl

variable {raw}

/-- The edits that look at nothing but the body, where it names no password. -/
theorem applyBody_same (m : Moment) (hraw : raw.has "currentPassword" = false)
    (h : u.SameButPasswords v) :
    ExceptRel UserInfo.SameButPasswords (applyBody svc m caller raw u)
      (applyBody svc m (caller.rehash hash hashes) raw v) := by
  refine .bind (applyOwnerUpdate_same svc hash hashes caller raw h) fun u v huv ↦ ?_
  refine .bind (applyProfileFields_same svc raw huv) fun u v huv ↦ ?_
  refine .bind (applyAdminStatusFields_same svc raw huv) fun u v huv ↦ ?_
  refine .bind (applyRoleChange_same svc hash hashes caller raw huv) fun u v huv ↦ ?_
  refine .bind (appendNotes_same svc hash hashes caller raw m.now huv) fun u v huv ↦ ?_
  have hget : raw.get? "currentPassword" = none := JsonObject.get?_of_not_has hraw
  unfold applyPasswordChange
  rw [hget]
  exact .ok huv

end Edits

/-- The change of the second factor. -/
theorem applyMfaChange_same (m : Moment) (caller newUser : UserInfo) (hasMfaUpdate : Bool)
    {u v : UserInfo} (h : u.SameButPasswords v) (hash : String) (hashes : List String) :
    SameRuns UserInfo.SameButPasswords (applyMfaChange svc m caller newUser hasMfaUpdate u)
      (applyMfaChange svc m (caller.rehash hash hashes) newUser hasMfaUpdate v) := by
  obtain ⟨hash', hashes', rfl⟩ := h.exists_eq
  refine .ite Iff.rfl (fun _ ↦ .pure h) fun _ ↦ ?_
  refine .ite Iff.rfl (fun _ ↦ ?_) fun _ ↦ .pure rfl
  refine .bind (.ensure rfl _) fun _ _ _ ↦ ?_
  refine .bind (.ensure rfl _) fun _ _ _ ↦ ?_
  refine .bind (.ensure rfl _) fun _ _ _ ↦ ?_
  refine .ite Iff.rfl (fun _ ↦ ?_) fun _ ↦ ?_
  · rcases newUser.userTypeProprietaryInfo.mobiles with _ | ⟨first, rest⟩
    · exact .stop _
    · refine .bind_eq (SameRuns.reads fun _ _ _ ↦ rfl) fun valid ↦ ?_
      refine .bind (.ensure rfl _) fun _ _ _ ↦ ?_
      exact .pure rfl
  refine .ite Iff.rfl (fun _ ↦ ?_) fun _ ↦ .pure rfl
  refine .ite Iff.rfl (fun _ ↦ ?_) fun _ ↦ .bind_eq (.pure rfl) fun _ ↦ .pure rfl
  refine .bind_eq (SameRuns.totpCompleteValidation m.now caller.id false) fun secret ↦ ?_
  exact .bind_eq (.orStop_eq _ _) fun _ ↦ .pure rfl

theorem buildUpdatedUserResponse_same (id : String) (missing : Response) :
    SameReply (buildUpdatedUserResponse svc id missing)
      (buildUpdatedUserResponse svc id missing) := by
  refine .bind (SameRuns.getUserById svc false _) fun o o' ho ↦ ?_
  refine .bind (.orStop ho _) fun u v huv ↦ ?_
  exact .pure (congrArg Response.user huv.sanitize_eq)

/-- A PUT that asks for a new password. -/
def setsPassword (r : Request) : Bool :=
  r.getParameter "resetMFA" != "true" && r.getParameter "forgotPassword" != "true" &&
    (r.body.parsed.getD []).has "currentPassword"

theorem updateFromBody_same (id : String) {u v : UserInfo} (huv : u.SameButPasswords v)
    (hbody : (c.request.body.parsed.getD []).has "currentPassword" = false) (hash : String)
    (hashes : List String) :
    SameReply (updateFromBody svc c id u) (updateFromBody svc (c.rehash hash hashes) id v) := by
  refine .bind_eq (.orStop_eq _ _) fun newUser ↦ ?_
  refine .bind_eq (.lift (.refl _)) fun valid ↦ ?_
  refine .bind (.ensure rfl _) fun _ _ _ ↦ ?_
  refine .bind (.ensure rfl _) fun _ _ _ ↦ ?_
  refine .bind (.lift (applyBody_same svc hash hashes _ _ hbody huv)) fun u v huv ↦ ?_
  refine .ite_bind (V := UserInfo.SameButPasswords) Iff.rfl
    (fun _ ↦ SameRuns.verifyEmailWith _ _ _ _ huv) (fun _ ↦ .pure huv) fun u v huv ↦ ?_
  refine .bind (applyMfaChange_same svc _ _ _ _ huv hash hashes) fun u v huv ↦ ?_
  obtain ⟨hash', hashes', rfl⟩ := huv.exists_eq
  refine .bind_eq (SameRuns.updateUserInfo svc false _ rfl) fun updated ↦ ?_
  refine .bind (.ensure rfl _) fun _ _ _ ↦ ?_
  exact buildUpdatedUserResponse_same svc id _

theorem doPut_same (h : c.SameButPasswords d) (hput : setsPassword c.request = false) :
    SameReply (doPut svc c) (doPut svc d) := by
  obtain ⟨hash, hashes, rfl⟩ := h
  refine .bind (.ensure rfl _) fun _ _ _ ↦ ?_
  refine .bind (SameRuns.getUserById svc false _) fun o o' ho ↦ ?_
  refine .bind (.orStop ho _) fun u v huv ↦ ?_
  obtain ⟨hash', hashes', rfl⟩ := huv.exists_eq
  refine .bind (.ensure rfl _) fun _ _ _ ↦ ?_
  refine .ite Iff.rfl (fun _ ↦ ?_) fun hreset ↦ ?_
  · refine .bind (.ensure rfl _) fun _ _ _ ↦ ?_
    refine .bind_eq (SameRuns.updateUserInfo svc false _ rfl) fun updated ↦ ?_
    refine .bind (.ensure rfl _) fun _ _ _ ↦ ?_
    exact buildUpdatedUserResponse_same svc _ _
  refine .ite Iff.rfl (fun _ ↦ ?_) fun hforgot ↦ ?_
  · exact .bind (SameRuns.createAction _) fun _ _ _ ↦ .pure rfl
  · have hbody : (c.request.body.parsed.getD []).has "currentPassword" = false := by
      simp only [beq_iff_eq] at hreset hforgot
      simpa [setsPassword, hreset, hforgot] using hput
    exact updateFromBody_same svc _ huv hbody hash hashes

end UserHandler

namespace UsersHandler

variable {c d : Context}

theorem selectedUsers_same (caller : UserInfo) (hash : String) (hashes : List String)
    (ids : List String) :
    SameReply (selectedUsers svc caller ids) (selectedUsers svc (caller.rehash hash hashes) ids) := by
  induction ids with
  | nil => exact .pure rfl
  | cons i rest ih =>
    refine .bind (SameRuns.getUserById svc false i) fun o o' ho ↦ ?_
    refine .bind_eq ih fun users ↦ ?_
    cases ho with
    | none => exact .pure rfl
    | some huv =>
      obtain ⟨hash', hashes', rfl⟩ := huv.exists_eq
      exact .pure rfl

/-- Whose rights decide. -/
theorem effectiveUserInfo_same (h : c.SameButPasswords d) :
    SameRuns UserInfo.SameButPasswords (effectiveUserInfo svc c) (effectiveUserInfo svc d) := by
  obtain ⟨hash, hashes, rfl⟩ := h
  refine .ite_bind (V := UserInfo.SameButPasswords) Iff.rfl (fun _ ↦ ?_) (fun _ ↦ .pure rfl)
    fun u v huv ↦ ?_
  · refine .bind (.ensure rfl _) fun _ _ _ ↦ ?_
    refine .bind (.ensure rfl _) fun _ _ _ ↦ ?_
    refine .bind (SameRuns.checkToken svc false _ _) fun r r' hr ↦ ?_
    obtain ⟨uinfo, expired⟩ := r
    obtain ⟨uinfo', expired'⟩ := r'
    obtain ⟨huinfo, rfl⟩ := CheckResult.mk.inj hr
    refine .bind (.ensure rfl _) fun _ _ _ ↦ ?_
    refine .bind (.orStop (SameUser.option huinfo) _) fun ui ui' hui ↦ ?_
    exact .pure hui.userinfo
  · obtain ⟨hash', hashes', rfl⟩ := huv.exists_eq
    exact .bind (.ensure rfl _) fun _ _ _ ↦ .pure rfl

theorem doGet_same (h : c.SameButPasswords d) : SameReply (doGet svc c) (doGet svc d) := by
  refine .bind (effectiveUserInfo_same svc h) fun u v huv ↦ ?_
  obtain ⟨hash, hashes, rfl⟩ := h
  obtain ⟨hash', hashes', rfl⟩ := huv.exists_eq
  refine .ite Iff.rfl (fun _ ↦ ?_) fun _ ↦ ?_
  · refine .bind (SameRuns.getUsers svc false _ _ _) fun found found' hfound ↦ ?_
    obtain ⟨any, users⟩ := found
    obtain ⟨any', users'⟩ := found'
    obtain ⟨rfl, husers⟩ := hfound
    refine .pure ?_
    simp only [husers]
    rfl
  · exact .bind_eq (selectedUsers_same svc u hash' hashes' _) fun _ ↦ .pure rfl

end UsersHandler

namespace SubUserHandler

open UserHandler (appendNotes_same applyMfaChange_same)

variable {c d : Context}

section Edits

variable {u v : UserInfo} (hash : String) (hashes : List String) (caller : UserInfo) (id : String)
  (raw : JsonObject)

theorem applyFields_same (h : u.SameButPasswords v) :
    ExceptRel UserInfo.SameButPasswords (applyFields svc raw u) (applyFields svc raw v) := by
  obtain ⟨hash', hashes', rfl⟩ := h.exists_eq
  refine .bind_eq (.refl _) fun _ ↦ ?_
  refine .bind_eq (.refl _) fun _ ↦ ?_
  refine .bind_eq (.refl _) fun _ ↦ ?_
  refine .bind_eq (.refl _) fun _ ↦ ?_
  refine .bind_eq (.refl _) fun _ ↦ ?_
  refine .bind_eq (.refl _) fun _ ↦ ?_
  refine .bind_eq (.refl _) fun _ ↦ ?_
  refine .bind_eq (.refl _) fun _ ↦ ?_
  exact .ok rfl

theorem applyRoleChange_same (h : u.SameButPasswords v) :
    ExceptRel UserInfo.SameButPasswords (applyRoleChange svc caller id raw u)
      (applyRoleChange svc (caller.rehash hash hashes) id raw v) := by
  obtain ⟨hash', hashes', rfl⟩ := h.exists_eq
  refine .bind_eq (.refl _) fun role ↦ ?_
  cases role with
  | none => exact .ok rfl
  | some newRole =>
    refine .ite Iff.rfl (fun _ ↦ ?_) fun _ ↦ .ok rfl
    refine .ite Iff.rfl (fun _ ↦ .error _) fun _ ↦ ?_
    exact .ite Iff.rfl (fun _ ↦ .error _) fun _ ↦ .ok rfl

variable {raw}

/-- The edits that look at nothing but the body, where it names no password. -/
theorem applyBody_same (m : Moment) (hraw : raw.has "currentPassword" = false)
    (h : u.SameButPasswords v) :
    ExceptRel UserInfo.SameButPasswords (applyBody svc m caller id raw u)
      (applyBody svc m (caller.rehash hash hashes) id raw v) := by
  refine .bind (applyFields_same svc raw h) fun u v huv ↦ ?_
  refine .bind (applyRoleChange_same svc hash hashes caller id raw huv) fun u v huv ↦ ?_
  refine .bind (appendNotes_same svc hash hashes caller raw m.now huv) fun u v huv ↦ ?_
  have hget : raw.get? "currentPassword" = none := JsonObject.get?_of_not_has hraw
  unfold applyPasswordChange
  rw [hget]
  exact .ok huv

end Edits

/-- A PUT that asks for a new password. -/
def setsPassword (r : Request) : Bool :=
  !r.getBoolParameter "resetMFA" && !r.getBoolParameter "forgotPassword" &&
    !r.getBoolParameter "resetPassword" && (r.body.parsed.getD []).has "currentPassword"

theorem updateFromBody_same (id : String) {u v : UserInfo} (huv : u.SameButPasswords v)
    (hbody : (c.request.body.parsed.getD []).has "currentPassword" = false) (hash : String)
    (hashes : List String) :
    SameReply (updateFromBody svc c id u) (updateFromBody svc (c.rehash hash hashes) id v) := by
  refine .bind (V := UserInfo.SameButPasswords) ?_ fun u v huv ↦ ?_
  · refine .bind_eq (.orStop_eq _ _) fun newUser ↦ ?_
    refine .bind_eq (.lift (.refl _)) fun role ↦ ?_
    refine .bind (.ensure rfl _) fun _ _ _ ↦ ?_
    refine .bind (.lift (applyBody_same svc hash hashes _ _ _ hbody huv)) fun u v huv ↦ ?_
    refine .ite_bind (V := UserInfo.SameButPasswords) Iff.rfl
      (fun _ ↦ SameRuns.verifyEmailWith _ _ _ _ huv) (fun _ ↦ .pure huv) fun u v huv ↦ ?_
    exact applyMfaChange_same svc _ _ _ _ huv hash hashes
  refine .bind_eq (SameRuns.updateUserInfo svc true _ huv) fun updated ↦ ?_
  refine .bind (.ensure rfl _) fun _ _ _ ↦ ?_
  refine .bind (SameRuns.getUserById svc true _) fun o o' ho ↦ ?_
  exact .pure (congrArg Response.user (UserInfo.SameButPasswords.getD ho).sanitize_eq)

theorem doGet_same (h : c.SameButPasswords d) : SameReply (doGet svc c) (doGet svc d) := by
  obtain ⟨hash, hashes, rfl⟩ := h
  refine .bind (.ensure rfl _) fun _ _ _ ↦ ?_
  refine .ite_bind Iff.rfl (fun _ ↦ SameRuns.getUserByEmail svc true _)
    (fun _ ↦ SameRuns.getUserById svc true _) fun o o' ho ↦ ?_
  refine .bind (.orStop ho _) fun u v huv ↦ ?_
  exact .pure (congrArg Response.user huv.sanitize_eq)

theorem doDelete_same (h : c.SameButPasswords d) : SameReply (doDelete svc c) (doDelete svc d) := by
  obtain ⟨hash, hashes, rfl⟩ := h
  refine .bind (.ensure rfl _) fun _ _ _ ↦ ?_
  refine .bind (SameRuns.getUserById svc true _) fun o o' ho ↦ ?_
  refine .bind (.orStop ho _) fun u v huv ↦ ?_
  obtain ⟨hash', hashes', rfl⟩ := huv.exists_eq
  refine .bind (.ensure rfl _) fun _ _ _ ↦ ?_
  refine .bind (.ensure rfl _) fun _ _ _ ↦ ?_
  refine .bind (SameRuns.writeSub (f := fun p ↦ p.deleteUser _) fun _ _ hpq ↦ hpq.deleteUser _)
    fun _ _ _ ↦ ?_
  refine .bind (SameRuns.writeSub (f := fun p ↦ p.deleteUserFromCache svc _)
    fun _ _ hpq ↦ hpq.deleteUserFromCache _) fun _ _ _ ↦ ?_
  refine .bind (SameRuns.writeSub (f := fun p ↦
    { p with tokens := p.tokens.revokeAllTokens svc u.email }) fun _ _ hpq ↦ hpq.revokeAllTokens _)
    fun _ _ _ ↦ ?_
  refine .bind (SameRuns.write fun _ _ _ ↦ rfl) fun _ _ _ ↦ ?_
  refine .bind (SameRuns.write fun _ _ _ ↦ rfl) fun _ _ _ ↦ ?_
  exact .pure rfl

theorem doPost_same (h : c.SameButPasswords d) : SameReply (doPost svc c) (doPost svc d) := by
  obtain ⟨hash, hashes, rfl⟩ := h
  refine .bind (.ensure rfl _) fun _ _ _ ↦ ?_
  refine .bind_eq (.orStop_eq _ _) fun newUser ↦ ?_
  refine .bind (.ensure rfl _) fun _ _ _ ↦ ?_
  refine .bind (SameRuns.getUserByEmail svc true _) fun o o' ho ↦ ?_
  refine .bind (.ensure ?_ _) fun _ _ _ ↦ ?_
  · cases ho <;> rfl
  refine .bind (.ensure rfl _) fun _ _ _ ↦ ?_
  refine .bind (.ensure rfl _) fun _ _ _ ↦ ?_
  refine .bind (.ensure rfl _) fun _ _ _ ↦ ?_
  refine .bind_eq (SameRuns.createUser svc true _ _) fun created ↦ ?_
  refine .bind_eq (.orStop_eq _ _) fun newUser ↦ ?_
  refine .ite Iff.rfl (fun _ ↦ ?_) fun _ ↦ SameRuns.showByEmail svc true _
  refine .bind (SameRuns.verifyEmailWith _ _ _ _ (UserInfo.SameButPasswords.refl _))
    fun u v huv ↦ ?_
  obtain ⟨hash', hashes', rfl⟩ := huv.exists_eq
  refine .bind (SameRuns.updateUserInfo svc true _ huv) fun _ _ _ ↦ ?_
  exact SameRuns.showByEmail svc true _

theorem doPut_same (h : c.SameButPasswords d) (hput : setsPassword c.request = false) :
    SameReply (doPut svc c) (doPut svc d) := by
  obtain ⟨hash, hashes, rfl⟩ := h
  refine .bind (.ensure rfl _) fun _ _ _ ↦ ?_
  refine .bind (SameRuns.getUserById svc true _) fun o o' ho ↦ ?_
  refine .bind (.orStop ho _) fun u v huv ↦ ?_
  obtain ⟨hash', hashes', rfl⟩ := huv.exists_eq
  refine .bind (.ensure rfl _) fun _ _ _ ↦ ?_
  refine .ite Iff.rfl (fun _ ↦ ?_) fun hreset ↦ ?_
  · refine .bind (.ensure rfl _) fun _ _ _ ↦ ?_
    refine .bind_eq (SameRuns.updateUserInfo svc true _ rfl) fun updated ↦ ?_
    refine .bind (SameRuns.getUserByEmail svc true _) fun o o' ho ↦ ?_
    exact .pure (congrArg Response.user (UserInfo.SameButPasswords.getD ho).sanitize_eq)
  refine .ite Iff.rfl (fun _ ↦ ?_) fun hforgot ↦ ?_
  · exact .bind (SameRuns.createAction _) fun _ _ _ ↦ .pure rfl
  · have hbody : (c.request.body.parsed.getD []).has "currentPassword" = false := by
      simp only [Bool.or_eq_true, not_or, Bool.not_eq_true] at hreset hforgot
      simpa [setsPassword, hreset, hforgot] using hput
    exact updateFromBody_same svc _ huv hbody hash hashes

end SubUserHandler

namespace SubUsersHandler

variable {c d : Context}

theorem selectedUsers_same (ids : List String) :
    SameReply (selectedUsers svc ids) (selectedUsers svc ids) := by
  induction ids with
  | nil => exact .pure rfl
  | cons i rest ih =>
    refine .bind (SameRuns.getUserById svc true i) fun o o' ho ↦ ?_
    refine .bind_eq ih fun users ↦ ?_
    cases ho with
    | none => exact .pure rfl
    | some huv =>
      obtain ⟨hash, hashes, rfl⟩ := huv.exists_eq
      exact .pure rfl

theorem doGet_same (h : c.SameButPasswords d) : SameReply (doGet svc c) (doGet svc d) := by
  obtain ⟨hash, hashes, rfl⟩ := h
  refine .ite Iff.rfl (fun _ ↦ ?_) fun _ ↦ ?_
  · refine .bind_eq (Command.Related.reads fun s t hst ↦ ?_) fun _ ↦ .pure rfl
    rw [show (c.rehash hash hashes).request = c.request from rfl]
    split
    · exact (hst.population true).count _
    · exact (hst.population false).count _
  refine .ite Iff.rfl (fun _ ↦ ?_) fun _ ↦ ?_
  · refine .bind (SameRuns.getUsers svc true _ _ _) fun found found' hfound ↦ ?_
    refine .pure ?_
    simp only [hfound.2]
    rfl
  · exact .bind_eq (selectedUsers_same svc _) fun _ ↦ .pure rfl

end SubUsersHandler

end RestApi

end OwSec
