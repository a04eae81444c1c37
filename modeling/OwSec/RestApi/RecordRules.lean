import OwSec.RestApi.Callers
import OwSec.RestApi.SubUser
import OwSec.RestApi.UserEffects
import OwSec.Storage.RecordInvariant

/-!
# What requests do to single records

Every request that writes user records reads one, edits it, and writes it back, or creates
one.  For a property of single records it is therefore enough to know that the edits keep
it.  This file lists the edits and shows, handler by handler, that nothing else is written:
a password is set, a role is changed, the second factor is changed or reset, a record is
created.  Results about runs of requests then only look at the edits.
-/

namespace OwSec

open SecurityObjects Kit

variable {svc : Service} {I : RecordInvariant}

/-! ## The storage in the middle of a request -/

namespace Storage

variable {s s' : Storage} {isSub : Bool}

/-- What leaves the populations and the enrolments keeps the invariant. -/
theorem Satisfies.congr (h : s.Satisfies I) (hu : s'.user = s.user) (hs : s'.sub = s.sub)
    (ht : s'.totp = s.totp) : s'.Satisfies I := by
  refine ⟨fun isSub ↦ ?_, ht ▸ h.enrolments⟩
  cases isSub
  · exact (h.records false).congr (congrArg Population.users hu) (congrArg Population.cacheById hu)
  · exact (h.records true).congr (congrArg Population.users hs) (congrArg Population.cacheById hs)

/-- Replacing a population by one that satisfies the invariant keeps it. -/
theorem Satisfies.setPopulation (h : s.Satisfies I) {p : Population}
    (hp : p.All (I.record isSub)) : (s.setPopulation isSub p).Satisfies I := by
  constructor
  case records =>
    intro b
    by_cases hb : b = isSub
    · subst hb
      rw [Storage.population_setPopulation]
      exact hp
    · rw [Storage.population_setPopulation_ne _ _ hb]
      exact h.records b
  case enrolments =>
    cases isSub <;> exact h.enrolments

/-- Storing a link keeps the invariant. -/
theorem Satisfies.createAction (h : s.Satisfies I) (a : ActionLink) :
    (s.createAction a).Satisfies I := by
  unfold Storage.createAction
  split
  · exact h.congr rfl rfl rfl
  · exact h

/-- Looking a record up keeps the invariant. -/
theorem Satisfies.getUserById (h : s.Satisfies I) (id : String) :
    (s.onPopulation isSub fun p ↦ p.getUserById svc id).2.Satisfies I :=
  h.setPopulation ((h.records isSub).subset (Population.records_getUserById svc id))

theorem Satisfies.getUserByEmail (h : s.Satisfies I) (isSub : Bool) (email : String) :
    (s.onPopulation isSub fun p ↦ p.getUserByEmail svc email).2.Satisfies I :=
  h.setPopulation ((h.records isSub).subset (Population.records_getUserByEmail svc email))

/-- Checking a token keeps the invariant. -/
theorem Satisfies.checkToken (h : s.Satisfies I) (now : ℕ) (token : String) :
    (s.onPopulation isSub fun p ↦ p.checkToken svc now token).2.Satisfies I :=
  h.setPopulation ((h.records isSub).checkToken now token)

/-- Authenticating a request keeps the invariant. -/
theorem Satisfies.authenticate (hs : s.Satisfies I) (h : RestApi.Handler) (m : Moment)
    (r : RestApi.Request) :
    (RestApi.authenticate svc h m r s).2.Satisfies I := by
  refine RestApi.authenticate_rule svc hs (fun id ↦ ?_) (fun s' id k hs' ↦ ?_) fun token ↦ ?_
  · exact hs.getUserById id
  · unfold Storage.updateApiKey
    split
    · exact Satisfies.congr hs' rfl rfl rfl
    · exact hs'
  · exact hs.checkToken m.now token

end Storage

namespace RestApi

/-! ## Edits -/

/-- Setting a password that is allowed keeps the invariant. -/
def KeptByPassword (svc : Service) (I : RecordInvariant) (isSub : Bool) (salt : String)
    (allowed : String → Prop) : Prop :=
  ∀ u v password, I.record isSub u → allowed password →
    setPassword svc salt password u = .applied v → I.record isSub v

/-- Setting the role that a request asks for keeps the invariant. -/
def KeptByRole (I : RecordInvariant) (isSub : Bool) (asked : Option UserRole) : Prop :=
  ∀ u role, I.record isSub u → asked = some role → I.record isSub { u with userRole := role }

/-- The record with another second factor. -/
def withExtensions (u : UserInfo) (e : UserLoginLoginExtensions) : UserInfo :=
  { u with userTypeProprietaryInfo := e }

/-- The record is still that of the same account, with the same second factor. -/
structure SameFactor (u v : UserInfo) : Prop where
  id : v.id = u.id
  factor : v.userTypeProprietaryInfo = u.userTypeProprietaryInfo

/-- A finished enrolment that can be taken over. -/
structure Ripe (now : ℕ) (subscriber : Bool) (e : TotpEntry) : Prop where
  kind : e.subscriber = subscriber
  inTime : u64 (now + 2 ^ 64 - e.start) < 15 * 60
  finished : e.done ≠ 0

/-- An enrolment that can be taken over is handed out and forgotten. -/
theorem Ripe.completeValidation {now : ℕ} {subscriber : Bool} {e : TotpEntry} {s : Storage}
    {id : String} (h : Ripe now subscriber e) (hlookup : s.totp.lookup id = some e) :
    s.totpCompleteValidation now id subscriber =
      (some e.secret, { s with totp := s.totp.erase id }) := by
  have htime := decide_eq_true h.inTime
  unfold Storage.totpCompleteValidation
  simp only [hlookup, h.kind, htime, bne_iff_ne.mpr h.finished, beq_self_eq_true, Bool.and_self,
    if_true]

/-- Without such an enrolment nothing happens. -/
theorem ripe_or_completeValidation (now : ℕ) (s : Storage) (id : String) (subscriber : Bool) :
    (∃ e, s.totp.lookup id = some e ∧ Ripe now subscriber e) ∨
      s.totpCompleteValidation now id subscriber = (none, s) := by
  unfold Storage.totpCompleteValidation
  split
  · rename_i e he
    split
    · rename_i hdone
      simp only [Bool.and_eq_true, beq_iff_eq, bne_iff_ne, decide_eq_true_eq] at hdone
      exact .inl ⟨e, he, hdone.1.1.symm, hdone.1.2, hdone.2⟩
    · exact .inr rfl
  · exact .inr rfl

/-- The changes of the second factor that an update of a record on behalf of the caller can
make keep the invariant; `asked` is the second factor in the body. -/
structure KeptByMfa (I : RecordInvariant) (isSub : Bool) (now : ℕ) (caller : UserInfo)
    (asked : UserLoginLoginExtensions) (found : UserInfo) : Prop where
  off : ∀ u, SameFactor found u → I.record isSub u → I.record isSub (withExtensions u
    { mobiles := [], mfa := { u.userTypeProprietaryInfo.mfa with enabled := false } })
  email : ∀ u, SameFactor found u → I.record isSub u → I.record isSub (withExtensions u
    { mobiles := [], mfa := { enabled := true, method := "email" } })
  sms : ∀ u (first : MobilePhoneNumber) rest, SameFactor found u → I.record isSub u →
    I.record isSub (withExtensions u
      { mobiles := { first with verified := true } :: rest
        mfa := { enabled := true, method := "sms" } })
  /-- The secret from before stays. -/
  oldSecret : ∀ u, SameFactor found u → I.record isSub u →
    u.userTypeProprietaryInfo.authenticatorSecret ≠ "" → I.record isSub (withExtensions u
      { mobiles := [], mfa := { enabled := true, method := "authenticator" }
        authenticatorSecret := u.userTypeProprietaryInfo.authenticatorSecret })
  /-- The secret of a finished enrolment of the caller is taken over. -/
  newSecret : ∀ u e, SameFactor found u → I.record isSub u →
    u.userTypeProprietaryInfo.authenticatorSecret = "" → asked.mfa.enabled = true →
    asked.mfa.method = "authenticator" → I.enrolment caller.id e → Ripe now false e →
    I.record isSub (withExtensions u
      { mobiles := [], mfa := { enabled := true, method := "authenticator" }
        authenticatorSecret := e.secret })

/-- An invariant that does not look at the second factor is kept by its changes. -/
theorem KeptByMfa.of_indifferent {isSub : Bool}
    (h : ∀ u e, I.record isSub u → I.record isSub (withExtensions u e)) (now : ℕ)
    (caller : UserInfo) (asked : UserLoginLoginExtensions) (found : UserInfo) :
    KeptByMfa I isSub now caller asked found where
  off _ _ hu := h _ _ hu
  email _ _ hu := h _ _ hu
  sms _ _ _ _ hu := h _ _ hu
  oldSecret _ _ hu _ := h _ _ hu
  newSecret _ _ _ hu _ _ _ _ _ := h _ _ hu

/-- The record after a reset of its second factor. -/
def withoutMfa (u : UserInfo) : UserInfo :=
  withExtensions u
    { u.userTypeProprietaryInfo with mfa := { enabled := false, method := "" }, mobiles := [] }

/-- Resetting the second factor keeps the invariant. -/
def KeptByReset (I : RecordInvariant) (isSub : Bool) : Prop :=
  ∀ u, I.record isSub u → I.record isSub (withoutMfa u)

/-- The record that a body asks to be created, without the second factor. -/
structure CreatedFrom (body new : UserInfo) : Prop where
  userRole : new.userRole = body.userRole
  currentPassword : new.currentPassword = body.currentPassword
  lastPasswords : new.lastPasswords = body.lastPasswords
  noMfa : new.userTypeProprietaryInfo = {}

/-- What the body asks to be created satisfies the invariant. -/
def KeptByCreation (svc : Service) (I : RecordInvariant) (isSub : Bool) (m : Moment)
    (body : UserInfo) : Prop :=
  ∀ new, CreatedFrom body new → I.record isSub (Population.newRecord svc m new)

/-! ## The edits of an update from the body -/

/-- The password that a body asks for, where it can be read. -/
def passwordAsked (lib : JsonLibrary) (raw : JsonObject) : Option String :=
  (raw.get? "currentPassword").bind lib.varToString

/-- What an update may set as the password: what the body asks for, if the rule allows it. -/
def AllowedPassword (svc : Service) (isSub : Bool) (raw : JsonObject) (password : String) : Prop :=
  passwordAsked svc.json raw = some password ∧ Storage.passwordRule svc isSub password = true

namespace UserHandler

variable {raw : JsonObject} {existing u : UserInfo}

/-- The fields that neither the rights nor the credentials are made of. -/
theorem core_of_applyProfileFields {lib : JsonLibrary}
    (h : applyProfileFields lib raw existing = .ok u) : coreOf u = coreOf existing := by
  unfold applyProfileFields at h
  simp only [Command.except_bind_eq_ok] at h
  obtain ⟨_, -, _, -, _, -, _, -, _, -, hu⟩ := h
  cases hu
  rfl

theorem core_of_applyAdminStatusFields {lib : JsonLibrary}
    (h : applyAdminStatusFields lib raw existing = .ok u) : coreOf u = coreOf existing := by
  unfold applyAdminStatusFields at h
  simp only [Command.except_bind_eq_ok] at h
  obtain ⟨_, -, _, -, hu⟩ := h
  cases hu
  rfl

theorem core_of_applyOwnerUpdate {lib : JsonLibrary} {caller : UserInfo}
    (h : applyOwnerUpdate lib caller raw existing = .ok u) : coreOf u = coreOf existing := by
  unfold applyOwnerUpdate at h
  split at h
  · obtain ⟨owner, -, hu⟩ := Command.except_bind_eq_ok.mp h
    cases hu
    rfl
  · cases h
    rfl

theorem core_of_appendNotes {lib : JsonLibrary} {now : ℕ} {caller : UserInfo}
    (h : appendNotes lib now caller raw existing = .ok u) : coreOf u = coreOf existing := by
  unfold appendNotes at h
  split at h
  · cases h
    rfl
  · obtain ⟨text, -, hu⟩ := Command.except_bind_eq_ok.mp h
    cases hu
    rfl

/-- A role change sets the role that the body asks for, or nothing. -/
theorem role_of_applyRoleChange {lib : JsonLibrary} {caller : UserInfo}
    (h : applyRoleChange lib caller existing raw = .ok u) :
    u = existing ∨
      ∃ role, roleAsked lib raw = some role ∧ u = { existing with userRole := role } := by
  unfold applyRoleChange at h
  obtain ⟨requested, hrequested, hu⟩ := Command.except_bind_eq_ok.mp h
  have hasked : roleAsked lib raw = requested := by rw [roleAsked, hrequested]
  rcases requested with _ | newRole
  · cases hu
    exact .inl rfl
  · simp only at hu
    split at hu
    · split at hu
      · cases hu
        exact .inr ⟨newRole, hasked, rfl⟩
      · cases hu
    · cases hu
      exact .inl rfl

end UserHandler

namespace SubUserHandler

variable {raw : JsonObject} {existing u : UserInfo}

theorem core_of_applyFields (h : applyFields svc raw existing = .ok u) :
    coreOf u = coreOf existing := by
  unfold applyFields at h
  simp only [Command.except_bind_eq_ok] at h
  obtain ⟨_, -, _, -, _, -, _, -, _, -, _, -, _, -, _, -, hu⟩ := h
  cases hu
  rfl

/-- A role change sets the role that the body asks for, or nothing. -/
theorem role_of_applyRoleChange {caller : UserInfo} {id : String}
    (h : applyRoleChange svc caller id raw existing = .ok u) :
    u = existing ∨ ∃ role, UserHandler.roleAsked svc.json raw = some role ∧
      u = { existing with userRole := role } := by
  unfold applyRoleChange at h
  obtain ⟨requested, hrequested, hu⟩ := Command.except_bind_eq_ok.mp h
  have hasked : UserHandler.roleAsked svc.json raw = requested := by
    rw [UserHandler.roleAsked, hrequested]
  rcases requested with _ | newRole
  · cases hu
    exact .inl rfl
  · simp only at hu
    split at hu
    · split at hu
      · cases hu
      · split at hu
        · cases hu
        · cases hu
          exact .inr ⟨newRole, hasked, rfl⟩
    · cases hu
      exact .inl rfl

end SubUserHandler

/-- The password change of the two handlers, which differ in the rule. -/
def changePassword (svc : Service) (isSub : Bool) (salt : String) (raw : JsonObject)
    (existing : UserInfo) : Except Response UserInfo :=
  match raw.get? "currentPassword" with
  | none => .ok existing
  | some j => do
    let password ← UserHandler.orThrow (svc.json.varToString j)
    if Storage.passwordRule svc isSub password then
      match setPassword svc salt password existing with
      | .applied user => return user
      | .refused => .error (.badRequest Errors.PasswordRejected)
      | .exception => .error .internalError
    else .error (.badRequest Errors.InvalidPassword)

theorem UserHandler.applyPasswordChange_eq (salt : String) (raw : JsonObject) (u : UserInfo) :
    UserHandler.applyPasswordChange svc salt raw u = changePassword svc false salt raw u := rfl

theorem SubUserHandler.applyPasswordChange_eq (salt : String) (raw : JsonObject) (u : UserInfo) :
    SubUserHandler.applyPasswordChange svc salt raw u = changePassword svc true salt raw u := rfl

theorem UserHandler.orThrow_eq_ok {α : Type} {o : Option α} {a : α} :
    UserHandler.orThrow o = .ok a ↔ o = some a := by
  unfold UserHandler.orThrow
  split <;> simp

/-- A password change sets the password that the body asks for, or nothing. -/
theorem password_of_changePassword {isSub : Bool} {salt : String} {raw : JsonObject}
    {existing u : UserInfo} (h : changePassword svc isSub salt raw existing = .ok u) :
    u = existing ∨ ∃ password, AllowedPassword svc isSub raw password ∧
      setPassword svc salt password existing = .applied u := by
  unfold changePassword at h
  split at h
  · cases h
    exact .inl rfl
  · rename_i j hj
    obtain ⟨password, hpassword, hu⟩ := Command.except_bind_eq_ok.mp h
    have hasked : passwordAsked svc.json raw = some password := by
      unfold passwordAsked
      rw [hj]
      exact UserHandler.orThrow_eq_ok.mp hpassword
    split at hu
    · rename_i hrule
      split at hu
      · rename_i hset
        cases hu
        exact .inr ⟨password, ⟨hasked, hrule⟩, hset⟩
      · cases hu
      · cases hu
    · cases hu

section Kept

variable {isSub : Bool} {raw : JsonObject} {u v : UserInfo}

theorem SameFactor.refl (u : UserInfo) : SameFactor u u := ⟨rfl, rfl⟩

theorem SameFactor.trans {w : UserInfo} (h : SameFactor u v) (h' : SameFactor v w) :
    SameFactor u w := ⟨h'.id.trans h.id, h'.factor.trans h.factor⟩

theorem SameFactor.of_core (h : coreOf v = coreOf u) : SameFactor u v :=
  ⟨congrArg RecordCore.id h, congrArg RecordCore.userTypeProprietaryInfo h⟩

/-- The edits of an update keep the invariant: the profile, the role, the profile again, and
the password at last. -/
theorem kept_of_edits {salt : String} {w x y : UserInfo}
    (hrole : KeptByRole I isSub (UserHandler.roleAsked svc.json raw))
    (hpassword : KeptByPassword svc I isSub salt (AllowedPassword svc isSub raw))
    (hprofile : coreOf v = coreOf u)
    (hset : w = v ∨ ∃ role, UserHandler.roleAsked svc.json raw = some role ∧
      w = { v with userRole := role })
    (hnotes : coreOf x = coreOf w) (hlast : changePassword svc isSub salt raw x = .ok y)
    (hu : I.record isSub u) : I.record isSub y := by
  have hv : I.record isSub v := I.insensitive _ _ _ hprofile hu
  have hw : I.record isSub w := by
    rcases hset with rfl | ⟨role, hasked, rfl⟩
    · exact hv
    · exact hrole v role hv hasked
  have hx : I.record isSub x := I.insensitive _ _ _ hnotes hw
  rcases password_of_changePassword hlast with rfl | ⟨password, hallowed, happlied⟩
  · exact hx
  · exact hpassword x y password hx hallowed happlied

/-- The edits of an update leave the account and its second factor. -/
theorem sameFactor_of_edits {salt : String} {w x y : UserInfo} (hprofile : coreOf v = coreOf u)
    (hset : w = v ∨ ∃ role, UserHandler.roleAsked svc.json raw = some role ∧
      w = { v with userRole := role })
    (hnotes : coreOf x = coreOf w) (hlast : changePassword svc isSub salt raw x = .ok y) :
    SameFactor u y := by
  have hw : SameFactor v w := by
    rcases hset with rfl | ⟨role, -, rfl⟩
    · exact .refl _
    · exact ⟨rfl, rfl⟩
  have hy : SameFactor x y := by
    rcases password_of_changePassword hlast with rfl | ⟨password, -, happlied⟩
    · exact .refl _
    · rw [setPassword_applied svc happlied]
      exact ⟨rfl, rfl⟩
  exact (((SameFactor.of_core hprofile).trans hw).trans (.of_core hnotes)).trans hy

end Kept

namespace UserHandler

variable {m : Moment} {caller existing u : UserInfo} {raw : JsonObject}

/-- The edits from the body, one after the other. -/
theorem edits_of_applyBody (h : applyBody svc m caller raw existing = .ok u) :
    ∃ v w x, coreOf v = coreOf existing ∧
      (w = v ∨ ∃ role, roleAsked svc.json raw = some role ∧ w = { v with userRole := role }) ∧
      coreOf x = coreOf w ∧ changePassword svc false m.salt raw x = .ok u := by
  unfold applyBody at h
  simp only [Command.except_bind_eq_ok] at h
  obtain ⟨a, ha, b, hb, v, hv, w, hw, x, hx, hu⟩ := h
  refine ⟨v, w, x, ?_, role_of_applyRoleChange hw, core_of_appendNotes hx, hu⟩
  exact (core_of_applyAdminStatusFields hv).trans
    ((core_of_applyProfileFields hb).trans (core_of_applyOwnerUpdate ha))

end UserHandler

namespace SubUserHandler

variable {m : Moment} {caller existing u : UserInfo} {id : String} {raw : JsonObject}

/-- The edits from the body, one after the other. -/
theorem edits_of_applyBody (h : applyBody svc m caller id raw existing = .ok u) :
    ∃ v w x, coreOf v = coreOf existing ∧
      (w = v ∨ ∃ role, UserHandler.roleAsked svc.json raw = some role ∧
        w = { v with userRole := role }) ∧
      coreOf x = coreOf w ∧ changePassword svc true m.salt raw x = .ok u := by
  unfold applyBody at h
  simp only [Command.except_bind_eq_ok] at h
  obtain ⟨v, hv, w, hw, x, hx, hu⟩ := h
  exact ⟨v, w, x, core_of_applyFields hv, role_of_applyRoleChange hw,
    UserHandler.core_of_appendNotes hx, hu⟩

end SubUserHandler

/-! ## Rules -/

/-- The command leaves a storage that satisfies the invariant, however it ends. -/
def Keeps (I : RecordInvariant) {α : Type} (d : Handling α) (s : Storage) : Prop :=
  Command.wp d (fun _ s' ↦ s'.Satisfies I) (fun _ s' ↦ s'.Satisfies I) s

section Rules

variable {s : Storage} {isSub : Bool} {E : Response → Storage → Prop}

/-- A lookup by identifier finds a record that satisfies the invariant. -/
theorem wp_lookupById {id : String} {Q : Option UserInfo → Storage → Prop} (h : s.Satisfies I)
    (hQ : ∀ o s', o = ((s.population isSub).getUserById svc id).1 →
      (∀ u, o = some u → I.record isSub u) → s'.Satisfies I → Q o s') :
    Command.wp (Command.act fun s : Storage ↦ s.onPopulation isSub fun p ↦ p.getUserById svc id)
      Q E s :=
  hQ _ _ rfl (fun u hu ↦ h.records isSub u (Population.getUserById_mem svc hu)) (h.getUserById id)

/-- A lookup by e-mail finds a record that satisfies the invariant. -/
theorem wp_lookupByEmail {email : String} {Q : Option UserInfo → Storage → Prop}
    (h : s.Satisfies I)
    (hQ : ∀ o s', (∀ u, o = some u → I.record isSub u) → s'.Satisfies I → Q o s') :
    Command.wp (UserHandler.getUserByEmail svc isSub email) Q E s :=
  hQ _ _ (fun u hu ↦ h.records isSub u (Population.getUserByEmail_mem svc hu))
    (h.getUserByEmail isSub email)

/-- Writing a record that satisfies the invariant keeps it. -/
theorem wp_writeRecord {id : String} {u : UserInfo} {Q : Bool → Storage → Prop}
    (h : s.Satisfies I) (hu : I.record isSub u) (hQ : ∀ b s', s'.Satisfies I → Q b s') :
    Command.wp (Command.act fun s : Storage ↦ s.onPopulation isSub fun p ↦
      p.updateUserInfo svc id u) Q E s :=
  hQ _ _ (h.setPopulation
    ((h.records isSub).insert (Population.records_updateUserInfo svc id u) hu))

/-- Creating a record keeps the invariant if the record satisfies it; it is created only where
neither its address nor its identifier is taken. -/
theorem wp_createRecord {m : Moment} {u : UserInfo} {Q : Option UserInfo → Storage → Prop}
    (h : s.Satisfies I)
    (hu : ((s.population isSub).getUserByEmail svc (toLower u.email)).1 = none →
      (s.population isSub).users.find? m.uuid = none →
      I.record isSub (Population.newRecord svc m u))
    (hQ : ∀ o s', (∀ new, o = some new → I.record isSub new) → s'.Satisfies I → Q o s') :
    Command.wp (Command.act fun s : Storage ↦ s.onPopulation isSub fun p ↦
      p.createUser svc m u) Q E s := by
  rcases hcreated : ((s.population isSub).createUser svc m u).1 with _ | new
  · refine hQ _ _ (fun new hnew ↦ ?_)
      (h.setPopulation ((h.records isSub).subset (Population.records_createUser_none svc hcreated)))
    change ((s.population isSub).createUser svc m u).1 = some new at hnew
    rw [hcreated] at hnew
    cases hnew
  · obtain rfl := Population.createUser_some svc hcreated
    have hrecord := hu (Population.free_of_createUser svc hcreated)
      ((Population.newRecord_fields svc m u).1 ▸ (Population.find?_createUser_some svc hcreated).1)
    refine hQ _ _ (fun new hnew ↦ ?_) (h.setPopulation
      ((h.records isSub).insert (Population.records_createUser svc m u) hrecord))
    change ((s.population isSub).createUser svc m u).1 = some new at hnew
    rw [hcreated] at hnew
    exact Option.some.inj hnew ▸ hrecord

/-- Asking for a verification e-mail marks the record. -/
theorem wp_verify {m : Moment} {u : UserInfo} {Q : UserInfo → Storage → Prop}
    {action : LinkActions} {userAction : Bool} (h : s.Satisfies I)
    (hQ : ∀ s', s'.Satisfies I → Q { u with waitingForEmailCheck := true, validated := false } s') :
    Command.wp (Command.act fun s : Storage ↦
      Storage.verifyEmailWith action userAction m.now m.uuid' s u) Q E s :=
  hQ _ (h.createAction _)

/-- A finished enrolment is handed out and forgotten. -/
theorem wp_completeValidation {now : ℕ} {id : String} {subscriber : Bool}
    {Q : Option String → Storage → Prop} (h : s.Satisfies I)
    (hQ : ∀ o s', (∀ secret, o = some secret →
      ∃ e, I.enrolment id e ∧ Ripe now subscriber e ∧ e.secret = secret) → s'.Satisfies I →
      Q o s') :
    Command.wp (Command.act fun s : Storage ↦ s.totpCompleteValidation now id subscriber) Q E
      s := by
  show Q (s.totpCompleteValidation now id subscriber).1
    (s.totpCompleteValidation now id subscriber).2
  rcases ripe_or_completeValidation now s id subscriber with ⟨e, he, hripe⟩ | hnone
  · rw [hripe.completeValidation he]
    refine hQ _ _ ?_ ⟨h.records, fun k e' he' ↦ ?_⟩
    · rintro secret hsecret
      cases hsecret
      exact ⟨e, h.enrolments id e he, hripe, rfl⟩
    · exact h.enrolments k e' (Cache.Evicts.erase _ _ _ _ he')
  · rw [hnone]
    exact hQ _ _ (by simp) h

/-- A method that is known is the e-mail, if it is none of the other two. -/
theorem eq_email_of_validateMethod {method : String}
    (hknown : UserHandler.validateMethod method = true) (hsms : method ≠ "sms")
    (htotp : method ≠ "authenticator") : method = "email" := by
  simp only [UserHandler.validateMethod, List.contains_iff_mem, List.mem_cons, List.not_mem_nil,
    or_false] at hknown
  rcases hknown with hknown | hknown | hknown
  · exact absurd hknown hsms
  · exact hknown
  · exact absurd hknown htotp

/-- A change of the second factor keeps the invariant where its edits do. -/
theorem wp_mfaChange (isSub : Bool) (found : UserInfo) {m : Moment}
    {caller newUser existing : UserInfo} {has : Bool}
    {Q : UserInfo → Storage → Prop} (h : s.Satisfies I)
    (hQ : ∀ u s', s'.Satisfies I → (I.record isSub existing → SameFactor found existing →
      KeptByMfa I isSub m.now caller newUser.userTypeProprietaryInfo found → I.record isSub u) →
      Q u s')
    (hE : ∀ e s', s'.Satisfies I → E e s') :
    Command.wp (UserHandler.applyMfaChange svc m caller newUser has existing) Q E s := by
  unfold UserHandler.applyMfaChange
  simp only [Command.wp_bind, Command.wp_ensure, Command.wp_pure, Command.wp_ite]
  refine ⟨fun _ ↦ hQ _ _ h fun hrecord _ _ ↦ hrecord, fun _ ↦ ⟨fun henabled ↦ ?_,
    fun _ ↦ hQ _ _ h fun hrecord hsame hmfa ↦ hmfa.off _ hsame hrecord⟩⟩
  refine ⟨fun hvalid ↦ ⟨fun _ ↦ ⟨fun _ ↦ ⟨fun hsms ↦ ?_, fun hsms ↦ ⟨fun htotp ↦ ?_,
    fun htotp ↦ ?_⟩⟩, fun _ ↦ hE _ _ h⟩, fun _ ↦ hE _ _ h⟩, fun _ ↦ hE _ _ h⟩
  · -- text messages
    rw [beq_iff_eq] at hsms
    rcases newUser.userTypeProprietaryInfo.mobiles with _ | ⟨first, rest⟩
    · exact hE _ _ h
    · simp only [Command.wp_bind, Command.wp_ensure, Command.wp_pure, Command.wp_reads, hsms]
      exact ⟨fun _ ↦ hQ _ _ h fun hrecord hsame hmfa ↦ hmfa.sms _ first rest hsame hrecord,
        fun _ ↦ hE _ _ h⟩
  · -- an authenticator: a finished enrolment, or the secret from before
    rw [beq_iff_eq] at htotp
    simp only [htotp]
    refine ⟨fun hempty ↦ ?_, fun hold ↦ ?_⟩
    · refine wp_completeValidation h fun o s' ho h' ↦ ?_
      simp only [Command.wp_orStop]
      refine ⟨fun secret hsecret ↦ hQ _ _ h' fun hrecord hsame hmfa ↦ ?_, fun _ ↦ hE _ _ h'⟩
      obtain ⟨e, he, hripe, rfl⟩ := ho secret hsecret
      exact hmfa.newSecret _ e hsame hrecord (by simpa using hempty) henabled htotp he hripe
    · exact hQ _ _ h fun hrecord hsame hmfa ↦ hmfa.oldSecret _ hsame hrecord (by simpa using hold)
  · -- the e-mail is the only method left
    have hmethod : newUser.userTypeProprietaryInfo.mfa.method = "email" :=
      eq_email_of_validateMethod hvalid (mt beq_iff_eq.mpr hsms) (mt beq_iff_eq.mpr htotp)
    rw [hmethod]
    exact hQ _ _ h fun hrecord hsame hmfa ↦ hmfa.email _ hsame hrecord

end Rules

end RestApi

end OwSec
