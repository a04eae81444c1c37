import OwSec.RestApi.User
import OwSec.Storage.Runs

/-!
# What a user request does to the users

Each method of the user handler reads records, decides, and then writes at most one record
of the user table.  `UserEffect` lists the ways in which a request can leave the table and
the action links, each with the access decision that it rests on; the theorems of this
file show that the four methods do nothing else, for every body and every parameter.
Later results about runs of requests look at this list instead of the handlers.
-/

namespace OwSec

open SecurityObjects Kit ACLProcessor

namespace RestApi

variable (svc : Service)

/-! ## Editing keeps identity -/

/-- An edit that keeps who the record is about, who created it and its role. -/
structure Edited (old new : UserInfo) : Prop extends SameTarget old new where
  email : new.email = old.email ∨ new.email = toLower old.email

theorem Edited.refl (old : UserInfo) : Edited old old := ⟨SameTarget.refl old, .inl rfl⟩

theorem Edited.trans {a b c : UserInfo} (h : Edited a b) (h' : Edited b c) : Edited a c := by
  refine ⟨h.toSameTarget.trans h'.toSameTarget, ?_⟩
  rcases h.email with he | he <;> rcases h'.email with he' | he' <;> rw [he', he]
  · exact .inl rfl
  · exact .inr rfl
  · exact .inr rfl
  · exact .inr (toLower_toLower _)

/-- An edit that may also change the role, where the caller may. -/
structure Updated (caller old new : UserInfo) (requested : Option UserRole) : Prop where
  id : new.id = old.id
  createdBy : new.createdBy = old.createdBy
  email : new.email = old.email ∨ new.email = toLower old.email
  userRole : new.userRole = old.userRole ∨
    requested = some new.userRole ∧ canChangeUserRole caller old new.userRole = true

/-- An edit that keeps the role is an update. -/
theorem Edited.updated {caller old new : UserInfo} {requested : Option UserRole}
    (h : Edited old new) : Updated caller old new requested :=
  ⟨h.id, h.createdBy, h.email, .inl h.userRole⟩

/-- Edits around an update leave it an update. -/
theorem Updated.edited {caller a b c d : UserInfo} {requested : Option UserRole} (h : Edited a b)
    (hu : Updated caller b c requested) (h' : Edited c d) : Updated caller a d requested := by
  have hedited : Edited a { c with userRole := b.userRole } :=
    h.trans ⟨⟨hu.id, hu.createdBy, rfl⟩, hu.email⟩
  have hemail : d.email = a.email ∨ d.email = toLower a.email :=
    (hedited.trans (c := { d with userRole := b.userRole })
      ⟨⟨h'.id, h'.createdBy, rfl⟩, h'.email⟩).email
  refine ⟨h'.id.trans (hu.id.trans h.id), h'.createdBy.trans (hu.createdBy.trans h.createdBy),
    hemail, ?_⟩
  rw [h'.userRole, ← h.userRole, ← h.canChangeUserRole]
  exact hu.userRole

namespace UserHandler

/-- The role that a body asks for, where it can be read. -/
def roleAsked (lib : JsonLibrary) (raw : JsonObject) : Option UserRole :=
  match requestedRole lib raw with
  | .ok r => r
  | .error _ => none

section Edits

variable {lib : JsonLibrary} {raw : JsonObject} {caller existing u : UserInfo}

theorem edited_of_applyOwnerUpdate (h : applyOwnerUpdate lib caller raw existing = .ok u) :
    Edited existing u := by
  unfold applyOwnerUpdate at h
  split at h
  · obtain ⟨owner, -, hu⟩ := Command.except_bind_eq_ok.mp h
    cases hu
    exact ⟨⟨rfl, rfl, rfl⟩, .inl rfl⟩
  · cases h
    exact Edited.refl existing

theorem edited_of_applyProfileFields (h : applyProfileFields lib raw existing = .ok u) :
    Edited existing u := by
  unfold applyProfileFields at h
  simp only [Command.except_bind_eq_ok] at h
  obtain ⟨_, -, _, -, _, -, _, -, _, -, hu⟩ := h
  cases hu
  exact ⟨⟨rfl, rfl, rfl⟩, .inl rfl⟩

theorem edited_of_applyAdminStatusFields (h : applyAdminStatusFields lib raw existing = .ok u) :
    Edited existing u := by
  unfold applyAdminStatusFields at h
  simp only [Command.except_bind_eq_ok] at h
  obtain ⟨_, -, _, -, hu⟩ := h
  cases hu
  exact ⟨⟨rfl, rfl, rfl⟩, .inl rfl⟩

theorem updated_of_applyRoleChange (h : applyRoleChange lib caller existing raw = .ok u) :
    Updated caller existing u (roleAsked lib raw) := by
  unfold applyRoleChange at h
  obtain ⟨requested, hrequested, hu⟩ := Command.except_bind_eq_ok.mp h
  have hasked : roleAsked lib raw = requested := by rw [roleAsked, hrequested]
  rcases requested with _ | newRole
  · cases hu
    exact (Edited.refl existing).updated
  · simp only at hu
    split at hu
    · split at hu
      · rename_i hcan
        cases hu
        exact ⟨rfl, rfl, .inl rfl, .inr ⟨hasked, hcan⟩⟩
      · cases hu
    · cases hu
      exact (Edited.refl existing).updated

theorem edited_of_appendNotes {now : ℕ} (h : appendNotes lib now caller raw existing = .ok u) :
    Edited existing u := by
  unfold appendNotes at h
  split at h
  · cases h
    exact Edited.refl existing
  · obtain ⟨text, -, hu⟩ := Command.except_bind_eq_ok.mp h
    cases hu
    exact ⟨⟨rfl, rfl, rfl⟩, .inl rfl⟩

variable {svc}

theorem edited_of_applyPasswordChange {salt : String}
    (h : applyPasswordChange svc salt raw existing = .ok u) : Edited existing u := by
  unfold applyPasswordChange at h
  split at h
  · cases h
    exact Edited.refl existing
  · obtain ⟨password, -, hu⟩ := Command.except_bind_eq_ok.mp h
    split at hu
    · split at hu
      · rename_i hset
        cases hu
        rw [setPassword_applied svc hset]
        exact ⟨⟨rfl, rfl, rfl⟩, .inr rfl⟩
      · cases hu
      · cases hu
    · cases hu

/-- The edits from the body together. -/
theorem updated_of_applyBody {m : Moment} (h : applyBody svc m caller raw existing = .ok u) :
    Updated caller existing u (roleAsked svc.json raw) := by
  unfold applyBody at h
  simp only [Command.except_bind_eq_ok] at h
  obtain ⟨a, ha, b, hb, c, hc, d, hd, e, he, hu⟩ := h
  have hbefore : Edited existing c :=
    ((edited_of_applyOwnerUpdate ha).trans (edited_of_applyProfileFields hb)).trans
      (edited_of_applyAdminStatusFields hc)
  have hafter : Edited d u :=
    (edited_of_appendNotes he).trans (edited_of_applyPasswordChange hu)
  exact Updated.edited hbefore (updated_of_applyRoleChange hd) hafter

end Edits

end UserHandler

/-! ## The table and the links in the middle of a request -/

/-- The state `s` of a request that started in `s₀`: what the user table holds, and about
whom there may be new action links. -/
structure At (table : String → Option UserInfo) (about : Option String) (s₀ s : Storage) : Prop where
  users : s.user.users.find? = table
  links : ∀ l ∈ s.actionLinks.rows, l ∈ s₀.actionLinks.rows ∨ about = some l.userId
  coherent : s.user.Coherent

/-- A request starts where it starts. -/
theorem At.start {s : Storage} (h : s.user.Coherent) : At s.user.users.find? none s s :=
  ⟨rfl, fun _ hl ↦ .inl hl, h⟩

section Rules

variable {svc} {table : String → Option UserInfo} {about : Option String} {s₀ s : Storage}
variable {E : Response → Storage → Prop}

/-- What does not touch the links and keeps the users leads on. -/
theorem At.congr {s' : Storage} (h : At table about s₀ s)
    (hu : s'.user.users = s.user.users) (hc : s'.user.Coherent)
    (hl : s'.actionLinks = s.actionLinks) : At table about s₀ s' := by
  refine ⟨?_, ?_, hc⟩
  · rw [hu]
    exact h.users
  · rw [hl]
    exact h.links

/-- Storing a link adds at most that link. -/
theorem At.createAction {a : ActionLink} {id : String} (h : At table about s₀ s)
    (hid : a.userId = id) (habout : about = none ∨ about = some id) :
    At table (some id) s₀ (s.createAction a) := by
  unfold Storage.createAction
  have hold (l : ActionLink) (hl : l ∈ s.actionLinks.rows) :
      l ∈ s₀.actionLinks.rows ∨ some id = some l.userId := by
    rcases h.links l hl with hl | hl
    · exact .inl hl
    · rcases habout with ha | ha <;> rw [ha] at hl
      · cases hl
      · exact .inr hl
  split
  · rename_i links hins
    refine ⟨h.users, fun l hl ↦ ?_, h.coherent⟩
    rcases Table.mem_rows_of_insert hins hl with rfl | hl
    · exact .inr (congrArg some hid.symm)
    · exact hold l hl
  · exact ⟨h.users, hold, h.coherent⟩

namespace UserHandler

/-- Looking a user up finds the record of the table, up to the last login. -/
theorem wp_getUserById {id : String} {Q : Option UserInfo → Storage → Prop}
    (h : At table about s₀ s)
    (hQ : ∀ o s', (∀ u, o = some u → ∃ r, table id = some r ∧ r.id = id ∧ SameButLogin u r) →
      At table about s₀ s' → Q o s') :
    Command.wp (getUserById svc id) Q E s := by
  refine hQ _ _ ?_ (h.congr (Population.getUserById_users svc id) (h.coherent.getUserById svc id) rfl)
  intro u hu
  obtain ⟨r, hr, hsame⟩ := h.coherent.of_getUserById svc hu
  exact ⟨r, h.users ▸ hr, Table.key_of_find? hr, hsame⟩

/-- Looking a user up by e-mail finds a record of the table, up to the last login. -/
theorem wp_getUserByEmail {email : String} {Q : Option UserInfo → Storage → Prop}
    (h : At table about s₀ s)
    (hQ : ∀ o s', (∀ u, o = some u → ∃ r, table u.id = some r ∧ SameButLogin u r) →
      At table about s₀ s' → Q o s') :
    Command.wp (getUserByEmail svc false email) Q E s := by
  refine hQ _ _ ?_
    (h.congr (Population.getUserByEmail_users svc email) (h.coherent.getUserByEmail svc email) rfl)
  intro u hu
  rw [← h.users]
  exact h.coherent.of_getRecordByEMail svc hu

/-- Looking a subscriber up does not touch the users. -/
theorem wp_getSubByEmail {email : String} {Q : Option UserInfo → Storage → Prop}
    (h : At table about s₀ s) (hQ : ∀ o s', At table about s₀ s' → Q o s') :
    Command.wp (getUserByEmail svc true email) Q E s :=
  hQ _ _ (h.congr rfl h.coherent rfl)

/-- A record that differs from a row in the last login is an edit of it. -/
theorem edited_of_sameButLogin {u r : UserInfo} (h : SameButLogin u r) : Edited r u :=
  ⟨⟨h.id_eq, h.eq UserInfo.createdBy fun _ _ ↦ rfl, h.eq UserInfo.userRole fun _ _ ↦ rfl⟩,
    .inl (h.eq UserInfo.email fun _ _ ↦ rfl)⟩

/-- Updating a record that has a row replaces the row. -/
theorem wp_updateUserInfo {id : String} {u r : UserInfo} {Q : Bool → Storage → Prop}
    (h : At table about s₀ s) (hid : u.id = id) (hr : table id = some r)
    (hQ : ∀ s', At (Function.update table id (some u)) about s₀ s' → Q true s') :
    Command.wp (updateUserInfo svc id u) Q E s := by
  subst hid
  have hrow : s.user.users.find? u.id = some r := by rw [h.users, hr]
  obtain ⟨users, hup, heq⟩ := Population.updateUserInfo_eq svc (p := s.user) u
  have htrue : (s.user.updateUserInfo svc u.id u).1 = true := by rw [heq]
  show Q (s.user.updateUserInfo svc u.id u).1 _
  rw [htrue]
  refine hQ _ ⟨?_, h.links, h.coherent.updateUserInfo svc hrow⟩
  funext k
  show (s.user.updateUserInfo svc u.id u).2.users.find? k = _
  rw [Population.find?_updateUserInfo, hrow, Function.update_apply, h.users]
  rfl

/-- Creating a user fails without a trace or adds a new record where no row was. -/
theorem wp_createUser {m : Moment} {u : UserInfo} {Q : Option UserInfo → Storage → Prop}
    (h : At table about s₀ s) (hnone : ∀ s', At table about s₀ s' → Q none s')
    (hsome : ∀ new s', new.id = m.uuid → new.email = toLower u.email →
      new.createdBy = u.createdBy → new.userRole = u.userRole → table new.id = none →
      At (Function.update table new.id (some new)) about s₀ s' → Q (some new) s') :
    Command.wp (createUser svc m u) Q E s := by
  have hcoh := h.coherent.createUser svc m u
  show Q (s.user.createUser svc m u).1 _
  rcases hc : (s.user.createUser svc m u).1 with _ | new
  · exact hnone _ (h.congr (Population.createUser_none_users svc hc) hcoh rfl)
  · obtain ⟨hfresh, hfind⟩ := Population.find?_createUser_some svc hc
    obtain rfl := Population.createUser_some svc hc
    obtain ⟨hid, hemail, hcreator, hrole, -⟩ := Population.newRecord_fields svc m u
    refine hsome _ _ hid hemail hcreator hrole (h.users ▸ hfresh) ⟨?_, h.links, hcoh⟩
    funext k
    show (s.user.createUser svc m u).2.users.find? k = _
    rw [hfind, Function.update_apply, h.users]

/-- Asking for a verification e-mail adds a link for the user and marks the record. -/
theorem wp_verifyEmail {m : Moment} {u : UserInfo} {Q : UserInfo → Storage → Prop}
    (h : At table about s₀ s) (habout : about = none ∨ about = some u.id)
    (hQ : ∀ s', At table (some u.id) s₀ s' →
      Q { u with waitingForEmailCheck := true, validated := false } s') :
    Command.wp (verifyEmail m u) Q E s := hQ _ (h.createAction rfl habout)

end UserHandler

/-! ## The effects of a request -/

/-- The role that an update asks for: the two special updates do not read the body, and a
body that is not a user record is refused. -/
def askedRole (svc : Service) (r : Request) : Option UserRole :=
  if r.getParameter "resetMFA" == "true" || r.getParameter "forgotPassword" == "true" then none
  else if (UserInfo.fromJson svc.json r.body.parsed).isSome then
    UserHandler.roleAsked svc.json (r.body.parsed.getD [])
  else none

/-- What a request can do to the user table, and about whom it can store an action link. -/
inductive TableEffect (svc : Service) (c : Context) (before : String → Option UserInfo) :
    (String → Option UserInfo) → Option String → Prop
  | unchanged : TableEffect svc c before before none
  | deleted (row : UserInfo) (hrow : before row.id = some row)
    (hid : row.id = c.request.getBinding "id") (hm : c.request.method = .DELETE)
    (hcan : canDeleteUserRecord c.caller row = true) :
    TableEffect svc c before (Function.update before row.id none) none
  | created (u : UserInfo) (hfresh : before u.id = none) (hm : c.request.method = .POST)
    (hcan : canCreateUserRecord c.caller u = true) (hid : u.id = c.moment.uuid)
    (hcreator : u.createdBy = c.caller.id) (hemail : toLower u.email = u.email)
    (hvalid : validEMailAddress u.email = true) (about : Option String)
    (habout : about = none ∨ about = some u.id) :
    TableEffect svc c before (Function.update before u.id (some u)) about
  | written (row u : UserInfo) (hrow : before row.id = some row)
    (hid : row.id = c.request.getBinding "id") (hm : c.request.method = .PUT)
    (hcan : canModifyUserRecord c.caller row = true)
    (hu : Updated c.caller row u (askedRole svc c.request))
    (about : Option String) (habout : about = none ∨ about = some row.id) :
    TableEffect svc c before (Function.update before row.id (some u)) about

/-- What a request that ends in `s'` has done since it started in `s`. -/
def UserEffect (svc : Service) (c : Context) (s s' : Storage) : Prop :=
  ∃ table about, TableEffect svc c s.user.users.find? table about ∧ At table about s s'

theorem At.unchanged {s s' : Storage} {c : Context} (h : At s.user.users.find? none s s') :
    UserEffect svc c s s' := ⟨_, _, .unchanged, h⟩

namespace UserHandler

variable {c : Context}

/-- Reading a user leaves everything as it is. -/
theorem doGet_effect (hs : s.user.Coherent) :
    Command.wp (doGet svc c) (fun _ ↦ UserEffect svc c s) (fun _ ↦ UserEffect svc c s) s := by
  have h₀ := At.start hs
  unfold doGet
  simp only [Command.wp_bind, Command.wp_ensure, Command.wp_orStop, Command.wp_pure,
    Command.wp_ite]
  refine ⟨fun _ ↦ ⟨fun _ ↦ ⟨fun _ ↦ ?_, fun _ ↦ ?_⟩, fun _ ↦ h₀.unchanged⟩, fun _ ↦ h₀.unchanged⟩
  · refine wp_getUserByEmail h₀ fun o s₁ _ h₁ ↦ ?_
    exact ⟨fun u _ ↦ ⟨fun _ ↦ h₁.unchanged, fun _ ↦ h₁.unchanged⟩, fun _ ↦ h₁.unchanged⟩
  · refine wp_getUserById h₀ fun o s₁ _ h₁ ↦ ?_
    exact ⟨fun u _ ↦ ⟨fun _ ↦ h₁.unchanged, fun _ ↦ h₁.unchanged⟩, fun _ ↦ h₁.unchanged⟩

/-- Deleting a user deletes a row that the caller may delete. -/
theorem doDelete_effect (hs : s.user.Coherent) (hm : c.request.method = .DELETE) :
    Command.wp (doDelete svc c) (fun _ ↦ UserEffect svc c s) (fun _ ↦ UserEffect svc c s) s := by
  have h₀ := At.start hs
  unfold doDelete
  simp only [Command.wp_bind, Command.wp_ensure, Command.wp_orStop, Command.wp_pure,
    Command.wp_write]
  refine ⟨fun _ ↦ ?_, fun _ ↦ h₀.unchanged⟩
  refine wp_getUserById h₀ fun o s₁ hfound h₁ ↦ ?_
  refine ⟨fun u hu ↦ ⟨fun hcan ↦ ?_, fun _ ↦ h₁.unchanged⟩, fun _ ↦ h₁.unchanged⟩
  obtain ⟨r, hrow, hid, hsame⟩ := hfound u hu
  rw [(edited_of_sameButLogin hsame).canDeleteUserRecord] at hcan
  refine ⟨_, _, .deleted r (hid ▸ hrow) hid hm hcan, ?_, h₁.links, h₁.coherent.deleteUser _⟩
  funext k
  show (s₁.user.deleteUser (c.request.getBinding "id")).users.find? k = _
  rw [Population.find?_deleteUser, h₁.users, hid, Function.update_apply]

/-- The answer to an update reads the record once more. -/
theorem wp_buildUpdatedUserResponse {id : String} {missing : Response} {P : Storage → Prop}
    (h : At table about s₀ s) (hP : ∀ s', At table about s₀ s' → P s') :
    Command.wp (buildUpdatedUserResponse svc id missing) (fun _ ↦ P) (fun _ ↦ P) s := by
  unfold buildUpdatedUserResponse
  simp only [Command.wp_bind, Command.wp_orStop, Command.wp_pure]
  exact wp_getUserById h fun o s' _ h' ↦ ⟨fun _ _ ↦ hP s' h', fun _ ↦ hP s' h'⟩

/-- Creating a user adds a record that the caller may create. -/
theorem doPost_effect (hs : s.user.Coherent) (hm : c.request.method = .POST) :
    Command.wp (doPost svc c) (fun _ ↦ UserEffect svc c s) (fun _ ↦ UserEffect svc c s) s := by
  have h₀ := At.start hs
  unfold doPost
  simp only [Command.wp_bind, Command.wp_ensure, Command.wp_orStop, Command.wp_pure, Command.wp_ite]
  refine ⟨fun _ ↦ ⟨fun body _ ↦ ⟨fun _ ↦ ⟨fun hcan ↦ ⟨fun hvalid ↦ ?_, fun _ ↦ h₀.unchanged⟩,
    fun _ ↦ h₀.unchanged⟩, fun _ ↦ h₀.unchanged⟩, fun _ ↦ h₀.unchanged⟩, fun _ ↦ h₀.unchanged⟩
  refine wp_getSubByEmail h₀ fun o s₁ h₁ ↦ ?_
  refine ⟨fun _ ↦ ⟨fun _ ↦ ?_, fun _ ↦ h₁.unchanged⟩, fun _ ↦ h₁.unchanged⟩
  refine wp_createUser h₁ (fun s₂ h₂ ↦ ⟨by simp, fun _ ↦ h₂.unchanged⟩) ?_
  intro new s₂ hid hemail hcreator hrole hfresh h₂
  refine ⟨fun new' hnew ↦ ?_, by simp⟩
  obtain rfl := Option.some.inj hnew
  have hlower : toLower new.email = new.email := by rw [hemail, toLower_toLower]
  -- the record as it was created, or marked as waiting for the e-mail check
  have hcreated (u : UserInfo) (hu : Edited new u) (hmail : u.email = new.email)
      (about : Option String) (habout : about = none ∨ about = some new.id) {s' : Storage}
      (h' : At (Function.update s.user.users.find? new.id (some u)) about s s') :
      UserEffect svc c s s' := by
    have huid : u.id = new.id := hu.id
    rw [← huid] at hfresh habout h'
    refine ⟨_, _, .created u hfresh hm ?_ (huid.trans hid) (hu.createdBy.trans hcreator) ?_ ?_
      about habout, h'⟩
    · rw [← hcan]
      exact canCreateUserRecord_congr (hu.userRole.trans hrole)
    · rw [hmail, hlower]
    · rw [hmail, hemail, toLower_toLower]
      exact hvalid
  refine ⟨fun _ ↦ ?_, fun _ ↦ ?_⟩
  · refine wp_verifyEmail h₂ (.inl rfl) fun s₃ h₃ ↦ ?_
    refine wp_updateUserInfo (r := new) h₃ rfl (Function.update_self new.id _ _) fun s₄ h₄ ↦ ?_
    rw [Function.update_idem] at h₄
    refine wp_getUserByEmail h₄ fun o s₅ _ h₅ ↦ ?_
    have heffect := hcreated { new with waitingForEmailCheck := true, validated := false }
      ⟨⟨rfl, rfl, rfl⟩, .inl rfl⟩ rfl _ (.inr rfl) h₅
    exact ⟨fun _ _ ↦ heffect, fun _ ↦ heffect⟩
  · refine wp_getUserByEmail h₂ fun o s₃ _ h₃ ↦ ?_
    have heffect := hcreated _ (Edited.refl new) rfl _ (.inl rfl) h₃
    exact ⟨fun _ _ ↦ heffect, fun _ ↦ heffect⟩

/-- Checking a change of the second factor touches the store of enrolments alone, and what it
allows sets nothing but the second factor. -/
theorem wp_applyMfaChange_factor {m : Moment} {caller newUser existing : UserInfo} {has : Bool}
    {Q : UserInfo → Storage → Prop}
    (hQ : ∀ e totp, Q { existing with userTypeProprietaryInfo := e } { s with totp })
    (hE : ∀ a totp, E a { s with totp }) :
    Command.wp (applyMfaChange svc m caller newUser has existing) Q E s := by
  have hQ₀ (e : UserLoginLoginExtensions) : Q { existing with userTypeProprietaryInfo := e } s :=
    hQ e s.totp
  have hE₀ (a : Response) : E a s := hE a s.totp
  unfold applyMfaChange
  simp only [Command.wp_bind, Command.wp_ensure, Command.wp_pure, Command.wp_ite]
  refine ⟨fun _ ↦ hQ₀ existing.userTypeProprietaryInfo, fun _ ↦ ⟨fun _ ↦ ?_, fun _ ↦ hQ₀ _⟩⟩
  refine ⟨fun _ ↦ ⟨fun _ ↦ ⟨fun _ ↦ ⟨fun _ ↦ ?_, fun _ ↦ ⟨fun _ ↦ ?_, fun _ ↦ hQ₀ _⟩⟩,
    fun _ ↦ hE₀ _⟩, fun _ ↦ hE₀ _⟩, fun _ ↦ hE₀ _⟩
  · -- text messages
    rcases newUser.userTypeProprietaryInfo.mobiles with _ | ⟨first, rest⟩
    · exact hE₀ _
    · simp only [Command.wp_bind, Command.wp_ensure, Command.wp_pure, Command.wp_reads]
      exact ⟨fun _ ↦ hQ₀ _, fun _ ↦ hE₀ _⟩
  · -- an authenticator: a finished enrolment, or the secret from before
    refine ⟨fun _ ↦ ?_, fun _ ↦ hQ₀ _⟩
    simp only [Command.wp_act, Command.wp_orStop]
    obtain ⟨totp, htotp⟩ := s.totpCompleteValidation_snd m.now caller.id false
    rw [htotp]
    exact ⟨fun _ _ ↦ hQ _ totp, fun _ ↦ hE _ totp⟩

/-- What a change of the second factor allows is an edit. -/
theorem wp_applyMfaChange {m : Moment} {caller newUser existing : UserInfo} {has : Bool}
    {Q : UserInfo → Storage → Prop} (h : At table about s₀ s)
    (hQ : ∀ u s', Edited existing u → At table about s₀ s' → Q u s')
    (hE : ∀ e s', At table about s₀ s' → E e s') :
    Command.wp (applyMfaChange svc m caller newUser has existing) Q E s :=
  wp_applyMfaChange_factor
    (fun _ _ ↦ hQ _ _ ⟨⟨rfl, rfl, rfl⟩, .inl rfl⟩ (h.congr rfl h.coherent rfl))
    fun _ _ ↦ hE _ _ (h.congr rfl h.coherent rfl)

/-- The update from the body writes the row that was read, edited as far as the caller may
edit it. -/
theorem wp_updateFromBody {id : String} {existing row : UserInfo} {P : Storage → Prop}
    (h : At table none s₀ s) (hid : row.id = id) (hrow : table id = some row)
    (hread : Edited row existing)
    (hkept : ∀ about s', about = none ∨ about = some row.id → At table about s₀ s' → P s')
    (hwritten : ∀ u about s', (UserInfo.fromJson svc.json c.request.body.parsed).isSome = true →
      Updated c.caller row u (roleAsked svc.json (c.request.body.parsed.getD [])) →
      about = none ∨ about = some row.id →
      At (Function.update table id (some u)) about s₀ s' → P s') :
    Command.wp (updateFromBody svc c id existing) (fun _ ↦ P) (fun _ ↦ P) s := by
  have hP := hkept none s (.inl rfl) h
  unfold updateFromBody
  simp only [Command.wp_bind, Command.wp_ensure, Command.wp_orStop, Command.wp_lift]
  refine ⟨fun newUser hbody ↦ ⟨fun valid _ ↦ ⟨fun _ ↦ ⟨fun _ ↦ ⟨fun u hu ↦ ?_, fun _ _ ↦ hP⟩,
    fun _ ↦ hP⟩, fun _ ↦ hP⟩, fun _ _ ↦ hP⟩, fun _ ↦ hP⟩
  have hupdated := updated_of_applyBody hu
  have hsome := Option.isSome_iff_exists.mpr ⟨newUser, hbody⟩
  -- the last part, from the change of the second factor on
  have hrest (v : UserInfo) (hv : Edited u v) (about : Option String)
      (habout : about = none ∨ about = some row.id) {s' : Storage} (h' : At table about s₀ s') :
      Command.wp (applyMfaChange svc c.moment c.caller newUser
        (JsonObject.has (c.request.body.parsed.getD []) "userTypeProprietaryInfo") v)
        (fun w ↦ Command.wp (updateUserInfo svc id { w with modified := c.moment.now })
          (fun updated s' ↦
            (updated = true → Command.wp (buildUpdatedUserResponse svc id .notFound)
              (fun _ ↦ P) (fun _ ↦ P) s') ∧ (updated = false → P s'))
          fun _ ↦ P) (fun _ ↦ P) s' := by
    refine wp_applyMfaChange h' (fun w s₂ hw h₂ ↦ ?_) fun _ s₂ h₂ ↦ hkept about s₂ habout h₂
    have hw' : Edited u { w with modified := c.moment.now } :=
      (hv.trans hw).trans ⟨⟨rfl, rfl, rfl⟩, .inl rfl⟩
    have hfinal := Updated.edited hread hupdated hw'
    refine wp_updateUserInfo h₂ (hfinal.id.trans hid) hrow fun s₃ h₃ ↦ ⟨fun _ ↦ ?_, by simp⟩
    exact wp_buildUpdatedUserResponse h₃ fun s₄ h₄ ↦ hwritten _ about s₄ hsome hfinal habout h₄
  simp only [Command.wp_ite, Command.wp_bind, Command.wp_pure, Command.wp_ensure]
  refine ⟨fun _ ↦ ?_, fun _ ↦ ?_⟩
  · refine wp_verifyEmail h (.inl rfl) fun s₁ h₁ ↦ ?_
    refine hrest { u with waitingForEmailCheck := true, validated := false }
      ⟨⟨rfl, rfl, rfl⟩, .inl rfl⟩ (some u.id) (.inr ?_) h₁
    rw [hupdated.id, hread.id]
  · exact hrest u (Edited.refl u) none (.inl rfl) h

/-- Updating a user writes a row that the caller may modify, and its role only as far as
the caller may change it. -/
theorem doPut_effect (hs : s.user.Coherent) (hm : c.request.method = .PUT) :
    Command.wp (doPut svc c) (fun _ ↦ UserEffect svc c s) (fun _ ↦ UserEffect svc c s) s := by
  have h₀ := At.start hs
  unfold doPut
  simp only [Command.wp_bind, Command.wp_ensure, Command.wp_orStop, Command.wp_ite]
  refine ⟨fun _ ↦ ?_, fun _ ↦ h₀.unchanged⟩
  refine wp_getUserById h₀ fun o s₁ hfound h₁ ↦ ?_
  refine ⟨fun existing hexisting ↦ ⟨fun hcan ↦ ?_, fun _ ↦ h₁.unchanged⟩, fun _ ↦ h₁.unchanged⟩
  obtain ⟨row, hrow, hid, hsame⟩ := hfound existing hexisting
  have hrow' : s.user.users.find? row.id = some row := hid ▸ hrow
  have hread := edited_of_sameButLogin hsame
  rw [hread.canModifyUserRecord] at hcan
  -- every write of the rest is an update of this row, and every link is for it
  have hwritten (u : UserInfo) (hu : Updated c.caller row u (askedRole svc c.request))
      (about : Option String) (habout : about = none ∨ about = some row.id) {s' : Storage}
      (h' : At (Function.update s.user.users.find? (c.request.getBinding "id") (some u)) about
        s s') : UserEffect svc c s s' :=
    ⟨_, _, .written row u hrow' hid hm hcan hu about habout, hid ▸ h'⟩
  have hlinked (about : Option String) (habout : about = none ∨ about = some row.id)
      {s' : Storage} (h' : At s.user.users.find? about s s') : UserEffect svc c s s' := by
    refine hwritten row (Edited.refl row).updated about habout ?_
    rw [← hrow, Function.update_eq_self]
    exact h'
  refine ⟨fun _ ↦ ⟨fun _ ↦ ?_, fun _ ↦ h₁.unchanged⟩, fun hreset ↦ ⟨fun _ ↦ ?_, fun hforgot ↦ ?_⟩⟩
  · -- resetMFA
    unfold handleResetMFA
    simp only [Command.wp_bind, Command.wp_ensure]
    refine wp_updateUserInfo h₁ (hread.id.trans hid) hrow fun s₂ h₂ ↦ ⟨fun _ ↦ ?_, by simp⟩
    refine wp_buildUpdatedUserResponse h₂ fun s₃ h₃ ↦ ?_
    refine hwritten _ ?_ none (.inl rfl) h₃
    exact Edited.updated ⟨⟨hread.id, hread.createdBy, hread.userRole⟩, hread.email⟩
  · -- forgotPassword
    unfold handleForgotPassword
    simp only [Command.wp_bind, Command.wp_write, Command.wp_pure]
    refine hlinked (some existing.id) (.inr (congrArg some hread.id)) ?_
    exact h₁.createAction rfl (.inl rfl)
  · -- the update from the body
    refine wp_updateFromBody h₁ hid hrow hread (fun about s' habout h' ↦ hlinked about habout h') ?_
    intro u about s' hbody hu habout h'
    have hasked : askedRole svc c.request = roleAsked svc.json (c.request.body.parsed.getD []) := by
      unfold askedRole
      rw [if_neg (by simp [hreset, hforgot]), if_pos hbody]
    exact hwritten u (hasked ▸ hu) about habout h'

/-- Whatever the method, a request does no more to the users than its effect says. -/
theorem dispatch_effect (internal : Bool) (hs : s.user.Coherent) :
    Command.wp (dispatch (userHandler svc internal) c) (fun _ ↦ UserEffect svc c s)
      (fun _ ↦ UserEffect svc c s) s := by
  unfold dispatch
  cases hm : c.request.method with
  | GET => exact doGet_effect hs
  | POST => exact doPost_effect hs hm
  | PUT => exact doPut_effect hs hm
  | DELETE => exact doDelete_effect hs hm
  | OPTIONS | other => exact (At.start hs).unchanged

end UserHandler

end Rules

end RestApi

end OwSec
