import OwSec.Access.AdminIsolation
import OwSec.RestApi.UpdateFailures

/-!
# What self-service changes

Whoever is neither `ROOT` nor `ADMIN` may put one record, their own, and of it the fields that
`selfServiceCore` blanks.  The body is held to the fields of a list before it is applied, the
two special requests do not read it, and the access check ties the target to the caller; so
each helper of the handler either does nothing or edits a blanked field.

What is written back is the record that was read, and it is read from the cache.  A login sets
the time of the last login in the row alone, so a request that gets as far as writing a cached
record with another time back, `WritesStale`, sets the row back to it.
-/

namespace OwSec

open SecurityObjects Kit RestApi ACLProcessor

/-! ## The law -/

/-- A record without what self-service may change. -/
def selfServiceCore (u : UserInfo) : UserInfo :=
  { u with
    name := ""
    description := ""
    location := ""
    locale := ""
    changePassword := false
    currentPassword := ""
    lastPasswords := []
    userTypeProprietaryInfo := {}
    notes := []
    modified := 0
    validated := false
    waitingForEmailCheck := false }

/-- The note that a reset of the second factor leaves. -/
def resetNote (now : ℕ) (a : UserInfo) : NoteInfo where
  created := now
  createdBy := a.email
  note := "MFA Reset by " ++ a.email

/-- What a request of `a` may make of their record. -/
structure SelfEdit (now : ℕ) (a : UserInfo) (r : Request) (old new : UserInfo) : Prop where
  core : selfServiceCore new = selfServiceCore old
  notes : new.notes = old.notes ∨
    r.getParameter "resetMFA" = "true" ∧ new.notes = old.notes ++ [resetNote now a]

/-- Between `s` and `s'` no record has changed but that of `a`, and that as self-service may. -/
structure OwnRecordOnly (now : ℕ) (a : UserInfo) (r : Request) (s s' : Storage) : Prop where
  others : ∀ id, id ≠ a.id → s'.user.users.find? id = s.user.users.find? id
  own : Option.Rel (SelfEdit now a r) (s.user.users.find? a.id) (s'.user.users.find? a.id)
  subscribers : s'.sub = s.sub

/-- The call puts a user, on behalf of `a`. -/
structure Call.Puts (svc : Service) (c : Call) (s : Storage) (a : UserInfo) : Prop where
  single : c.list = false
  put : c.request.method = .PUT
  caller : c.caller svc s = some a

/-- The call changes no more than self-service may. -/
def Call.SelfServiceFrame (svc : Service) (c : Call) (s : Storage) (a : UserInfo) : Prop :=
  OwnRecordOnly c.moment.now a c.request s (c.run svc s).2

/-- The request gets as far as writing the record that it has found. -/
inductive RestApi.UserHandler.WritesBack (svc : Service) (c : Context) (s : Storage)
    (found : UserInfo) : Prop
  /-- The second factor is reset. -/
  | reset (target : c.request.getBinding "id" ≠ "")
    (lookup : (s.user.getUserById svc (c.request.getBinding "id")).1 = some found)
    (allowed : canModifyUserRecord c.caller found = true)
    (asked : c.request.getParameter "resetMFA" = "true")
    (resets : canResetUserMFA c.caller found = true)
  /-- The body passes every edit, and the second factor that it asks for is not refused. -/
  | edit {asked : UserInfo} (h : ReachesMfa svc c s asked found)
    (haccepted : ¬ RefusesMfa svc c s asked found)

/-- The request is let through with this context. -/
structure Call.Admits (svc : Service) (call : Call) (s : Storage) (c : Context) : Prop where
  acceptable : Acceptable (call.handler svc) call.rateExceeded call.request
  granted : (call.authentication svc s).1.granted = some (c.userInfo, c.requester)
  request : c.request = call.request
  router : c.internal = (call.handler svc).internal
  moment : c.moment = call.moment

/-- The call writes a record back whose last login is not that of the row. -/
def Call.WritesStale (svc : Service) (call : Call) (s : Storage) : Prop :=
  ∃ c found row, call.Admits svc s c ∧ UserHandler.WritesBack svc c s found ∧
    s.user.users.find? (call.request.getBinding "id") = some row ∧ found.lastLogin ≠ row.lastLogin

/-! ## Edits -/

section Edits

variable {svc : Service} {now : ℕ} {a u v w : UserInfo} {r : Request} {raw : JsonObject}

theorem SelfEdit.refl (u : UserInfo) : SelfEdit now a r u u := ⟨rfl, .inl rfl⟩

/-- A field that is not on the list is not in a body that is held to the list. -/
theorem get?_of_hasOnlyAllowedSelfServiceFields
    (h : UserHandler.hasOnlyAllowedSelfServiceFields raw = true) {field : String}
    (hfield : UserHandler.isAllowedSelfServiceField field = false) : raw.get? field = none := by
  unfold JsonObject.get?
  rw [Option.map_eq_none_iff, List.find?_eq_none]
  intro entry hentry heq
  have hallowed := List.all_eq_true.mp h entry hentry
  rw [of_decide_eq_true heq, hfield] at hallowed
  cases hallowed

/-- The profile is blanked. -/
theorem core_of_applyProfileFields
    (h : UserHandler.applyProfileFields svc.json raw u = .ok v) :
    selfServiceCore v = selfServiceCore u ∧ v.notes = u.notes := by
  unfold UserHandler.applyProfileFields at h
  simp only [Command.except_bind_eq_ok] at h
  obtain ⟨_, -, _, -, _, -, _, -, _, -, hv⟩ := h
  cases hv
  exact ⟨rfl, rfl⟩

/-- So is the password; the address is the one that is stored. -/
theorem core_of_applyPasswordChange {salt : String}
    (h : UserHandler.applyPasswordChange svc salt raw u = .ok v) (hemail : toLower u.email = u.email) :
    selfServiceCore v = selfServiceCore u ∧ v.notes = u.notes := by
  unfold UserHandler.applyPasswordChange at h
  split at h
  · cases h
    exact ⟨rfl, rfl⟩
  · obtain ⟨password, -, hv⟩ := Command.except_bind_eq_ok.mp h
    split at hv
    · split at hv
      · rename_i hset
        cases hv
        rw [setPassword_applied svc hset, hemail]
        exact ⟨rfl, rfl⟩
      · cases hv
      · cases hv
    · cases hv

/-- The edits from a body that is held to the list. -/
theorem core_of_applyBody {m : Moment}
    (h : UserHandler.applyBody svc m a raw u = .ok v) (hroot : a.userRole ≠ .ROOT)
    (hfields : UserHandler.hasOnlyAllowedSelfServiceFields raw = true)
    (hemail : toLower u.email = u.email) :
    selfServiceCore v = selfServiceCore u ∧ v.notes = u.notes := by
  have habsent (field : String) (hfield : UserHandler.isAllowedSelfServiceField field = false) :
      raw.get? field = none := get?_of_hasOnlyAllowedSelfServiceFields hfields hfield
  have howner : UserHandler.applyOwnerUpdate svc.json a raw u = .ok u := by
    unfold UserHandler.applyOwnerUpdate
    rw [if_neg (by simp [hroot])]
  have hstatus (x : UserInfo) : UserHandler.applyAdminStatusFields svc.json raw x = .ok x := by
    unfold UserHandler.applyAdminStatusFields UserHandler.assignBoolIfPresent
    rw [habsent "suspended" rfl, habsent "blackListed" rfl]
    rfl
  have hrole (x : UserInfo) : UserHandler.applyRoleChange svc.json a x raw = .ok x := by
    unfold UserHandler.applyRoleChange UserHandler.requestedRole
    rw [habsent "userRole" rfl]
    rfl
  have hnotes (x : UserInfo) : UserHandler.appendNotes svc.json m.now a raw x = .ok x := by
    unfold UserHandler.appendNotes
    rw [habsent "notes" rfl]
  unfold UserHandler.applyBody at h
  simp only [howner, hstatus, hrole, hnotes, Command.except_bind_eq_ok, Except.ok.injEq,
    exists_eq_left'] at h
  obtain ⟨x, hx, hv⟩ := h
  obtain ⟨hcore, hsame⟩ := core_of_applyProfileFields hx
  have hlower : toLower x.email = x.email := by
    have hkept : (selfServiceCore x).email = (selfServiceCore u).email := by rw [hcore]
    exact (congrArg toLower hkept).trans (hemail.trans hkept.symm)
  obtain ⟨hcore', hsame'⟩ := core_of_applyPasswordChange hv hlower
  exact ⟨hcore'.trans hcore, hsame'.trans hsame⟩

/-- Who is neither `ROOT` nor `ADMIN` may modify themselves alone. -/
theorem id_of_canModifyUserRecord (hself : UserHandler.isSelfServiceCaller a = true)
    (h : canModifyUserRecord a u = true) : u.id = a.id := by
  obtain ⟨hroot, hadmin⟩ := Bool.and_eq_true_iff.mp hself
  unfold canModifyUserRecord canWriteUserRecord at h
  rw [if_neg (mt isRoot_iff.mp (bne_iff_ne.mp hroot))] at h
  split at h
  · rename_i hsame
    exact (isSelf_iff.mp hsame).symm
  · rw [if_pos (by simpa [isAdmin] using hadmin)] at h
    cases h

end Edits

/-! ## The record that is read -/

section Reads

variable {svc : Service} {p : Population} {s : Storage} {id : String} {u : UserInfo}

/-- A lookup fills the cache with what other lookups would find. -/
theorem Population.getUserById_getUserById (k id : String) :
    ((p.getUserById svc k).2.getUserById svc id).1 = (p.getUserById svc id).1 := by
  unfold Population.getUserById Population.getRecordById Population.getFromCacheById
  rcases hcached : p.cacheById.lookup k with _ | r
  · rcases hrow : p.users.find? k with _ | r
    · rfl
    · have hkey : r.id = k := Table.key_of_find? hrow
      have hinsert : (p.updateCache svc r).cacheById.lookup id =
          if id = r.id then some r else p.cacheById.lookup id := Cache.lookup_insert_eq _ _ _ _
      have husers : (p.updateCache svc r).users = p.users := rfl
      simp only [hinsert, husers]
      by_cases hid : id = r.id
      · subst hid
        subst hkey
        rw [if_pos rfl, hcached, hrow]
      · rw [if_neg hid]
        cases p.cacheById.lookup id with
        | some v => rfl
        | none => cases p.users.find? id <;> rfl
  · rfl

/-- Whose record a token check looks up, others are found as before. -/
theorem Population.getUserById_checkToken (now : ℕ) (token id : String) :
    ((p.checkToken svc now token).2.getUserById svc id).1 = (p.getUserById svc id).1 := by
  have htokens (q : Population) (tokens : TokenStore) :
      (({ q with tokens } : Population).getUserById svc id).1 = (q.getUserById svc id).1 := by
    unfold Population.getUserById Population.getRecordById Population.getFromCacheById
    simp only
    cases q.cacheById.lookup id with
    | some v => rfl
    | none => cases q.users.find? id <;> rfl
  unfold Population.checkToken
  rcases p.tokens.getRecord token with ⟨_ | t, tokens⟩
  · exact htokens p tokens
  · have hlookup := @Population.getUserById_getUserById svc { p with tokens } t.userName id
    rw [htokens p tokens] at hlookup
    simp only
    split
    · exact htokens p tokens
    · rcases hl : ({ p with tokens } : Population).getUserById svc t.userName with ⟨_ | v, q⟩
      · rw [hl] at hlookup
        exact hlookup
      · rw [hl] at hlookup
        exact hlookup

/-- Authenticating a request does not change what a lookup finds. -/
theorem RestApi.getUserById_authenticate {h : Handler} (hsub : h.subOnlyService = false) (m : Moment)
    (r : Request) (id : String) :
    ((authenticate svc h m r s).2.user.getUserById svc id).1 = (s.user.getUserById svc id).1 := by
  refine authenticate_rule svc
    (P := fun s' ↦ (s'.user.getUserById svc id).1 = (s.user.getUserById svc id).1) rfl
    (fun _ ↦ ?_) (fun s' _ k hsame ↦ ?_) fun token ↦ ?_
  · exact Population.getUserById_getUserById _ _
  · rw [Storage.updateApiKey_user]
    exact hsame
  · rw [hsub]
    exact Population.getUserById_checkToken _ _ _

end Reads

/-! ## The request -/

namespace RestApi

section Put

variable {svc : Service} {s₀ s s' : Storage} {c : Context} {now : ℕ} {a row new : UserInfo}
  {r : Request} {about : Option String}

namespace UserHandler

theorem WritesBack.lookup {found : UserInfo} (h : WritesBack svc c s found) :
    (s.user.getUserById svc (c.request.getBinding "id")).1 = some found := by
  cases h with
  | reset target lookup allowed asked resets => exact lookup
  | edit h haccepted => exact h.lookup

theorem WritesBack.allowed {found : UserInfo} (h : WritesBack svc c s found) :
    canModifyUserRecord c.caller found = true := by
  cases h with
  | reset target lookup allowed asked resets => exact allowed
  | edit h haccepted => exact h.allowed

/-- Whether a record is written back is a matter of the record, the sessions and the numbers. -/
theorem WritesBack.congr {found : UserInfo}
    (hlookup : (s'.user.getUserById svc (c.request.getBinding "id")).1 =
      (s.user.getUserById svc (c.request.getBinding "id")).1)
    (htotp : s'.totp = s.totp) (hsms : s'.sms = s.sms) (h : WritesBack svc c s found) :
    WritesBack svc c s' found := by
  cases h with
  | reset target lookup allowed asked resets =>
    exact .reset target (hlookup.trans lookup) allowed asked resets
  | edit h haccepted =>
    refine .edit ⟨h.target, hlookup.trans h.lookup, h.allowed, h.fromBody, h.passes⟩ ?_
    exact mt (RefusesMfa.congr htotp.symm hsms.symm) haccepted

/-- What a put makes of the own row: nothing, where it does not get as far as writing it, and
otherwise an edit of the record that it has found. -/
inductive PutsOwn (svc : Service) (c : Context) (s s' : Storage) : Prop
  | unchanged (husers : s'.user.users.find? = s.user.users.find?)
    (hno : ∀ found, ¬ WritesBack svc c s found)
  | written {found new : UserInfo} (h : WritesBack svc c s found)
    (hnew : s'.user.users.find? c.caller.id = some new)
    (hedit : SelfEdit c.moment.now c.caller c.request found new)

/-- Writing an edited record and reading it back. -/
theorem wp_writeOwn {missing : Response} {found : UserInfo}
    (h : At s₀.user.users.find? about s₀ s)
    (hrow : s₀.user.users.find? c.caller.id = some row) (hid : new.id = c.caller.id)
    (hwrites : WritesBack svc c s₀ found)
    (hedit : SelfEdit c.moment.now c.caller c.request found new) :
    Command.wp (do
      let updated ← updateUserInfo svc c.caller.id new
      Command.ensure updated (.badRequest Errors.RecordNotUpdated)
      buildUpdatedUserResponse svc c.caller.id missing)
      (fun _ ↦ PutsOwn svc c s₀) (fun _ ↦ PutsOwn svc c s₀) s := by
  simp only [Command.wp_bind, Command.wp_ensure]
  refine wp_updateUserInfo h hid hrow fun s₁ h₁ ↦ ⟨fun _ ↦ ?_, by simp⟩
  refine wp_buildUpdatedUserResponse h₁ fun s₂ h₂ ↦ .written hwrites ?_ hedit
  rw [h₂.users, Function.update_self]

/-- The record that the body makes of the one that is found, and what making it leaves. -/
theorem wp_editOwn {found : UserInfo} (h : At s₀.user.users.find? none s₀ s)
    (hself : isSelfServiceCaller c.caller = true) (hemail : toLower found.email = found.email) :
    Command.wp (editFromBody svc c found)
      (fun u s' ↦ u.id = found.id ∧ SelfEdit c.moment.now c.caller c.request found u ∧
        ∃ about, At s₀.user.users.find? about s₀ s')
      (fun _ s' ↦ s'.user.users.find? = s₀.user.users.find?) s := by
  have hroot : c.caller.userRole ≠ .ROOT := bne_iff_ne.mp (Bool.and_eq_true_iff.mp hself).1
  unfold editFromBody
  simp only [Command.wp_bind, Command.wp_ensure, Command.wp_orStop, Command.wp_lift]
  refine ⟨fun newUser _ ↦ ⟨fun _ _ ↦ ⟨fun _ ↦ ⟨fun hfields ↦ ⟨fun u hu ↦ ?_, fun _ _ ↦ h.users⟩,
    fun _ ↦ h.users⟩, fun _ ↦ h.users⟩, fun _ _ ↦ h.users⟩, fun _ ↦ h.users⟩
  rw [hself, Bool.true_and, Bool.not_not] at hfields
  obtain ⟨hcore, hnotes⟩ := core_of_applyBody hu hroot hfields hemail
  -- the second factor, and the time of the change
  have hrest (v : UserInfo) (hv : selfServiceCore v = selfServiceCore u) (hn : v.notes = u.notes)
      {about : Option String} {s' : Storage} (h' : At s₀.user.users.find? about s₀ s') :
      Command.wp (applyMfaChange svc c.moment c.caller newUser
        (JsonObject.has (c.request.body.parsed.getD []) "userTypeProprietaryInfo") v)
        (fun w s'' ↦ w.id = found.id ∧
          SelfEdit c.moment.now c.caller c.request found { w with modified := c.moment.now } ∧
            ∃ about, At s₀.user.users.find? about s₀ s'')
        (fun _ s'' ↦ s''.user.users.find? = s₀.user.users.find?) s' := by
    have h₂ (totp : Cache String TotpEntry) :
        At s₀.user.users.find? about s₀ { s' with totp } := h'.congr rfl h'.coherent rfl
    have hsame : selfServiceCore v = selfServiceCore found := hv.trans hcore
    have hid : (selfServiceCore v).id = (selfServiceCore found).id := by rw [hsame]
    exact wp_applyMfaChange_factor
      (fun e totp ↦ ⟨hid, ⟨hsame, .inl (hn.trans hnotes)⟩, about, h₂ totp⟩)
      fun _ totp ↦ (h₂ totp).users
  simp only [Command.wp_ite, Command.wp_bind, Command.wp_pure]
  refine ⟨fun _ ↦ ?_, fun _ ↦ hrest u rfl rfl h⟩
  exact wp_verifyEmail h (.inl rfl) fun s₁ h₁ ↦
    hrest { u with waitingForEmailCheck := true, validated := false } rfl rfl h₁

/-- The update from the body writes the own row where the body passes its checks. -/
theorem wp_updateOwn {found : UserInfo} (h : At s₀.user.users.find? none s₀ s)
    (hself : isSelfServiceCaller c.caller = true)
    (hrow : s₀.user.users.find? c.caller.id = some row) (hkey : found.id = c.caller.id)
    (hemail : toLower found.email = found.email)
    (hreaches : ∀ asked, PassesEdits svc c asked found → ReachesMfa svc c s₀ asked found)
    (honly : ∀ found', WritesBack svc c s₀ found' → ∃ asked, ReachesMfa svc c s₀ asked found ∧
      ¬ RefusesMfa svc c s₀ asked found)
    (htotp : s.totp = s₀.totp) (hsms : s.sms = s₀.sms) :
    Command.wp (updateFromBody svc c c.caller.id found) (fun _ ↦ PutsOwn svc c s₀)
      (fun _ ↦ PutsOwn svc c s₀) s := by
  have hpasses : Command.wp (editFromBody svc c found)
      (fun _ _ ↦ WritesBack svc c s₀ found) (fun _ _ ↦ ∀ found', ¬ WritesBack svc c s₀ found')
      s := by
    have hwrites {asked : UserInfo} (hasked : PassesEdits svc c asked found)
        (haccepted : ¬ RefusesMfa svc c s asked found) : WritesBack svc c s₀ found :=
      .edit (hreaches asked hasked) (mt (RefusesMfa.congr htotp hsms) haccepted)
    change Command.wp (editRecord svc c found false) _ _ s
    refine wp_editRecord (fun hstops _ found' hwritten ↦ ?_)
      (fun asked hasked hrefused _ _ found' hwritten ↦ ?_)
      (fun asked hasked haccepted _ _ _ _ ↦ hwrites hasked haccepted)
      fun asked hasked hused _ _ _ ↦ hwrites hasked hused.not_refusesMfa
    · obtain ⟨asked, hasked, -⟩ := honly found' hwritten
      exact hstops asked hasked.passes
    · obtain ⟨asked', hasked', haccepted⟩ := honly found' hwritten
      have hsame : some asked = some asked' :=
        (PassesEdits.parsed hasked).symm.trans hasked'.passes.parsed
      cases hsame
      exact haccepted (hrefused.congr htotp.symm hsms.symm)
  rw [← updateFromBodyUnder_none]
  unfold updateFromBodyUnder
  rw [Command.wp_bind]
  refine Command.wp_mono (Command.wp_and (wp_editOwn h hself hemail) hpasses) ?_ ?_
  · rintro u s' ⟨⟨hid, hedit, about, h'⟩, hwritten⟩
    simp only [updateUserInfoUnder_false]
    exact wp_writeOwn h' hrow (hid.trans hkey) hwritten hedit
  · rintro e s' ⟨husers, hno⟩
    exact .unchanged husers hno

/-- What a request that puts a user makes of the own row. -/
theorem wp_putOwn (hs : s.user.Coherent) (hself : isSelfServiceCaller c.caller = true)
    (hemail : ∀ id u, s.user.users.find? id = some u → toLower u.email = u.email) :
    Command.wp (doPut svc c) (fun _ ↦ PutsOwn svc c s) (fun _ ↦ PutsOwn svc c s) s := by
  have h₀ := At.start hs
  have h₁ : At s.user.users.find? none s
      (s.onPopulation false fun p ↦ p.getUserById svc (c.request.getBinding "id")).2 :=
    h₀.congr (Population.getUserById_users svc _) (hs.getUserById svc _) rfl
  -- a request that has found a record writes no other one
  have hfoundOnly {found found' : UserInfo}
      (hfound : (s.user.getUserById svc (c.request.getBinding "id")).1 = some found)
      (h : WritesBack svc c s found') : found' = found :=
    Option.some.inj (h.lookup.symm.trans hfound)
  unfold doPut getUserById
  simp only [Command.wp_bind, Command.wp_ensure, Command.wp_orStop, Command.wp_act,
    Command.wp_ite]
  refine ⟨fun htarget ↦ ⟨fun found hfound ↦ ⟨fun hcan ↦ ?_, fun hdenied ↦ ?_⟩, fun hnone ↦ ?_⟩,
    fun hempty ↦ ?_⟩
  rotate_left
  · refine .unchanged h₁.users fun found' h ↦ ?_
    obtain rfl := hfoundOnly hfound h
    exact absurd (hdenied.symm.trans h.allowed) Bool.noConfusion
  · exact .unchanged h₁.users fun found' h ↦ absurd (hnone.symm.trans h.lookup) (by simp)
  · refine .unchanged rfl fun found' h ↦ ?_
    have htarget : c.request.getBinding "id" ≠ "" := by
      cases h with
      | reset target lookup allowed asked resets => exact target
      | edit h haccepted => exact h.target
    exact htarget (by simpa using hempty)
  -- the target is the caller
  change (s.user.getUserById svc (c.request.getBinding "id")).1 = some found at hfound
  obtain ⟨row, hrow, hsame⟩ := hs.of_getUserById svc hfound
  have hkey : found.id = c.request.getBinding "id" := hsame.id_eq.trans (Table.key_of_find? hrow)
  have hid : c.request.getBinding "id" = c.caller.id :=
    hkey.symm.trans (id_of_canModifyUserRecord hself hcan)
  have hown : s.user.users.find? c.caller.id = some row := hid ▸ hrow
  have hne : c.request.getBinding "id" ≠ "" := by simpa using htarget
  refine ⟨fun hreset ↦ ⟨fun hresets ↦ ?_, fun hdenied ↦ ?_⟩, fun hreset ↦ ⟨fun hforgot ↦ ?_,
    fun hforgot ↦ ?_⟩⟩
  · -- resetMFA
    have hasked := beq_iff_eq.mp hreset
    have hwrites : WritesBack svc c s found := .reset hne hfound hcan hasked hresets
    rw [hid] at h₁ ⊢
    exact wp_writeOwn h₁ hown (hkey.trans hid) hwrites ⟨rfl, .inr ⟨hasked, rfl⟩⟩
  · exact absurd (hcan.symm.trans hdenied) Bool.noConfusion
  · -- forgotPassword
    refine .unchanged (h₁.createAction rfl (.inl rfl)).users fun found' h ↦ ?_
    cases h with
    | reset target lookup allowed asked resets => exact hreset (beq_iff_eq.mpr asked)
    | edit h haccepted => exact h.fromBody.2 (beq_iff_eq.mp hforgot)
  · -- the update from the body
    have hemail' : toLower found.email = found.email := by
      rw [hsame.eq UserInfo.email fun _ _ ↦ rfl]
      exact hemail _ row hrow
    have hwp : Command.wp (updateFromBody svc c c.caller.id found) _ _ _ :=
      wp_updateOwn h₁ hself hown (hkey.trans hid) hemail'
        (fun asked h ↦
          ⟨hne, hfound, hcan, ⟨mt beq_iff_eq.mpr hreset, mt beq_iff_eq.mpr hforgot⟩, h⟩)
        (fun found' h ↦ ?_) (Storage.totp_onPopulation _ _) (Storage.sms_onPopulation _ _)
    · rw [← hid] at hwp
      exact hwp
    · obtain rfl := hfoundOnly hfound h
      cases h with
      | reset target lookup allowed asked resets => exact absurd (beq_iff_eq.mpr asked) hreset
      | edit h haccepted => exact ⟨_, h, haccepted⟩

/-- The update from the body leaves the subscribers alone. -/
theorem sub_updateFromBody {id : String} {existing : UserInfo} (h : s.sub = s₀.sub) :
    Command.wp (updateFromBody svc c id existing) (fun _ s' ↦ s'.sub = s₀.sub)
      (fun _ s' ↦ s'.sub = s₀.sub) s := by
  unfold updateFromBody
  simp only [Command.wp_bind, Command.wp_ensure, Command.wp_orStop, Command.wp_lift]
  refine ⟨fun newUser _ ↦ ⟨fun _ _ ↦ ⟨fun _ ↦ ⟨fun _ ↦ ⟨fun u _ ↦ ?_, fun _ _ ↦ h⟩, fun _ ↦ h⟩,
    fun _ ↦ h⟩, fun _ _ ↦ h⟩, fun _ ↦ h⟩
  have hrest (v : UserInfo) {s' : Storage} (h' : s'.sub = s₀.sub) :
      Command.wp (do
        let existing ← applyMfaChange svc c.moment c.caller newUser
          (JsonObject.has (c.request.body.parsed.getD []) "userTypeProprietaryInfo") v
        let updated ← updateUserInfo svc id { existing with modified := c.moment.now }
        Command.ensure updated (.badRequest Errors.RecordNotUpdated)
        buildUpdatedUserResponse svc id .notFound)
        (fun _ s' ↦ s'.sub = s₀.sub) (fun _ s' ↦ s'.sub = s₀.sub) s' := by
    rw [Command.wp_bind]
    refine wp_applyMfaChange_factor (fun e totp ↦ ?_) fun _ _ ↦ h'
    unfold updateUserInfo buildUpdatedUserResponse getUserById
    simp only [Command.wp_bind, Command.wp_ensure, Command.wp_orStop, Command.wp_act,
      Command.wp_pure]
    exact ⟨fun _ ↦ ⟨fun _ _ ↦ h', fun _ ↦ h'⟩, fun _ ↦ h'⟩
  unfold verifyEmail
  simp only [Command.wp_ite, Command.wp_bind, Command.wp_pure, Command.wp_act]
  refine ⟨fun _ ↦ ?_, fun _ ↦ ?_⟩
  · have hlink : (s.verifyEmail c.moment.now c.moment.uuid' u).2.sub = s₀.sub :=
      (Storage.population_createAction s _ true).trans h
    simpa only [Command.wp_bind] using hrest (s.verifyEmail c.moment.now c.moment.uuid' u).1 hlink
  · simpa only [Command.wp_bind] using hrest u h

/-- Putting a user leaves the subscribers alone. -/
theorem sub_doPut : Command.wp (doPut svc c) (fun _ s' ↦ s'.sub = s.sub)
    (fun _ s' ↦ s'.sub = s.sub) s := by
  unfold doPut getUserById
  simp only [Command.wp_bind, Command.wp_ensure, Command.wp_orStop, Command.wp_act,
    Command.wp_ite]
  refine ⟨fun _ ↦ ⟨fun existing _ ↦ ⟨fun _ ↦ ⟨fun _ ↦ ⟨fun _ ↦ ?_, fun _ ↦ rfl⟩,
    fun _ ↦ ⟨fun _ ↦ ?_, fun _ ↦ sub_updateFromBody rfl⟩⟩, fun _ ↦ rfl⟩, fun _ ↦ rfl⟩,
    fun _ ↦ trivial⟩
  · unfold handleResetMFA updateUserInfo buildUpdatedUserResponse getUserById
    simp only [Command.wp_bind, Command.wp_ensure, Command.wp_orStop, Command.wp_act,
      Command.wp_pure]
    exact ⟨fun _ ↦ ⟨fun _ _ ↦ rfl, fun _ ↦ rfl⟩, fun _ ↦ rfl⟩
  · exact Storage.population_createAction _ _ true

end UserHandler

end Put

end RestApi

/-! ## The frame -/

section Frame

variable {svc : Service} {s : Storage} {a : UserInfo} {call : Call}

/-- What holds of a put that is turned away, and whatever the method does, holds of the put. -/
theorem Call.Puts.rule (hputs : call.Puts svc s a) {P : Storage → Prop} (hs : P s)
    (hauth : P (call.authentication svc s).2)
    (hmethod : ∀ c : Context, c.caller = a → c.request = call.request → c.moment = call.moment →
      Command.wp (UserHandler.doPut svc c) (fun _ ↦ P) (fun _ ↦ P)
        (call.authentication svc s).2) : P (call.run svc s).2 := by
  have hhandler : call.handler svc = userHandler svc call.internal :=
    if_neg (by simp [hputs.single])
  refine handleRequest_rule svc (call.handler svc) call.moment call.rateExceeded call.request
    (P := fun _ ↦ P) (fun c _ hgranted hrequest _ hmoment ↦ ?_) ?_
  · have hcaller := hputs.caller
    unfold Call.caller Call.authentication at hcaller
    rw [hgranted] at hcaller
    have hwp := hmethod c (Option.some.inj hcaller) hrequest hmoment
    unfold dispatch
    rw [hrequest, hputs.put, hhandler]
    unfold Call.authentication at hwp
    rw [hhandler] at hwp
    exact hwp
  · rintro _ s' - (rfl | rfl)
    · exact hs
    · exact hauth

/-- A put of who may put only themselves leaves the other records alone. -/
theorem others_of_put (hs : s.user.Coherent) (hputs : call.Puts svc s a)
    (hself : UserHandler.isSelfServiceCaller a = true) {id : String} (hid : id ≠ a.id) :
    (call.run svc s).2.user.users.find? id = s.user.users.find? id := by
  obtain ⟨table, about, hchange, hat⟩ : ∃ table about, Change svc s (.call call) table about ∧
      At table about s (call.run svc s).2 := call.change hs
  rw [hat.users]
  cases hchange with
  | unchanged => rfl
  | effect call c row hrequest hmoment hlist hpublic hcaller hrow hsame heffect =>
    have hput : c.request.method = .PUT := hrequest ▸ hputs.put
    have ha : c.caller = a := Option.some.inj (hcaller.symm.trans hputs.caller)
    cases heffect with
    | unchanged => rfl
    | deleted target htarget htid hm => cases hput.symm.trans hm
    | created new hnew hm => cases hput.symm.trans hm
    | written target new htarget htid hm hcan =>
      rw [ha] at hcan
      rw [Function.update_apply, if_neg (id_of_canModifyUserRecord hself hcan ▸ hid)]

/-- A put that is let through is answered by the handler. -/
theorem run_of_admits {c : Context} (hputs : call.Puts svc s a) (h : call.Admits svc s c) :
    call.run svc s = answer (UserHandler.doPut svc c) (call.authentication svc s).2 := by
  have haccept : ∃ qb, acceptRequest svc (call.handler svc) call.moment call.rateExceeded
      call.request s = (.ok { c with queryBlock := qb }, (call.authentication svc s).2) :=
    exists_acceptRequest svc _ _ _ _ h.acceptable h.granted h.request h.router h.moment
  obtain ⟨qb, hacc⟩ := haccept
  have hput : c.request.method = .PUT := h.request ▸ hputs.put
  have hhandler : call.handler svc = userHandler svc call.internal :=
    if_neg (by simp [hputs.single])
  unfold Call.run
  rw [handleRequest_of_ok svc _ _ _ _ hacc, hhandler]
  unfold dispatch
  simp only [hput]
  rfl

theorem caller_of_admits {c : Context} (hputs : call.Puts svc s a) (h : call.Admits svc s c) :
    c.caller = a := by
  have hcaller := hputs.caller
  unfold Call.caller at hcaller
  rw [h.granted] at hcaller
  exact Option.some.inj hcaller

/-- What a put that is let through makes of the own row. -/
theorem putsOwn_of_admits {c : Context} (hs : s.user.Coherent)
    (haddress : ∀ id u, s.user.users.find? id = some u → toLower u.email = u.email)
    (hputs : call.Puts svc s a) (hself : UserHandler.isSelfServiceCaller a = true)
    (h : call.Admits svc s c) : UserHandler.PutsOwn svc c s (call.run svc s).2 := by
  have hauth : s.SameUsers (call.authentication svc s).2 :=
    sameUsers_authenticate svc hs (call.handler_subOnlyService svc)
  have hfind : ((call.authentication svc s).2.user.getUserById svc (c.request.getBinding "id")).1 =
      (s.user.getUserById svc (c.request.getBinding "id")).1 :=
    getUserById_authenticate (call.handler_subOnlyService svc) _ _ _
  have htotp : (call.authentication svc s).2.totp = s.totp := Storage.totp_authenticate _ _ _
  have hsms : (call.authentication svc s).2.sms = s.sms := Storage.sms_authenticate _ _ _
  have hcaller := caller_of_admits hputs h
  have hputsOwn : UserHandler.PutsOwn svc c (call.authentication svc s).2 (call.run svc s).2 := by
    rw [run_of_admits hputs h]
    refine answer_of_wp (UserHandler.wp_putOwn hauth.coherent (hcaller ▸ hself) fun id u hu ↦ ?_)
    rw [hauth.users] at hu
    exact haddress id u hu
  cases hputsOwn with
  | unchanged husers hno =>
    refine .unchanged (husers.trans (congrArg Table.find? hauth.users)) fun found hwrites ↦ ?_
    exact hno found (hwrites.congr hfind htotp hsms)
  | written hwrites hnew hedit =>
    exact .written (hwrites.congr hfind.symm htotp.symm hsms.symm) hnew hedit

/-- What is written back is the own record. -/
theorem RestApi.UserHandler.WritesBack.id_eq {c : Context} {found : UserInfo} (hs : s.user.Coherent)
    (hself : isSelfServiceCaller c.caller = true) (h : WritesBack svc c s found) :
    c.request.getBinding "id" = c.caller.id := by
  obtain ⟨row, hrow, hsame⟩ := hs.of_getUserById svc h.lookup
  rw [← Table.key_of_find? hrow, ← hsame.id_eq]
  exact id_of_canModifyUserRecord hself h.allowed

/-- A put that does not write a stale record back edits the own row, or leaves it. -/
theorem own_of_putsOwn {c : Context} (hs : s.user.Coherent)
    (hputs : call.Puts svc s a) (hself : UserHandler.isSelfServiceCaller a = true)
    (h : call.Admits svc s c) (hfresh : ¬ call.WritesStale svc s)
    (hown : UserHandler.PutsOwn svc c s (call.run svc s).2) :
    Option.Rel (SelfEdit call.moment.now a call.request) (s.user.users.find? a.id)
      ((call.run svc s).2.user.users.find? a.id) := by
  cases hown with
  | unchanged husers hno =>
    rw [husers]
    cases s.user.users.find? a.id with
    | none => exact .none
    | some u => exact .some (SelfEdit.refl u)
  | @written found new hwrites hnew hedit =>
    have hcaller := caller_of_admits hputs h
    have hid := hwrites.id_eq hs (hcaller ▸ hself)
    obtain ⟨row, hrow, hsame⟩ := hs.of_getUserById svc hwrites.lookup
    have hlogin : found.lastLogin = row.lastLogin := by
      by_contra hne
      exact hfresh ⟨c, found, row, h, hwrites, h.request ▸ hrow, hne⟩
    have heq : found = row := by
      unfold SameButLogin at hsame
      rw [hsame, hlogin]
    rw [hid] at hrow
    rw [hcaller] at hrow hnew hedit
    rw [h.request, h.moment] at hedit
    rw [hrow, hnew, ← heq]
    exact .some hedit

end Frame

/-- In every reachable state, for every caller below `ADMIN` and every request that puts a user on
their behalf: it changes no more than self-service may, if and only if it does not get as far as
writing a record back whose last login is not that of the row. -/
theorem selfServiceFrame_iff (svc : Service) (w : Registry) (h : (registrySystem svc).Reachable w)
    (call : Call) (a : UserInfo) (hputs : call.Puts svc w.storage a)
    (hself : UserHandler.isSelfServiceCaller a = true) :
    call.SelfServiceFrame svc w.storage a ↔ ¬ call.WritesStale svc w.storage := by
  have hw := Registry.wellFormed_of_run h
  have haddress (id : String) (u : UserInfo) (hu : w.storage.user.users.find? id = some u) :
      toLower u.email = u.email := (hw.address id u hu).1
  constructor
  · rintro hframe ⟨c, found, row, hadmits, hwrites, hrow, hne⟩
    have hcaller := caller_of_admits hputs hadmits
    have hid : c.request.getBinding "id" = a.id :=
      (hwrites.id_eq hw.coherent (hcaller ▸ hself)).trans (congrArg UserInfo.id hcaller)
    have hown := hframe.own
    rw [← hadmits.request, hid] at hrow
    cases putsOwn_of_admits hw.coherent haddress hputs hself hadmits with
    | unchanged husers hno => exact hno found hwrites
    | @written found' new hwrites' hnew hedit =>
      obtain rfl : found' = found :=
        Option.some.inj (hwrites'.lookup.symm.trans hwrites.lookup)
      rw [hcaller] at hnew
      rw [hrow, hnew] at hown
      cases hown with
      | some hedit' =>
        have hkept : (selfServiceCore found').lastLogin = (selfServiceCore row).lastLogin := by
          rw [← hedit.core, hedit'.core]
        exact hne hkept
  · intro hfresh
    refine ⟨fun id hid ↦ others_of_put hw.coherent hputs hself hid, ?_, ?_⟩
    · by_cases hadmits : ∃ c, call.Admits svc w.storage c
      · obtain ⟨c, hadmits⟩ := hadmits
        exact own_of_putsOwn hw.coherent hputs hself hadmits hfresh
          (putsOwn_of_admits hw.coherent haddress hputs hself hadmits)
      · -- the request is turned away
        have hauth : w.storage.SameUsers (call.authentication svc w.storage).2 :=
          sameUsers_authenticate svc hw.coherent (call.handler_subOnlyService svc)
        have husers : (call.run svc w.storage).2.user.users = w.storage.user.users := by
          refine handleRequest_rule svc (call.handler svc) call.moment call.rateExceeded
            call.request (P := fun _ s' ↦ s'.user.users = w.storage.user.users)
            (fun c hacceptable hgranted hrequest hrouter hmoment ↦ ?_) ?_
          · exact absurd ⟨c, hacceptable, hgranted, hrequest, hrouter, hmoment⟩ hadmits
          · rintro _ s' - (rfl | rfl)
            · rfl
            · exact hauth.users
        rw [husers]
        cases w.storage.user.users.find? a.id with
        | none => exact .none
        | some u => exact .some (SelfEdit.refl u)
    · have hsub : (call.authentication svc w.storage).2.sub = w.storage.sub :=
        authenticate_sub svc (call.handler_subOnlyService svc)
      refine hputs.rule (P := fun s' ↦ s'.sub = w.storage.sub) rfl hsub fun c _ _ _ ↦ ?_
      rw [← hsub]
      exact UserHandler.sub_doPut

/-! ## A clerk -/

/-- A clerk with a session. -/
def sampleClerk : Storage where
  user :=
    { users := { rows := [sampleUser "root" .ROOT, sampleUser "jo" .CSR], nodup := by decide }
      tokens := { rows := { rows := [sampleToken "jo"], nodup := by decide } } }

/-- The clerk reads their record. -/
def sampleReading : Call := sampleCall "a" "jo" "jo" .GET

/-- The clerk sets their name. -/
def sampleRenaming : Call := sampleCall "b" "jo" "jo" .PUT (.object [("name", .str "Jo")])

/-- The record of the clerk is cached. -/
def sampleCached : Storage := (sampleReading.run .sample sampleClerk).2

/-- The clerk has logged in again since. -/
def sampleSignedIn : Storage :=
  { sampleCached with
    user :=
      (sampleCached.user.completeAuthorize .sample (.sample 200 "c") "jo@example.com"
        (sampleUser "jo" .CSR)).2 }

/-- A table of two users who are known to be there. -/
theorem Registry.wellFormed_sample {s : Storage} (hs : s.user.Coherent)
    (hrows : ∀ u ∈ s.user.users.rows,
      u.id ∈ ["root", "jo"] ∧ toLower u.email = u.email ∧ ':' ∉ u.email.toList) :
    Registry.WellFormed ⟨s, {id | id ∈ ["root", "jo"]}⟩ where
  coherent := hs
  issued := by
    intro id u hu
    obtain ⟨hmem, rfl⟩ := (Table.find?_eq_some_iff _).mp hu
    exact (hrows u hmem).1
  address := by
    intro id u hu
    obtain ⟨hmem, rfl⟩ := (Table.find?_eq_some_iff _).mp hu
    exact (hrows u hmem).2

theorem coherent_sampleCached : sampleCached.user.Coherent := by
  have hempty : sampleClerk.user.Coherent := Population.Coherent.of_empty rfl
  exact (UserStep.call sampleReading : UserStep .sample sampleClerk _ _).coherent hempty

theorem puts_sampleRenaming :
    sampleRenaming.Puts .sample sampleCached (sampleUser "jo" .CSR) ∧
      sampleRenaming.Puts .sample sampleSignedIn (sampleUser "jo" .CSR) :=
  ⟨⟨rfl, rfl, by decide⟩, ⟨rfl, rfl, by decide⟩⟩

/-- The cached record is up to date, so the change of the name changes no more than it may. -/
theorem selfServiceFrame_iff_sample :
    sampleRenaming.SelfServiceFrame .sample sampleCached (sampleUser "jo" .CSR) := by
  refine (selfServiceFrame_iff .sample ⟨sampleCached, {id | id ∈ ["root", "jo"]}⟩
    (.init (Registry.wellFormed_sample coherent_sampleCached (by decide))) sampleRenaming _
    puts_sampleRenaming.1 rfl).mpr ?_
  rintro ⟨c, found, row, hadmits, hwrites, hrow, hne⟩
  have hlogin : (sampleCached.user.getUserById .sample "jo").1.map UserInfo.lastLogin =
      (sampleCached.user.users.find? "jo").map UserInfo.lastLogin := by decide
  have hlookup := hwrites.lookup
  rw [hadmits.request] at hlookup
  change (sampleCached.user.getUserById .sample "jo").1 = some found at hlookup
  change sampleCached.user.users.find? "jo" = some row at hrow
  rw [hlookup, hrow] at hlogin
  exact hne (Option.some.inj hlogin)

/-- After the login the change of the name sets the time of the login back to what it was. -/
theorem renaming_forgets_login :
    (registrySystem .sample).Reachable ⟨sampleSignedIn, {id | id ∈ ["root", "jo"]}⟩ ∧
      sampleRenaming.Puts .sample sampleSignedIn (sampleUser "jo" .CSR) ∧
      (sampleSignedIn.user.users.find? "jo").map UserInfo.lastLogin = some 200 ∧
      ((sampleRenaming.run .sample sampleSignedIn).2.user.users.find? "jo").map
        UserInfo.lastLogin = some 0 ∧
      ¬ sampleRenaming.SelfServiceFrame .sample sampleSignedIn (sampleUser "jo" .CSR) := by
  have hbefore : (sampleSignedIn.user.users.find? "jo").map UserInfo.lastLogin = some 200 := by
    decide
  have hafter : ((sampleRenaming.run .sample sampleSignedIn).2.user.users.find? "jo").map
      UserInfo.lastLogin = some 0 := by decide
  refine ⟨.init (Registry.wellFormed_sample ?_ (by decide)), puts_sampleRenaming.2, hbefore, hafter,
    fun hframe ↦ ?_⟩
  · exact coherent_sampleCached.completeAuthorize .sample _ _ _
  · have hown := hframe.own
    obtain ⟨row, hrow, hlogin⟩ := Option.map_eq_some_iff.mp hbefore
    obtain ⟨row', hrow', hlogin'⟩ := Option.map_eq_some_iff.mp hafter
    change Option.Rel _ (sampleSignedIn.user.users.find? "jo") _ at hown
    rw [hrow] at hown
    change Option.Rel _ _ ((sampleRenaming.run .sample sampleSignedIn).2.user.users.find? "jo")
      at hown
    rw [hrow'] at hown
    cases hown with
    | some hedit =>
      have hkept : (selfServiceCore row').lastLogin = (selfServiceCore row).lastLogin := by
        rw [hedit.core]
      exact absurd (hlogin'.symm.trans (hkept.trans hlogin)) (by decide)

end OwSec
