import OwSec.Auth.SmsValidation
import OwSec.RestApi.UpdateFailures

/-!
# What becomes of second factors

The second factor of a record is written at three places: the update of a user, the update of a
subscriber, and the end point where subscribers choose their own.  For each of them this file
says which records there are afterwards: those from before, and one whose second factor is the
one that was reset, or asked for and let through, or chosen.

A reset turns the second factor off.  Where the cache fits the table no copy of the record is
left in which it is on.
-/

namespace OwSec

open SecurityObjects Kit ACLProcessor

namespace RestApi

/-! ## Updates -/

/-- The update asks for a reset of the second factor. -/
def AsksReset (r : Request) : Prop := r.getParameter "resetMFA" = "true"

/-- The two handlers read the parameter in different ways. -/
theorem getBoolParameter_iff {r : Request} {name : String} :
    r.getBoolParameter name = true ↔ r.getParameter name = "true" := by
  unfold Request.getBoolParameter Request.getParameter
  rcases r.parameter? name with _ | value
  · simp
  · by_cases htrue : value = "true"
    · simp [htrue]
    · by_cases hfalse : value = "false" <;> simp [htrue, hfalse]

section Updates

variable {svc : Service} {isSub : Bool} {c : Context} {s s₁ s' : Storage} {found u : UserInfo}

/-- A record that an update writes. -/
inductive Rewrites (svc : Service) (isSub : Bool) (c : Context) (s : Storage) (v : UserInfo) :
    Prop
  /-- The record that is found, without its second factor. -/
  | reset {found : UserInfo} (hasks : AsksReset c.request)
    (hlookup : ((s.population isSub).getUserById svc (c.request.getBinding "id")).1 = some found)
    (hsame : SameFactor (withoutMfa found) v)
  /-- The record that is found, with the second factor that the body asks for. -/
  | update {asked found : UserInfo} (h : ReachesMfa svc isSub c s asked found)
    (hid : v.id = found.id) (hfactor : Chooses svc c s asked found v.userTypeProprietaryInfo)

/-- Every record is from before, or the update has written it. -/
def OnlyRewrites (svc : Service) (isSub : Bool) (c : Context) (s s' : Storage) : Prop :=
  ∀ b, ∀ v ∈ (s'.population b).records,
    v ∈ (s.population b).records ∨ b = isSub ∧ Rewrites svc isSub c s v

theorem OnlyRewrites.refl (s : Storage) : OnlyRewrites svc isSub c s s := fun _ _ hv ↦ .inl hv

/-- What keeps the populations brings no record in. -/
theorem OnlyRewrites.congr (h : OnlyRewrites svc isSub c s s₁)
    (hsame : ∀ b, s'.population b = s₁.population b) : OnlyRewrites svc isSub c s s' := by
  intro b v hv
  rw [hsame b] at hv
  exact h b v hv

/-- A lookup brings no record in. -/
theorem OnlyRewrites.lookup {α : Type} {f : Population → α × Population}
    (h : OnlyRewrites svc isSub c s s₁) (b : Bool)
    (hf : (f (s₁.population b)).2.records ⊆ (s₁.population b).records) :
    OnlyRewrites svc isSub c s (s₁.onPopulation b f).2 := by
  intro b' v hv
  by_cases hb : b' = b
  · subst hb
    unfold Storage.onPopulation at hv
    rw [Storage.population_setPopulation] at hv
    exact h b' v (hf hv)
  · unfold Storage.onPopulation at hv
    rw [Storage.population_setPopulation_ne _ _ hb] at hv
    exact h b' v hv

/-- Writing a record brings that record in. -/
theorem OnlyRewrites.write (h : OnlyRewrites svc isSub c s s₁) (id : String)
    (hu : Rewrites svc isSub c s u) :
    OnlyRewrites svc isSub c s (s₁.onPopulation isSub fun p ↦ p.updateUserInfo svc id u).2 := by
  intro b v hv
  by_cases hb : b = isSub
  · subst hb
    unfold Storage.onPopulation at hv
    rw [Storage.population_setPopulation] at hv
    rcases Population.records_updateUserInfo svc id u hv with rfl | hold
    · exact .inr ⟨rfl, hu⟩
    · exact h b v hold
  · unfold Storage.onPopulation at hv
    rw [Storage.population_setPopulation_ne _ _ hb] at hv
    exact h b v hv

/-- The update of the row, when the database does not fail. -/
theorem wp_updateUserInfoUnder_none {id : String} {Q : Bool → Storage → Prop}
    {E : Response → Storage → Prop} :
    Command.wp (updateUserInfoUnder svc none isSub id u) Q E s ↔
      Q ((s.population isSub).updateUserInfo svc id u).1
        (s.onPopulation isSub fun p ↦ p.updateUserInfo svc id u).2 := by
  cases isSub with
  | false =>
    rw [updateUserInfoUnder_false]
    exact Iff.rfl
  | true =>
    rw [updateUserInfoUnder_true]
    exact Iff.rfl

theorem linked_population (c : Context) (id : String) (isSub : Bool) (s : Storage) (b : Bool) :
    (linked c id isSub s).population b = s.population b := by
  unfold linked
  split
  · exact Storage.population_createAction _ _ b
  · rfl

/-- The update from the body, in either handler; `tail` is what follows the update of the row. -/
theorem wp_updateUnder_records {id : String} {tail : UserInfo → Handling Response}
    (h₁ : OnlyRewrites svc isSub c s s₁) (htotp : s₁.totp = s.totp) (hsms : s₁.sms = s.sms)
    (hreaches : ∀ asked, PassesEdits svc isSub c asked found → ReachesMfa svc isSub c s asked found)
    (htail : ∀ u s', OnlyRewrites svc isSub c s s' →
      Command.wp (tail u) (fun _ ↦ OnlyRewrites svc isSub c s)
        (fun _ ↦ OnlyRewrites svc isSub c s) s') :
    Command.wp (do
      let u ← editRecord svc c found isSub
      let updated ← updateUserInfoUnder svc none isSub id u
      Command.ensure updated (.badRequest Errors.RecordNotUpdated)
      tail u) (fun _ ↦ OnlyRewrites svc isSub c s) (fun _ ↦ OnlyRewrites svc isSub c s) s₁ := by
  have hlinked : OnlyRewrites svc isSub c s (linked c found.id isSub s₁) :=
    h₁.congr (linked_population c found.id isSub s₁)
  -- from the update of the row on
  have hwrite {asked u : UserInfo} {s' : Storage} (h' : OnlyRewrites svc isSub c s s')
      (hpasses : PassesEdits svc isSub c asked found) (hid : u.id = found.id)
      (hu : Chooses svc c s₁ asked found u.userTypeProprietaryInfo) :
      Command.wp (do
        let updated ← updateUserInfoUnder svc none isSub id u
        Command.ensure updated (.badRequest Errors.RecordNotUpdated)
        tail u) (fun _ ↦ OnlyRewrites svc isSub c s) (fun _ ↦ OnlyRewrites svc isSub c s) s' := by
    have hrewrites : Rewrites svc isSub c s u :=
      .update (hreaches asked hpasses) hid (hu.congr htotp.symm hsms.symm)
    rw [Command.wp_bind, wp_updateUserInfoUnder_none]
    simp only [Command.wp_bind, Command.wp_ensure]
    have hwritten := h'.write id hrewrites
    exact ⟨fun _ ↦ htail u _ hwritten, fun _ ↦ hwritten⟩
  rw [Command.wp_bind]
  refine wp_editRecord (fun _ _ ↦ h₁) (fun _ _ _ _ _ ↦ hlinked)
    (fun asked hpasses _ _ u hid hu ↦ hwrite hlinked hpasses hid hu)
    (fun asked hpasses _ u hid hu ↦ hwrite ?_ hpasses hid hu)
  exact hlinked.congr fun b ↦ by cases b <;> rfl

/-- Putting a user. -/
theorem onlyRewrites_putUser : Command.wp (UserHandler.doPut svc c)
    (fun _ ↦ OnlyRewrites svc false c s) (fun _ ↦ OnlyRewrites svc false c s) s := by
  have h₁ : OnlyRewrites svc false c s
      (s.onPopulation false fun p ↦ p.getUserById svc (c.request.getBinding "id")).2 :=
    (OnlyRewrites.refl s).lookup false (Population.records_getUserById svc _)
  -- the answer reads the record again
  have hanswer (id : String) (missing : Response) {s' : Storage}
      (h' : OnlyRewrites svc false c s s') :
      Command.wp (UserHandler.buildUpdatedUserResponse svc id missing)
        (fun _ ↦ OnlyRewrites svc false c s) (fun _ ↦ OnlyRewrites svc false c s) s' := by
    have hread := h'.lookup (f := fun p ↦ p.getUserById svc id) false
      (Population.records_getUserById svc id)
    unfold UserHandler.buildUpdatedUserResponse UserHandler.getUserById
    simp only [Command.wp_bind, Command.wp_orStop, Command.wp_act, Command.wp_pure]
    exact ⟨fun _ _ ↦ hread, fun _ ↦ hread⟩
  rw [← UserHandler.doPutUnder_none]
  unfold UserHandler.doPutUnder UserHandler.getUserById
  simp only [Command.wp_bind, Command.wp_ensure, Command.wp_orStop, Command.wp_act,
    Command.wp_ite]
  refine ⟨fun htarget ↦ ⟨fun found hfound ↦ ⟨fun hallowed ↦ ⟨fun hreset ↦ ?_,
    fun hreset ↦ ⟨fun _ ↦ ?_, fun hforgot ↦ ?_⟩⟩, fun _ ↦ h₁⟩, fun _ ↦ h₁⟩, fun _ ↦ .refl s⟩
  · -- resetMFA
    unfold UserHandler.handleResetMFAUnder
    simp only [Command.wp_bind, Command.wp_ensure, wp_updateUserInfoUnder_none]
    have hwritten (u : UserInfo) (hu : SameFactor (withoutMfa found) u) :=
      h₁.write (c.request.getBinding "id") (.reset (beq_iff_eq.mp hreset) hfound hu)
    refine ⟨fun _ ↦ ⟨fun _ ↦ hanswer _ _ ?_, fun _ ↦ ?_⟩, fun _ ↦ h₁⟩
    · exact hwritten _ ⟨rfl, rfl⟩
    · exact hwritten _ ⟨rfl, rfl⟩
  · -- forgotPassword
    exact h₁.congr (Storage.population_createAction _ _)
  · -- the update from the body
    unfold UserHandler.updateFromBodyUnder
    refine wp_updateUnder_records h₁ (Storage.totp_onPopulation _ _)
      (Storage.sms_onPopulation _ _) (fun asked hpasses ↦ ?_) fun u s' h' ↦ hanswer _ _ h'
    exact ⟨by simpa using htarget, hfound, hallowed, ⟨by simpa using hreset, by simpa using hforgot⟩,
      hpasses⟩

/-- Putting a subscriber. -/
theorem onlyRewrites_putSubscriber : Command.wp (SubUserHandler.doPut svc c)
    (fun _ ↦ OnlyRewrites svc true c s) (fun _ ↦ OnlyRewrites svc true c s) s := by
  have h₁ : OnlyRewrites svc true c s
      (s.onPopulation true fun p ↦ p.getUserById svc (c.request.getBinding "id")).2 :=
    (OnlyRewrites.refl s).lookup true (Population.records_getUserById svc _)
  rw [← SubUserHandler.doPutUnder_none]
  unfold SubUserHandler.doPutUnder SubUserHandler.getUserById
  simp only [Command.wp_bind, Command.wp_ensure, Command.wp_orStop, Command.wp_act,
    Command.wp_ite]
  refine ⟨fun htarget ↦ ⟨fun found hfound ↦ ⟨fun hallowed ↦ ⟨fun hreset ↦ ?_,
    fun hreset ↦ ⟨fun _ ↦ ?_, fun hforgot ↦ ?_⟩⟩, fun _ ↦ h₁⟩, fun _ ↦ h₁⟩, fun _ ↦ .refl s⟩
  · -- resetMFA, answered with the record of the caller
    unfold SubUserHandler.handleResetMFAUnder UserHandler.getUserByEmail
    simp only [Command.wp_bind, Command.wp_ensure, Command.wp_act, Command.wp_pure,
      wp_updateUserInfoUnder_none]
    have hwritten (u : UserInfo) (hu : SameFactor (withoutMfa found) u) :=
      h₁.write (c.request.getBinding "id") (.reset (getBoolParameter_iff.mp hreset) hfound hu)
    refine ⟨fun _ ↦ ?_, fun _ ↦ h₁⟩
    refine OnlyRewrites.lookup ?_ true (Population.records_getUserByEmail svc _)
    exact hwritten _ ⟨rfl, rfl⟩
  · -- forgotPassword, under either name
    exact h₁.congr (Storage.population_createAction _ _)
  · -- the update from the body
    rw [Bool.not_eq_true] at hreset hforgot
    rw [Bool.or_eq_false_iff] at hforgot
    unfold SubUserHandler.updateFromBodyUnder
    refine wp_updateUnder_records h₁ (Storage.totp_onPopulation _ _)
      (Storage.sms_onPopulation _ _) (fun asked hpasses ↦ ?_) fun u s' h' ↦ ?_
    · exact ⟨by simpa using htarget, hfound, hallowed, ⟨hreset, hforgot⟩, hpasses⟩
    · simp only [Command.wp_bind, Command.wp_pure]
      exact h'.lookup true (Population.records_getUserById svc _)

end Updates

/-! ## Resets -/

section Resets

variable {svc : Service} {isSub : Bool} {c : Context} {s s' : Storage} {u : UserInfo} {id : String}

/-- In no copy of the record the second factor is on. -/
def MfaOff (isSub : Bool) (id : String) (s : Storage) : Prop :=
  ∀ v ∈ (s.population isSub).records, v.id = id → v.userTypeProprietaryInfo.mfa.enabled = false

/-- A lookup leaves it off. -/
theorem MfaOff.lookup {α : Type} {f : Population → α × Population} (h : MfaOff isSub id s)
    (hf : (f (s.population isSub)).2.records ⊆ (s.population isSub).records) :
    MfaOff isSub id (s.onPopulation isSub f).2 := by
  intro v hv
  unfold Storage.onPopulation at hv
  rw [Storage.population_setPopulation] at hv
  exact h v (hf hv)

/-- It is off after a row with it off was written. -/
theorem mfaOff_write {row : UserInfo} (hid : u.id = id) (hs : (s.population isSub).Coherent)
    (hrow : (s.population isSub).users.find? u.id = some row)
    (hoff : u.userTypeProprietaryInfo.mfa.enabled = false) :
    MfaOff isSub id (s.onPopulation isSub fun p ↦ p.updateUserInfo svc id u).2 := by
  subst hid
  intro v hv hid
  unfold Storage.onPopulation at hv
  rw [Storage.population_setPopulation] at hv
  have hwritten : ((s.population isSub).updateUserInfo svc u.id u).2.users.find? v.id = some u := by
    rw [Population.find?_updateUserInfo, if_pos hid, hrow]
    rfl
  have hsame := (hs.updateUserInfo svc hrow).sameButLogin hwritten hv
  rw [hsame.eq UserInfo.userTypeProprietaryInfo fun _ _ ↦ rfl]
  exact hoff

/-- The record that is looked up has a row, in a population that fits its cache. -/
theorem coherent_lookup (hs : (s.population isSub).Coherent)
    (hfound : ((s.population isSub).getUserById svc id).1 = some u) :
    u.id = id ∧
      ((s.onPopulation isSub fun p ↦ p.getUserById svc id).2.population isSub).Coherent ∧
      ∃ row, ((s.onPopulation isSub fun p ↦ p.getUserById svc id).2.population isSub).users.find?
        u.id = some row := by
  obtain ⟨row, hrow, hsame⟩ := hs.of_getUserById svc hfound
  have hkey : row.id = id := Table.key_of_find? hrow
  unfold Storage.onPopulation
  rw [Storage.population_setPopulation, Population.getUserById_users]
  exact ⟨hsame.id_eq.trans hkey, hs.getUserById svc id, row, hsame.id_eq.trans hkey ▸ hrow⟩

/-- A reset that is not refused leaves the second factor of the user off. -/
theorem mfaOff_putUser (hs : (s.population false).Coherent) (hasks : AsksReset c.request) :
    Command.wp (UserHandler.doPut svc c)
      (fun a s' ↦ a.refused = false → MfaOff false (c.request.getBinding "id") s')
      (fun a s' ↦ a.refused = false → MfaOff false (c.request.getBinding "id") s') s := by
  have hrefused {a : Response} {P : Prop} (ha : a.refused = true) (h : a.refused = false) : P :=
    absurd (ha.symm.trans h) Bool.noConfusion
  unfold UserHandler.doPut UserHandler.getUserById
  simp only [Command.wp_bind, Command.wp_ensure, Command.wp_orStop, Command.wp_act,
    Command.wp_ite]
  refine ⟨fun _ ↦ ⟨fun found hfound ↦ ⟨fun _ ↦ ⟨fun _ ↦ ⟨fun _ ↦ ?_, fun _ ↦ hrefused rfl⟩,
    fun hnot ↦ absurd (beq_iff_eq.mpr hasks) hnot⟩, fun _ ↦ hrefused rfl⟩, fun _ ↦ hrefused rfl⟩,
    fun _ ↦ hrefused rfl⟩
  obtain ⟨hid, hcoherent, row, hrow⟩ := coherent_lookup hs hfound
  unfold UserHandler.handleResetMFA UserHandler.updateUserInfo UserHandler.buildUpdatedUserResponse
    UserHandler.getUserById
  simp only [Command.wp_bind, Command.wp_ensure, Command.wp_orStop, Command.wp_act,
    Command.wp_pure]
  refine ⟨fun _ ↦ ⟨fun _ _ _ ↦ ?_, fun _ ↦ hrefused rfl⟩, fun _ ↦ hrefused rfl⟩
  refine MfaOff.lookup ?_ (Population.records_getUserById svc _)
  exact mfaOff_write hid hcoherent hrow rfl

/-- A reset that is not refused leaves the second factor of the subscriber off. -/
theorem mfaOff_putSubscriber (hs : (s.population true).Coherent) (hasks : AsksReset c.request) :
    Command.wp (SubUserHandler.doPut svc c)
      (fun a s' ↦ a.refused = false → MfaOff true (c.request.getBinding "id") s')
      (fun a s' ↦ a.refused = false → MfaOff true (c.request.getBinding "id") s') s := by
  have hrefused {a : Response} {P : Prop} (ha : a.refused = true) (h : a.refused = false) : P :=
    absurd (ha.symm.trans h) Bool.noConfusion
  unfold SubUserHandler.doPut SubUserHandler.modify SubUserHandler.getUserById
  simp only [Command.wp_bind, Command.wp_ensure, Command.wp_orStop, Command.wp_act,
    Command.wp_ite]
  refine ⟨fun _ ↦ ⟨fun found hfound ↦ ⟨fun _ ↦ ⟨fun _ ↦ ?_,
    fun hnot ↦ absurd (getBoolParameter_iff.mpr hasks) hnot⟩, fun _ ↦ hrefused rfl⟩,
    fun _ ↦ hrefused rfl⟩, fun _ ↦ hrefused rfl⟩
  obtain ⟨hid, hcoherent, row, hrow⟩ := coherent_lookup hs hfound
  unfold SubUserHandler.handleResetMFA SubUserHandler.updateUserInfo UserHandler.getUserByEmail
  simp only [Command.wp_bind, Command.wp_ensure, Command.wp_act, Command.wp_pure]
  refine ⟨fun _ _ ↦ ?_, fun _ ↦ hrefused rfl⟩
  refine MfaOff.lookup ?_ (Population.records_getUserByEmail svc _)
  exact mfaOff_write hid hcoherent hrow rfl

end Resets

/-! ## Numbers -/

section Numbers

variable {svc : Service} {s : Storage} {number code userName : String}

/-- Every entry that is validated was so before, or it is about one of these numbers and users. -/
def ValidatedAmong (m m' : List SMSValidationCacheEntry) (pairs : List (String × String)) : Prop :=
  ∀ e ∈ m', e.validated = true →
    (∃ e₀ ∈ m, e₀.validated = true ∧ e₀.number = e.number ∧ e₀.userName = e.userName) ∨
      (e.number, e.userName) ∈ pairs

theorem ValidatedAmong.of_subset {m m' : List SMSValidationCacheEntry}
    {pairs : List (String × String)} (h : ∀ e ∈ m', e ∈ m) : ValidatedAmong m m' pairs :=
  fun e he hvalidated ↦ .inl ⟨e, h e he, hvalidated, rfl, rfl⟩

/-- What was validated is found among more. -/
theorem ValidatedAmong.trans {m m' m'' : List SMSValidationCacheEntry}
    {pairs pairs' : List (String × String)} (h : ValidatedAmong m m' pairs)
    (h' : ValidatedAmong m' m'' pairs') : ValidatedAmong m m'' (pairs ++ pairs') := by
  intro e he hvalidated
  rcases h' e he hvalidated with ⟨e₁, he₁, hvalidated₁, hnumber₁, huser₁⟩ | hpair
  · rcases h e₁ he₁ hvalidated₁ with ⟨e₀, he₀, hvalidated₀, hnumber₀, huser₀⟩ | hpair
    · exact .inl ⟨e₀, he₀, hvalidated₀, hnumber₀.trans hnumber₁, huser₀.trans huser₁⟩
    · rw [hnumber₁, huser₁] at hpair
      exact .inr (List.mem_append_left _ hpair)
  · exact .inr (List.mem_append_right _ hpair)

/-- Asking for a code validates nothing. -/
theorem validatedAmong_start (gateway : SmsGateway) (now : ℕ) (pairs : List (String × String)) :
    ValidatedAmong s.sms (s.smsStartValidation svc gateway now number userName).2.sms pairs := by
  unfold Storage.smsStartValidation
  split
  · intro e he hvalidated
    rcases List.mem_append.mp he with hold | hnew
    · exact .inl ⟨e, (List.mem_filter.mp hold).1, hvalidated, rfl, rfl⟩
    · rw [List.mem_singleton.mp hnew] at hvalidated
      cases hvalidated
  · exact .of_subset fun _ he ↦ he

/-- A code that completes validates its number for its user. -/
theorem validatedAmong_complete :
    ValidatedAmong s.sms (s.smsCompleteValidation svc number code userName).2.sms
      (if (s.smsCompleteValidation svc number code userName).1 then [(number, userName)]
        else []) := by
  unfold Storage.smsCompleteValidation
  split
  · rcases hfind : s.sms.find? (SMSValidationCacheEntry.fits number code userName) with _ | e
    · simp only [Storage.validateFirst_none hfind]
      exact .of_subset fun _ he ↦ he
    · obtain ⟨before, after, hsplit, -, hmark⟩ := Storage.validateFirst_some hfind
      have he : ∀ x ∈ before ++ after, x ∈ s.sms := by
        intro x hx
        rw [hsplit]
        exact (List.Sublist.append_left (List.sublist_cons_self e after) before).subset hx
      simp only [hmark]
      intro x hx hvalidated
      rcases List.mem_append.mp hx with hx | hx
      · exact .inl ⟨x, he x (List.mem_append_left _ hx), hvalidated, rfl, rfl⟩
      rcases List.mem_cons.mp hx with rfl | hx
      · -- the entry that is marked
        have hfits := List.find?_some hfind
        simp only [SMSValidationCacheEntry.fits, Bool.and_eq_true, beq_iff_eq] at hfits
        refine .inr ?_
        rw [if_pos trivial, List.mem_singleton]
        exact Prod.ext hfits.1.2 hfits.2
      · exact .inl ⟨x, he x (List.mem_append_right _ hx), hvalidated, rfl, rfl⟩
  · exact .of_subset fun _ he ↦ he

theorem population_smsCompleteValidation (b : Bool) :
    (s.smsCompleteValidation svc number code userName).2.population b = s.population b := by
  unfold Storage.smsCompleteValidation
  split <;> cases b <;> rfl

theorem population_smsStartValidation (gateway : SmsGateway) (now : ℕ) (b : Bool) :
    (s.smsStartValidation svc gateway now number userName).2.population b = s.population b := by
  unfold Storage.smsStartValidation
  split <;> cases b <;> rfl

end Numbers

/-! ## The choice of a subscriber -/

/-- The number that the answer to a choice reports as validated, and the user. -/
def numberOf : Response → Option (String × String)
  | .mfaConfig config =>
    if config.type == "sms" then some (config.sms, config.email) else none
  | _ => none

namespace SubMfaHandler

variable {svc : Service} {gateway : SmsGateway} {c : Context} {s s' : Storage}

/-- A record that a choice writes. -/
inductive Chosen (s : Storage) (answer : Response) (v : UserInfo) : Prop
  | disabled {u : UserInfo} (hu : u ∈ (s.population true).records ∨ u = {})
    (hv : v = SubMfaHandler.disabled u)
  | byEmail {u : UserInfo} (hu : u ∈ (s.population true).records ∨ u = {})
    (hv : v = SubMfaHandler.byEmail u)
  | bySms {u : UserInfo} {number userName : String}
    (hu : u ∈ (s.population true).records ∨ u = {}) (hv : v = SubMfaHandler.bySms number u)
    (hanswer : numberOf answer = some (number, userName))

/-- What a choice leaves. -/
structure Choice (s : Storage) (answer : Response) (s' : Storage) : Prop where
  records : ∀ b, ∀ v ∈ (s'.population b).records,
    v ∈ (s.population b).records ∨ b = true ∧ Chosen s answer v
  numbers : ValidatedAmong s.sms s'.sms (numberOf answer).toList

/-- A choice that writes no record. -/
theorem Choice.quiet {answer : Response} (h : ∀ b, s'.population b = s.population b)
    (hnumbers : ValidatedAmong s.sms s'.sms (numberOf answer).toList) : Choice s answer s' := by
  refine ⟨fun b v hv ↦ .inl ?_, hnumbers⟩
  rw [← h b]
  exact hv

theorem Choice.refl (answer : Response) (s : Storage) : Choice s answer s :=
  .quiet (fun _ ↦ rfl) (.of_subset fun _ he ↦ he)

/-- Editing the own record brings the edited record in. -/
theorem wp_editOwn_records {edit : UserInfo → UserInfo} {Q : PUnit → Storage → Prop}
    {E : Response → Storage → Prop}
    (hQ : ∀ u s', u ∈ (s.population true).records ∨ u = {} →
      (∀ b, ∀ v ∈ (s'.population b).records,
        v ∈ (s.population b).records ∨ b = true ∧ v = edit u) → s'.sms = s.sms → Q ⟨⟩ s') :
    Command.wp (editOwn svc c edit) Q E s := by
  unfold editOwn SubUserHandler.getUserById SubUserHandler.updateUserInfo
  simp only [Command.wp_bind, Command.wp_act, Command.wp_pure]
  refine hQ (((s.population true).getUserById svc c.caller.id).1.getD {}) _ ?_ ?_ ?_
  · rcases ho : ((s.population true).getUserById svc c.caller.id).1 with _ | u
    · exact .inr rfl
    · exact .inl (Population.getUserById_mem svc ho)
  · intro b v hv
    by_cases hb : b = true
    · subst hb
      unfold Storage.onPopulation at hv
      rw [Storage.population_setPopulation, Storage.population_setPopulation] at hv
      rcases Population.records_updateUserInfo svc _ _ hv with rfl | hold
      · exact .inr ⟨rfl, rfl⟩
      · exact .inl (Population.records_getUserById svc _ hold)
    · unfold Storage.onPopulation at hv
      rw [Storage.population_setPopulation_ne _ _ hb, Storage.population_setPopulation_ne _ _ hb]
        at hv
      exact .inl hv
  · rw [Storage.sms_onPopulation, Storage.sms_onPopulation]

theorem wp_putSms_choice {mfc : SubMfaConfig} :
    Command.wp (putSms svc gateway c mfc) (fun a s' ↦ Choice s a s') (fun a s' ↦ Choice s a s')
      s := by
  have hstart (a : Response) : Choice s a
      (s.smsStartValidation svc gateway c.moment.now mfc.sms c.caller.email).2 :=
    .quiet (population_smsStartValidation _ _) (validatedAmong_start _ _ _)
  have hcomplete : ValidatedAmong s.sms
      (s.smsCompleteValidation svc mfc.sms (c.request.getParameter "challengeCode")
        c.caller.email).2.sms
      (if (s.smsCompleteValidation svc mfc.sms (c.request.getParameter "challengeCode")
        c.caller.email).1 then [(mfc.sms, c.caller.email)] else []) := validatedAmong_complete
  unfold putSms
  simp only [Command.wp_bind, Command.wp_ite, Command.wp_ensure, Command.wp_act, Command.wp_pure]
  refine ⟨fun _ ↦ ⟨fun _ ↦ ⟨fun _ ↦ hstart _, fun _ ↦ .refl _ s⟩, fun _ ↦ .refl _ s⟩,
    fun _ ↦ ⟨fun _ ↦ ⟨fun _ ↦ ⟨fun _ ↦ ⟨fun _ ↦ ⟨fun hvalid ↦ ?_, fun hinvalid ↦ ?_⟩,
    fun _ ↦ .refl _ s⟩, fun _ ↦ .refl _ s⟩, fun _ ↦ .refl _ s⟩, fun _ ↦ .refl _ s⟩⟩
  · rw [if_pos hvalid] at hcomplete
    refine wp_editOwn_records fun u s' hu hrecords hsms ↦ ⟨fun b v hv ↦ ?_, hsms ▸ hcomplete⟩
    have hv' := hrecords b v hv
    rw [population_smsCompleteValidation] at hv' hu
    exact hv'.imp_right fun h ↦ ⟨h.1, .bySms hu h.2 rfl⟩
  · rw [if_neg (by rw [hinvalid]; exact Bool.false_ne_true)] at hcomplete
    exact .quiet population_smsCompleteValidation hcomplete

/-- What putting the second factor of a subscriber leaves. -/
theorem wp_doPut_choice :
    Command.wp (doPut svc gateway c) (fun a s' ↦ Choice s a s') (fun a s' ↦ Choice s a s') s := by
  unfold doPut
  simp only [Command.wp_bind, Command.wp_orStop, Command.wp_ite, Command.wp_pure]
  refine ⟨fun mfc _ ↦ ⟨fun _ ↦ ?_, fun _ ↦ ⟨fun _ ↦ ?_, fun _ ↦ ⟨fun _ ↦ wp_putSms_choice,
    fun _ ↦ .refl _ s⟩⟩⟩, fun _ ↦ .refl _ s⟩
  · refine wp_editOwn_records fun u s' hu hrecords hsms ↦ ⟨fun b v hv ↦ ?_, ?_⟩
    · exact (hrecords b v hv).imp_right fun h ↦ ⟨h.1, .disabled hu h.2⟩
    · exact .of_subset fun e he ↦ hsms ▸ he
  · refine wp_editOwn_records fun u s' hu hrecords hsms ↦ ⟨fun b v hv ↦ ?_, ?_⟩
    · exact (hrecords b v hv).imp_right fun h ↦ ⟨h.1, .byEmail hu h.2⟩
    · exact .of_subset fun e he ↦ hsms ▸ he

end SubMfaHandler

end RestApi

end OwSec
