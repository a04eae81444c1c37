import OwSec.Auth.PasswordRules
import OwSec.Auth.TotpEnrolment
import OwSec.RestApi.FactorChanges

/-!
# The answers to updates

An update of a user or of a subscriber that is answered with an object should be answered with
the record as it is now stored, whoever the caller is.  For that the handlers read the record
again, and in all places but one they read it by its identifier.  The reset of the second factor
of a subscriber reads it by the address of the caller: unless that is the address of the
subscriber, or the cache still takes it for one, the answer is another record, or an empty one.
-/

namespace OwSec

open SecurityObjects Kit RestApi ACLProcessor

/-! ## The law -/

/-- The answer, where it is a record, is the one that the table has under the identifier, without
its secrets. -/
def AnswersRow (isSub : Bool) (id : String) (a : Response) (s : Storage) : Prop :=
  ∀ u, a = .user u → ∃ row, (s.population isSub).users.find? id = some row ∧ u = sanitize row

/-- The update resets the second factor of a subscriber, and neither the subscriber nor the cache
has the address of the caller. -/
structure Misdirects (svc : Service) (c : Context) (s : Storage) (found : UserInfo) : Prop where
  target : c.request.getBinding "id" ≠ ""
  lookup : (s.sub.getUserById svc (c.request.getBinding "id")).1 = some found
  allowed : (c.internal || can c.caller found .MODIFY) = true
  asks : c.request.getBoolParameter "resetMFA" = true
  granted : SubUserHandler.canResetMFA c.caller (c.request.getBinding "id") found = true
  address : c.caller.email ≠ found.email
  uncached : s.sub.cacheByEMail.lookup c.caller.email ≠ some (c.request.getBinding "id")

/-- A request that puts a user or a subscriber. -/
structure Update where
  isSub : Bool
  internal : Bool
  env : Surroundings
  request : Request
  put : request.method = .PUT

namespace Update

variable (svc : Service) (q : Update) (s : Storage)

/-- The handler that the request is routed to. -/
def handler : Handler := (TotpEnrolment.endPointOf q.isSub).handler svc q.env q.internal

/-- The answer, and the state afterwards. -/
def run : Response × Storage :=
  handleRequest svc (q.handler svc) q.env.moment q.env.rateExceeded q.request s

/-- What the authentication of the request reports and leaves. -/
def authentication : AuthResult × Storage :=
  authenticate svc (q.handler svc) q.env.moment q.request s

/-- The request is let through with this context. -/
def Admits (c : Context) : Prop :=
  RecordRequest.Admits svc s (TotpEnrolment.endPointOf q.isSub) q.internal q.env q.request c

/-- The request is answered with the record of somebody else. -/
def Misdirected : Prop :=
  q.isSub = true ∧ ∃ c found, q.Admits svc s c ∧ Misdirects svc c (q.authentication svc s).2 found

/-- A request that is answered with an object is answered with the stored record. -/
def AnswersRecord : Prop :=
  AnswersRow q.isSub (q.request.getBinding "id") (q.run svc s).1 (q.run svc s).2

end Update

/-! ## Reading a record that was written -/

namespace Population

variable {svc : Service} {p : Population} {u v r : UserInfo} {email : String}

/-- A record that was written is found by its address, and by one that the cache takes for it. -/
theorem getUserByEmail_updateUserInfo
    (h : email = u.email ∨ p.cacheByEMail.lookup email = some u.id) :
    ((p.updateUserInfo svc u.id u).2.getUserByEmail svc email).1 = some u := by
  obtain ⟨users, -, heq⟩ := updateUserInfo_eq svc (p := p) u
  have haddress : (p.cacheByEMail.insert u.email u.id).lookup email = some u.id := by
    rw [Cache.lookup_insert_eq]
    split
    · rfl
    · rename_i hne
      exact h.resolve_left hne
  have hrecord : (p.cacheById.insert u.id u).lookup u.id = some u := by
    rw [Cache.lookup_insert_eq, if_pos rfl]
  have hhit : ({ p with users }.updateCache svc u).getFromCacheByEMail email = some u := by
    unfold getFromCacheByEMail updateCache
    simp only [haddress, hrecord]
  rw [heq]
  unfold getUserByEmail getRecordByEMail
  simp only [hhit]

/-- By any other address another record is found, if any. -/
theorem id_ne_of_getUserByEmail_updateUserInfo (hp : p.Coherent)
    (hrow : p.users.find? u.id = some r) (hne : email ≠ u.email)
    (hcached : p.cacheByEMail.lookup email ≠ some u.id)
    (hv : ((p.updateUserInfo svc u.id u).2.getUserByEmail svc email).1 = some v) :
    v.id ≠ u.id := by
  have hcoherent := hp.updateUserInfo svc hrow
  have hfind := find?_updateUserInfo svc (p := p) u
  obtain ⟨users, -, heq⟩ := updateUserInfo_eq svc (p := p) u
  have haddress : (p.updateUserInfo svc u.id u).2.cacheByEMail.lookup email ≠ some u.id := by
    rw [heq]
    show (p.cacheByEMail.insert u.email u.id).lookup email ≠ some u.id
    rw [Cache.lookup_insert_eq, if_neg hne]
    exact hcached
  generalize (p.updateUserInfo svc u.id u).2 = p' at *
  intro hid
  unfold getUserByEmail getRecordByEMail getFromCacheByEMail at hv
  split at hv
  · rename_i w hw
    obtain rfl : w = v := by simpa using hv
    split at hw
    · -- the cache leads to the record of another identifier
      rename_i k hk
      obtain ⟨row, hrow', hsame⟩ := hcoherent k w hw
      have hkey : w.id = k := hsame.id_eq.trans (Table.key_of_find? hrow')
      rw [← hkey, hid] at hk
      exact haddress hk
    · cases hw
  · split at hv
    · -- the table has a row with the address
      rename_i w hw
      obtain rfl : w = v := by simpa using hv
      obtain ⟨hw', hmail⟩ := Table.select_eq_some hw
      rw [hid, hfind, if_pos rfl, hrow] at hw'
      obtain rfl : u = w := by simpa using hw'
      exact hne (beq_iff_eq.mp hmail).symm
    · cases hv

/-- Looking a record up changes nothing about which addresses are taken for its own. -/
theorem cacheByEMail_getUserById (email : String) {id : String} (hu : (p.getUserById svc id).1 = some u)
    (hid : u.id = id) :
    (email = u.email ∨ (p.getUserById svc id).2.cacheByEMail.lookup email = some id) ↔
      email = u.email ∨ p.cacheByEMail.lookup email = some id := by
  unfold getUserById getRecordById at hu ⊢
  split at hu
  · exact Iff.rfl
  · split at hu
    · rename_i w hw
      obtain rfl : w = u := by simpa using hu
      show (email = w.email ∨ (p.cacheByEMail.insert w.email w.id).lookup email = some id) ↔ _
      rw [Cache.lookup_insert_eq]
      by_cases hmail : email = w.email
      · simp [hmail]
      · simp [hmail]
    · cases hu

end Population

/-! ## How an update is answered -/

section Answers

variable {svc : Service} {isSub : Bool} {c : Context} {s s' : Storage} {found u r : UserInfo}
  {id : String} {a : Response} {α β : Type}

/-- An answer that is not a record. -/
def Bare (a : Response) : Prop := ∀ u, a ≠ .user u

theorem Bare.answersRow (h : Bare a) : AnswersRow isSub id a s := fun u hu ↦ absurd hu (h u)

theorem bare_of_isOther (h : PasswordRules.isOther a = true) : Bare a := by
  rintro u rfl
  cases h

/-- The record that is stored is answered. -/
theorem answersRow_of_find? (h : (s.population isSub).users.find? id = some u) :
    AnswersRow isSub id (.user (sanitize u)) s := by
  rintro _ ⟨⟩
  exact ⟨u, h, rfl⟩

/-- The answers with which a computation fails are no records. -/
def FailsBare (x : Except Response α) : Prop := ∀ e, x = .error e → Bare e

theorem failsBare_bind {x : Except Response α} {f : α → Except Response β}
    (hx : PasswordRules.FailsOther x) (hf : ∀ a, FailsBare (f a)) : FailsBare (x >>= f) := by
  rcases x with e | a
  · rintro _ ⟨⟩
    exact bare_of_isOther (hx e rfl)
  · exact hf a

theorem failsBare_changePassword {salt : String} {raw : JsonObject} {existing : UserInfo} :
    FailsBare (changePassword svc isSub salt raw existing) := by
  unfold changePassword
  split
  · rintro _ ⟨⟩
  · refine failsBare_bind (PasswordRules.failsOther_orThrow _) fun password ↦ ?_
    split
    · split
      · rintro _ ⟨⟩
      · rintro _ ⟨⟩ u hu
        cases hu
      · rintro _ ⟨⟩ u hu
        cases hu
    · rintro _ ⟨⟩ u hu
      cases hu

/-- Making the record of an update stops with no record. -/
theorem wp_editRecord_bare :
    Command.wp (editRecord svc c found isSub) (fun _ _ ↦ True) (fun e _ ↦ Bare e) s := by
  have hmfa {asked v : UserInfo} {has : Bool} {s' : Storage} :
      Command.wp (UserHandler.applyMfaChange svc c.moment c.caller asked has v)
        (fun _ _ ↦ True) (fun e _ ↦ Bare e) s' :=
    Command.wp_mono PasswordRules.wp_applyMfaChange_other (fun _ _ _ ↦ trivial)
      fun _ _ ↦ bare_of_isOther
  cases isSub with
  | false =>
    unfold editRecord UserHandler.editFromBody UserHandler.verifyEmail
    simp only [Command.wp_bind, Command.wp_ensure, Command.wp_orStop, Command.wp_lift,
      Command.wp_ite, Command.wp_pure, Command.wp_act]
    refine ⟨fun asked _ ↦ ⟨fun valid _ ↦ ⟨fun _ ↦ ⟨fun _ ↦ ⟨fun v _ ↦ ⟨fun _ ↦ hmfa, fun _ ↦ hmfa⟩,
      fun e he ↦ ?_⟩, fun _ ↦ bare_of_isOther rfl⟩, fun _ ↦ bare_of_isOther rfl⟩, fun e he ↦ ?_⟩,
      fun _ ↦ bare_of_isOther rfl⟩
    · refine failsBare_bind PasswordRules.failsOther_applyOwnerUpdate (fun _ ↦ failsBare_bind
        PasswordRules.failsOther_applyProfileFields fun _ ↦ failsBare_bind
          PasswordRules.failsOther_applyAdminStatusFields fun _ ↦ failsBare_bind
            PasswordRules.failsOther_user_applyRoleChange fun _ ↦ failsBare_bind
              (PasswordRules.failsOther_appendNotes _) fun _ ↦ ?_) e he
      rw [UserHandler.applyPasswordChange_eq]
      exact failsBare_changePassword
    · exact bare_of_isOther
        (PasswordRules.failsOther_requestedRole.bind (fun _ ↦ PasswordRules.failsOther_ok _) e he)
  | true =>
    unfold editRecord SubUserHandler.editFromBody SubUserHandler.verifySubEmail
    simp only [Command.wp_bind, Command.wp_ensure, Command.wp_orStop, Command.wp_lift,
      Command.wp_ite, Command.wp_pure, Command.wp_act]
    refine ⟨fun asked _ ↦ ⟨fun role _ ↦ ⟨fun _ ↦ ⟨fun v _ ↦ ⟨fun _ ↦ hmfa, fun _ ↦ hmfa⟩,
      fun e he ↦ ?_⟩, fun _ ↦ bare_of_isOther rfl⟩, fun e he ↦ ?_⟩, fun _ ↦ bare_of_isOther rfl⟩
    · refine failsBare_bind PasswordRules.failsOther_applyFields (fun _ ↦ failsBare_bind
        PasswordRules.failsOther_subuser_applyRoleChange fun _ ↦ failsBare_bind
          (PasswordRules.failsOther_appendNotes _) fun _ ↦ ?_) e he
      rw [SubUserHandler.applyPasswordChange_eq]
      exact failsBare_changePassword
    · exact bare_of_isOther (PasswordRules.failsOther_requestedRole e he)

/-- It ends with a record of the same identifier, and the population is as before. -/
theorem wp_editRecord_id :
    Command.wp (editRecord svc c found isSub)
      (fun u s' ↦ u.id = found.id ∧ s'.population isSub = s.population isSub)
      (fun e _ ↦ Bare e) s := by
  have hkeeps : Command.wp (editRecord svc c found isSub)
      (fun u s' ↦ u.id = found.id ∧ s'.population isSub = s.population isSub)
      (fun _ _ ↦ True) s := by
    have hlinked := linked_population c found.id isSub s isSub
    refine wp_editRecord (fun _ _ ↦ trivial) (fun _ _ _ _ _ ↦ trivial)
      (fun _ _ _ _ u hid _ ↦ ⟨hid, hlinked⟩) fun _ _ _ u hid _ ↦ ⟨hid, ?_⟩
    rw [← hlinked]
    cases isSub <;> rfl
  exact Command.wp_mono (Command.wp_and hkeeps wp_editRecord_bare) (fun _ _ h ↦ h.1)
    fun _ _ h ↦ h.2

/-- A record that is written replaces the row, and is found by its identifier. -/
theorem wp_writeRow {Q : Bool → Storage → Prop} {E : Response → Storage → Prop} (hid : u.id = id)
    (hrow : (s.population isSub).users.find? id = some r)
    (hQ : ∀ s', (s'.population isSub).users.find? id = some u →
      ((s'.population isSub).getUserById svc id).1 = some u → Q true s') :
    Command.wp (updateUserInfoUnder svc none isSub id u) Q E s := by
  subst hid
  rw [wp_updateUserInfoUnder_none]
  obtain ⟨users, -, heq⟩ := Population.updateUserInfo_eq svc (p := s.population isSub) u
  have htrue : ((s.population isSub).updateUserInfo svc u.id u).1 = true := congrArg Prod.fst heq
  have hpopulation : ((s.onPopulation isSub fun p ↦ p.updateUserInfo svc u.id u).2).population
      isSub = ((s.population isSub).updateUserInfo svc u.id u).2 :=
    Storage.population_setPopulation _ _ _
  rw [htrue]
  refine hQ _ ?_ ?_
  · rw [hpopulation, Population.find?_updateUserInfo, if_pos rfl, hrow, Option.map_some]
  · rw [hpopulation, Population.getUserById_updateUserInfo]

/-- A lookup leaves the table alone, and the record that is stored is answered. -/
theorem answersRow_lookup {γ : Type} {f : Population → γ × Population}
    (hf : (f (s.population isSub)).2.users = (s.population isSub).users)
    (hrow : (s.population isSub).users.find? id = some u) :
    AnswersRow isSub id (.user (sanitize u)) (s.onPopulation isSub f).2 := by
  refine answersRow_of_find? ?_
  unfold Storage.onPopulation
  rw [Storage.population_setPopulation, hf]
  exact hrow

/-- The update from the body, in either handler; `tail` is what follows the update of the row. -/
theorem wp_updateUnder_answers {tail : UserInfo → Handling Response} (hid : found.id = id)
    (hrow : (s.population isSub).users.find? id = some r)
    (htail : ∀ u s', (s'.population isSub).users.find? id = some u →
      ((s'.population isSub).getUserById svc id).1 = some u →
        Command.wp (tail u) (AnswersRow isSub id) (AnswersRow isSub id) s') :
    Command.wp (do
      let u ← editRecord svc c found isSub
      let updated ← updateUserInfoUnder svc none isSub id u
      Command.ensure updated (.badRequest Errors.RecordNotUpdated)
      tail u) (AnswersRow isSub id) (AnswersRow isSub id) s := by
  rw [Command.wp_bind]
  refine Command.wp_mono wp_editRecord_id (fun u s₁ hu ↦ ?_) fun _ _ ↦ Bare.answersRow
  obtain ⟨hsame, hpopulation⟩ := hu
  simp only [Command.wp_bind, Command.wp_ensure]
  refine wp_writeRow (hsame.trans hid) (hpopulation ▸ hrow) fun s' hrow' hfound ↦ ?_
  exact ⟨fun _ ↦ htail u s' hrow' hfound, fun h ↦ by cases h⟩

/-- Putting a user. -/
theorem answersRow_putUser (hs : s.user.Coherent) :
    Command.wp (UserHandler.doPut svc c) (AnswersRow false (c.request.getBinding "id"))
      (AnswersRow false (c.request.getBinding "id")) s := by
  -- the answer reads the record by its identifier
  have htail (missing : Response) (hmissing : Bare missing) (u : UserInfo) (s' : Storage)
      (hrow : (s'.population false).users.find? (c.request.getBinding "id") = some u)
      (hfound : ((s'.population false).getUserById svc (c.request.getBinding "id")).1 = some u) :
      Command.wp (UserHandler.buildUpdatedUserResponse svc (c.request.getBinding "id") missing)
        (AnswersRow false (c.request.getBinding "id"))
        (AnswersRow false (c.request.getBinding "id")) s' := by
    unfold UserHandler.buildUpdatedUserResponse UserHandler.getUserById
    simp only [Command.wp_bind, Command.wp_orStop, Command.wp_act, Command.wp_pure]
    refine ⟨fun v hv ↦ ?_, fun _ ↦ hmissing.answersRow⟩
    change ((s'.population false).getUserById svc (c.request.getBinding "id")).1 = some v at hv
    obtain rfl := Option.some.inj (hfound.symm.trans hv)
    exact answersRow_lookup (Population.getUserById_users svc _) hrow
  rw [← UserHandler.doPutUnder_none]
  unfold UserHandler.doPutUnder UserHandler.getUserById
  simp only [Command.wp_bind, Command.wp_ensure, Command.wp_orStop, Command.wp_act,
    Command.wp_ite]
  refine ⟨fun _ ↦ ⟨fun found hfound ↦ ⟨fun _ ↦ ?_, fun _ ↦ ?_⟩, fun _ ↦ ?_⟩, fun _ ↦ ?_⟩
  rotate_left
  · exact Bare.answersRow fun u hu ↦ by cases hu
  · exact Bare.answersRow fun u hu ↦ by cases hu
  · exact Bare.answersRow fun u hu ↦ by cases hu
  obtain ⟨row, hrow, hsame⟩ := hs.of_getUserById svc hfound
  have hid : found.id = c.request.getBinding "id" :=
    hsame.id_eq.trans (Table.key_of_find? hrow)
  have hrow' : (((s.onPopulation false fun p ↦
      p.getUserById svc (c.request.getBinding "id")).2).population false).users.find?
        (c.request.getBinding "id") = some row := by
    unfold Storage.onPopulation
    rw [Storage.population_setPopulation, Population.getUserById_users]
    exact hrow
  refine ⟨fun _ ↦ ⟨fun _ ↦ ?_, fun _ ↦ ?_⟩, fun _ ↦ ⟨fun _ ↦ ?_, fun _ ↦ ?_⟩⟩
  · -- resetMFA
    unfold UserHandler.handleResetMFAUnder
    simp only [Command.wp_bind, Command.wp_ensure]
    refine wp_writeRow hid hrow' fun s' hwritten hread ↦ ⟨fun _ ↦ ?_, fun h ↦ by cases h⟩
    exact htail _ (fun u hu ↦ by cases hu) _ s' hwritten hread
  · exact Bare.answersRow fun u hu ↦ by cases hu
  · -- forgotPassword
    exact Bare.answersRow fun u hu ↦ by cases hu
  · -- the update from the body
    exact wp_updateUnder_answers hid hrow' fun u s' hwritten hread ↦
      htail _ (fun u hu ↦ by cases hu) u s' hwritten hread

/-- The update of a subscriber ends with this answer and in this state, and the answer is the
record that is stored unless it is misdirected. -/
def SettledReply (svc : Service) (c : Context) (s : Storage) (a : Response) (s' : Storage) :
    Prop :=
  AnswersRow true (c.request.getBinding "id") a s' ↔ ¬ ∃ found, Misdirects svc c s found

theorem settledReply_of_not (h : AnswersRow true (c.request.getBinding "id") a s')
    (hnot : ∀ found, ¬ Misdirects svc c s found) : SettledReply svc c s a s' :=
  iff_of_true h (not_exists.mpr hnot)

/-- An answer that is not the stored record, for all that is stored under the identifier. -/
theorem not_answersRow {o : Option UserInfo} (htarget : id ≠ "")
    (hrow : (s.population isSub).users.find? id = some u) (hid : u.id = id)
    (ho : ∀ v, o = some v → v.id ≠ id) :
    ¬ AnswersRow isSub id (.user (sanitize (o.getD {}))) s := by
  intro h
  obtain ⟨row, hrow', heq⟩ := h _ rfl
  obtain rfl := Option.some.inj (hrow.symm.trans hrow')
  have hsame : (o.getD {}).id = id := (congrArg UserInfo.id heq).trans hid
  rcases o with _ | v
  · exact htarget hsame.symm
  · exact ho v rfl hsame

/-- The reset of the second factor of a subscriber is answered with the record that the address
of the caller leads to. -/
theorem settledReply_reset (hs : s.sub.Coherent) (htarget : c.request.getBinding "id" ≠ "")
    (hfound : (s.sub.getUserById svc (c.request.getBinding "id")).1 = some found)
    (hallowed : (c.internal || can c.caller found .MODIFY) = true)
    (hasks : c.request.getBoolParameter "resetMFA" = true) :
    Command.wp (SubUserHandler.handleResetMFA svc c (c.request.getBinding "id") found)
      (SettledReply svc c s) (SettledReply svc c s)
      (s.onPopulation true fun p ↦ p.getUserById svc (c.request.getBinding "id")).2 := by
  have honly (found' : UserInfo) (h : Misdirects svc c s found') : found' = found :=
    Option.some.inj (h.lookup.symm.trans hfound)
  obtain ⟨row, hrow, hsame⟩ := hs.of_getUserById svc hfound
  have hid : found.id = c.request.getBinding "id" :=
    hsame.id_eq.trans (Table.key_of_find? hrow)
  have hcache := Population.cacheByEMail_getUserById c.caller.email hfound hid
  unfold SubUserHandler.handleResetMFA UserHandler.getUserByEmail SubUserHandler.updateUserInfo
  simp only [Command.wp_bind, Command.wp_ensure, Command.wp_act, Command.wp_pure]
  refine ⟨fun hgranted ↦ ?_, fun hdenied ↦ settledReply_of_not (Bare.answersRow ?_) ?_⟩
  rotate_left
  · intro u hu
    cases hu
  · intro found' h
    obtain rfl := honly found' h
    exact absurd (hdenied.symm.trans h.granted) Bool.noConfusion
  -- the record that is written, and what is stored when the answer is looked up
  generalize hu : ({ found with
    userTypeProprietaryInfo := _, modified := _, notes := _ } : UserInfo) = u
  have hmail : u.email = found.email := by rw [← hu]
  have hwritten : u.id = c.request.getBinding "id" := by
    rw [← hid, ← hu]
  change SettledReply svc c s
    (.user (sanitize ((((s.sub.getUserById svc (c.request.getBinding "id")).2.updateUserInfo svc
      (c.request.getBinding "id") u).2.getUserByEmail svc c.caller.email).1.getD {})))
    { s with
      sub := (((s.sub.getUserById svc (c.request.getBinding "id")).2.updateUserInfo svc
        (c.request.getBinding "id") u).2.getUserByEmail svc c.caller.email).2 }
  have hcoherent : (s.sub.getUserById svc (c.request.getBinding "id")).2.Coherent :=
    hs.getUserById svc _
  have hrow₁ : (s.sub.getUserById svc (c.request.getBinding "id")).2.users.find? u.id =
      some row := by
    rw [hwritten, Population.getUserById_users]
    exact hrow
  generalize (s.sub.getUserById svc (c.request.getBinding "id")).2 = p at *
  rw [← hwritten] at hcache ⊢
  have hstored : ((p.updateUserInfo svc u.id u).2.getUserByEmail svc c.caller.email).2.users.find?
      u.id = some u := by
    rw [Population.getUserByEmail_users, Population.find?_updateUserInfo, if_pos rfl, hrow₁,
      Option.map_some]
  by_cases haddress :
      c.caller.email = found.email ∨ s.sub.cacheByEMail.lookup c.caller.email = some u.id
  · have hfinds : ((p.updateUserInfo svc u.id u).2.getUserByEmail svc c.caller.email).1 = some u :=
      Population.getUserByEmail_updateUserInfo (hmail ▸ hcache.mpr haddress)
    rw [hfinds]
    refine settledReply_of_not ?_ fun found' h ↦ ?_
    · rw [← hwritten]
      exact answersRow_of_find? hstored
    · obtain rfl := honly found' h
      exact haddress.elim h.address (hwritten ▸ h.uncached)
  · have hother := mt hcache.mp haddress
    rw [not_or] at haddress hother
    refine iff_of_false ?_ (not_not.mpr ⟨found, htarget, hfound, hallowed, hasks, hgranted,
      haddress.1, hwritten ▸ haddress.2⟩)
    rw [← hwritten]
    refine not_answersRow (hwritten ▸ htarget) hstored rfl fun v hv ↦ ?_
    exact Population.id_ne_of_getUserByEmail_updateUserInfo hcoherent hrow₁ (hmail ▸ hother.1)
      hother.2 hv

/-- Putting a subscriber. -/
theorem settledReply_putSubscriber (hs : s.sub.Coherent) :
    Command.wp (SubUserHandler.doPut svc c) (SettledReply svc c s) (SettledReply svc c s) s := by
  -- without a reset nothing is misdirected, and the answer reads the record by its identifier
  have hother (hasks : ¬ c.request.getBoolParameter "resetMFA" = true) {a : Response}
      {s' : Storage} (h : AnswersRow true (c.request.getBinding "id") a s') :
      SettledReply svc c s a s' := settledReply_of_not h fun _ h' ↦ hasks h'.asks
  rw [← SubUserHandler.doPutUnder_none]
  unfold SubUserHandler.doPutUnder SubUserHandler.getUserById
  simp only [Command.wp_bind, Command.wp_ensure, Command.wp_orStop, Command.wp_act,
    Command.wp_ite]
  refine ⟨fun htarget ↦ ⟨fun found hfound ↦ ⟨fun hallowed ↦ ⟨fun hasks ↦ ?_, fun hasks ↦
    ⟨fun _ ↦ hother hasks (Bare.answersRow ?_), fun _ ↦ ?_⟩⟩, fun hdenied ↦ ?_⟩,
    fun hnone ↦ ?_⟩, fun hempty ↦ ?_⟩
  · -- resetMFA
    rw [SubUserHandler.handleResetMFAUnder_none]
    exact settledReply_reset hs (by simpa using htarget) hfound hallowed hasks
  · -- forgotPassword, under either name
    intro u hu
    cases hu
  · -- the update from the body
    obtain ⟨row, hrow, hsame⟩ := hs.of_getUserById svc hfound
    have hid : found.id = c.request.getBinding "id" :=
      hsame.id_eq.trans (Table.key_of_find? hrow)
    have hrow' : (((s.onPopulation true fun p ↦
        p.getUserById svc (c.request.getBinding "id")).2).population true).users.find?
          (c.request.getBinding "id") = some row := by
      unfold Storage.onPopulation
      rw [Storage.population_setPopulation, Population.getUserById_users]
      exact hrow
    unfold SubUserHandler.updateFromBodyUnder
    refine Command.wp_mono (wp_updateUnder_answers hid hrow' fun u s' hwritten hread ↦ ?_)
      (fun _ _ ↦ hother hasks) fun _ _ ↦ hother hasks
    simp only [Command.wp_bind, Command.wp_pure]
    change AnswersRow true _ (.user (sanitize
      (((s'.population true).getUserById svc (c.request.getBinding "id")).1.getD {}))) _
    rw [hread]
    exact answersRow_lookup (Population.getUserById_users svc _) hwritten
  · refine settledReply_of_not (Bare.answersRow fun u hu ↦ by cases hu) fun found' h ↦ ?_
    obtain rfl : found' = found := Option.some.inj (h.lookup.symm.trans hfound)
    exact absurd (hdenied.symm.trans h.allowed) Bool.noConfusion
  · refine settledReply_of_not (Bare.answersRow fun u hu ↦ by cases hu) fun found' h ↦ ?_
    exact absurd (hnone.symm.trans h.lookup) (by simp)
  · refine settledReply_of_not (Bare.answersRow fun u hu ↦ by cases hu) fun found' h ↦ ?_
    exact h.target (by simpa using hempty)

end Answers

/-! ## The request -/

namespace Update

variable {svc : Service} {q : Update} {s : Storage} {c : Context}

theorem handler_subOnlyService (svc : Service) (q : Update) :
    (q.handler svc).subOnlyService = false := by
  unfold handler TotpEnrolment.endPointOf
  cases q.isSub <;> rfl

/-- A request that is let through is answered by the update. -/
theorem run_of_admits (h : q.Admits svc s c) :
    q.run svc s = answer (doPutUnder svc none q.isSub c) (q.authentication svc s).2 := by
  have haccept : ∃ qb, acceptRequest svc (q.handler svc) q.env.moment q.env.rateExceeded
      q.request s = (.ok { c with queryBlock := qb }, (q.authentication svc s).2) :=
    exists_acceptRequest svc _ _ _ _ h.acceptable h.granted h.request h.router h.moment
  obtain ⟨qb, hacc⟩ := haccept
  have hput : c.request.method = .PUT := h.request ▸ q.put
  unfold run
  rw [handleRequest_of_ok svc _ _ _ _ hacc]
  unfold dispatch handler TotpEnrolment.endPointOf doPutUnder
  simp only [hput]
  cases q.isSub with
  | false =>
    show answer (UserHandler.doPut svc { c with queryBlock := qb }) _ = _
    rw [← UserHandler.doPutUnder_none]
    rfl
  | true =>
    show answer (SubUserHandler.doPut svc { c with queryBlock := qb }) _ = _
    rw [← SubUserHandler.doPutUnder_none]
    rfl

/-- How a request that is let through is answered. -/
theorem answersRecord_of_admits (hs : s.Coherent) (h : q.Admits svc s c) :
    q.AnswersRecord svc s ↔
      ¬ (q.isSub = true ∧ ∃ found, Misdirects svc c (q.authentication svc s).2 found) := by
  have hcoherent : (q.authentication svc s).2.Coherent :=
    coherent_authenticate svc hs (q.handler_subOnlyService svc)
  unfold AnswersRecord
  rw [run_of_admits h, ← h.request]
  generalize q.isSub = isSub
  cases isSub with
  | false =>
    refine iff_of_true ?_ fun hmis ↦ absurd hmis.1 Bool.false_ne_true
    have hanswer : Command.wp (UserHandler.doPut svc c) _ _ _ :=
      answersRow_putUser (hcoherent false)
    rw [← UserHandler.doPutUnder_none] at hanswer
    exact answer_of_wp hanswer
  | true =>
    have hanswer : Command.wp (SubUserHandler.doPut svc c) _ _ _ :=
      settledReply_putSubscriber (hcoherent true)
    rw [← SubUserHandler.doPutUnder_none] at hanswer
    refine Iff.trans (answer_of_wp hanswer) (not_congr ?_)
    exact ⟨fun hmis ↦ ⟨rfl, hmis⟩, fun hmis ↦ hmis.2⟩

/-- In every reachable state an update that is answered with an object is answered with the
stored record if and only if it does not reset the second factor of a subscriber under the
address of another account. -/
theorem answersRecord_iff (h : (Storage.system svc).Reachable s) (q : Update) :
    q.AnswersRecord svc s ↔ ¬ q.Misdirected svc s := by
  have hs := Storage.coherent_of_reachable svc h
  constructor
  · rintro hall ⟨hsub, c, found, hadmits, hmis⟩
    exact (answersRecord_of_admits hs hadmits).mp hall ⟨hsub, found, hmis⟩
  · intro hnot
    by_cases hadmits : ∃ c, q.Admits svc s c
    · obtain ⟨c, hc⟩ := hadmits
      refine (answersRecord_of_admits hs hc).mpr ?_
      rintro ⟨hsub, found, hmis⟩
      exact hnot ⟨hsub, c, found, hc, hmis⟩
    · -- the request is turned away before the update
      refine handleRequest_rule svc (q.handler svc) q.env.moment q.env.rateExceeded q.request
        (P := fun a s' ↦ AnswersRow q.isSub (q.request.getBinding "id") a s')
        (fun c hacceptable hgranted hrequest hrouter hmoment ↦ ?_) fun e s' he _ ↦ ?_
      · exact absurd ⟨c, hacceptable, hgranted, hrequest, hrouter, hmoment⟩ hadmits
      · refine Bare.answersRow ?_
        rintro u rfl
        cases he

/-! ## A root user and a subscriber -/

/-- A `ROOT` with a token, and a subscriber. -/
def sampleRootAndSubscriber : Storage where
  user :=
    { users :=
        { rows := [{ id := "root", email := "root@example.com", userRole := .ROOT }]
          nodup := List.nodup_singleton _ }
      tokens :=
        { rows := { rows := [{ token := "token-root", userName := "root", expires := 3600 }]
                    nodup := List.nodup_singleton _ } } }
  sub :=
    { users :=
        { rows := [{ id := "joe", email := "joe@example.com", userRole := .SUBSCRIBER }]
          nodup := List.nodup_singleton _ } }

theorem reachable_sampleRootAndSubscriber :
    (Storage.system .sample).Reachable sampleRootAndSubscriber := by
  refine .init ?_
  rintro (_ | _) <;> exact ⟨rfl, rfl, rfl⟩

/-- The `ROOT` updates the subscriber, with these parameters. -/
def sampleUpdate (parameters : List (String × String)) : Update where
  isSub := true
  internal := false
  env := .sample 200 "a"
  request :=
    { method := .PUT
      bearer := some "token-root"
      bindings := [("id", "joe")]
      parameters := parameters
      body := .object [("name", .str "Joe")] }
  put := rfl

/-- The update from the body is answered with the record. -/
theorem answersRecord_iff_sample :
    ((sampleUpdate []).run .sample sampleRootAndSubscriber).1.refused = false ∧
      (sampleUpdate []).AnswersRecord .sample sampleRootAndSubscriber := by
  refine ⟨by decide, (answersRecord_iff reachable_sampleRootAndSubscriber _).mpr ?_⟩
  rintro ⟨-, c, found, hadmits, hmis⟩
  have hasks := hmis.asks
  rw [hadmits.request] at hasks
  exact absurd hasks (by decide)

/-- The reset of the second factor is answered with an empty record. -/
theorem reset_answers_nobody :
    (Storage.system .sample).Reachable sampleRootAndSubscriber ∧
      ((sampleUpdate [("resetMFA", "true")]).run .sample sampleRootAndSubscriber).1 =
        .user (sanitize {}) ∧
      ¬ (sampleUpdate [("resetMFA", "true")]).AnswersRecord .sample sampleRootAndSubscriber := by
  have hanswer : ((sampleUpdate [("resetMFA", "true")]).run .sample sampleRootAndSubscriber).1 =
      .user (sanitize {}) := by decide
  refine ⟨reachable_sampleRootAndSubscriber, hanswer, fun h ↦ ?_⟩
  obtain ⟨row, hrow, heq⟩ := h _ hanswer
  have hid : row.id = "joe" := Table.key_of_find? hrow
  have hempty : row.id = "" := (congrArg UserInfo.id heq).symm
  exact absurd (hid.symm.trans hempty) (by decide)

end Update

end OwSec
