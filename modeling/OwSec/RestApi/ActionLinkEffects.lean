import OwSec.RestApi.ActionLinks
import OwSec.Storage.RecordInvariant

/-!
# What requests do with action links

Three functions of the end point update a record and complete the link, each after checks of its
own.  `Updates` lists them: for which requests and links the update is reached, with which record
and with which new one.  Every other request leaves the records alone, and at most cancels an
expired link.
-/

namespace OwSec

open SecurityObjects Kit

/-! ## The table of links -/

namespace Storage

variable {s : Storage} {f : ActionLink → ActionLink}

@[simp] theorem population_modifyAction (s : Storage) (id : String) (f : ActionLink → ActionLink)
    (isSub : Bool) : (s.modifyAction id f).population isSub = s.population isSub := by
  unfold modifyAction
  split
  · split
    · cases isSub <;> rfl
    · rfl
  · rfl

/-- What setting columns of a link leaves in the table. -/
theorem getActionLink_modifyAction (hf : ∀ a, (f a).id = a.id) (id k : String) :
    (s.modifyAction id f).getActionLink k =
      if k = id then (s.getActionLink id).map f else s.getActionLink k := by
  unfold modifyAction
  rcases hl : s.getActionLink id with _ | a
  · by_cases hk : k = id
    · simp [hk, hl]
    · simp [hk]
  · have hid : (f a).id = id := (hf a).trans (Table.key_of_find? hl)
    obtain ⟨actionLinks, hup⟩ := s.actionLinks.update_isSome hid
    have hfind := Table.find?_update hup hid k
    change s.actionLinks.find? id = some a at hl
    rw [hl] at hfind
    simp only [hup]
    exact hfind

@[simp] theorem actionLinks_setPopulation (s : Storage) (isSub : Bool) (p : Population) :
    (s.setPopulation isSub p).actionLinks = s.actionLinks := by
  cases isSub <;> rfl

end Storage

namespace RestApi

variable (x : LinkContext) {s s' : Storage}

/-! ## Looking a record up -/

/-- What looking records up may change: neither rows nor links, only the caches, and no record
comes in. -/
structure Looked (s s' : Storage) : Prop where
  users : ∀ isSub, (s'.population isSub).users = (s.population isSub).users
  coherent : ∀ isSub, (s.population isSub).Coherent → (s'.population isSub).Coherent
  links : s'.actionLinks = s.actionLinks
  records : ∀ isSub, (s'.population isSub).records ⊆ (s.population isSub).records
  totp : s'.totp = s.totp
  sms : s'.sms = s.sms

theorem Looked.refl (s : Storage) : Looked s s :=
  ⟨fun _ ↦ rfl, fun _ h ↦ h, rfl, fun _ ↦ subset_rfl, rfl, rfl⟩

theorem looked_getUserById (svc : Service) (s : Storage) (isSub : Bool) (userId : String) :
    Looked s (s.onPopulation isSub fun p ↦ p.getUserById svc userId).2 := by
  unfold Storage.onPopulation
  constructor
  case users =>
    intro isSub'
    by_cases hb : isSub' = isSub
    · subst hb
      simp
    · simp only [Storage.population_setPopulation_ne s _ hb]
  case coherent =>
    intro isSub' h
    by_cases hb : isSub' = isSub
    · subst hb
      rw [Storage.population_setPopulation]
      exact h.getUserById svc userId
    · rw [Storage.population_setPopulation_ne s _ hb]
      exact h
  case links => exact Storage.actionLinks_setPopulation _ _ _
  case records =>
    intro isSub'
    by_cases hb : isSub' = isSub
    · subst hb
      rw [Storage.population_setPopulation]
      exact Population.records_getUserById svc userId
    · rw [Storage.population_setPopulation_ne _ _ hb]
  case totp => cases isSub <;> rfl
  case sms => cases isSub <;> rfl

namespace LinkContext

theorem findUser_fst (userAction : Bool) (userId : String) :
    (x.findUser s userAction userId).1 = ((s.population (!userAction)).getUserById x.svc userId).1 :=
  rfl

theorem looked_findUser (s : Storage) (userAction : Bool) (userId : String) :
    Looked s (x.findUser s userAction userId).2 :=
  looked_getUserById x.svc s (!userAction) userId

@[simp] theorem updateUser_actionLinks (userAction : Bool) (userId : String) (u : UserInfo) :
    (x.updateUser s userAction userId u).actionLinks = s.actionLinks :=
  Storage.actionLinks_setPopulation _ _ _

end LinkContext

/-! ## Updates -/

/-- The request reaches the update of the record `u` to `u'`, in the users (`true`) or the
subscribers (`false`), on behalf of the link. -/
inductive Updates (x : LinkContext) (s : Storage) :
    LinkRequest → ActionLink → Bool → UserInfo → UserInfo → Prop
  | reset {r : Request} {form : List (String × String)} {link : ActionLink} {u u₁ : UserInfo}
    (haction : r.getParameter "action" = "password_reset" ∨
      r.getParameter "action" = "sub_password_reset")
    (hform : form.isEmpty = false)
    (hlink : s.getActionLink (formGet form "id" "") = some link)
    (htime : x.moment.now ≤ link.expires)
    (hkind : validUserAction link = true ∨ validSubscriberAction link = true)
    (hsame : formGet form "password1" "bla" = formGet form "password2" "blu")
    (hrule : validatePassword x.svc (formGet form "password1" "bla") = true)
    (hfound : (x.findUser s link.userAction link.userId).1 = some u)
    (henabled : u.blackListed = false ∧ u.suspended = false)
    (hset : setPassword x.svc x.moment.salt (formGet form "password1" "bla") u = .applied u₁) :
    Updates x s (.post r form) link link.userAction u (x.resetRecord link u₁)
  | signup {r : Request} {form : List (String × String)} {link : ActionLink} {u u₁ : UserInfo}
    (haction : r.getParameter "action" = "signup_completion")
    (hform : form.isEmpty = false)
    (hlink : s.getActionLink (formGet form "id" "") = some link)
    (htime : x.moment.now ≤ link.expires)
    (hsame : formGet form "password1" "bla" = formGet form "password2" "blu")
    (hrule : validateSubPassword x.svc (formGet form "password1" "bla") = true)
    (hfound : (x.findUser s false link.userId).1 = some u)
    (henabled : u.blackListed = false ∧ u.suspended = false)
    (hset : setPassword x.svc x.moment.salt (formGet form "password1" "bla") u = .applied u₁) :
    Updates x s (.post r form) link false u (x.signupRecord u₁)
  | verify {r : Request} {link : ActionLink} {u : UserInfo}
    (haction : r.getParameter "action" = "email_verification" ∨
      r.getParameter "action" = "sub_email_verification")
    (hlink : s.getActionLink (r.getParameter "id") = some link)
    (htime : x.moment.now ≤ link.expires)
    (hsub : link.userAction = false)
    (hfound : (x.findUser s false link.userId).1 = some u) :
    Updates x s (.get r) link false u (x.verifiedRecord u)

/-- The records are left alone, and at most an expired link is cancelled. -/
inductive Untouched (x : LinkContext) (s : Storage) (linkId : String) : Storage → Prop
  | looked {s' : Storage} (h : Looked s s') : Untouched x s linkId s'
  | cancelled {link : ActionLink} (hlink : s.getActionLink linkId = some link)
    (hexpired : link.expires < x.moment.now) :
    Untouched x s linkId (s.cancelAction x.moment.now linkId)

/-- What an update leaves: the record is written, and the link is completed. -/
def updatedStorage (x : LinkContext) (s : Storage) (link : ActionLink) (userAction : Bool)
    (u : UserInfo) : Storage :=
  (x.updateUser (x.findUser s userAction link.userId).2 userAction link.userId u).completeAction
    x.moment.now link.id

/-- What a request may do. -/
def LinkEffect (x : LinkContext) (s : Storage) (req : LinkRequest) (s' : Storage) : Prop :=
  (∃ link userAction u u', Updates x s req link userAction u u' ∧
    s' = updatedStorage x s link userAction u') ∨ Untouched x s req.linkId s'

namespace LinkContext

theorem completeResetPassword_effect {r : Request} {form : List (String × String)}
    (haction : r.getParameter "action" = "password_reset" ∨
      r.getParameter "action" = "sub_password_reset") :
    LinkEffect x s (.post r form) (x.completeResetPassword form s).2 := by
  have hsame : LinkEffect x s (.post r form) s := .inr (.looked (.refl s))
  unfold completeResetPassword
  simp only
  split
  · exact hsame
  rename_i hform
  split
  · exact hsame
  rename_i link hlink
  split
  · rename_i hexpired
    exact .inr (.cancelled hlink hexpired)
  rename_i htime
  split
  · exact hsame
  rename_i hkind
  split
  · exact hsame
  rename_i hpasswords
  have hlooked := x.looked_findUser s link.userAction link.userId
  split
  · rename_i hl
    rw [hl] at hlooked
    exact .inr (.looked hlooked)
  rename_i u s₁ hl
  rw [hl] at hlooked
  split
  · exact .inr (.looked hlooked)
  rename_i henabled
  split
  · exact .inr (.looked hlooked)
  · exact .inr (.looked hlooked)
  · rename_i u₁ hset
    simp only [Bool.or_eq_true, not_or, Bool.not_eq_true, bne_eq_false_iff_eq, Bool.not_eq_false']
      at hpasswords henabled
    have hkind' : validUserAction link = true ∨ validSubscriberAction link = true := by
      rcases hu : validUserAction link with _ | _
      · exact .inr (by simpa [hu] using hkind)
      · exact .inl rfl
    refine .inl ⟨link, _, u, _, .reset haction (by simpa using hform) hlink (Nat.le_of_not_lt htime)
      hkind' hpasswords.1.1 hpasswords.2 (congrArg Prod.fst hl) henabled hset, ?_⟩
    have hid : link.id = formGet form "id" "" := Table.key_of_find? hlink
    unfold updatedStorage
    rw [hl, hid]

theorem completeSubVerification_effect {r : Request} {form : List (String × String)}
    (haction : r.getParameter "action" = "signup_completion") :
    LinkEffect x s (.post r form) (x.completeSubVerification form s).2 := by
  have hsame : LinkEffect x s (.post r form) s := .inr (.looked (.refl s))
  unfold completeSubVerification
  simp only
  split
  · exact hsame
  rename_i hform
  split
  · exact hsame
  rename_i link hlink
  split
  · rename_i hexpired
    exact .inr (.cancelled hlink hexpired)
  rename_i htime
  split
  · exact hsame
  rename_i hpasswords
  have hlooked := x.looked_findUser s false link.userId
  split
  · rename_i hl
    rw [hl] at hlooked
    exact .inr (.looked hlooked)
  rename_i u s₁ hl
  rw [hl] at hlooked
  split
  · exact .inr (.looked hlooked)
  rename_i henabled
  split
  · exact .inr (.looked hlooked)
  · exact .inr (.looked hlooked)
  · rename_i u₁ hset
    simp only [Bool.or_eq_true, not_or, Bool.not_eq_true, bne_eq_false_iff_eq, Bool.not_eq_false']
      at hpasswords henabled
    refine .inl ⟨link, _, u, _, .signup haction (by simpa using hform) hlink
      (Nat.le_of_not_lt htime) hpasswords.1 hpasswords.2 (congrArg Prod.fst hl) henabled hset, ?_⟩
    have hid : link.id = formGet form "id" "" := Table.key_of_find? hlink
    unfold updatedStorage
    rw [hl, hid]

theorem doEmailVerification_effect {r : Request} {link : ActionLink}
    (haction : r.getParameter "action" = "email_verification" ∨
      r.getParameter "action" = "sub_email_verification")
    (hlink : s.getActionLink (r.getParameter "id") = some link) :
    LinkEffect x s (.get r) (x.doEmailVerification link s).2 := by
  have hid : link.id = r.getParameter "id" := Table.key_of_find? hlink
  unfold doEmailVerification
  simp only
  split
  · rename_i hexpired
    rw [hid]
    exact .inr (.cancelled hlink hexpired)
  rename_i htime
  have hlooked := x.looked_findUser s link.userAction link.userId
  split
  · rename_i hl
    rw [hl] at hlooked
    exact .inr (.looked hlooked)
  rename_i u s₁ hl
  split
  · rw [hl] at hlooked
    exact .inr (.looked hlooked)
  rename_i huser
  simp only [Bool.not_eq_true] at huser
  rw [huser] at hl
  refine .inl ⟨link, false, u, _, .verify haction hlink (Nat.le_of_not_lt htime) huser
    (congrArg Prod.fst hl), ?_⟩
  unfold updatedStorage
  rw [hl]

/-- Every request has one of the listed effects. -/
theorem handle_effect (req : LinkRequest) : LinkEffect x s req (x.handle s req).2 := by
  have hsame : LinkEffect x s req s := .inr (.looked (.refl s))
  cases req with
  | get r =>
    unfold handle doGet
    simp only
    split
    · exact hsame
    · rename_i link hlink
      split
      · exact hsame
      split
      · exact hsame
      split
      · rename_i haction
        exact x.doEmailVerification_effect (.inl (by simpa using haction)) hlink
      split
      · rename_i haction
        exact x.doEmailVerification_effect (.inr (by simpa using haction)) hlink
      split <;> exact hsame
  | post r form =>
    unfold handle doPost
    simp only
    split
    · rename_i haction
      exact x.completeResetPassword_effect (.inl (by simpa using haction))
    split
    · rename_i haction
      exact x.completeResetPassword_effect (.inr (by simpa using haction))
    split
    · rename_i haction
      exact x.completeSubVerification_effect (by simpa using haction)
    split <;> exact hsame

end LinkContext

/-! ## What an update leaves -/

section Updated

variable {x} {req : LinkRequest} {link : ActionLink} {userAction : Bool} {u u' : UserInfo}

/-- The link of an update is the one that the request names, and it has not expired. -/
theorem Updates.named (h : Updates x s req link userAction u u') :
    s.getActionLink req.linkId = some link ∧ x.moment.now ≤ link.expires := by
  cases h with
  | reset _ _ hlink htime => exact ⟨hlink, htime⟩
  | signup _ _ hlink htime => exact ⟨hlink, htime⟩
  | verify _ hlink htime => exact ⟨hlink, htime⟩

theorem Updates.found (h : Updates x s req link userAction u u') :
    (x.findUser s userAction link.userId).1 = some u := by
  cases h with
  | reset _ _ _ _ _ _ _ hfound => exact hfound
  | signup _ _ _ _ _ _ hfound => exact hfound
  | verify _ _ _ _ hfound => exact hfound

/-- An update keeps the identifier of the record. -/
theorem Updates.id_eq (h : Updates x s req link userAction u u') : u'.id = u.id := by
  cases h with
  | reset _ _ _ _ _ _ _ _ _ hset =>
    have hid := congrArg UserInfo.id (setPassword_applied x.svc hset)
    unfold LinkContext.resetRecord
    simp only
    split
    · exact hid
    · exact hid
  | signup _ _ _ _ _ _ _ _ hset =>
    have hid := congrArg UserInfo.id (setPassword_applied x.svc hset)
    exact hid
  | verify => rfl

/-- The record of an update has a row, which differs from it at most in the last login. -/
theorem Updates.row (hs : ∀ isSub, (s.population isSub).Coherent)
    (h : Updates x s req link userAction u u') :
    ∃ row, (s.population (!userAction)).users.find? link.userId = some row ∧
      SameButLogin u row ∧ u'.id = link.userId := by
  obtain ⟨row, hrow, hsame⟩ := (hs (!userAction)).of_getUserById x.svc
    ((x.findUser_fst userAction link.userId).symm.trans h.found)
  exact ⟨row, hrow, hsame, h.id_eq.trans (hsame.id_eq.trans (Table.key_of_find? hrow))⟩

/-- The rows after an update. -/
theorem find?_updatedStorage (hid : u'.id = link.userId) (isSub : Bool) (k : String) :
    ((updatedStorage x s link userAction u').population isSub).users.find? k =
      if isSub = (!userAction) ∧ k = link.userId then
        ((s.population isSub).users.find? k).map fun _ ↦ u'
      else (s.population isSub).users.find? k := by
  have hlooked := x.looked_findUser s userAction u'.id
  unfold updatedStorage Storage.completeAction
  rw [Storage.population_modifyAction, ← hid]
  unfold LinkContext.updateUser Storage.onPopulation
  by_cases hsub : isSub = !userAction
  · subst hsub
    rw [Storage.population_setPopulation, Population.find?_updateUserInfo, hlooked.users]
    by_cases hk : k = u'.id
    · simp [hk]
    · simp [hk]
  · rw [Storage.population_setPopulation_ne _ _ hsub, hlooked.users, if_neg (fun h ↦ hsub h.1)]

/-- An update completes its link and leaves the others. -/
theorem getActionLink_updatedStorage (k : String) :
    (updatedStorage x s link userAction u').getActionLink k =
      if k = link.id then (s.getActionLink link.id).map ({ · with completed := x.moment.now })
      else s.getActionLink k := by
  have hlinks : (x.updateUser (x.findUser s userAction link.userId).2 userAction link.userId
      u').actionLinks = s.actionLinks :=
    (x.updateUser_actionLinks _ _ _).trans
      (x.looked_findUser s userAction link.userId).links
  unfold updatedStorage Storage.completeAction
  refine (Storage.getActionLink_modifyAction (fun _ ↦ by rfl) _ _).trans ?_
  unfold Storage.getActionLink
  rw [hlinks]

end Updated

namespace LinkContext

variable {x} {req : LinkRequest} {link : ActionLink} {userAction : Bool} {u u' : UserInfo}

/-- A request that reaches an update carries it out. -/
theorem handle_of_updates (h : Updates x s req link userAction u u') :
    (x.handle s req).2 = updatedStorage x s link userAction u' := by
  cases h with
  | @reset r form _ _ u₁ haction hform hlink htime hkind hsame hrule hfound henabled hset =>
    have hid : link.id = formGet form "id" "" := Table.key_of_find? hlink
    have hdo : x.handle s (.post r form) = x.completeResetPassword form s := by
      unfold handle doPost
      rcases haction with haction | haction <;> simp [haction]
    have hlook : x.findUser s link.userAction link.userId =
        (some u, (x.findUser s link.userAction link.userId).2) := Prod.ext hfound rfl
    have hkinds : (!validUserAction link && !validSubscriberAction link) = false := by
      rcases hkind with hkind | hkind <;> simp [hkind]
    rw [hdo]
    unfold completeResetPassword updatedStorage
    simp only [hform, hlink, Nat.not_lt.mpr htime, hkinds, ← hsame, hrule, bne_self_eq_false,
      Bool.not_true, Bool.or_self, if_false, Bool.false_eq_true]
    rw [hlook]
    simp only [henabled.1, henabled.2, hset, Bool.or_self, if_false, Bool.false_eq_true, hid]
  | @signup r form _ _ u₁ haction hform hlink htime hsame hrule hfound henabled hset =>
    have hid : link.id = formGet form "id" "" := Table.key_of_find? hlink
    have hdo : x.handle s (.post r form) = x.completeSubVerification form s := by
      unfold handle doPost
      simp [haction]
    have hlook : x.findUser s false link.userId =
        (some u, (x.findUser s false link.userId).2) := Prod.ext hfound rfl
    rw [hdo]
    unfold completeSubVerification updatedStorage
    simp only [hform, hlink, Nat.not_lt.mpr htime, ← hsame, hrule,
      bne_self_eq_false, Bool.not_true, Bool.or_self, if_false, Bool.false_eq_true]
    rw [hlook]
    simp only [henabled.1, henabled.2, hset, Bool.or_self, if_false, Bool.false_eq_true, hid]
  | @verify r _ _ haction hlink htime hsub hfound =>
    have hdo : x.handle s (.get r) = x.doEmailVerification link s := by
      unfold handle doGet
      simp only [hlink]
      rcases haction with haction | haction <;> simp [haction]
    have hlook : x.findUser s false link.userId =
        (some u, (x.findUser s false link.userId).2) := Prod.ext hfound rfl
    rw [hdo]
    unfold doEmailVerification updatedStorage
    simp only [Nat.not_lt.mpr htime, if_false, hsub]
    rw [hlook]
    rfl

end LinkContext

/-- An update keeps the caches coherent. -/
theorem coherent_updatedStorage {x} {link : ActionLink} {userAction : Bool} {u' row : UserInfo}
    (hs : ∀ isSub, (s.population isSub).Coherent) (hid : u'.id = link.userId)
    (hrow : (s.population (!userAction)).users.find? link.userId = some row) (isSub : Bool) :
    ((updatedStorage x s link userAction u').population isSub).Coherent := by
  have hlooked := x.looked_findUser s userAction u'.id
  have hc := hlooked.coherent isSub (hs isSub)
  rw [← hid] at hrow
  unfold updatedStorage Storage.completeAction
  rw [Storage.population_modifyAction, ← hid]
  unfold LinkContext.updateUser Storage.onPopulation
  by_cases hsub : isSub = !userAction
  · subst hsub
    rw [Storage.population_setPopulation]
    rw [← hlooked.users] at hrow
    exact hc.updateUserInfo x.svc hrow
  · rw [Storage.population_setPopulation_ne _ _ hsub]
    exact hc

/-- Every request keeps the caches coherent. -/
theorem LinkContext.coherent_handle (hs : ∀ isSub, (s.population isSub).Coherent)
    (req : LinkRequest) (isSub : Bool) : ((x.handle s req).2.population isSub).Coherent := by
  rcases x.handle_effect (s := s) req with ⟨link, userAction, u, u', hup, heq⟩ | h
  · obtain ⟨row, hrow, -, hid⟩ := hup.row hs
    rw [heq]
    exact coherent_updatedStorage hs hid hrow isSub
  · generalize (x.handle s req).2 = s' at h ⊢
    cases h with
    | looked h => exact h.coherent isSub (hs isSub)
    | cancelled =>
      unfold Storage.cancelAction
      rw [Storage.population_modifyAction]
      exact hs isSub

/-- A request leaves a row alone, unless it reaches the update of that row. -/
theorem LinkContext.find?_handle_cases (hs : ∀ isSub, (s.population isSub).Coherent)
    (req : LinkRequest) (isSub : Bool) (k : String) :
    ((x.handle s req).2.population isSub).users.find? k = (s.population isSub).users.find? k ∨
      ∃ link userAction u u', Updates x s req link userAction u u' ∧ isSub = (!userAction) ∧
        k = link.userId ∧
        ((x.handle s req).2.population isSub).users.find? k = some u' := by
  rcases x.handle_effect (s := s) req with ⟨link, userAction, u, u', hup, heq⟩ | h
  · obtain ⟨row, hrow, -, hid⟩ := hup.row hs
    have hfind : ((updatedStorage x s link userAction u').population isSub).users.find? k = _ :=
      find?_updatedStorage hid isSub k
    rw [← heq] at hfind
    split at hfind
    · rename_i hk
      obtain ⟨rfl, rfl⟩ := hk
      rw [hrow, Option.map_some] at hfind
      exact .inr ⟨link, userAction, u, u', hup, rfl, rfl, hfind⟩
    · exact .inl hfind
  · left
    generalize (x.handle s req).2 = s' at h ⊢
    cases h with
    | looked h => rw [h.users]
    | cancelled =>
      unfold Storage.cancelAction
      rw [Storage.population_modifyAction]

/-- The row of an update after the request. -/
theorem Updates.find?_handle {x} {req : LinkRequest} {link : ActionLink} {userAction : Bool}
    {u u' : UserInfo} (hs : ∀ isSub, (s.population isSub).Coherent)
    (h : Updates x s req link userAction u u') :
    ((x.handle s req).2.population (!userAction)).users.find? link.userId = some u' := by
  obtain ⟨row, hrow, -, hid⟩ := h.row hs
  rw [LinkContext.handle_of_updates h, find?_updatedStorage hid, if_pos ⟨rfl, rfl⟩, hrow,
    Option.map_some]

/-! ## What a turn of the manager does -/

/-- A turn looks a record up and then cancels the link or marks it as sent, or ends there. -/
theorem processLink_cases (svc : Service) (now : ℕ) (i : ActionLink) (s : Storage) :
    ∃ s', Looked s s' ∧ (processLink svc now i s = s'.cancelAction now i.id ∨
      processLink svc now i s = s'.sentAction now i.id ∨ processLink svc now i s = s') := by
  unfold processLink
  split
  · rename_i isSub _
    have hlooked := looked_getUserById svc s isSub i.userId
    split
    · rename_i s' hl
      rw [hl] at hlooked
      exact ⟨s', hlooked, .inl rfl⟩
    · rename_i s' hl
      rw [hl] at hlooked
      split
      · exact ⟨s', hlooked, .inr (.inr rfl)⟩
      · exact ⟨s', hlooked, .inr (.inl rfl)⟩
  · split
    · exact ⟨s, .refl s, .inl rfl⟩
    · exact ⟨s, .refl s, .inr (.inl rfl)⟩

end RestApi

end OwSec
