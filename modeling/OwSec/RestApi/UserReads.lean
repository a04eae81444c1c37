import OwSec.RestApi.UserEffects
import OwSec.RestApi.Users

/-!
# What a user request tells about the users

The reading half of the two user handlers.  `InScope` is what somebody below `ROOT` may
see: themselves, and what they created.  Reading one user and selecting several check each
record, and a list is narrowed by its condition; either way the answer is about records in
the scope of the caller and about nothing else.
-/

namespace OwSec

open SecurityObjects Kit ACLProcessor

namespace RestApi

/-- `u` is `a`, or was created by `a`. -/
def InScope (a u : UserInfo) : Prop := u.id = a.id ∨ u.createdBy = a.id

/-- Whatever the answer tells about users is about records in the scope of `a`; an answer
with identifiers tells about the rows that carry them. -/
def Response.Within (table : String → Option UserInfo) (a : UserInfo) : Response → Prop
  | .user u => InScope a u
  | .users us => ∀ u ∈ us, InScope a u
  | .userIds ids => ∀ id ∈ ids, ∃ u, table id = some u ∧ InScope a u
  | _ => True

/-- An answer that turns a request away tells nothing. -/
theorem Response.within_of_refused {r : Response} (h : r.refused = true)
    (table : String → Option UserInfo) (a : UserInfo) : r.Within table a := by
  cases r <;> trivial

variable {svc : Service} {table : String → Option UserInfo} {about : Option String}
variable {s₀ s : Storage} {c : Context}

/-- The record behind a readable record is in the scope, sanitised or not. -/
theorem inScope_of_canReadUserRecord {a u : UserInfo} (ha : a.userRole ≠ .ROOT)
    (h : canReadUserRecord a u = true) : InScope a (sanitize u) := of_canReadUserRecord ha h

namespace UserHandler

/-- Reading one user answers with a record in the scope of the caller: on the public router
because it is checked, on the internal one because only provisioning services get one. -/
theorem doGet_within (hs : s.user.Coherent) (hrole : c.caller.userRole ≠ .ROOT)
    (hrequester : c.internal = true → isOwprovRequester svc c.requester = false) :
    Command.wp (doGet svc c) (fun r _ ↦ r.Within table c.caller)
      (fun r _ ↦ r.Within table c.caller) s := by
  have h₀ := At.start hs
  unfold doGet
  simp only [Command.wp_bind, Command.wp_ensure, Command.wp_orStop, Command.wp_pure,
    Command.wp_ite]
  refine ⟨fun _ ↦ ⟨fun hservice ↦ ?_, fun _ ↦ trivial⟩, fun _ ↦ trivial⟩
  have hpublic : c.internal = false := by
    cases hi : c.internal
    · rfl
    · simp [hi, hrequester hi] at hservice
  have hanswer (u : UserInfo) (hread : (!(!c.internal && !canReadUserRecord c.caller u)) = true) :
      (Response.user (sanitize u)).Within table c.caller := by
    refine inScope_of_canReadUserRecord hrole ?_
    simpa [hpublic] using hread
  refine ⟨fun _ ↦ ?_, fun _ ↦ ?_⟩
  · refine wp_getUserByEmail h₀ fun o s₁ _ _ ↦ ?_
    exact ⟨fun u _ ↦ ⟨hanswer u, fun _ ↦ trivial⟩, fun _ ↦ trivial⟩
  · refine wp_getUserById h₀ fun o s₁ _ _ ↦ ?_
    exact ⟨fun u _ ↦ ⟨hanswer u, fun _ ↦ trivial⟩, fun _ ↦ trivial⟩

end UserHandler

namespace UsersHandler

/-- The narrowed text is a condition. -/
theorem scopedQuery_ne_nil (caller : UserInfo) (query : String) :
    (scopedQuery caller query).toList ≠ [] := by
  unfold scopedQuery
  split <;> simp

/-- A narrowed list consists of rows that the caller created. -/
theorem of_mem_getUsers {p : Population} {offset limit : ℕ} {caller u : UserInfo}
    {nameSearch emailSearch : String}
    (hu : u ∈ (p.getUsers svc offset limit
      (scopedQuery caller (baseQuery nameSearch emailSearch))).2) :
    p.users.find? u.id = some u ∧ u.createdBy = caller.id := by
  unfold Population.getUsers at hu
  split at hu
  · rename_i selected hselected
    obtain ⟨hrow, hcond⟩ := Sql.of_mem_select svc.dialect Population.userColumns hselected
      (condition_scopedQuery svc caller nameSearch emailSearch) (scopedQuery_ne_nil _ _) hu
    exact ⟨p.users.mem_rows_iff.mp hrow, beq_iff_eq.mp (Bool.and_eq_true_iff.mp hcond).1⟩
  · cases hu

/-- The loop over the selected records collects readable ones. -/
theorem wp_selectedUsers {caller : UserInfo} {ids : List String}
    {Q : List UserInfo → Storage → Prop} {E : Response → Storage → Prop} (h : At table about s₀ s)
    (hQ : ∀ us s', (caller.userRole ≠ .ROOT → ∀ u ∈ us, InScope caller u) →
      At table about s₀ s' → Q us s') :
    Command.wp (selectedUsers svc caller ids) Q E s := by
  induction ids generalizing s Q with
  | nil => exact hQ [] s (fun _ u hu ↦ absurd hu List.not_mem_nil) h
  | cons i rest ih =>
    unfold selectedUsers
    simp only [Command.wp_bind]
    refine UserHandler.wp_getUserById h fun o s₁ _ h₁ ↦ ?_
    refine ih h₁ fun us s₂ hus h₂ ↦ ?_
    rcases o with _ | u
    · exact hQ us s₂ hus h₂
    · simp only [Command.wp_pure]
      refine hQ _ s₂ (fun hrole v hv ↦ ?_) h₂
      split at hv
      · rename_i hread
        rcases List.mem_cons.mp hv with rfl | hv
        · exact inScope_of_canReadUserRecord hrole hread
        · exact hus hrole v hv
      · exact hus hrole v hv

/-- The caller of a list request: the one who signed in, or on the internal router the
owner of the token that the service passes on. -/
def Effective (svc : Service) (c : Context) (s : Storage) (user : UserInfo) : Prop :=
  if c.internal then
    c.request.internalName.isSome = true ∧
      ((s.isValidToken svc c.moment.now (c.request.bearer.getD "")).1.uinfo.map
        UserInfoAndPolicy.userinfo) = some user
  else c.caller = user

/-- Who a list request is made for is settled by the request and the state, and settling it
leaves the users alone. -/
theorem wp_effectiveUserInfo (hs : s.user.Coherent) {Q : UserInfo → Storage → Prop}
    {E : Response → Storage → Prop}
    (hQ : ∀ user s', Effective svc c s user →
      (user.userRole = .ROOT ∨ user.userRole = .ADMIN) →
      At s.user.users.find? none s s' → Q user s')
    (hE : ∀ e s', At s.user.users.find? none s s' → E (.unAuthorized e) s') :
    Command.wp (effectiveUserInfo svc c) Q E s := by
  have h₀ := At.start hs
  have hadmin (user : UserInfo) (h : isAdminUserCaller user = true) :
      user.userRole = .ROOT ∨ user.userRole = .ADMIN := by
    rcases Bool.or_eq_true_iff.mp h with h | h
    · exact .inl (beq_iff_eq.mp h)
    · exact .inr (beq_iff_eq.mp h)
  unfold effectiveUserInfo delegatedUser
  simp only [Command.wp_bind, Command.wp_ite, Command.wp_pure, Command.wp_ensure, Command.wp_act,
    Command.wp_orStop]
  refine ⟨fun hinternal ↦ ?_, fun hpublic ↦ ?_⟩
  · refine ⟨fun hname ↦ ⟨fun _ ↦ ?_, fun _ ↦ hE _ _ h₀⟩, fun _ ↦ hE _ _ h₀⟩
    have h₁ : At s.user.users.find? none s
        (s.isValidToken svc c.moment.now (c.request.bearer.getD "")).2 :=
      h₀.congr (Population.checkToken_users svc _ _) (hs.checkToken svc _ _) rfl
    refine ⟨fun _ ↦ ⟨fun info hinfo ↦ ⟨fun hrole ↦ ?_, fun _ ↦ hE _ _ h₁⟩, fun _ ↦ hE _ _ h₁⟩,
      fun _ ↦ hE _ _ h₁⟩
    refine hQ _ _ ?_ (hadmin _ hrole) h₁
    unfold Effective
    rw [if_pos hinternal]
    exact ⟨hname, by rw [hinfo]; rfl⟩
  · refine ⟨fun hrole ↦ hQ _ _ ?_ (hadmin _ hrole) h₀, fun _ ↦ hE _ _ h₀⟩
    unfold Effective
    rw [if_neg hpublic]

/-- A list request of an `ADMIN` is answered with records in their scope, and it leaves the
users alone whoever asks. -/
theorem doGet_within (hs : s.user.Coherent) :
    Command.wp (doGet svc c)
      (fun r s' ↦ At s.user.users.find? none s s' ∧ ∃ user, Effective svc c s user ∧
        (user.userRole = .ADMIN → r.Within s.user.users.find? user))
      (fun r s' ↦ At s.user.users.find? none s s' ∧ ∃ e, r = .unAuthorized e) s := by
  unfold doGet
  simp only [Command.wp_bind]
  refine wp_effectiveUserInfo hs (fun user s₁ huser hrole h₁ ↦ ?_) fun e s₁ h₁ ↦ ⟨h₁, e, rfl⟩
  simp only [Command.wp_ite, Command.wp_bind, Command.wp_pure, Command.wp_reads]
  refine ⟨fun _ ↦ ⟨h₁, user, huser, fun hadmin ↦ ?_⟩, fun _ ↦ ?_⟩
  · rw [if_pos (beq_iff_eq.mpr hadmin)]
    have hfound (u : UserInfo) (hu : u ∈ (s₁.user.getUsers svc c.queryBlock.offset
        c.queryBlock.limit (scopedQuery user (baseQuery (c.request.getParameter "nameSearch")
          (c.request.getParameter "emailSearch")))).2) :
        s.user.users.find? u.id = some u ∧ InScope user u := by
      obtain ⟨hrow, hcreated⟩ := of_mem_getUsers hu
      exact ⟨h₁.users ▸ hrow, .inr hcreated⟩
    split
    · intro id hid
      obtain ⟨v, hv, rfl⟩ := List.mem_map.mp hid
      obtain ⟨u, hu, rfl⟩ := List.mem_map.mp hv
      exact ⟨u, hfound u hu⟩
    · intro v hv
      obtain ⟨u, hu, rfl⟩ := List.mem_map.mp hv
      exact (hfound u hu).2
  · refine wp_selectedUsers h₁ fun us s₂ hus h₂ ↦ ⟨h₂, user, huser, fun hadmin ↦ ?_⟩
    refine hus ?_
    rw [hadmin]
    exact UserRole.noConfusion

/-- The same for the handler: the other methods are empty. -/
theorem dispatch_within (internal : Bool) (hs : s.user.Coherent) :
    Command.wp (dispatch (usersHandler svc internal) c)
      (fun r s' ↦ At s.user.users.find? none s s' ∧ (r.refused = true ∨
        ∃ user, Effective svc c s user ∧
          (user.userRole = .ADMIN → r.Within s.user.users.find? user)))
      (fun r s' ↦ At s.user.users.find? none s s' ∧ (r.refused = true ∨
        ∃ user, Effective svc c s user ∧
          (user.userRole = .ADMIN → r.Within s.user.users.find? user))) s := by
  unfold dispatch
  cases c.request.method with
  | GET =>
    refine Command.wp_mono (doGet_within hs) (fun r s' h ↦ ⟨h.1, .inr h.2⟩) fun r s' h ↦ ?_
    obtain ⟨h', e, rfl⟩ := h
    exact ⟨h', .inl rfl⟩
  | POST | PUT | DELETE | OPTIONS | other => exact ⟨At.start hs, .inl rfl⟩

end UsersHandler

end RestApi

end OwSec
