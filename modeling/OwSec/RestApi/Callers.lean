import OwSec.RestApi.Handler
import OwSec.Storage.Runs

/-!
# Who the caller of a request is

What the authentication step of a handler that serves users tells about the caller, and
what it leaves of the stores.  A service is known by the shared key and is nobody in
particular; anybody else is the user of a row, read at the time of the request.
-/

namespace OwSec

open SecurityObjects Kit

/-- Nothing that a user request decides on has changed. -/
structure Storage.SameUsers (s s' : Storage) : Prop where
  users : s'.user.users = s.user.users
  links : s'.actionLinks = s.actionLinks
  coherent : s'.user.Coherent

namespace Storage

variable (svc : Service) {s : Storage}

theorem SameUsers.refl (h : s.user.Coherent) : SameUsers s s := ⟨rfl, rfl, h⟩

/-- A bearer token that is there is checked in the population of the service. -/
theorem authServiceIsAuthorized_cases (now : ℕ) (bearer : Option String) (isSub : Bool) :
    s.authServiceIsAuthorized svc now bearer isSub = ({}, s) ∨
      ∃ token, s.authServiceIsAuthorized svc now bearer isSub =
        s.onPopulation isSub fun p ↦ p.checkToken svc now token := by
  rcases bearer with _ | token
  · cases isSub <;> exact .inl rfl
  · cases isSub
    · simp only [authServiceIsAuthorized, isAuthorized]
      split
      · exact .inl rfl
      · exact .inr ⟨token, rfl⟩
    · simp only [authServiceIsAuthorized, isSubAuthorized]
      split
      · exact .inl rfl
      · exact .inr ⟨token, rfl⟩

/-- What holds before a bearer token is checked and after the check of any holds behind. -/
theorem authServiceIsAuthorized_rule {P : Storage → Prop} {now : ℕ} {bearer : Option String}
    {isSub : Bool} (hs : P s)
    (htoken : ∀ token, P (s.onPopulation isSub fun p ↦ p.checkToken svc now token).2) :
    P (s.authServiceIsAuthorized svc now bearer isSub).2 := by
  rcases s.authServiceIsAuthorized_cases svc now bearer isSub with heq | ⟨token, heq⟩
  · rw [heq]
    exact hs
  · rw [heq]
    exact htoken token

/-- The user that a bearer token stands for has a row. -/
theorem of_isAuthorized (h : s.user.Coherent) {now : ℕ} {bearer : Option String}
    {ui : UserInfoAndPolicy} (hui : (s.isAuthorized svc now bearer).1.uinfo = some ui) :
    ∃ row, s.user.users.find? ui.userinfo.id = some row ∧ SameButLogin ui.userinfo row := by
  rcases s.authServiceIsAuthorized_cases svc now bearer false with heq | ⟨token, heq⟩
  · rw [show s.isAuthorized svc now bearer = _ from heq] at hui
    cases hui
  · rw [show s.isAuthorized svc now bearer = _ from heq] at hui
    exact h.of_checkToken svc hui

@[simp] theorem updateApiKey_user (s : Storage) (id : String) (r : ApiKeyEntry) :
    (s.updateApiKey id r).user = s.user := updateApiKey_population s id r false

@[simp] theorem updateApiKey_actionLinks (s : Storage) (id : String) (r : ApiKeyEntry) :
    (s.updateApiKey id r).actionLinks = s.actionLinks := by
  unfold updateApiKey
  split <;> rfl

/-- What checking an API key does: it may read the record of the owner, and then it may
write the key back. -/
theorem isValidApiKey_cases (now : ℕ) (apiKey : String) :
    s.isValidApiKey svc now apiKey = ({}, s) ∨
      s.isValidApiKey svc now apiKey = ({ uinfo := none, expired := true }, s) ∨
      ∃ entry, s.getApiKey apiKey = some entry ∧
        (s.isValidApiKey svc now apiKey =
            ({}, { s with user := (s.user.getUserById svc entry.userUuid).2 }) ∨
          ∃ user, (s.user.getUserById svc entry.userUuid).1 = some user ∧
            s.isValidApiKey svc now apiKey =
              ({ uinfo := some { userinfo := user } },
                ({ s with user := (s.user.getUserById svc entry.userUuid).2 } : Storage).updateApiKey
                  entry.id { entry with lastUse := now })) := by
  unfold isValidApiKey onPopulation
  split
  · exact .inl rfl
  · rename_i entry hentry
    split
    · exact .inr (.inl rfl)
    · refine .inr (.inr ⟨entry, hentry, ?_⟩)
      rcases hl : s.user.getUserById svc entry.userUuid with ⟨_ | user, q⟩
      · refine .inl ?_
        simp [population, hl, setPopulation]
      · by_cases hsuspended : user.suspended
        · refine .inl ?_
          simp [population, hl, setPopulation, hsuspended]
        · refine .inr ⟨user, rfl, ?_⟩
          simp [population, hl, setPopulation, hsuspended]

/-- What survives reading a user and writing a key survives the check of an API key. -/
theorem isValidApiKey_rule {P : Storage → Prop} {now : ℕ} {apiKey : String} (hs : P s)
    (hread : ∀ id, P (s.onPopulation false fun p ↦ p.getUserById svc id).2)
    (hwrite : ∀ s' id r, P s' → P (s'.updateApiKey id r)) :
    P (s.isValidApiKey svc now apiKey).2 := by
  rcases s.isValidApiKey_cases svc now apiKey with heq | heq | ⟨entry, -, heq | ⟨user, -, heq⟩⟩
  · rw [heq]
    exact hs
  · rw [heq]
    exact hs
  · rw [heq]
    exact hread entry.userUuid
  · rw [heq]
    exact hwrite _ _ _ (hread entry.userUuid)

/-- Whom an API key stands for is looked up by the identifier in its entry. -/
theorem exists_of_isValidApiKey {now : ℕ} {apiKey : String} {ui : UserInfoAndPolicy}
    (hui : (s.isValidApiKey svc now apiKey).1.uinfo = some ui) :
    ∃ entry, s.getApiKey apiKey = some entry ∧
      (s.user.getUserById svc entry.userUuid).1 = some ui.userinfo := by
  rcases s.isValidApiKey_cases svc now apiKey with
    heq | heq | ⟨entry, hentry, heq | ⟨user, huser, heq⟩⟩
  · rw [heq] at hui
    cases hui
  · rw [heq] at hui
    cases hui
  · rw [heq] at hui
    cases hui
  · rw [heq] at hui
    obtain rfl := Option.some.inj hui
    exact ⟨entry, hentry, huser⟩

/-- The user that an API key stands for has a row. -/
theorem of_isValidApiKey (h : s.user.Coherent) {now : ℕ} {apiKey : String}
    {ui : UserInfoAndPolicy} (hui : (s.isValidApiKey svc now apiKey).1.uinfo = some ui) :
    ∃ row, s.user.users.find? ui.userinfo.id = some row ∧ SameButLogin ui.userinfo row := by
  obtain ⟨entry, -, huser⟩ := exists_of_isValidApiKey svc hui
  obtain ⟨row, hrow, hsame⟩ := h.of_getUserById svc huser
  have hid : ui.userinfo.id = entry.userUuid := hsame.id_eq.trans (Table.key_of_find? hrow)
  exact ⟨row, hid ▸ hrow, hsame⟩

/-- Checking an API key leaves every column of the keys but that of the last use. -/
theorem map_apiKeys_isValidApiKey {α : Type} (f : ApiKeyEntry → α)
    (hf : ∀ k n, f { k with lastUse := n } = f k) (now : ℕ) (apiKey : String) :
    (s.isValidApiKey svc now apiKey).2.apiKeys.rows.map f = s.apiKeys.rows.map f := by
  rcases s.isValidApiKey_cases svc now apiKey with heq | heq | ⟨entry, hkey, heq | ⟨user, -, heq⟩⟩
  · rw [heq]
  · rw [heq]
  · rw [heq]
  · rw [heq]
    have hentry := (Table.select_eq_some hkey).1
    unfold updateApiKey
    split
    · rename_i keys hupdate
      refine Table.map_rows_update f hupdate fun r₀ hr₀ ↦ ?_
      obtain rfl := Option.some.inj (hentry.symm.trans hr₀)
      exact hf entry now
    · rfl

/-- Checking a bearer token leaves the API keys alone. -/
theorem authServiceIsAuthorized_apiKeys (now : ℕ) (bearer : Option String) (isSub : Bool) :
    (s.authServiceIsAuthorized svc now bearer isSub).2.apiKeys = s.apiKeys := by
  refine authServiceIsAuthorized_rule svc (P := fun s' ↦ s'.apiKeys = s.apiKeys) rfl fun token ↦ ?_
  cases isSub <;> rfl

end Storage

namespace RestApi

variable (svc : Service)

/-- Who can be behind a request that was let through. -/
inductive KnownCaller (h : Handler) (r : Request) (s : Storage) : UserInfoAndPolicy → String → Prop
  /-- A service with the shared key, on the internal router. -/
  | service (name : String) (hinternal : h.internal = true) (hname : r.internalName = some name)
    (hkey : isValidAPIKEY svc r.apiKey = true) : KnownCaller h r s {} name
  /-- The user of a row. -/
  | user (ui : UserInfoAndPolicy) (row : UserInfo)
    (hname : h.internal = true → r.internalName = none)
    (hrow : s.user.users.find? ui.userinfo.id = some row) (hsame : SameButLogin ui.userinfo row) :
    KnownCaller h r s ui ui.userinfo.email

variable {h : Handler} {m : Moment} {r : Request} {s : Storage}

/-- The two cases, for a caller given by projections. -/
theorem KnownCaller.service_or_row {ui : UserInfoAndPolicy} {who : String}
    (hknown : KnownCaller svc h r s ui who) :
    (h.internal = true ∧ r.internalName = some who ∧ isValidAPIKEY svc r.apiKey = true ∧ ui = {}) ∨
      (h.internal = true → r.internalName = none) ∧ who = ui.userinfo.email ∧
        ∃ row, s.user.users.find? ui.userinfo.id = some row ∧ SameButLogin ui.userinfo row := by
  cases hknown with
  | service name hinternal hname hkey => exact .inl ⟨hinternal, hname, hkey, rfl⟩
  | user ui row hname hrow hsame => exact .inr ⟨hname, rfl, row, hrow, hsame⟩

/-- Authenticating a request asks nothing of the stores, or checks an API key or a token. -/
theorem authenticate_snd_cases :
    (authenticate svc h m r s).2 = s ∨
      (∃ key, (authenticate svc h m r s).2 = (s.isValidApiKey svc m.now key).2) ∨
      ∃ bearer, (authenticate svc h m r s).2 =
        (s.authServiceIsAuthorized svc m.now bearer h.subOnlyService).2 := by
  unfold authenticate
  split
  · unfold isAuthorized
    split
    · exact .inl rfl
    · exact .inr (.inl ⟨_, rfl⟩)
    · exact .inr (.inr ⟨_, rfl⟩)
  · exact .inl rfl

/-- What survives what the authentication of a request does to the stores survives it. -/
theorem authenticate_rule {P : Storage → Prop} (hs : P s)
    (hread : ∀ id, P (s.onPopulation false fun p ↦ p.getUserById svc id).2)
    (hwrite : ∀ s' id k, P s' → P (s'.updateApiKey id k))
    (htoken : ∀ token, P (s.onPopulation h.subOnlyService fun p ↦ p.checkToken svc m.now token).2) :
    P (authenticate svc h m r s).2 := by
  rcases authenticate_snd_cases svc (h := h) (m := m) (r := r) (s := s) with
    heq | ⟨key, heq⟩ | ⟨bearer, heq⟩
  · rw [heq]
    exact hs
  · rw [heq]
    exact Storage.isValidApiKey_rule svc hs hread hwrite
  · rw [heq]
    exact Storage.authServiceIsAuthorized_rule svc hs htoken

/-- Authenticating a request leaves the users alone. -/
theorem sameUsers_authenticate (hs : s.user.Coherent) (hsub : h.subOnlyService = false) :
    s.SameUsers (authenticate svc h m r s).2 := by
  refine authenticate_rule svc (.refl hs) (fun id ↦ ?_) (fun s' id k hsame ↦ ?_) fun token ↦ ?_
  · exact ⟨Population.getUserById_users svc id, rfl, hs.getUserById svc id⟩
  · constructor
    · rw [Storage.updateApiKey_user]
      exact hsame.users
    · rw [Storage.updateApiKey_actionLinks]
      exact hsame.links
    · rw [Storage.updateApiKey_user]
      exact hsame.coherent
  · rw [hsub]
    exact ⟨Population.checkToken_users svc m.now token, rfl, hs.checkToken svc m.now token⟩

/-- Authenticating a request leaves every column of the API keys but that of the last use. -/
theorem map_apiKeys_authenticate {α : Type} (f : ApiKeyEntry → α)
    (hf : ∀ k n, f { k with lastUse := n } = f k) :
    (authenticate svc h m r s).2.apiKeys.rows.map f = s.apiKeys.rows.map f := by
  rcases authenticate_snd_cases svc (h := h) (m := m) (r := r) (s := s) with
    heq | ⟨key, heq⟩ | ⟨bearer, heq⟩
  · rw [heq]
  · rw [heq]
    exact Storage.map_apiKeys_isValidApiKey svc f hf m.now key
  · rw [heq, Storage.authServiceIsAuthorized_apiKeys]

/-- Authenticating a user leaves the subscribers alone. -/
theorem authenticate_sub (hsub : h.subOnlyService = false) :
    (authenticate svc h m r s).2.sub = s.sub := by
  refine authenticate_rule svc (P := fun s' ↦ s'.sub = s.sub) rfl (fun id ↦ rfl)
    (fun s' id k hsame ↦ ?_) fun token ↦ ?_
  · exact (Storage.updateApiKey_population s' id k true).trans hsame
  · rw [hsub]
    rfl

/-- Authenticating a user keeps coherence. -/
theorem coherent_authenticate (hs : s.Coherent) (hsub : h.subOnlyService = false) :
    (authenticate svc h m r s).2.Coherent := by
  intro isSub
  cases isSub with
  | false => exact (sameUsers_authenticate svc (hs false) hsub).coherent
  | true =>
    show (authenticate svc h m r s).2.sub.Coherent
    rw [authenticate_sub svc hsub]
    exact hs true

/-- Recognising a service does not look at the stores. -/
theorem authenticate_service_snd (hinternal : h.internal = true)
    (hname : r.internalName.isSome = true) : (authenticate svc h m r s).2 = s := by
  obtain ⟨name, hname⟩ := Option.isSome_iff_exists.mp hname
  unfold authenticate
  split
  · unfold credentialOf
    rw [if_pos hinternal, hname]
    rfl
  · rfl

/-- Whoever is let through by a handler that always asks is known. -/
theorem knownCaller_of_authenticate (hs : s.user.Coherent) (hsub : h.subOnlyService = false)
    (halways : h.alwaysAuthorize = true) {ui : UserInfoAndPolicy} {who : String}
    (hgranted : (authenticate svc h m r s).1.granted = some (ui, who)) :
    KnownCaller svc h r s ui who := by
  unfold authenticate at hgranted
  rw [if_pos halways, hsub] at hgranted
  -- what a check of a user's credential reports
  have huser (o : Option UserInfoAndPolicy)
      (hrow : ∀ ui, o = some ui → ∃ row, s.user.users.find? ui.userinfo.id = some row ∧
        SameButLogin ui.userinfo row)
      (hname : h.internal = true → r.internalName = none)
      (ho : (o.map fun ui ↦ (ui, ui.userinfo.email)) = some (ui, who)) :
      KnownCaller svc h r s ui who := by
    obtain ⟨found, hfound, heq⟩ := Option.map_eq_some_iff.mp ho
    cases heq
    obtain ⟨row, hfind, hsame⟩ := hrow _ hfound
    exact .user _ row hname hfind hsame
  unfold credentialOf at hgranted
  split at hgranted
  · rename_i hinternal
    split at hgranted
    · rename_i name hname
      simp only [isAuthorized] at hgranted
      split at hgranted
      · rename_i hkey
        cases hgranted
        exact .service _ hinternal hname hkey
      · cases hgranted
    · rename_i hname
      exact huser _ (fun _ ↦ Storage.of_isAuthorized svc hs) (fun _ ↦ hname) hgranted
  · rename_i hpublic
    split at hgranted
    · exact huser _ (fun _ ↦ Storage.of_isValidApiKey svc hs) (fun hi ↦ absurd hi hpublic) hgranted
    · exact huser _ (fun _ ↦ Storage.of_isAuthorized svc hs) (fun hi ↦ absurd hi hpublic) hgranted

end RestApi

end OwSec
