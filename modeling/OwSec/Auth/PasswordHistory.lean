import OwSec.Kit.Run
import OwSec.RestApi.RecordRequests

/-!
# The password history

A record keeps the hashes of its last passwords, so that they cannot be used again.  The list is
filled by `SetPassword`, which drops the oldest entry when the list has exactly the configured
length, and by `CreateUser`.  Each entry has to be readable for `SetPassword`, which takes it
apart.

The list stays within the bound as long as the bound is at least one and is never lowered below
a list that is stored.  And it holds what the service has computed as long as no record is
created with a list of the caller's: `CreateUser` replaces the list of the body only where the
body has a password.
-/

namespace OwSec

open SecurityObjects Kit RestApi Storage

/-! ## Taking an entry apart -/

/-- The comparison with the history ends without an exception if each entry can be read. -/
theorem passwordAlreadyUsed_ne_none (svc : Service) (lastPasswords : List String)
    (email newPassword : String) {entries : List String} (h : ∀ i ∈ entries, i ≠ "") :
    passwordAlreadyUsed svc lastPasswords email newPassword entries ≠ none := by
  induction entries with
  | nil => exact fun hnone ↦ by cases hnone
  | cons i rest ih =>
    have hrest := ih fun j hj ↦ h j (List.mem_cons_of_mem i hj)
    have hread := tokenize_ne_nil '|' (h i List.mem_cons_self)
    unfold passwordAlreadyUsed
    split
    · simp only
      split
      · simp
      · exact hrest
    · split
      · simp
      · exact hrest
    · rename_i hnil
      exact absurd hnil hread

/-- A record whose history can be read takes or refuses a password. -/
theorem setPassword_ne_exception (svc : Service) (salt newPassword : String) {user : UserInfo}
    (h : ∀ i ∈ user.lastPasswords, i ≠ "") :
    setPassword svc salt newPassword user ≠ .exception := by
  have hreadable := passwordAlreadyUsed_ne_none svc user.lastPasswords (toLower user.email)
    newPassword h
  intro hexception
  unfold setPassword at hexception
  simp only at hexception
  split at hexception
  · rename_i hnone
    exact hreadable hnone
  · cases hexception
  · cases hexception

namespace PasswordHistory

/-! ## The history of a record -/

section Records

variable (svc : Service) (cfg : DefaultUser)

/-- The service computes such a hash for this address. -/
def Computed (email hash : String) : Prop :=
  ∃ salt password, hash = computeNewPasswordHash svc salt email password

/-- The history is no longer than configured, its entries are hashes for this record, and the
last one is the current password. -/
structure WellKept (isSub : Bool) (u : UserInfo) : Prop where
  bounded : u.lastPasswords.length ≤ svc.howManyOldPassword
  computed : ∀ hash ∈ u.lastPasswords, Computed svc u.email hash ∨
    isSub = false ∧ u.id = newDefaultUseridStockUUID ∧ hash = cfg.password
  current : u.currentPassword ≠ "" → u.lastPasswords.getLast? = some u.currentPassword

/-- `SetPassword` erases the first entry of the history although there is none. -/
def ErasesNothing (u : UserInfo) : Prop :=
  u.lastPasswords.length = svc.howManyOldPassword ∧ u.lastPasswords = []

/-- Whatever the new password, `SetPassword` ends well. -/
structure Settable (u : UserInfo) : Prop where
  noException : ∀ salt password, setPassword svc salt password u ≠ .exception
  noErasure : ¬ ErasesNothing svc u

/-- The fields of a record that the history is about. -/
structure SameHistory (u v : UserInfo) : Prop where
  id : v.id = u.id
  email : v.email = u.email
  current : v.currentPassword = u.currentPassword
  last : v.lastPasswords = u.lastPasswords

/-- The history is well kept and can be read. -/
def Kept (isSub : Bool) (u : UserInfo) : Prop :=
  WellKept svc cfg isSub u ∧ ∀ hash ∈ u.lastPasswords, hash ≠ ""

variable {svc cfg} in
/-- Nothing else of the record matters. -/
theorem Kept.congr {isSub : Bool} {u v : UserInfo} (h : Kept svc cfg isSub u)
    (hsame : SameHistory u v) : Kept svc cfg isSub v := by
  obtain ⟨hkept, hread⟩ := h
  refine ⟨⟨?_, ?_, ?_⟩, ?_⟩
  · rw [hsame.last]
    exact hkept.bounded
  · rw [hsame.last, hsame.id, hsame.email]
    exact hkept.computed
  · rw [hsame.last, hsame.current]
    exact hkept.current
  · rw [hsame.last]
    exact hread

/-- The invariant of a service with one bound. -/
def invariant : RecordInvariant where
  record := Kept svc cfg
  enrolment _ _ := True
  insensitive _ _ _ hcore h := h.congr
    ⟨congrArg RecordCore.id hcore, congrArg RecordCore.email hcore,
      congrArg RecordCore.currentPassword hcore, congrArg RecordCore.lastPasswords hcore⟩

end Records

section Lemmas

variable {svc : Service} {cfg : DefaultUser} {isSub : Bool}

/-- The case of the address does not matter for a hash. -/
theorem Computed.toLower {email hash : String} (h : Computed svc email hash) :
    Computed svc (toLower email) hash := by
  obtain ⟨salt, password, rfl⟩ := h
  refine ⟨salt, password, ?_⟩
  unfold computeNewPasswordHash
  rw [toLower_toLower]

/-- A hash that the service has computed can be read. -/
theorem computeNewPasswordHash_ne_empty (salt email password : String) :
    computeNewPasswordHash svc salt email password ≠ "" := by
  intro hempty
  have hlength := congrArg String.length hempty
  unfold computeNewPasswordHash at hlength
  simp only [String.length_append] at hlength
  exact absurd hlength (by simp)

/-- A record without a history is well kept. -/
theorem record_of_nil {u : UserInfo} (hlast : u.lastPasswords = []) (hcurrent : u.currentPassword = "") :
    (invariant svc cfg).record isSub u := by
  refine ⟨⟨?_, ?_, fun hset ↦ absurd hcurrent hset⟩, ?_⟩
  · rw [hlast]
    exact Nat.zero_le _
  · rw [hlast]
    intro hash hmem
    cases hmem
  · rw [hlast]
    intro hash hmem
    cases hmem

/-- A record of one computed hash is well kept, where the bound allows one entry. -/
theorem record_of_single {u : UserInfo} {hash : String} (hpos : 1 ≤ svc.howManyOldPassword)
    (hlast : u.lastPasswords = [hash]) (hcurrent : u.currentPassword = hash) (hread : hash ≠ "")
    (hcomputed : Computed svc u.email hash ∨
      isSub = false ∧ u.id = newDefaultUseridStockUUID ∧ hash = cfg.password) :
    (invariant svc cfg).record isSub u := by
  refine ⟨⟨?_, ?_, fun _ ↦ ?_⟩, ?_⟩
  · rw [hlast]
    exact hpos
  · rw [hlast]
    intro h hmem
    rw [List.mem_singleton.mp hmem]
    exact hcomputed
  · rw [hlast, hcurrent]
    rfl
  · rw [hlast]
    intro h hmem
    rw [List.mem_singleton.mp hmem]
    exact hread

/-- What `SetPassword` leaves of the history. -/
theorem setPassword_history {salt password : String} {u v : UserInfo}
    (h : setPassword svc salt password u = .applied v) :
    v.id = u.id ∧ v.email = toLower u.email ∧
      v.currentPassword = computeNewPasswordHash svc salt (toLower u.email) password ∧
      v.lastPasswords =
        (if u.lastPasswords.length == svc.howManyOldPassword then u.lastPasswords.tail
          else u.lastPasswords) ++ [v.currentPassword] := by
  unfold setPassword at h
  simp only at h
  split at h
  · cases h
  · cases h
  · cases h
    exact ⟨rfl, rfl, rfl, rfl⟩

/-- Dropping the oldest entry of a full history leaves room for one. -/
theorem length_drop_le {l : List String} {n : ℕ} (hpos : 1 ≤ n) (h : l.length ≤ n) :
    (if l.length == n then l.tail else l).length + 1 ≤ n := by
  split
  · rename_i hfull
    rw [beq_iff_eq] at hfull
    rw [List.length_tail]
    omega
  · rename_i hroom
    rw [beq_iff_eq] at hroom
    omega

/-- Setting a password keeps the history, where the bound is at least one. -/
theorem keptByPassword (hpos : 1 ≤ svc.howManyOldPassword) (salt : String)
    (allowed : String → Prop) : KeptByPassword svc (invariant svc cfg) isSub salt allowed := by
  rintro u v password ⟨hkept, hread⟩ - hset
  obtain ⟨hid, hemail, hcurrent, hlast⟩ := setPassword_history hset
  have hold (hash : String) (hmem : hash ∈ (if u.lastPasswords.length == svc.howManyOldPassword
      then u.lastPasswords.tail else u.lastPasswords)) : hash ∈ u.lastPasswords := by
    split at hmem
    · exact List.mem_of_mem_tail hmem
    · exact hmem
  refine ⟨⟨?_, ?_, fun _ ↦ ?_⟩, ?_⟩
  · rw [hlast, List.length_append, List.length_singleton]
    exact length_drop_le hpos hkept.bounded
  · rw [hlast]
    intro hash hmem
    rcases List.mem_append.mp hmem with hmem | hmem
    · rcases hkept.computed hash (hold hash hmem) with hcomputed | hconfigured
      · exact .inl (hemail ▸ hcomputed.toLower)
      · exact .inr (hid ▸ hconfigured)
    · rw [List.mem_singleton.mp hmem, hemail]
      exact .inl ⟨salt, password, hcurrent⟩
  · rw [hlast, List.getLast?_append]
    rfl
  · rw [hlast]
    intro hash hmem
    rcases List.mem_append.mp hmem with hmem | hmem
    · exact hread hash (hold hash hmem)
    · rw [List.mem_singleton.mp hmem, hcurrent]
      exact computeNewPasswordHash_ne_empty _ _ _

/-- Where the history is well kept and the bound is at least one, `SetPassword` ends well. -/
theorem settable_of_record (hpos : 1 ≤ svc.howManyOldPassword) {u : UserInfo}
    (h : (invariant svc cfg).record isSub u) : Settable svc u where
  noException salt password := setPassword_ne_exception svc salt password h.2
  noErasure := by
    rintro ⟨hlength, hnil⟩
    rw [hnil, List.length_nil] at hlength
    omega

/-- What `CreateUser` makes of the password and the history that it is given. -/
theorem newRecord_history (svc : Service) (m : Moment) (u : UserInfo) :
    (u.currentPassword = "" ∧ (Population.newRecord svc m u).currentPassword = "" ∧
        (Population.newRecord svc m u).lastPasswords = u.lastPasswords) ∨
      ∃ hash, Computed svc (Population.newRecord svc m u).email hash ∧ hash ≠ "" ∧
        (Population.newRecord svc m u).currentPassword = hash ∧
        (Population.newRecord svc m u).lastPasswords = [hash] := by
  unfold Population.newRecord
  simp only
  split
  · rename_i hempty
    have hcurrent : u.currentPassword = "" := by simpa using hempty
    exact .inl ⟨hcurrent, hcurrent, rfl⟩
  · exact .inr ⟨_, ⟨_, _, rfl⟩, computeNewPasswordHash_ne_empty _ _ _, rfl, rfl⟩

/-- A creation keeps the history, unless the body brings one and no password. -/
theorem keptByCreation (hpos : 1 ≤ svc.howManyOldPassword) (m : Moment) {body : UserInfo}
    (hbody : ¬ (body.currentPassword = "" ∧ body.lastPasswords ≠ [])) :
    KeptByCreation svc (invariant svc cfg) isSub m body := by
  intro new hnew
  rcases newRecord_history svc m new with
    ⟨hempty, hcurrent, hlast⟩ | ⟨hash, hcomputed, hread, hcurrent, hlast⟩
  · refine record_of_nil ?_ hcurrent
    rw [hlast, hnew.lastPasswords]
    rw [hnew.currentPassword] at hempty
    by_contra hne
    exact hbody ⟨hempty, hne⟩
  · exact record_of_single hpos hlast hcurrent hread (.inl hcomputed)

theorem sameHistory_withExtensions (u : UserInfo) (e : UserLoginLoginExtensions) :
    SameHistory u (withExtensions u e) := ⟨rfl, rfl, rfl, rfl⟩

/-- An update keeps the history. -/
theorem keptByUpdate (hpos : 1 ≤ svc.howManyOldPassword) (c : Context) (s : Storage) :
    KeptByUpdate svc (invariant svc cfg) isSub c s where
  password := keptByPassword hpos _ _
  mfa _ found _ := .of_indifferent
    (fun u e hu ↦ Kept.congr hu (sameHistory_withExtensions u e)) _ _ _ found
  reset _ hu := Kept.congr hu ⟨rfl, rfl, rfl, rfl⟩

end Lemmas

/-! ## Runs -/

/-- The stores, the bound that is in force, and whether the default user was created. -/
structure State where
  storage : Storage := {}
  howManyOldPassword : ℕ
  defaultUserCreated : Bool := false

/-- What happens in one step. -/
inductive Event
  | request (q : RecordRequest)
  /-- The service starts again, with this bound. -/
  | restart (now howManyOldPassword : ℕ)
  /-- Anything else: it brings no new record. -/
  | elsewhere

section Runs

variable (svc : Service) (cfg : DefaultUser)

/-- The service with the bound that is in force. -/
def State.service (s : State) : Service := { svc with howManyOldPassword := s.howManyOldPassword }

/-- The service after it has started again. -/
def State.restarted (s : State) (now howManyOldPassword : ℕ) (storage : Storage) : State :=
  let (defaultUserCreated, storage) :=
    initializeDefaultUser svc cfg now s.defaultUserCreated storage
  { storage, howManyOldPassword, defaultUserCreated }

/-- One step. -/
inductive Step : State → Event → State → Prop
  | request {s : State} (q : RecordRequest) :
    Step s (.request q) { s with storage := q.run (s.service svc) s.storage }
  | restart {s : State} {storage : Storage} (now howManyOldPassword : ℕ)
    (h : s.storage.NoNews storage) :
    Step s (.restart now howManyOldPassword) (s.restarted svc cfg now howManyOldPassword storage)
  | elsewhere {s : State} {storage : Storage} (h : s.storage.NoNews storage) :
    Step s .elsewhere { s with storage }

/-- Runs start without records, with any bound. -/
def system : System State Event where
  init s := ∀ isSub, (s.storage.population isSub).records = ∅
  step := Step svc cfg

/-- The request creates a record for a body with a history and without a password. -/
def BringsHistory (s : Storage) : RecordRequest → Prop
  | .rest .user internal env r => r.method = .POST ∧ ∃ c body,
      RecordRequest.Admits svc s .user internal env r c ∧
      UserHandler.Creates svc c (authenticate svc (userHandler svc internal) env.moment r s).2
        body ∧ body.currentPassword = "" ∧ body.lastPasswords ≠ []
  | .rest .subuser internal env r => r.method = .POST ∧ ∃ c body,
      RecordRequest.Admits svc s .subuser internal env r c ∧
      SubUserHandler.Creates svc c
        (authenticate svc (subuserHandler svc internal) env.moment r s).2 body ∧
      body.currentPassword = "" ∧ body.lastPasswords ≠ []
  | _ => False

/-- The bound is at least one and not below a list that is stored, the default user has a hash,
and no history comes from outside. -/
def InBounds (s : State) : Event → Prop
  | .request q => 1 ≤ s.howManyOldPassword ∧ ¬ BringsHistory (s.service svc) s.storage q
  | .restart _ howManyOldPassword => 1 ≤ howManyOldPassword ∧
      (∀ isSub, ∀ u ∈ (s.storage.population isSub).records,
        u.lastPasswords.length ≤ howManyOldPassword) ∧
      (s.defaultUserCreated = true ∨ cfg.password ≠ "")
  | .elsewhere => True

end Runs

section Invariant

variable {svc : Service} {cfg : DefaultUser}

/-- A request keeps the history. -/
theorem satisfies_request {s : Storage} (hpos : 1 ≤ svc.howManyOldPassword)
    (h : s.Satisfies (invariant svc cfg)) {q : RecordRequest} (hq : ¬ BringsHistory svc s q) :
    (q.run svc s).Satisfies (invariant svc cfg) := by
  refine RecordRequest.satisfies_run h ?_
  cases q with
  | rest e internal env r =>
    intro c hc
    cases e with
    | user =>
      refine ⟨fun hpost body hcreates ↦ keptByCreation hpos _ fun hbody ↦ hq ⟨?_, c, body, hc,
        hcreates, hbody⟩, fun _ ↦ ⟨fun _ _ hu _ ↦ Kept.congr hu ⟨rfl, rfl, rfl, rfl⟩,
          keptByUpdate hpos _ _⟩⟩
      rw [← hc.request]
      exact hpost
    | subuser =>
      refine ⟨fun hpost body hcreates ↦ keptByCreation hpos _ fun hbody ↦ hq ⟨?_, c, body, hc,
        hcreates, hbody⟩, fun _ ↦ ⟨fun _ _ _ _ hu _ ↦ Kept.congr hu ⟨rfl, rfl, rfl, rfl⟩,
          keptByUpdate hpos _ _⟩⟩
      rw [← hc.request]
      exact hpost
    | signup => exact fun _ _ _ _ ↦ record_of_nil rfl rfl
    | submfa =>
      exact fun _ ↦
        { default := record_of_nil rfl rfl
          disabled := fun _ hu ↦ Kept.congr hu ⟨rfl, rfl, rfl, rfl⟩
          byEmail := fun _ hu ↦ Kept.congr hu ⟨rfl, rfl, rfl, rfl⟩
          bySms := fun _ _ hu ↦ Kept.congr hu ⟨rfl, rfl, rfl, rfl⟩ }
    | totp => exact ⟨trivial, fun _ _ _ _ ↦ trivial, fun _ _ _ ↦ trivial⟩
    | subtotp => exact ⟨trivial, fun _ _ _ _ ↦ trivial, fun _ _ _ ↦ trivial⟩
  | login isSub x _ _ => exact fun _ _ _ _ ↦ keptByPassword hpos _ _
  | link x _ =>
    exact fun _ _ _ _ hup hu ↦ kept_of_updates hup (fun isSub ↦ keptByPassword hpos _ _)
      (keptByPassword hpos _ _) hu

/-- The default user is created with the configured hash. -/
theorem satisfies_initializeDefaultUser {s : Storage} (hpos : 1 ≤ svc.howManyOldPassword)
    (h : s.Satisfies (invariant svc cfg)) (now : ℕ) {created : Bool}
    (hcfg : created = true ∨ cfg.password ≠ "") :
    (initializeDefaultUser svc cfg now created s).2.Satisfies (invariant svc cfg) := by
  have hlookup : (s.onPopulation false fun p ↦
      p.getUserById svc newDefaultUseridStockUUID).2.Satisfies (invariant svc cfg) :=
    h.getUserById newDefaultUseridStockUUID
  have hcreated (q : Population) (hq : q.All ((invariant svc cfg).record false))
      (hread : cfg.password ≠ "") :
      ({ s with user := (q.createRecord (cfg.record now)).2 } : Storage).Satisfies
        (invariant svc cfg) := by
    have hrecord : (invariant svc cfg).record false (cfg.record now) :=
      record_of_single hpos rfl rfl hread (.inr ⟨rfl, rfl, rfl⟩)
    exact h.setPopulation (hq.insert (Population.records_createRecord (cfg.record now)) hrecord)
  unfold initializeDefaultUser
  split
  · rename_i u p hl
    have hp : p = _ := (congrArg Prod.snd hl).symm
    subst hp
    exact hlookup
  · rename_i p hl
    have hp : p = (s.user.getUserById svc newDefaultUseridStockUUID).2 := (congrArg Prod.snd hl).symm
    subst hp
    split
    · exact hlookup
    · rename_i hnot
      have hread : cfg.password ≠ "" := hcfg.resolve_left hnot
      have hall := (hlookup.records false).subset
        (Population.records_getUserByEmail svc (toLower cfg.username))
      split
      · rename_i u q hq
        have hq' : q = _ := (congrArg Prod.snd hq).symm
        subst hq'
        exact h.setPopulation hall
      · rename_i q hq
        have hq' : q = _ := (congrArg Prod.snd hq).symm
        subst hq'
        exact hcreated _ hall hread

/-- The invariant of a run: the records are in order, and where there is one the bound is at least
one. -/
structure Sound (svc : Service) (cfg : DefaultUser) (s : State) : Prop where
  satisfies : s.storage.Satisfies (invariant (s.service svc) cfg)
  positive : ∀ isSub, ∀ u ∈ (s.storage.population isSub).records, 1 ≤ s.howManyOldPassword

/-- A new bound that no list exceeds keeps the records in order. -/
theorem satisfies_of_bound {s : State} {n : ℕ} (h : s.storage.Satisfies (invariant (s.service svc) cfg))
    (hbound : ∀ isSub, ∀ u ∈ (s.storage.population isSub).records, u.lastPasswords.length ≤ n) :
    s.storage.Satisfies (invariant { svc with howManyOldPassword := n } cfg) where
  records isSub u hu := by
    obtain ⟨hkept, hread⟩ := h.records isSub u hu
    exact ⟨⟨hbound isSub u hu, hkept.computed, hkept.current⟩, hread⟩
  enrolments _ _ _ := trivial

/-- A step in bounds keeps the invariant. -/
theorem Sound.step {s s' : State} {e : Event} (h : Sound svc cfg s) (hs : Step svc cfg s e s')
    (hbounds : InBounds svc cfg s e) : Sound svc cfg s' := by
  cases hs with
  | request q =>
    obtain ⟨hpos, hq⟩ := hbounds
    exact ⟨satisfies_request hpos h.satisfies hq, fun _ _ _ ↦ hpos⟩
  | restart now n hno =>
    obtain ⟨hpos, hbound, hcfg⟩ := hbounds
    exact ⟨satisfies_initializeDefaultUser hpos ((satisfies_of_bound h.satisfies hbound).noNews hno)
      now hcfg, fun _ _ _ ↦ hpos⟩
  | elsewhere hno =>
    refine ⟨h.satisfies.noNews hno, fun isSub v hv ↦ ?_⟩
    obtain ⟨u, hu, -⟩ := hno.records isSub v hv
    exact h.positive isSub u hu

/-- The invariant holds in every state that is reached in bounds. -/
theorem Sound.of_reachable {s : State}
    (h : ((system svc cfg).restrict (InBounds svc cfg)).Reachable s) : Sound svc cfg s := by
  refine h.invariant (I := Sound svc cfg) (fun s₀ hs ↦ ?_) ?_
  · have hnone (isSub : Bool) (u : UserInfo) : u ∉ (s₀.storage.population isSub).records := by
      rw [hs isSub]
      exact Set.notMem_empty u
    exact ⟨⟨fun isSub u hu ↦ absurd hu (hnone isSub u), fun _ _ _ ↦ trivial⟩,
      fun isSub u hu ↦ absurd hu (hnone isSub u)⟩
  · rintro s e s' hi ⟨hs, hbounds⟩
    exact hi.step hs hbounds

end Invariant

end PasswordHistory

open PasswordHistory

/-- In every run in bounds, the history of each record is well kept under the bound that is in
force, and `SetPassword` ends well on it, also after edits of anything else in the record. -/
theorem PasswordHistory.wellKept_of_inBounds {svc : Service} {cfg : DefaultUser} {s : State}
    (h : ((system svc cfg).restrict (InBounds svc cfg)).Reachable s) (isSub : Bool) (u : UserInfo)
    (hu : u ∈ (s.storage.population isSub).records) :
    WellKept (s.service svc) cfg isSub u ∧
      ∀ v, SameHistory u v → Settable (s.service svc) v := by
  have hsound := Sound.of_reachable h
  have hrecord := hsound.satisfies.records isSub u hu
  exact ⟨hrecord.1, fun v hsame ↦ settable_of_record (hsound.positive isSub u hu)
    (Kept.congr hrecord hsame)⟩

/-! ## The default user, and a history from outside

The default user of a fresh installation logs in with a new password.  In the second run a
service creates a subscriber with a history of its own making. -/

namespace PasswordHistory

/-- The configured account: the password is `Start-1`. -/
def sampleConfiguration : DefaultUser where
  username := "root@example.com"
  password := "<Start-1root@example.com>"

/-- A service that was never started. -/
def sampleFresh : State where
  howManyOldPassword := 5

/-- The service after its first start. -/
def sampleStarted : State :=
  sampleFresh.restarted .sample sampleConfiguration 100 5 {}

/-- The surroundings of the login. -/
def sampleContext : LoginContext where
  svc := .sample
  lib := .sample
  services :=
    { smsEnabled := false, mailEnabled := false, sendSMS := fun _ _ ↦ false
      sendEmailChallengeCode := fun _ _ ↦ false }
  policy := ⟨"", "", ""⟩
  moment := .sample 200 "a"
  random := 0

/-- The login of the default user with a new password. -/
def sampleLogin : RecordRequest :=
  .login false sampleContext ∅
    { method := .POST
      body := .object [("userId", .str "root@example.com"), ("password", .str "Start-1"),
        ("newPassword", .str "Secret-12")] }

/-- The state after the login. -/
def sampleLoggedIn : State :=
  { sampleStarted with
    storage := sampleLogin.run (sampleStarted.service .sample) sampleStarted.storage }

theorem records_empty (isSub : Bool) : (({} : Storage).population isSub).records = ∅ := by
  ext u
  constructor
  · rintro (hu | ⟨k, hu⟩)
    all_goals
      cases isSub
      · cases hu
      · cases hu
  · exact fun hu ↦ absurd hu (Set.notMem_empty u)

theorem noNews_refl (s : Storage) : s.NoNews s :=
  ⟨fun _ u hu ↦ ⟨u, hu, rfl⟩, Cache.Evicts.refl _⟩

/-- The first start creates the default user. -/
theorem reachable_sampleStarted : ((system .sample sampleConfiguration).restrict
    (InBounds .sample sampleConfiguration)).Reachable sampleStarted := by
  refine System.Reachable.step (s := sampleFresh) (l := .restart 100 5) (.init records_empty)
    ⟨Step.restart 100 5 (noNews_refl _), by decide, fun isSub u hu ↦ ?_, .inr (by decide)⟩
  rw [show (sampleFresh.storage.population isSub).records = ∅ from records_empty isSub] at hu
  exact absurd hu (Set.notMem_empty u)

theorem reachable_sampleLoggedIn : ((system .sample sampleConfiguration).restrict
    (InBounds .sample sampleConfiguration)).Reachable sampleLoggedIn :=
  reachable_sampleStarted.step (l := .request sampleLogin) ⟨Step.request sampleLogin, by decide, id⟩

/-- After the login the default user has the configured hash and a computed one. -/
theorem wellKept_of_inBounds_sample :
    ∃ u ∈ (sampleLoggedIn.storage.population false).records,
      u.lastPasswords =
        ["<Start-1root@example.com>", "salt-a|<salt-aSecret-12root@example.com>"] ∧
      WellKept (sampleLoggedIn.service .sample) sampleConfiguration false u ∧
      ∀ v, SameHistory u v → Settable (sampleLoggedIn.service .sample) v := by
  obtain ⟨u, hrow⟩ : ∃ u, sampleLoggedIn.storage.user.users.find? newDefaultUseridStockUUID =
      some u := Option.isSome_iff_exists.mp (by decide)
  have hlast : (sampleLoggedIn.storage.user.users.find? newDefaultUseridStockUUID).map
      UserInfo.lastPasswords =
        some ["<Start-1root@example.com>", "salt-a|<salt-aSecret-12root@example.com>"] := by decide
  rw [hrow, Option.map_some, Option.some.injEq] at hlast
  have hu : u ∈ (sampleLoggedIn.storage.population false).records :=
    Population.mem_records_of_find? hrow
  exact ⟨u, hu, hlast, wellKept_of_inBounds reachable_sampleLoggedIn false u hu⟩

/-- The creation of a subscriber with a history and without a password. -/
def sampleCreation : RecordRequest :=
  .rest .subuser true (.sample 200 "a")
    { method := .POST
      internalName := some "owprov"
      apiKey := some "my-hash"
      bindings := [("id", "0")]
      body := .object [("email", .str "joe@example.com"), ("userRole", .str "subscriber"),
        ("lastPasswords", .arr [.str "mine"])] }

/-- The state after the creation. -/
def sampleCreated : State :=
  { sampleStarted with
    storage := sampleCreation.run (sampleStarted.service .sample) sampleStarted.storage }

/-- The record holds an entry that is no hash for this record. -/
theorem history_from_outside :
    ¬ ∀ (svc : Service) (cfg : DefaultUser) (s : State), (system svc cfg).Reachable s →
      ∀ isSub, ∀ u ∈ (s.storage.population isSub).users.rows,
        WellKept (s.service svc) cfg isSub u ∧ Settable (s.service svc) u := by
  intro h
  have hreach : (system .sample sampleConfiguration).Reachable sampleCreated :=
    reachable_sampleStarted.of_restrict.step (Step.request sampleCreation)
  obtain ⟨u, hrow⟩ : ∃ u, sampleCreated.storage.sub.users.find? "uuid-a" = some u :=
    Option.isSome_iff_exists.mp (by decide)
  have hlast : (sampleCreated.storage.sub.users.find? "uuid-a").map UserInfo.lastPasswords =
      some ["mine"] := by decide
  rw [hrow, Option.map_some, Option.some.injEq] at hlast
  obtain ⟨hkept, -⟩ := h .sample sampleConfiguration sampleCreated hreach true u
    (Table.find?_eq_some_iff _ |>.mp hrow).1
  rcases hkept.computed "mine" (hlast ▸ List.mem_singleton_self _) with ⟨salt, password, hash⟩ | hsub
  · -- a computed hash contains a separator
    have hbar : '|' ∈ "mine".toList := by
      rw [hash]
      unfold computeNewPasswordHash
      simp
    exact absurd hbar (by decide)
  · exact absurd hsub.1 (by decide)

end PasswordHistory

end OwSec
