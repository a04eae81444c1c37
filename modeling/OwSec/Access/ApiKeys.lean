import OwSec.Access.UserRuns
import OwSec.RestApi.ApiKeyEffects

/-!
# What an API key stands for

Runs of requests about API keys, by any sessions and at any times, between which keys may be used
or expire and anything else may change.  The history keeps, for each key that was created, the
three inputs of its value (the second, the caller and the caller's access token) and the user for
whom it was made.

`KeyLaw` is what keys should obey: no two rows have the same value, a user's keys have different
names and are ten at most, and a key that is accepted stands for the user for whom it was created.
Names and numbers are checked, and hold in every run.  The value is not: it is the same for all
keys that one session creates in one second, or `ROOT` for several users, or the sessions of one
user's API keys, which have no token.
-/

namespace OwSec

open SecurityObjects Kit RestApi ApiKeyHandler

/-- From what the value of a key was made, and for whom. -/
structure KeyOrigin where
  now : ℕ
  callerId : String
  accessToken : String
  owner : String

namespace KeyOrigin

/-- The inputs of the hash. -/
def inputs (o : KeyOrigin) : ℕ × String × String := (o.now, o.callerId, o.accessToken)

/-- The value of the key. -/
def value (svc : Service) (o : KeyOrigin) : String :=
  computeApiKey svc (toString o.now) o.callerId o.accessToken

end KeyOrigin

/-- The origin of a key that a context creates. -/
def KeyOrigin.of (c : Context) (k : ApiKeyEntry) : KeyOrigin where
  now := c.moment.now
  callerId := c.caller.id
  accessToken := c.userInfo.webtoken.accessToken
  owner := k.userUuid

/-- The storage, and the origins of all keys that were created, by the identifier of the key and
latest first. -/
structure Keyring where
  storage : Storage := {}
  origins : List (String × KeyOrigin) := []

namespace Keyring

variable (svc : Service)

/-- The origin of the key that a request creates, if it creates one. -/
def created (s : Keyring) (call : KeyCall) : List (String × KeyOrigin) :=
  match call.request.method, (call.accept svc s.storage).1, (call.run svc s.storage).1 with
  | .POST, .ok c, .apiKey k => [(k.id, .of c k)]
  | _, _, _ => []

/-- A request. -/
def request (s : Keyring) (call : KeyCall) : Keyring where
  storage := (call.run svc s.storage).2
  origins := s.created svc call ++ s.origins

/-- What happens in one step. -/
inductive Event
  | call (call : KeyCall)
  /-- Keys are used or removed, and other things happen. -/
  | elsewhere

/-- One step. -/
inductive Step : Keyring → Event → Keyring → Prop
  | call {s : Keyring} (call : KeyCall) : Step s (.call call) (s.request svc call)
  | elsewhere {s : Keyring} (storage : Storage) (hfewer : FewerKeys s.storage storage)
    (hcoherent : storage.user.Coherent) : Step s .elsewhere { s with storage }

/-- No key has been created. -/
def AtStart (s : Keyring) : Prop :=
  s.storage.user.Coherent ∧ s.storage.apiKeys.rows = [] ∧ s.origins = []

/-- The requests as a transition system. -/
def system : System Keyring Event where
  init := AtStart
  step := Step svc

/-- What API keys should obey. -/
structure KeyLaw (s : Keyring) : Prop where
  /-- A value belongs to one row. -/
  distinct : (s.storage.apiKeys.rows.map ApiKeyEntry.apiKey).Nodup
  /-- The keys of a user have different names. -/
  names : (s.storage.apiKeys.rows.map fun k ↦ (k.userUuid, k.name)).Nodup
  /-- No user has more than ten keys. -/
  bounded : ∀ user, (s.storage.apiKeys.rows.map ApiKeyEntry.userUuid).count user ≤ 10
  /-- A key that is accepted stands for the user under whom it was created. -/
  owner : ∀ now key ui, (s.storage.isValidApiKey svc now key).1.uinfo = some ui →
    ∀ row ∈ s.storage.apiKeys.rows, row.apiKey = key →
      ∃ o, s.origins.lookup row.id = some o ∧ o.owner = ui.userinfo.id

/-- The hash is injective in its inputs, as far as they have occurred. -/
def HashInjective (s : Keyring) : Prop :=
  ∀ o ∈ s.origins.map Prod.snd, ∀ o' ∈ s.origins.map Prod.snd,
    o.value svc = o'.value svc → o.inputs = o'.inputs

/-- A POST that passes its checks, in a second in which the same caller with the same access token
has created a key that is still there. -/
def Repeats (s : Keyring) (call : KeyCall) : Prop :=
  call.request.method = .POST ∧ ∃ c s₁ k, call.accept svc s.storage = (.ok c, s₁) ∧
    Creates svc c s₁ k ∧ ∃ row ∈ s.storage.apiKeys.rows, ∃ o, s.origins.lookup row.id = some o ∧
      o.inputs = (KeyOrigin.of c k).inputs

/-- The condition on a step. -/
def Unrepeated (s : Keyring) : Event → Prop
  | .call call => ¬ s.Repeats svc call
  | .elsewhere => True

/-! ## The invariant -/

/-- What holds in every run. -/
structure Sound (s : Keyring) : Prop where
  coherent : s.storage.user.Coherent
  names : (s.storage.apiKeys.rows.map fun k ↦ (k.userUuid, k.name)).Nodup
  bounded : ∀ user, (s.storage.apiKeys.rows.map ApiKeyEntry.userUuid).count user ≤ 10
  origins : ∀ row ∈ s.storage.apiKeys.rows, ∃ o, s.origins.lookup row.id = some o ∧
    row.apiKey = o.value svc ∧ row.userUuid = o.owner

section Steps

variable {svc} {s s' : Keyring}

/-- Losing keys keeps the invariant. -/
theorem Sound.fewer (hs : Sound svc s) {storage : Storage} (hfewer : FewerKeys s.storage storage)
    (hcoherent : storage.user.Coherent) : Sound svc { s with storage } where
  coherent := hcoherent
  names := hs.names.sublist (hfewer.column _ fun _ ↦ rfl)
  bounded user := ((hfewer.column _ fun _ ↦ rfl).count_le user).trans (hs.bounded user)
  origins row' hrow' := by
    obtain ⟨row, hrow, hcore⟩ := hfewer.row hrow'
    obtain ⟨o, ho, hvalue, howner⟩ := hs.origins row hrow
    have hid := eq_of_keyCore hcore ApiKeyEntry.id fun _ ↦ rfl
    have hkey := eq_of_keyCore hcore ApiKeyEntry.apiKey fun _ ↦ rfl
    have huser := eq_of_keyCore hcore ApiKeyEntry.userUuid fun _ ↦ rfl
    exact ⟨o, hid ▸ ho, hkey ▸ hvalue, huser ▸ howner⟩

/-- A request creates a key, or takes keys away at most. -/
theorem request_cases (svc : Service) (hs : s.storage.user.Coherent) (call : KeyCall) :
    (∃ c s₁ k, call.request.method = .POST ∧ call.accept svc s.storage = (.ok c, s₁) ∧
      Creates svc c s₁ k ∧ s₁.apiKeys.insert k = some (s.request svc call).storage.apiKeys ∧
      (s.request svc call).origins = (k.id, .of c k) :: s.origins) ∨
    (call.request.method = .POST → ∀ c s₁ k, call.accept svc s.storage = (.ok c, s₁) →
      ¬ Creates svc c s₁ k) ∧ FewerKeys s.storage (s.request svc call).storage ∧
      (s.request svc call).origins = s.origins := by
  have heffect := call.run_effect svc hs
  unfold request created
  generalize call.run svc s.storage = out at heffect
  obtain ⟨a, s'⟩ := out
  cases heffect with
  | @created c s₁ _ k haccept hmethod hcreates hinsert =>
    rw [hmethod, haccept]
    exact .inl ⟨c, s₁, k, rfl, rfl, hcreates, hinsert, rfl⟩
  | fewer hnot hfewer =>
    refine .inr ⟨fun hpost ↦ (hnot hpost).2, hfewer, ?_⟩
    simp only
    split
    · rename_i hmethod _ _
      have hrefused := (hnot hmethod).1
      cases hrefused
    · rfl

theorem coherent_request (svc : Service) (hs : s.storage.user.Coherent) (call : KeyCall) :
    (s.request svc call).storage.user.Coherent := by
  have heffect := call.run_effect svc hs
  unfold request
  generalize call.run svc s.storage = out at heffect
  obtain ⟨a, s'⟩ := out
  cases heffect with
  | created _ _ _ _ hcoherent => exact hcoherent
  | fewer _ _ hcoherent => exact hcoherent

/-- Creating a key keeps the invariant. -/
theorem Sound.created {s₁ storage : Storage} {origins : List (String × KeyOrigin)} {c : Context}
    {k : ApiKeyEntry} (hs : Sound svc ⟨s₁, origins⟩) (hcreates : Creates svc c s₁ k)
    (hinsert : s₁.apiKeys.insert k = some storage.apiKeys) (hcoherent : storage.user.Coherent) :
    Sound svc ⟨storage, (k.id, .of c k) :: origins⟩ := by
  have hrows := Table.rows_of_insert hinsert
  have hkeys := hcreates.keys
  have huuid := hcreates.fields.1
  constructor
  case coherent => exact hcoherent
  case names =>
    simp only [hrows, List.map_append, List.map_cons, List.map_nil]
    refine hs.names.append (List.nodup_singleton _) ?_
    intro pair hmem hnew
    obtain rfl := List.mem_singleton.mp hnew
    obtain ⟨row, hrow, hpair⟩ := List.mem_map.mp hmem
    obtain ⟨huser, hname⟩ := Prod.mk.inj hpair
    refine hcreates.name row ?_ hname
    rw [← huuid, hkeys]
    exact List.mem_filter.mpr ⟨hrow, beq_iff_eq.mpr huser⟩
  case bounded =>
    intro user
    simp only [hrows, List.map_append, List.map_cons, List.map_nil, List.count_append]
    by_cases huser : user = k.userUuid
    · subst huser
      have hroom := hcreates.room
      rw [← huuid, hkeys, ← List.countP_eq_length_filter] at hroom
      have hcount : (s₁.apiKeys.rows.map ApiKeyEntry.userUuid).count k.userUuid < 10 := by
        unfold List.count
        rw [List.countP_map]
        exact hroom
      rw [List.count_singleton_self]
      omega
    · rw [List.count_singleton, if_neg (by simpa using fun h ↦ huser h.symm)]
      exact hs.bounded user
  case origins =>
    intro row hrow
    simp only [hrows, List.mem_append, List.mem_singleton] at hrow
    rcases hrow with hrow | rfl
    · have hne : row.id ≠ k.id := s₁.apiKeys.find?_eq_none_iff.mp hcreates.free row hrow
      obtain ⟨o, ho, hvalue, howner⟩ := hs.origins row hrow
      refine ⟨o, ?_, hvalue, howner⟩
      rw [List.lookup_cons, beq_false_of_ne hne]
      exact ho
    · exact ⟨.of c row, List.lookup_cons_self, hcreates.fields.2, rfl⟩

/-- A request keeps the invariant. -/
theorem Sound.request (hs : Sound svc s) (call : KeyCall) : Sound svc (s.request svc call) := by
  have hcoherent := coherent_request svc hs.coherent call
  rcases request_cases svc hs.coherent call with
    ⟨c, s₁, k, -, haccept, hcreates, hinsert, horigins⟩ | ⟨-, hfewer, horigins⟩
  · obtain ⟨-, ⟨hfewer, -⟩, hs₁⟩ := KeyCall.of_accept hs.coherent haccept
    have hnew := (hs.fewer hfewer hs₁).created hcreates hinsert hcoherent
    rw [← horigins] at hnew
    exact hnew
  · have hnew := hs.fewer hfewer hcoherent
    rw [← horigins] at hnew
    exact hnew

/-- One step keeps the invariant. -/
theorem Sound.step {e : Event} (hs : Sound svc s) (h : Step svc s e s') : Sound svc s' := by
  cases h with
  | call call => exact hs.request call
  | elsewhere storage hfewer hcoherent => exact hs.fewer hfewer hcoherent

theorem Sound.atStart (h : AtStart s) : Sound svc s := by
  obtain ⟨hcoherent, hrows, -⟩ := h
  exact ⟨hcoherent, by simp [hrows], by simp [hrows], by simp [hrows]⟩

/-- Every run keeps the invariant. -/
theorem Sound.reachable (h : (system svc).Reachable s) : Sound svc s :=
  h.invariant (fun _ h₀ ↦ .atStart h₀) (fun _ _ _ hs hstep ↦ hs.step hstep)

/-! ## Values -/

/-- The values of the keys are different. -/
def Distinct (s : Keyring) : Prop := (s.storage.apiKeys.rows.map ApiKeyEntry.apiKey).Nodup

theorem HashInjective.of_request {call : KeyCall} (h : HashInjective svc (s.request svc call)) :
    HashInjective svc s := by
  have hsub : s.origins.map Prod.snd ⊆ (s.request svc call).origins.map Prod.snd := by
    unfold Keyring.request
    rw [List.map_append]
    exact List.subset_append_right _ _
  exact fun o ho o' ho' ↦ h o (hsub ho) o' (hsub ho')

/-- Two keys of the same inputs have the same value. -/
theorem value_eq_of_inputs {o o' : KeyOrigin} (h : o.inputs = o'.inputs) :
    o.value svc = o'.value svc := by
  obtain ⟨hnow, hrest⟩ := Prod.mk.inj h
  obtain ⟨hid, htoken⟩ := Prod.mk.inj hrest
  unfold KeyOrigin.value
  rw [hnow, hid, htoken]

theorem mem_of_lookup {origins : List (String × KeyOrigin)} {id : String} {o : KeyOrigin}
    (h : origins.lookup id = some o) : o ∈ origins.map Prod.snd := by
  obtain ⟨l₁, l₂, rfl, -⟩ := List.lookup_eq_some_iff.mp h
  simp

/-- A request keeps the values different exactly when it does not repeat the inputs of a key that
is still there. -/
theorem distinct_request_iff (hs : Sound svc s) (hdistinct : Distinct s) {call : KeyCall}
    (hinj : HashInjective svc (s.request svc call)) :
    Distinct (s.request svc call) ↔ ¬ s.Repeats svc call := by
  rcases request_cases svc hs.coherent call with
    ⟨c, s₁, k, hmethod, haccept, hcreates, hinsert, horigins⟩ | ⟨hnot, hfewer, -⟩
  · obtain ⟨-, ⟨hfewer, hmore⟩, -⟩ := KeyCall.of_accept hs.coherent haccept
    have hvalue : k.apiKey = (KeyOrigin.of c k).value svc := hcreates.fields.2
    have hold : (s₁.apiKeys.rows.map ApiKeyEntry.apiKey).Nodup :=
      hdistinct.sublist (hfewer.column _ fun _ ↦ rfl)
    have hnew : Distinct (s.request svc call) ↔
        ∀ row ∈ s₁.apiKeys.rows, row.apiKey ≠ k.apiKey := by
      unfold Distinct
      rw [Table.rows_of_insert hinsert, List.map_append, List.nodup_append]
      simp only [hold, true_and, List.map_cons, List.map_nil, List.nodup_singleton,
        List.mem_singleton, List.mem_map, forall_exists_index, and_imp, forall_eq,
        forall_apply_eq_imp_iff₂]
    rw [hnew]
    constructor
    · rintro hne ⟨-, c', s₁', k', haccept', hcreates', row, hrow, o, ho, hinputs⟩
      rw [haccept] at haccept'
      cases haccept'
      obtain ⟨o', ho', hrowvalue, -⟩ := hs.origins row hrow
      obtain rfl := Option.some.inj (ho'.symm.trans ho)
      obtain ⟨row₁, hrow₁, hcore⟩ := hmore.row hrow
      refine hne row₁ hrow₁ ?_
      calc
        row₁.apiKey = row.apiKey := eq_of_keyCore hcore _ fun _ ↦ rfl
        _ = o'.value svc := hrowvalue
        _ = (KeyOrigin.of c k').value svc := value_eq_of_inputs hinputs
        _ = k.apiKey := hvalue.symm
    · intro hnot row₁ hrow₁ hsame
      obtain ⟨row, hrow, hcore⟩ := hfewer.row hrow₁
      obtain ⟨o, ho, hrowvalue, -⟩ := hs.origins row hrow
      refine hnot ⟨hmethod, c, s₁, k, haccept, hcreates, row, hrow, o, ho, ?_⟩
      refine hinj o ?_ (.of c k) ?_ ?_
      · rw [horigins]
        exact List.mem_cons_of_mem _ (mem_of_lookup ho)
      · rw [horigins]
        exact List.mem_cons_self
      · calc
          o.value svc = row.apiKey := hrowvalue.symm
          _ = row₁.apiKey := eq_of_keyCore hcore _ fun _ ↦ rfl
          _ = k.apiKey := hsame
          _ = (KeyOrigin.of c k).value svc := hvalue
  · constructor
    · rintro - ⟨hmethod, c, s₁, k, haccept, hcreates, -⟩
      exact hnot hmethod c s₁ k haccept hcreates
    · rintro -
      exact List.Nodup.sublist (hfewer.column _ fun _ ↦ rfl) hdistinct

/-- Where values are different, a key stands for the user for whom it was made. -/
theorem keyLaw_of_distinct (hs : Sound svc s) (hdistinct : Distinct s) : KeyLaw svc s where
  distinct := hdistinct
  names := hs.names
  bounded := hs.bounded
  owner now key ui hui row hrow hkey := by
    obtain ⟨entry, hentry, huser⟩ := s.storage.exists_of_isValidApiKey svc hui
    -- the row that was found is the only one with this value
    obtain ⟨hfind, hvalue⟩ := Table.select_eq_some hentry
    have hmem := s.storage.apiKeys.mem_rows_iff.mpr hfind
    obtain rfl := List.inj_on_of_nodup_map hdistinct hrow hmem
      (hkey.trans (beq_iff_eq.mp hvalue).symm)
    obtain ⟨found, hfound, hsame⟩ := hs.coherent.of_getUserById svc huser
    obtain ⟨o, ho, -, howner⟩ := hs.origins row hrow
    exact ⟨o, ho, (howner.symm.trans (Table.key_of_find? hfound).symm).trans hsame.id_eq.symm⟩

/-- In a run that repeats no inputs the values are different. -/
theorem distinct_of_run (h : ((system svc).restrict (Unrepeated svc)).Reachable s)
    (hinj : HashInjective svc s) : Distinct s := by
  have hall : Sound svc s ∧ (HashInjective svc s → Distinct s) := by
    refine h.invariant (I := fun s ↦ Sound svc s ∧ (HashInjective svc s → Distinct s))
      (fun s h₀ ↦ ⟨.atStart h₀, fun _ ↦ ?_⟩) fun s e s' hs hstep ↦ ?_
    · unfold Distinct
      rw [h₀.2.1]
      exact List.nodup_nil
    · obtain ⟨hsound, hdistinct⟩ := hs
      obtain ⟨hstep, hunrepeated⟩ := hstep
      refine ⟨hsound.step hstep, fun hinj ↦ ?_⟩
      cases hstep with
      | call call =>
        exact (distinct_request_iff hsound (hdistinct hinj.of_request) hinj).mpr hunrepeated
      | elsewhere storage hfewer =>
        exact (hdistinct hinj).sublist (hfewer.column _ fun _ ↦ rfl)
  exact hall.2 hinj

end Steps

/-- In every run in which no POST repeats the second, the caller and the token of a key that is
still there, API keys obey the law; and the next request keeps it exactly if it does not either. -/
theorem keyLaw_iff {svc : Service} {s : Keyring}
    (h : ((system svc).restrict (Unrepeated svc)).Reachable s) (call : KeyCall)
    (hinj : HashInjective svc (s.request svc call)) :
    KeyLaw svc s ∧ (KeyLaw svc (s.request svc call) ↔ ¬ s.Repeats svc call) := by
  have hs : Sound svc s := .reachable h.of_restrict
  have hdistinct : Distinct s := distinct_of_run h hinj.of_request
  refine ⟨keyLaw_of_distinct hs hdistinct, ?_⟩
  rw [← distinct_request_iff hs hdistinct hinj]
  exact ⟨fun hlaw ↦ hlaw.distinct, keyLaw_of_distinct (hs.request call)⟩

/-! ## Two keys in one second

A `ROOT` user creates a key for another user, and then one for a third. -/

/-- The request of `root` for a new key of a user. -/
def sampleKey (now : ℕ) (suffix user : String) : KeyCall where
  moment := .sample now suffix
  request :=
    { method := .POST
      bearer := some "token-root"
      bindings := [("uuid", user)]
      body := .object [("name", .str "builds"), ("expiresOn", .int 5000)] }

/-- The key of the second user. -/
def sampleKeyring : Keyring := ({ storage := sampleStaff } : Keyring).request .sample
  (sampleKey 100 "m" "boss")

theorem atStart_sampleStaff : AtStart { storage := sampleStaff } :=
  ⟨.of_empty rfl, rfl, rfl⟩

theorem reachable_sampleKeyring :
    ((system .sample).restrict (Unrepeated .sample)).Reachable sampleKeyring := by
  refine (System.Reachable.init atStart_sampleStaff).step (l := .call (sampleKey 100 "m" "boss"))
    ⟨Step.call _, ?_⟩
  rintro ⟨-, c, s₁, k, -, -, row, hrow, -⟩
  cases hrow

/-- The statement for a key of the third user that is created one second later. -/
theorem keyLaw_iff_sample :
    (KeyLaw .sample sampleKeyring ∧
      (KeyLaw .sample (sampleKeyring.request .sample (sampleKey 101 "n" "admin")) ↔
        ¬ sampleKeyring.Repeats .sample (sampleKey 101 "n" "admin"))) ∧
      (sampleKeyring.request .sample (sampleKey 101 "n" "admin")).storage.apiKeys.rows.map
        ApiKeyEntry.apiKey = ["<100roottoken-root>", "<101roottoken-root>"] :=
  ⟨keyLaw_iff reachable_sampleKeyring (sampleKey 101 "n" "admin")
    (by unfold HashInjective; decide), by decide⟩

/-- In the same second the third user gets the key of the second, and whoever presents it is taken
for the second user. -/
theorem one_key_for_two_users :
    ∃ s, (system .sample).Reachable s ∧ ¬ KeyLaw .sample s ∧
      s.storage.apiKeys.rows.map (fun k ↦ (k.userUuid, k.apiKey)) =
        [("boss", "<100roottoken-root>"), ("admin", "<100roottoken-root>")] ∧
      ((s.storage.isValidApiKey .sample 200 "<100roottoken-root>").1.uinfo.map fun ui ↦
        ui.userinfo.id) = some "boss" := by
  refine ⟨sampleKeyring.request .sample (sampleKey 100 "n" "admin"),
    reachable_sampleKeyring.of_restrict.step (Step.call _), fun hlaw ↦ ?_, by decide, by decide⟩
  exact absurd hlaw.distinct (by decide)

end Keyring

end OwSec
