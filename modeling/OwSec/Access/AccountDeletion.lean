import OwSec.RestApi.Callers
import OwSec.RestApi.SubUser
import OwSec.Storage.Runs

/-!
# What the deletion of an account leaves behind

Deleting a user or a subscriber is followed by a chain of clean-ups, and each of them has
its own idea of the account: the avatar, the preferences and a user's tokens go by the
identifier, a subscriber's tokens go by the e-mail address although logging in files them
under the identifier, and the API keys are announced as removed but stay in their table.
The theorem of this file says exactly when nothing is left.
-/

namespace OwSec

open SecurityObjects Kit RestApi ACLProcessor

/-- The handler of users (`false`) or of subscribers (`true`). -/
def accountHandler (svc : Service) (isSub internal : Bool) : Handler :=
  if isSub then subuserHandler svc internal else userHandler svc internal

/-- Nothing that belongs to the account `id` is in any table. -/
structure NothingLeft (isSub : Bool) (id : String) (s : Storage) : Prop where
  tokens : ∀ t ∈ (s.population isSub).tokens.rows.rows, t.userName ≠ id
  apiKeys : isSub = false → ∀ k ∈ s.apiKeys.rows, k.userUuid ≠ id
  avatar : (if isSub then s.subAvatars else s.avatars).find? id = none
  preferences : (if isSub then s.subPreferences else s.preferences).find? id = none

/-- The clean-up reaches everything that the account owns: a user has no API key, and a
subscriber has no token, or is named by their e-mail address. -/
def Reached (svc : Service) (s : Storage) (isSub : Bool) (id : String) : Prop :=
  match isSub with
  | false => ∀ k ∈ s.apiKeys.rows, k.userUuid ≠ id
  | true => (∀ t ∈ s.sub.tokens.rows.rows, t.userName ≠ id) ∨
      ∃ target, (s.sub.getUserById svc id).1 = some target ∧ target.email = id

section Clean

variable {svc : Service} {s : Storage} {c : Context}

/-- Looking at the keys' owners alone, whether an account has an API key. -/
theorem apiKeys_ne_iff {id : String} : (∀ k ∈ s.apiKeys.rows, k.userUuid ≠ id) ↔
    id ∉ s.apiKeys.rows.map ApiKeyEntry.userUuid := by
  rw [List.mem_map]
  constructor
  · rintro h ⟨k, hk, hid⟩
    exact h k hk hid
  · exact fun h k hk hid ↦ h ⟨k, hk, hid⟩

/-- Revoking all tokens of a name leaves the tokens of the other names. -/
theorem tokens_ne_revokeAllTokens_iff {store : TokenStore} {id name : String} :
    (∀ t ∈ (store.revokeAllTokens svc name).rows.rows, t.userName ≠ id) ↔
      (∀ t ∈ store.rows.rows, t.userName ≠ id) ∨ name = id := by
  show (∀ t ∈ store.rows.rows.filter fun t ↦ !(t.userName == name), t.userName ≠ id) ↔ _
  simp only [List.mem_filter, Bool.not_eq_true', beq_eq_false_iff_ne, ne_eq, and_imp]
  constructor
  · intro h
    by_cases hname : name = id
    · exact .inr hname
    · refine .inl fun t ht hid ↦ h t ht (fun heq ↦ hname (heq.symm.trans hid)) hid
  · rintro (h | rfl) t ht hne
    · exact h t ht
    · exact hne

/-- After the deletion of a user only API keys can be left. -/
theorem UserHandler.doDelete_leaves :
    Command.wp (UserHandler.doDelete svc c)
      (fun _ s' ↦ NothingLeft false (c.request.getBinding "id") s' ↔
        Reached svc s false (c.request.getBinding "id"))
      (fun e _ ↦ e.refused = true) s := by
  unfold UserHandler.doDelete UserHandler.getUserById
  simp only [Command.wp_bind, Command.wp_ensure, Command.wp_orStop, Command.wp_pure,
    Command.wp_write, Command.wp_act]
  refine ⟨fun _ ↦ ⟨fun user _ ↦ ⟨fun _ ↦ ?_, fun _ ↦ rfl⟩, fun _ ↦ rfl⟩, fun _ ↦ rfl⟩
  constructor
  · exact fun h ↦ h.apiKeys rfl
  · intro h
    refine ⟨?_, fun _ ↦ h, ?_, ?_⟩
    · exact tokens_ne_revokeAllTokens_iff.mpr (.inr rfl)
    · exact (Table.find?_delete _ _ _).trans (if_pos rfl)
    · exact (Table.find?_delete _ _ _).trans (if_pos rfl)

/-- After the deletion of a subscriber only tokens can be left. -/
theorem SubUserHandler.doDelete_leaves :
    Command.wp (SubUserHandler.doDelete svc c)
      (fun _ s' ↦ NothingLeft true (c.request.getBinding "id") s' ↔
        Reached svc s true (c.request.getBinding "id"))
      (fun e _ ↦ e.refused = true) s := by
  unfold SubUserHandler.doDelete SubUserHandler.getUserById
  simp only [Command.wp_bind, Command.wp_ensure, Command.wp_orStop, Command.wp_pure,
    Command.wp_write, Command.wp_act]
  refine ⟨fun _ ↦ ⟨fun target htarget ↦ ⟨fun _ ↦ ⟨fun _ ↦ ?_, fun _ ↦ rfl⟩, fun _ ↦ rfl⟩,
    fun _ ↦ rfl⟩, fun _ ↦ rfl⟩
  have hrows := Population.getUserById_rows svc (p := s.sub) (c.request.getBinding "id")
  -- neither the lookup nor the emptying of the caches takes a row away
  have htokens : (∀ t ∈ ((s.sub.getUserById svc (c.request.getBinding "id")).2.tokens.rows.rows),
      t.userName ≠ c.request.getBinding "id") ↔
      ∀ t ∈ s.sub.tokens.rows.rows, t.userName ≠ c.request.getBinding "id" := by
    rw [hrows]
  constructor
  · intro h
    rcases tokens_ne_revokeAllTokens_iff.mp h.tokens with hnone | hname
    · exact .inl (htokens.mp hnone)
    · exact .inr ⟨target, htarget, hname⟩
  · intro h
    refine ⟨tokens_ne_revokeAllTokens_iff.mpr ?_, (fun h ↦ by cases h), ?_, ?_⟩
    · rcases h with hnone | ⟨target', htarget', hname⟩
      · exact .inl (htokens.mpr hnone)
      · obtain rfl := Option.some.inj (htarget.symm.trans htarget')
        exact .inr hname
    · exact (Table.find?_delete _ _ _).trans (if_pos rfl)
    · exact (Table.find?_delete _ _ _).trans (if_pos rfl)

end Clean

/-- When the deletion of an account that is answered with OK leaves no token, API key,
avatar or preferences of the account behind: exactly when a user had no API key, and a
subscriber no token (or an identifier that is their e-mail address). -/
theorem nothing_left_iff (svc : Service) (isSub internal : Bool) (m : Moment)
    (rateExceeded : Bool) (r : Request) (s : Storage) (hm : r.method = .DELETE)
    (hok : (handleRequest svc (accountHandler svc isSub internal) m rateExceeded r s).1 = .ok) :
    NothingLeft isSub (r.getBinding "id")
        (handleRequest svc (accountHandler svc isSub internal) m rateExceeded r s).2 ↔
      Reached svc s isSub (r.getBinding "id") := by
  -- authentication changes neither the owners of the keys nor the subscribers
  have hsub : (accountHandler svc isSub internal).subOnlyService = false := by
    cases isSub <;> rfl
  have hauth : Reached svc (authenticate svc (accountHandler svc isSub internal) m r s).2 isSub
      (r.getBinding "id") ↔ Reached svc s isSub (r.getBinding "id") := by
    cases isSub with
    | false =>
      show (∀ k ∈ _, _) ↔ (∀ k ∈ _, _)
      rw [apiKeys_ne_iff, apiKeys_ne_iff, map_apiKeys_authenticate svc _ fun _ _ ↦ rfl]
    | true =>
      show (_ ∨ _) ↔ (_ ∨ _)
      rw [authenticate_sub svc hsub]
  refine handleRequest_rule svc (accountHandler svc isSub internal) m rateExceeded r
    (P := fun a s' ↦ a = .ok → (NothingLeft isSub (r.getBinding "id") s' ↔
      Reached svc s isSub (r.getBinding "id"))) ?_ ?_ hok
  · rintro c - - rfl - -
    have hrefused (e : Response) (s' : Storage) (he : e.refused = true) (hok : e = .ok) :
        NothingLeft isSub (c.request.getBinding "id") s' ↔
          Reached svc s isSub (c.request.getBinding "id") := by
      subst hok
      cases he
    unfold dispatch
    rw [hm, ← hauth]
    cases isSub with
    | false =>
      refine Command.wp_mono UserHandler.doDelete_leaves (fun _ _ h _ ↦ h) fun e s' he hok ↦ ?_
      exact (hrefused e s' he hok).trans hauth.symm
    | true =>
      refine Command.wp_mono SubUserHandler.doDelete_leaves (fun _ _ h _ ↦ h) fun e s' he hok ↦ ?_
      exact (hrefused e s' he hok).trans hauth.symm
  · rintro e s' he - rfl
    cases he

/-! ## A user with an API key, a subscriber with a token -/

/-- A subscriber is created and logs in. -/
def sampleSession : List PopulationOp :=
  [.createUser (.sample 100 "a")
      { email := "jo@example.com", userRole := .SUBSCRIBER, currentPassword := "Secret-1" },
    .login (.sample 100 "b") "jo@example.com" "Secret-1" ""]

/-- The service after the subscriber has logged in. -/
def sampleSubscribed : Storage :=
  sampleSession.foldl (fun s op ↦ s.setPopulation true
    (op.apply .sample (Storage.passwordRule .sample true) (s.population true))) {}

theorem reachable_sampleSubscribed : (Storage.system .sample).Reachable sampleSubscribed := by
  have hstart : (Storage.system .sample).Reachable {} := .init Storage.atStart_empty
  have hcreated := Storage.reachable_on .sample hstart true (.createUser (.sample 100 "a")
    { email := "jo@example.com", userRole := .SUBSCRIBER, currentPassword := "Secret-1" }) trivial
  exact Storage.reachable_on .sample hcreated true
    (.login (.sample 100 "b") "jo@example.com" "Secret-1" "") trivial

/-- A service asks for the deletion of the subscriber. -/
def sampleSubDeletion : Request where
  method := .DELETE
  internalName := some "owprov"
  apiKey := some "my-hash"
  bindings := [("id", "uuid-a")]

/-- A `ROOT` with a token, and a user with an API key. -/
def sampleKeyOwner : Storage where
  user :=
    { users :=
        { rows := [{ id := "root", email := "root@example.com", userRole := .ROOT },
            { id := "jo", email := "jo@example.com", userRole := .CSR }]
          nodup := by decide }
      tokens :=
        { rows := { rows := [{ token := "token-root", userName := "root", expires := 3600 }]
                    nodup := by decide } } }
  apiKeys := { rows := [{ id := "key-1", userUuid := "jo", name := "script", apiKey := "abc" }]
               nodup := by decide }

/-- The `ROOT` asks for the deletion of the user. -/
def sampleUserDeletion : Request where
  method := .DELETE
  bearer := some "token-root"
  bindings := [("id", "jo")]

/-- The statement for the subscriber with a token. -/
theorem nothing_left_iff_sample :
    NothingLeft true "uuid-a" (handleRequest .sample (accountHandler .sample true true)
        (.sample 200 "c") false sampleSubDeletion sampleSubscribed).2 ↔
      Reached .sample sampleSubscribed true "uuid-a" :=
  nothing_left_iff .sample true true (.sample 200 "c") false sampleSubDeletion sampleSubscribed rfl
    (by decide)

/-- The deletion of the subscriber leaves the token, that of the user the API key. -/
theorem deletion_leaves_credentials :
    ((Storage.system .sample).Reachable sampleSubscribed ∧
      (handleRequest .sample (accountHandler .sample true true) (.sample 200 "c") false
        sampleSubDeletion sampleSubscribed).1 = .ok ∧
      ¬ NothingLeft true "uuid-a" (handleRequest .sample (accountHandler .sample true true)
        (.sample 200 "c") false sampleSubDeletion sampleSubscribed).2) ∧
    (Storage.system .sample).Reachable sampleKeyOwner ∧
      (handleRequest .sample (accountHandler .sample false false) (.sample 200 "c") false
        sampleUserDeletion sampleKeyOwner).1 = .ok ∧
      ¬ NothingLeft false "jo" (handleRequest .sample (accountHandler .sample false false)
        (.sample 200 "c") false sampleUserDeletion sampleKeyOwner).2 := by
  refine ⟨⟨reachable_sampleSubscribed, by decide, fun h ↦ ?_⟩, .init ?_, by decide, fun h ↦ ?_⟩
  · exact absurd h.tokens (by decide)
  · rintro (_ | _) <;> exact ⟨rfl, rfl, rfl⟩
  · exact absurd (h.apiKeys rfl) (by decide)

end OwSec
