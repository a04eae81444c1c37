import OwSec.RestApi.ApiKey
import OwSec.RestApi.Callers

/-!
# What requests do with API keys

`Creates` collects the checks of a POST: exactly when they all pass, the new key is stored.  Every
other request at most describes keys anew or takes one away, so what is left of the table, looked
at without descriptions and last uses, is part of what was there.
-/

namespace OwSec

open SecurityObjects Kit

namespace RestApi

/-! ## The part of a key that requests leave alone -/

/-- A key without its description and its last use. -/
def keyCore (k : ApiKeyEntry) : ApiKeyEntry := { k with description := "", lastUse := 0 }

/-- The keys that are left are keys that were there, up to descriptions and last uses. -/
def FewerKeys (s s' : Storage) : Prop :=
  (s'.apiKeys.rows.map keyCore).Sublist (s.apiKeys.rows.map keyCore)

section FewerKeys

variable {s s' s'' : Storage}

theorem FewerKeys.of_eq (h : s'.apiKeys = s.apiKeys) : FewerKeys s s' := by
  unfold FewerKeys
  rw [h]

theorem FewerKeys.trans (h : FewerKeys s s') (h' : FewerKeys s' s'') : FewerKeys s s'' :=
  List.Sublist.trans h' h

/-- A column that is neither the description nor the last use loses entries at most. -/
theorem FewerKeys.column {α : Type} (h : FewerKeys s s') (f : ApiKeyEntry → α)
    (hf : ∀ k, f (keyCore k) = f k) :
    (s'.apiKeys.rows.map f).Sublist (s.apiKeys.rows.map f) := by
  have hcolumn : f ∘ keyCore = f := funext hf
  have hmap := List.Sublist.map f h
  rw [List.map_map, List.map_map, hcolumn] at hmap
  exact hmap

/-- A key that is left was there. -/
theorem FewerKeys.row (h : FewerKeys s s') {k' : ApiKeyEntry} (hk' : k' ∈ s'.apiKeys.rows) :
    ∃ k ∈ s.apiKeys.rows, keyCore k = keyCore k' :=
  List.mem_map.mp (h.subset (List.mem_map_of_mem hk'))

/-- Keys with the same core agree outside of the description and the last use. -/
theorem eq_of_keyCore {α : Type} {k k' : ApiKeyEntry} (h : keyCore k = keyCore k')
    (f : ApiKeyEntry → α) (hf : ∀ k, f (keyCore k) = f k) : f k = f k' := by
  rw [← hf k, h, hf k']

theorem FewerKeys.authenticate (svc : Service) (h : Handler) (m : Moment) (r : Request) :
    FewerKeys s (authenticate svc h m r s).2 ∧ FewerKeys (authenticate svc h m r s).2 s := by
  unfold FewerKeys
  rw [map_apiKeys_authenticate svc keyCore fun _ _ ↦ rfl]
  exact ⟨.refl _, .refl _⟩

/-- Describing a key anew leaves the cores of the keys. -/
theorem fewerKeys_updateApiKey {k k' : ApiKeyEntry} (hk : s.apiKeys.find? k.id = some k)
    (hcore : keyCore k' = keyCore k) : FewerKeys s (s.updateApiKey k.id k') := by
  unfold Storage.updateApiKey
  split
  · rename_i keys hupdate
    have hmap := Table.map_rows_update keyCore hupdate fun r hr ↦
      hcore.trans (congrArg keyCore (Option.some.inj (hk.symm.trans hr)))
    unfold FewerKeys
    rw [hmap]
  · exact .of_eq rfl

end FewerKeys

namespace ApiKeyHandler

variable (svc : Service) {c : Context} {s : Storage}

/-! ## Creating a key -/

/-- The checks of `DoPost`, on the storage that the authentication left, for the new key. -/
structure Creates (c : Context) (s : Storage) (k : ApiKeyEntry) : Prop where
  named : c.request.getBinding "uuid" ≠ ""
  allowed : c.request.getBinding "uuid" = c.caller.id ∨ c.caller.userRole = .ROOT
  known : c.request.getBinding "uuid" = c.caller.id ∨
    (s.user.getUserById svc (c.request.getBinding "uuid")).1.isSome = true
  read : ∃ k₀, ApiKeyEntry.fromJson svc.json c.request.body.parsed = some k₀ ∧
    isAlphaNumeric k₀.name = true ∧ k₀.name.isEmpty = false ∧
      k = newKey svc c (requestedKey (c.request.getBinding "uuid") k₀)
  current : c.moment.now ≤ k.expiresOn
  name : ∀ row ∈ s.apiKeysOf (c.request.getBinding "uuid"), row.name ≠ k.name
  room : (s.apiKeysOf (c.request.getBinding "uuid")).length < 10
  free : s.apiKeys.find? k.id = none

variable {svc}

/-- The new key belongs to the user of the path, and its value is that of the second, the caller
and the caller's token. -/
theorem Creates.fields {k : ApiKeyEntry} (h : Creates svc c s k) :
    k.userUuid = c.request.getBinding "uuid" ∧
      k.apiKey = computeApiKey svc (toString c.moment.now) c.caller.id
        c.userInfo.webtoken.accessToken := by
  obtain ⟨k₀, -, -, -, rfl⟩ := h.read
  exact ⟨rfl, rfl⟩

omit svc in
theorem apiKeysOf_congr {s₁ : Storage} (h : s₁.apiKeys = s.apiKeys) (userUuid : String) :
    s₁.apiKeysOf userUuid = s.apiKeysOf userUuid := by
  unfold Storage.apiKeysOf
  rw [h]

/-- All keys of a user are looked at where there is room for another. -/
theorem Creates.keys {k : ApiKeyEntry} (h : Creates svc c s k) :
    s.apiKeysOf k.userUuid = s.apiKeys.rows.filter (·.userUuid == k.userUuid) := by
  have hroom := h.room
  rw [← h.fields.1] at hroom
  unfold Storage.apiKeysOf at hroom ⊢
  rw [List.length_take] at hroom
  refine List.take_of_length_le ?_
  omega

/-- A user who is not the caller is looked up. -/
theorem wp_mustExist {userUuid : String} {e : Response} {Q : PUnit → Storage → Prop}
    {E : Response → Storage → Prop} (hs : s.user.Coherent)
    (hQ : ∀ s' : Storage, (userUuid = c.caller.id ∨
      (s.user.getUserById svc userUuid).1.isSome = true) → s'.apiKeys = s.apiKeys →
        s'.user.Coherent → Q ⟨⟩ s')
    (hE : ∀ s' : Storage, ¬ (userUuid = c.caller.id ∨
      (s.user.getUserById svc userUuid).1.isSome = true) → s'.apiKeys = s.apiKeys →
        s'.user.Coherent → E e s') :
    Command.wp (mustExist svc c userUuid e) Q E s := by
  unfold mustExist
  simp only [Command.wp_ite, Command.wp_pure, Command.wp_bind, Command.wp_act, Command.wp_ensure,
    beq_iff_eq]
  have hlooked : (s.onPopulation false fun p ↦ p.getUserById svc userUuid).2.user.Coherent :=
    hs.getUserById svc userUuid
  refine ⟨fun hself ↦ hQ s (.inl hself) rfl hs, fun hother ↦ ⟨fun hfound ↦ ?_, fun hmissing ↦ ?_⟩⟩
  · exact hQ _ (.inr hfound) rfl hlooked
  · refine hE _ ?_ rfl hlooked
    rintro (hself | hfound)
    · exact hother hself
    · rw [show (s.user.getUserById svc userUuid).1.isSome = false from hmissing] at hfound
      cases hfound

/-- The new key is determined by the body. -/
theorem Creates.eq_newKey {k k₀ : ApiKeyEntry} (h : Creates svc c s k)
    (hread : ApiKeyEntry.fromJson svc.json c.request.body.parsed = some k₀) :
    isAlphaNumeric k₀.name = true ∧ k₀.name.isEmpty = false ∧
      k = newKey svc c (requestedKey (c.request.getBinding "uuid") k₀) := by
  obtain ⟨k₁, hread₁, halpha, hempty, hk⟩ := h.read
  obtain rfl := Option.some.inj (hread₁.symm.trans hread)
  exact ⟨halpha, hempty, hk⟩

/-- A key is stored when its identifier is free. -/
theorem createApiKey_cases (s : Storage) (k : ApiKeyEntry) :
    (∃ apiKeys, s.apiKeys.find? k.id = none ∧ s.apiKeys.insert k = some apiKeys ∧
      s.createApiKey k = (true, { s with apiKeys })) ∨
      s.apiKeys.find? k.id ≠ none ∧ s.createApiKey k = (false, s) := by
  unfold Storage.createApiKey
  rcases hinsert : s.apiKeys.insert k with _ | apiKeys
  · refine .inr ⟨fun hfree ↦ ?_, rfl⟩
    obtain ⟨keys, hkeys⟩ := Table.insert_isSome hfree
    rw [hinsert] at hkeys
    cases hkeys
  · exact .inl ⟨apiKeys, Table.find?_of_insert hinsert, rfl, rfl⟩

/-- A POST stores the new key exactly when its checks pass. -/
theorem wp_doPost (hs : s.user.Coherent) :
    Command.wp (doPost svc c)
      (fun a s' ↦ ∃ k, a = .apiKey k ∧ Creates svc c s k ∧
        s.apiKeys.insert k = some s'.apiKeys ∧ s'.user.Coherent)
      (fun e s' ↦ e.refused = true ∧ (∀ k, ¬ Creates svc c s k) ∧ s'.apiKeys = s.apiKeys ∧
        s'.user.Coherent) s := by
  unfold doPost targetUser
  simp only [Command.wp_bind, Command.wp_ensure, Command.wp_pure]
  refine ⟨fun hnamed ↦ ⟨fun hallowed ↦ ?_, fun hdenied ↦ ?_⟩, fun hunnamed ↦ ?_⟩
  case refine_2 =>
    refine ⟨rfl, fun k hk ↦ ?_, trivial, hs⟩
    simp only [Bool.or_eq_false_iff, beq_eq_false_iff_ne] at hdenied
    exact hk.allowed.elim hdenied.1 hdenied.2
  case refine_3 =>
    refine ⟨rfl, fun k hk ↦ hk.named ?_, trivial, hs⟩
    simpa using hunnamed
  refine wp_mustExist hs (fun s₁ hknown hkeys hs₁ ↦ ?_) fun s₁ hunknown hkeys hs₁ ↦
    ⟨rfl, fun k hk ↦ hunknown hk.known, hkeys, hs₁⟩
  simp only [Command.wp_orStop, Command.wp_reads, Command.wp_act]
  rw [apiKeysOf_congr hkeys]
  refine ⟨fun key hread ↦ ⟨fun hname ↦ ⟨fun hcurrent ↦ ⟨fun hunused ↦ ⟨fun hroom ↦ ?_,
    fun hfull ↦ ?full⟩, fun hused ↦ ?used⟩, fun hpast ↦ ?past⟩, fun hbad ↦ ?bad⟩,
    fun hunread ↦ ?unread⟩
  case full =>
    refine ⟨rfl, fun k hk ↦ ?_, hkeys, hs₁⟩
    have hroom := hk.room
    simp only [Bool.not_eq_false', decide_eq_true_eq] at hfull
    omega
  case used =>
    refine ⟨rfl, fun k hk ↦ ?_, hkeys, hs₁⟩
    simp only [Bool.not_eq_false', List.any_eq_true, beq_iff_eq] at hused
    obtain ⟨row, hrow, hsame⟩ := hused
    obtain ⟨-, -, rfl⟩ := hk.eq_newKey hread
    exact hk.name row hrow hsame
  case past =>
    refine ⟨rfl, fun k hk ↦ ?_, hkeys, hs₁⟩
    simp only [Bool.not_eq_false', decide_eq_true_eq] at hpast
    obtain ⟨-, -, rfl⟩ := hk.eq_newKey hread
    exact absurd hk.current (Nat.not_le.mpr hpast)
  case bad =>
    refine ⟨rfl, fun k hk ↦ ?_, hkeys, hs₁⟩
    obtain ⟨halpha, hempty, -⟩ := hk.eq_newKey hread
    simp [halpha, hempty] at hbad
  case unread =>
    refine ⟨rfl, fun k hk ↦ ?_, hkeys, hs₁⟩
    obtain ⟨k₀, hread, -⟩ := hk.read
    rw [hunread] at hread
    cases hread
  -- all checks but that of the identifier have passed
  have hcreates (hfree : s₁.apiKeys.find? c.moment.uuid = none) :
      Creates svc c s (newKey svc c (requestedKey (c.request.getBinding "uuid") key)) := by
    simp only [Bool.and_eq_true, Bool.or_eq_true, beq_iff_eq, Bool.not_eq_true',
      decide_eq_false_iff_not, not_lt, not_le, List.any_eq_false]
      at hallowed hname hcurrent hunused hroom
    constructor
    case named => simpa using hnamed
    case allowed => exact hallowed
    case known => exact hknown
    case read => exact ⟨key, hread, hname.1, hname.2, rfl⟩
    case current => exact hcurrent
    case name => exact hunused
    case room => exact hroom
    case free =>
      rw [← hkeys]
      exact hfree
  rcases createApiKey_cases s₁ (newKey svc c (requestedKey (c.request.getBinding "uuid") key)) with
    ⟨apiKeys, hfree, hinsert, heq⟩ | ⟨htaken, heq⟩
  · rw [heq]
    refine ⟨fun _ ↦ ⟨_, rfl, hcreates hfree, ?_, hs₁⟩, fun h ↦ by cases h⟩
    rw [← hkeys]
    exact hinsert
  · rw [heq]
    refine ⟨fun h ↦ (by cases h), fun _ ↦ ⟨rfl, fun k hk ↦ htaken ?_, hkeys, hs₁⟩⟩
    obtain ⟨-, -, rfl⟩ := hk.eq_newKey hread
    rw [hkeys]
    exact hk.free

/-! ## The other methods -/

/-- Reading keys changes nothing. -/
theorem wp_doGet : Command.wp (doGet c) (fun _ s' ↦ s' = s) (fun _ s' ↦ s' = s) s := by
  unfold doGet targetUser
  simp only [Command.wp_bind, Command.wp_ensure, Command.wp_pure, Command.wp_reads]
  exact ⟨fun _ ↦ ⟨fun _ ↦ ⟨fun _ ↦ trivial, fun _ ↦ trivial⟩, fun _ ↦ trivial⟩, fun _ ↦ trivial⟩

/-- A PUT describes a key anew. -/
theorem wp_doPut (hs : s.user.Coherent) :
    Command.wp (doPut svc c) (fun _ s' ↦ FewerKeys s s' ∧ s'.user.Coherent)
      (fun _ s' ↦ FewerKeys s s' ∧ s'.user.Coherent) s := by
  have hsame : FewerKeys s s ∧ s.user.Coherent := ⟨.of_eq rfl, hs⟩
  unfold doPut targetUser
  simp only [Command.wp_bind, Command.wp_ensure, Command.wp_pure, Command.wp_reads,
    Command.wp_orStop, Command.wp_lift, Command.wp_act]
  refine ⟨fun _ ↦ ⟨fun _ ↦ ⟨fun key _ ↦ ⟨fun existing hexisting ↦ ⟨fun _ ↦ ⟨fun description _ ↦ ?_,
    fun _ _ ↦ hsame⟩, fun _ ↦ hsame⟩, fun _ ↦ hsame⟩, fun _ ↦ hsame⟩, fun _ ↦ hsame⟩,
    fun _ ↦ hsame⟩
  have hid : existing.id = key.id := Table.key_of_find? hexisting
  rw [← hid] at hexisting
  have hfewer : FewerKeys s (s.updateApiKey existing.id { existing with description }) :=
    fewerKeys_updateApiKey hexisting rfl
  have hcoherent : (s.updateApiKey existing.id { existing with description }).user.Coherent := by
    rw [Storage.updateApiKey_user]
    exact hs
  exact ⟨fun _ ↦ ⟨hfewer, hcoherent⟩, fun _ ↦ ⟨hfewer, hcoherent⟩⟩

/-- A DELETE takes one key away. -/
theorem wp_doDelete (hs : s.user.Coherent) :
    Command.wp (doDelete svc c) (fun _ s' ↦ FewerKeys s s' ∧ s'.user.Coherent)
      (fun _ s' ↦ FewerKeys s s' ∧ s'.user.Coherent) s := by
  have hsame : FewerKeys s s ∧ s.user.Coherent := ⟨.of_eq rfl, hs⟩
  unfold doDelete targetUser
  simp only [Command.wp_bind, Command.wp_ensure, Command.wp_pure]
  refine ⟨fun _ ↦ ⟨fun _ ↦ ?_, fun _ ↦ hsame⟩, fun _ ↦ hsame⟩
  refine wp_mustExist hs (fun s₁ _ hkeys hs₁ ↦ ?_) fun s₁ _ hkeys hs₁ ↦ ⟨.of_eq hkeys, hs₁⟩
  have hlooked : FewerKeys s s₁ ∧ s₁.user.Coherent := ⟨.of_eq hkeys, hs₁⟩
  simp only [Command.wp_reads, Command.wp_orStop, Command.wp_write]
  refine ⟨fun _ ↦ ⟨fun key _ ↦ ⟨fun _ ↦ ⟨hlooked.1.trans ?_, hs₁⟩, fun _ ↦ hlooked⟩,
    fun _ ↦ hlooked⟩, fun _ ↦ hlooked⟩
  exact List.Sublist.map keyCore List.filter_sublist

end ApiKeyHandler

/-! ## Requests -/

/-- A request about API keys. -/
structure KeyCall where
  moment : Moment
  rateExceeded : Bool := false
  request : Request

namespace KeyCall

variable (svc : Service) (call : KeyCall)

/-- What the shared part of the request makes of it. -/
def accept (s : Storage) : Except Response Context × Storage :=
  acceptRequest svc (apiKeyHandler svc) call.moment call.rateExceeded call.request s

/-- The answer, and the storage afterwards. -/
def run (s : Storage) : Response × Storage :=
  handleRequest svc (apiKeyHandler svc) call.moment call.rateExceeded call.request s

end KeyCall

open ApiKeyHandler (Creates)

/-- What a request about API keys may do. -/
inductive KeyEffect (svc : Service) (call : KeyCall) (s : Storage) : Response → Storage → Prop
  | created {c : Context} {s₁ s' : Storage} {k : ApiKeyEntry}
    (haccept : call.accept svc s = (.ok c, s₁)) (hmethod : call.request.method = .POST)
    (hcreates : Creates svc c s₁ k) (hinsert : s₁.apiKeys.insert k = some s'.apiKeys)
    (hcoherent : s'.user.Coherent) : KeyEffect svc call s (.apiKey k) s'
  | fewer {a : Response} {s' : Storage}
    (hnot : call.request.method = .POST → a.refused = true ∧
      ∀ c s₁ k, call.accept svc s = (.ok c, s₁) → ¬ Creates svc c s₁ k)
    (hfewer : FewerKeys s s') (hcoherent : s'.user.Coherent) : KeyEffect svc call s a s'

/-- A request that is let through meets the keys that were there. -/
theorem KeyCall.of_accept {svc : Service} {call : KeyCall} {s s₁ : Storage} {c : Context}
    (hs : s.user.Coherent) (h : call.accept svc s = (.ok c, s₁)) :
    c.request = call.request ∧ (FewerKeys s s₁ ∧ FewerKeys s₁ s) ∧ s₁.user.Coherent := by
  obtain ⟨-, -, rfl, hrequest, -⟩ := (acceptRequest_eq_ok_iff svc _ _ _ _).mp h
  exact ⟨hrequest, FewerKeys.authenticate svc _ _ _, (sameUsers_authenticate svc hs rfl).coherent⟩

/-- Every request has one of the listed effects. -/
theorem KeyCall.run_effect (svc : Service) (call : KeyCall) {s : Storage} (hs : s.user.Coherent) :
    KeyEffect svc call s (call.run svc s).1 (call.run svc s).2 := by
  rcases haccept : call.accept svc s with ⟨e | c, s₁⟩
  · -- turned away before a method runs
    have hwp := wp_acceptRequest svc (apiKeyHandler svc) call.moment call.rateExceeded call.request
      (s := s) (Q := fun _ _ ↦ True) (E := fun e s' ↦ e.refused = true ∧ FewerKeys s s' ∧
        s'.user.Coherent) (fun _ _ _ _ _ _ ↦ trivial) ?_
    · obtain ⟨hrefused, hfewer, hcoherent⟩ := Command.wp_of_error hwp haccept
      have hrun : call.run svc s = (e, s₁) := handleRequest_of_error svc _ _ _ _ haccept
      rw [hrun]
      refine .fewer (fun _ ↦ ⟨hrefused, fun c s₁ k hacc ↦ ?_⟩) hfewer hcoherent
      rw [haccept] at hacc
      cases hacc
    · rintro e s' he (rfl | rfl)
      · exact ⟨he, .of_eq rfl, hs⟩
      · exact ⟨he, (FewerKeys.authenticate svc _ _ _).1, (sameUsers_authenticate svc hs rfl).coherent⟩
  · obtain ⟨hrequest, ⟨hauth, -⟩, hs₁⟩ := KeyCall.of_accept hs haccept
    have hrun : call.run svc s = answer (dispatch (apiKeyHandler svc) c) s₁ :=
      handleRequest_of_ok svc _ _ _ _ haccept
    rw [hrun]
    -- a method that is not POST takes keys away at most
    have hother (hmethod : call.request.method ≠ .POST) {d : Handling Response}
        (hd : Command.wp d (fun _ s' ↦ FewerKeys s₁ s' ∧ s'.user.Coherent)
          (fun _ s' ↦ FewerKeys s₁ s' ∧ s'.user.Coherent) s₁) :
        KeyEffect svc call s (answer d s₁).1 (answer d s₁).2 := by
      obtain ⟨hfewer, hcoherent⟩ := answer_of_wp hd
      exact .fewer (fun hpost ↦ absurd hpost hmethod) (hauth.trans hfewer) hcoherent
    have hsame : FewerKeys s₁ s₁ ∧ s₁.user.Coherent := ⟨.of_eq rfl, hs₁⟩
    unfold dispatch
    rw [hrequest]
    rcases hmethod : call.request.method with _ | _ | _ | _ | _ | name
    case POST =>
      refine answer_of_wp (P := KeyEffect svc call s) ?_
      refine Command.wp_mono (ApiKeyHandler.wp_doPost hs₁) ?_ ?_
      · rintro a s' ⟨k, rfl, hcreates, hinsert, hcoherent⟩
        exact .created haccept hmethod hcreates hinsert hcoherent
      · rintro e s' ⟨hrefused, hnot, hkeys, hcoherent⟩
        refine .fewer (fun _ ↦ ⟨hrefused, fun c' s₁' k hacc ↦ ?_⟩) (hauth.trans (.of_eq hkeys))
          hcoherent
        rw [haccept] at hacc
        cases hacc
        exact hnot k
    case GET =>
      refine hother (by simp [hmethod]) (Command.wp_mono ApiKeyHandler.wp_doGet ?_ ?_)
      · rintro _ _ rfl
        exact hsame
      · rintro _ _ rfl
        exact hsame
    case PUT => exact hother (by simp [hmethod]) (ApiKeyHandler.wp_doPut hs₁)
    case DELETE => exact hother (by simp [hmethod]) (ApiKeyHandler.wp_doDelete hs₁)
    case OPTIONS => exact hother (by simp [hmethod]) ((Command.wp_pure _).mpr hsame)
    case other => exact hother (by simp [hmethod]) ((Command.wp_pure _).mpr hsame)

end RestApi

end OwSec
