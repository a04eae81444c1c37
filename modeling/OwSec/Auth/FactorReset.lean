import OwSec.Auth.TotpEnrolment
import OwSec.RestApi.FactorChanges

/-!
# After a reset of the second factor

`resetMFA` turns the second factor of a record off and drops its numbers.  What was validated
for it before should be of no use afterwards: the authenticator is on again only with a secret
whose codes were shown after the reset, and text messages only with a number that was validated
after the reset.

The reset leaves three things that can be used again, which are the cases of `Reuses`: the
secret in the record, which both handlers accept as "their old secret", a finished session that
is still waiting to be taken over, and a number that is still kept as validated.  In a run of
any requests, as long as no update reuses one of them, the second factor is a new one.
-/

namespace OwSec

open SecurityObjects Kit RestApi ACLProcessor

namespace FactorReset

open TotpEnrolment (Validation completes reply endPointOf secretOf)

/-! ## Runs -/

/-- The storage, as it was right after the reset and as it is, and what was validated since. -/
structure State where
  atReset : Storage
  storage : Storage
  /-- The secrets whose codes were shown. -/
  validated : List Validation := []
  /-- The numbers that were validated, with their users. -/
  numbers : List (String × String) := []

/-- What happens in one step. -/
inductive Event
  | request (q : RecordRequest)
  /-- `StartValidation` of a number. -/
  | startNumber (gateway : SmsGateway) (now : ℕ) (number userName : String)
  /-- `CompleteValidation` of a number. -/
  | completeNumber (number code userName : String)
  /-- Anything else: it brings no new record, no new session and no new number. -/
  | elsewhere

section Law

variable (svc : Service) (isSub : Bool) (id : String)

/-- A request that resets the second factor of the record, and is not refused. -/
structure Resets (s : Storage) (internal : Bool) (env : Surroundings) (r : Request) : Prop where
  put : r.method = .PUT
  target : r.getBinding "id" = id
  asks : AsksReset r
  answered : (reply svc s (endPointOf isSub) internal env r).refused = false

/-- The number that a request validates: a subscriber is told so. -/
def validatesNumber (s : Storage) : RecordRequest → Option (String × String)
  | .rest .submfa internal env r =>
    if r.method = .PUT then numberOf (reply svc s .submfa internal env r) else none
  | _ => none

namespace State

/-- The state right after the reset. -/
def afterReset (s : Storage) : State where
  atReset := s
  storage := s

/-- The state after a request. -/
def request (st : State) (q : RecordRequest) : State :=
  { st with
    storage := q.run svc st.storage
    validated := st.validated ++ (completes svc st.storage q).toList
    numbers := st.numbers ++ (validatesNumber svc st.storage q).toList }

/-- The state after `StartValidation`. -/
def startNumber (st : State) (gateway : SmsGateway) (now : ℕ) (number userName : String) :
    State :=
  { st with storage := (st.storage.smsStartValidation svc gateway now number userName).2 }

/-- The state after `CompleteValidation`. -/
def completeNumber (st : State) (number code userName : String) : State :=
  { st with
    storage := (st.storage.smsCompleteValidation svc number code userName).2
    numbers := st.numbers ++
      if (st.storage.smsCompleteValidation svc number code userName).1 then [(number, userName)]
      else [] }

end State

/-- One step. -/
inductive Step : State → Event → State → Prop
  | request {st : State} (q : RecordRequest) : Step st (.request q) (st.request svc q)
  | startNumber {st : State} (gateway : SmsGateway) (now : ℕ) (number userName : String) :
    Step st (.startNumber gateway now number userName)
      (st.startNumber svc gateway now number userName)
  | completeNumber {st : State} (number code userName : String) :
    Step st (.completeNumber number code userName) (st.completeNumber svc number code userName)
  | elsewhere {st : State} {storage : Storage} (h : st.storage.NoNews storage)
    (hsms : ∀ e ∈ storage.sms, e ∈ st.storage.sms) : Step st .elsewhere { st with storage }

/-- Runs start when the second factor of the record has been reset, in any reachable state of the
service. -/
def system : System State Event where
  init st := ∃ s internal env r, (Storage.system svc).Reachable s ∧
    Resets svc isSub id s internal env r ∧
    st = .afterReset (RecordRequest.run svc s (.rest (endPointOf isSub) internal env r))
  step := Step svc

/-! ## The law -/

/-- The second factor of the record, where it is on, was validated since the reset. -/
structure Renewed (st : State) (v : UserInfo) : Prop where
  authenticator : v.userTypeProprietaryInfo.mfa.enabled = true →
    v.userTypeProprietaryInfo.mfa.method = "authenticator" →
      ∃ w ∈ st.validated, w.secret = secretOf v
  sms : v.userTypeProprietaryInfo.mfa.enabled = true →
    v.userTypeProprietaryInfo.mfa.method = "sms" →
      ∃ first rest, v.userTypeProprietaryInfo.mobiles = first :: rest ∧
        ∃ pair ∈ st.numbers, pair.1 = first.number

/-- Every copy of the record, in the table and in the cache, has a second factor that was
validated since the reset. -/
def Forgotten (st : State) : Prop :=
  ∀ v ∈ (st.storage.population isSub).records, v.id = id → Renewed st v

/-- The update asks for a second factor of the record, with everything else about it in order. -/
structure Asks (s : Storage) (internal : Bool) (env : Surroundings) (r : Request) (c : Context)
    (asked found : UserInfo) (method : String) : Prop where
  admitted : RecordRequest.Admits svc s (endPointOf isSub) internal env r c
  put : r.method = .PUT
  reaches : ReachesMfa svc isSub c
    (authenticate svc ((endPointOf isSub).handler svc env internal) env.moment r s).2 asked found
  record : found.id = id
  asks : AsksFor c asked method

/-- An update that takes something over from before the reset. -/
inductive Reuses (st : State) : RecordRequest → Prop
  /-- The secret that the record had at the reset, for which no codes were shown since. -/
  | secret {internal : Bool} {env : Surroundings} {r : Request} {c : Context}
    {asked found : UserInfo}
    (h : Asks svc isSub id st.storage internal env r c asked found "authenticator")
    (hset : secretOf found ≠ "")
    (hold : ∃ u ∈ (st.atReset.population isSub).records, u.id = id ∧
      secretOf u = secretOf found)
    (hsince : ∀ w ∈ st.validated, w.secret ≠ secretOf found) :
    Reuses st (.rest (endPointOf isSub) internal env r)
  /-- A session of the caller that was finished by the reset, and not again since. -/
  | session {internal : Bool} {env : Surroundings} {r : Request} {c : Context}
    {asked found : UserInfo} {entry old : TotpEntry}
    (h : Asks svc isSub id st.storage internal env r c asked found "authenticator")
    (hempty : secretOf found = "") (hlookup : st.storage.totp.lookup c.caller.id = some entry)
    (hripe : Ripe c.moment.now false entry)
    (hold : st.atReset.totp.lookup c.caller.id = some old) (hdone : old.done ≠ 0)
    (hsame : old.secret = entry.secret) (hsince : ∀ w ∈ st.validated, w.secret ≠ entry.secret) :
    Reuses st (.rest (endPointOf isSub) internal env r)
  /-- A number that was validated for the caller by the reset, and for nobody since. -/
  | number {internal : Bool} {env : Surroundings} {r : Request} {c : Context}
    {asked found : UserInfo} {first : MobilePhoneNumber} {rest : List MobilePhoneNumber}
    {old : SMSValidationCacheEntry}
    (h : Asks svc isSub id st.storage internal env r c asked found "sms")
    (hmobiles : asked.userTypeProprietaryInfo.mobiles = first :: rest)
    (hvalid : st.storage.smsIsNumberValid svc first.number c.caller.email = true)
    (hold : old ∈ st.atReset.sms) (hdone : old.validated = true)
    (hsame : old.isFor first.number c.caller.email = true)
    (hsince : ∀ pair ∈ st.numbers, pair.1 ≠ first.number) :
    Reuses st (.rest (endPointOf isSub) internal env r)

/-- The step reuses nothing. -/
def Fresh (st : State) (event : Event) : Prop :=
  ∀ q, event = .request q → ¬ Reuses svc isSub id st q

end Law

/-! ## The invariant -/

section Invariant

variable {svc : Service} {isSub : Bool} {id : String} {st st' : State} {u v : UserInfo}

/-- The record had the secret at the reset, or codes were shown for it since. -/
def KnownSecret (isSub : Bool) (id : String) (st : State) (secret : String) : Prop :=
  (∃ u ∈ (st.atReset.population isSub).records, u.id = id ∧ secretOf u = secret) ∨
    ∃ w ∈ st.validated, w.secret = secret

/-- The second factor of the record is a new one, and its secret is known. -/
structure Known (isSub : Bool) (id : String) (st : State) (v : UserInfo) : Prop where
  renewed : Renewed st v
  secret : secretOf v ≠ "" → KnownSecret isSub id st (secretOf v)

/-- What is in use was validated since the reset, and what could be used was so or is from
before. -/
structure Traced (isSub : Bool) (id : String) (st : State) : Prop where
  records : ∀ v ∈ (st.storage.population isSub).records, v.id = id → Known isSub id st v
  sessions : ∀ k e, st.storage.totp.lookup k = some e → e.done ≠ 0 →
    (∃ old, st.atReset.totp.lookup k = some old ∧ old.done ≠ 0 ∧ old.secret = e.secret) ∨
      ∃ w ∈ st.validated, w.secret = e.secret
  numbers : ValidatedAmong st.atReset.sms st.storage.sms st.numbers

/-- Only the second factor matters. -/
theorem Known.congr (h : Known isSub id st u)
    (hfactor : v.userTypeProprietaryInfo = u.userTypeProprietaryInfo) : Known isSub id st v := by
  refine ⟨⟨?_, ?_⟩, ?_⟩
  · unfold secretOf
    rw [hfactor]
    exact h.renewed.authenticator
  · rw [hfactor]
    exact h.renewed.sms
  · unfold secretOf
    rw [hfactor]
    exact h.secret

/-- What is known stays so. -/
theorem Known.mono (h : Known isSub id st v) (hreset : st'.atReset = st.atReset)
    (hvalidated : ∀ w ∈ st.validated, w ∈ st'.validated)
    (hnumbers : ∀ pair ∈ st.numbers, pair ∈ st'.numbers) : Known isSub id st' v where
  renewed :=
    { authenticator := fun henabled hmethod ↦
        (h.renewed.authenticator henabled hmethod).imp fun w hw ↦ ⟨hvalidated w hw.1, hw.2⟩
      sms := fun henabled hmethod ↦ by
        obtain ⟨first, rest, hmobiles, pair, hpair, hsame⟩ := h.renewed.sms henabled hmethod
        exact ⟨first, rest, hmobiles, pair, hnumbers pair hpair, hsame⟩ }
  secret hset := by
    unfold KnownSecret
    rw [hreset]
    exact (h.secret hset).imp_right fun ⟨w, hw, hsame⟩ ↦ ⟨w, hvalidated w hw, hsame⟩

/-- A second factor that is off, with a known secret. -/
theorem Known.of_off (hoff : v.userTypeProprietaryInfo.mfa.enabled = false)
    (hsecret : secretOf v ≠ "" → KnownSecret isSub id st (secretOf v)) : Known isSub id st v where
  renewed :=
    { authenticator := fun henabled ↦ absurd (hoff.symm.trans henabled) Bool.noConfusion
      sms := fun henabled ↦ absurd (hoff.symm.trans henabled) Bool.noConfusion }
  secret := hsecret

/-- The e-mail, with a known secret. -/
theorem Known.of_email (hmethod : v.userTypeProprietaryInfo.mfa.method = "email")
    (hsecret : secretOf v ≠ "" → KnownSecret isSub id st (secretOf v)) : Known isSub id st v where
  renewed :=
    { authenticator := fun _ h ↦ absurd (hmethod.symm.trans h) (by decide)
      sms := fun _ h ↦ absurd (hmethod.symm.trans h) (by decide) }
  secret := hsecret

/-- Text messages to a new number, with a known secret. -/
theorem Known.of_sms {first : MobilePhoneNumber} {rest : List MobilePhoneNumber}
    (hmethod : v.userTypeProprietaryInfo.mfa.method = "sms")
    (hmobiles : v.userTypeProprietaryInfo.mobiles = first :: rest)
    (hnumber : ∃ pair ∈ st.numbers, pair.1 = first.number)
    (hsecret : secretOf v ≠ "" → KnownSecret isSub id st (secretOf v)) : Known isSub id st v where
  renewed :=
    { authenticator := fun _ h ↦ absurd (hmethod.symm.trans h) (by decide)
      sms := fun _ _ ↦ ⟨first, rest, hmobiles, hnumber⟩ }
  secret := hsecret

/-- An authenticator with a new secret. -/
theorem Known.of_validated (hmethod : v.userTypeProprietaryInfo.mfa.method = "authenticator")
    (hsecret : ∃ w ∈ st.validated, w.secret = secretOf v) : Known isSub id st v where
  renewed :=
    { authenticator := fun _ _ ↦ hsecret
      sms := fun _ h ↦ absurd (hmethod.symm.trans h) (by decide) }
  secret _ := .inr hsecret

/-- As an invariant of records. -/
def invariant (isSub : Bool) (id : String) (st : State) : RecordInvariant where
  record b v := b = isSub → v.id = id → Known isSub id st v
  enrolment _ _ := True
  insensitive _ u v hcore hu hb hid := by
    have hsame : v.id = u.id := congrArg RecordCore.id hcore
    have hfactor : v.userTypeProprietaryInfo = u.userTypeProprietaryInfo :=
      congrArg RecordCore.userTypeProprietaryInfo hcore
    exact (hu hb (hsame ▸ hid)).congr hfactor

theorem Traced.satisfies (h : Traced isSub id st) :
    st.storage.Satisfies (invariant isSub id st) where
  records _ v hv hb hid := h.records v (hb ▸ hv) hid
  enrolments _ _ _ := trivial

end Invariant

/-! ## Updates of the record -/

section Updates

variable {svc : Service} {isSub : Bool} {id : String} {st : State} {internal : Bool}
  {env : Surroundings} {r : Request} {c : Context} {v : UserInfo}

/-- A number that is valid has an entry that was validated. -/
theorem validated_of_isNumberValid {s : Storage} {number userName : String}
    (h : s.smsIsNumberValid svc number userName = true) :
    ∃ e ∈ s.sms, e.validated = true ∧ e.number = number ∧ e.userName = userName := by
  unfold Storage.smsIsNumberValid at h
  split at h
  · split at h
    · rename_i e he
      have hfor := List.find?_some he
      rw [Bool.and_eq_true, beq_iff_eq, beq_iff_eq] at hfor
      exact ⟨e, List.mem_of_find?_eq_some he, h, hfor.1, hfor.2⟩
    · cases h
  · cases h

/-- What an update that reuses nothing writes is known. -/
theorem known_of_rewrites (h : Traced isSub id st)
    (hnot : ¬ Reuses svc isSub id st (.rest (endPointOf isSub) internal env r))
    (hadmitted : RecordRequest.Admits svc st.storage (endPointOf isSub) internal env r c)
    (hput : r.method = .PUT) (hid : v.id = id)
    (hv : Rewrites svc isSub c (authenticate svc ((endPointOf isSub).handler svc env internal)
      env.moment r st.storage).2 v) : Known isSub id st v := by
  have htotp : (authenticate svc ((endPointOf isSub).handler svc env internal) env.moment r
      st.storage).2.totp = st.storage.totp := Storage.totp_authenticate _ _ _
  have hsms : (authenticate svc ((endPointOf isSub).handler svc env internal) env.moment r
      st.storage).2.sms = st.storage.sms := Storage.sms_authenticate _ _ _
  have hauth : (authenticate svc ((endPointOf isSub).handler svc env internal) env.moment r
      st.storage).2.Satisfies (invariant isSub id st) := h.satisfies.authenticate _ _ _
  have hrecords := hauth.records isSub
  cases hv with
  | @reset found hasks hlookup hsame =>
    have hfound := hrecords found (Population.getUserById_mem svc hlookup) rfl
      (hsame.id.symm.trans hid)
    refine .of_off (by rw [hsame.factor]; rfl) ?_
    have hsecret : secretOf v = secretOf found := by
      unfold secretOf
      rw [hsame.factor]
      rfl
    rw [hsecret]
    exact hfound.secret
  | @update asked found hreaches hvid hfactor =>
    have hfid : found.id = id := hvid.symm.trans hid
    have hmem : found ∈ ((authenticate svc ((endPointOf isSub).handler svc env internal)
        env.moment r st.storage).2.population isSub).records := by
      cases isSub with
      | false => exact Population.getUserById_mem svc hreaches.lookup
      | true => exact Population.getUserById_mem svc hreaches.lookup
    have hfound : Known isSub id st found := hrecords found hmem rfl hfid
    have hasks {method : String} (h : AsksFor c asked method) :
        Asks svc isSub id st.storage internal env r c asked found method :=
      ⟨hadmitted, hput, hreaches, hfid, h⟩
    generalize he : v.userTypeProprietaryInfo = e at hfactor
    have hsecret : secretOf v = e.authenticatorSecret := congrArg _ he
    cases hfactor with
    | kept => exact hfound.congr he
    | off => exact .of_off (by rw [he]) fun hset ↦ absurd hsecret hset
    | email => exact .of_email (by rw [he]) fun hset ↦ absurd hsecret hset
    | @sms first rest hsms' hmobiles hvalid =>
      refine .of_sms (by rw [he]) (by rw [he]) ?_ fun hset ↦ absurd hsecret hset
      rw [smsIsNumberValid_congr hsms] at hvalid
      obtain ⟨entry, hentry, hdone, hnumber, huser⟩ := validated_of_isNumberValid hvalid
      rcases h.numbers entry hentry hdone with ⟨old, hold, hdone', hnumber', huser'⟩ | hpair
      · by_contra hsince
        have hsame : old.isFor first.number c.caller.email = true := by
          unfold SMSValidationCacheEntry.isFor
          rw [hnumber', huser', hnumber, huser, beq_self_eq_true, beq_self_eq_true]
          rfl
        exact hnot (.number (hasks hsms') hmobiles hvalid hold hdone' hsame
          fun pair hpair hsame ↦ hsince ⟨pair, hpair, hsame⟩)
      · exact ⟨_, hpair, hnumber⟩
    | oldSecret hasked hset =>
      refine .of_validated (by rw [he]) ?_
      rw [hsecret]
      rcases hfound.secret hset with hold | hnew
      · by_contra hsince
        exact hnot (.secret (hasks hasked) hset hold fun w hw hsame ↦ hsince ⟨w, hw, hsame⟩)
      · exact hnew
    | @newSecret entry hasked hempty hlookup hripe =>
      refine .of_validated (by rw [he]) ?_
      rw [hsecret]
      rw [htotp] at hlookup
      rcases h.sessions _ _ hlookup hripe.finished with ⟨old, hold, hdone, hsame⟩ | hnew
      · by_contra hsince
        exact hnot (.session (hasks hasked) hempty hlookup hripe hold hdone hsame
          fun w hw hsame ↦ hsince ⟨w, hw, hsame⟩)
      · exact hnew

/-- An update of a user or of a subscriber. -/
theorem known_update (h : Traced isSub id st) (b : Bool)
    (hnot : ¬ Reuses svc isSub id st (.rest (endPointOf b) internal env r))
    (hput : r.method = .PUT) :
    ∀ v ∈ ((RecordRequest.run svc st.storage
      (.rest (endPointOf b) internal env r)).population isSub).records,
        v.id = id → Known isSub id st v := by
  have hauth : (authenticate svc ((endPointOf b).handler svc env internal) env.moment r
      st.storage).2.Satisfies (invariant isSub id st) := h.satisfies.authenticate _ _ _
  refine handleRequest_rule svc ((endPointOf b).handler svc env internal) env.moment
    env.rateExceeded r
    (P := fun _ s' ↦ ∀ v ∈ (s'.population isSub).records, v.id = id → Known isSub id st v)
    (fun c hacceptable hgranted hrequest hrouter hmoment ↦ ?_) ?_
  · have hadmitted : RecordRequest.Admits svc st.storage (endPointOf b) internal env r c :=
      ⟨hacceptable, hgranted, hrequest, hrouter, hmoment⟩
    have hknown (s' : Storage) (h' : OnlyRewrites svc b c
        (authenticate svc ((endPointOf b).handler svc env internal) env.moment r st.storage).2 s') :
        ∀ v ∈ (s'.population isSub).records, v.id = id → Known isSub id st v := by
      intro v hv hid
      rcases h' isSub v hv with hold | ⟨rfl, hrewrites⟩
      · exact hauth.records isSub v hold rfl hid
      · exact known_of_rewrites h hnot hadmitted hput hid hrewrites
    have hm : c.request.method = .PUT := hrequest ▸ hput
    unfold dispatch
    simp only [hm]
    cases b with
    | false =>
      exact Command.wp_mono onlyRewrites_putUser (fun _ s' ↦ hknown s') fun _ s' ↦ hknown s'
    | true =>
      exact Command.wp_mono onlyRewrites_putSubscriber (fun _ s' ↦ hknown s') fun _ s' ↦ hknown s'
  · rintro _ s' - (rfl | rfl) v hv hid
    · exact h.records v hv hid
    · exact hauth.records isSub v hv rfl hid

end Updates

/-! ## Other requests -/

section Others

variable {svc : Service} {isSub : Bool} {id : String} {st : State} {internal : Bool}
  {env : Surroundings} {r : Request}

/-- What a choice of a subscriber writes is known, with the number that the answer reports. -/
theorem known_of_chosen {s : Storage} {answer : Response} {v : UserInfo}
    (hs : s.Satisfies (invariant true id st)) (hid : v.id = id)
    (hv : SubMfaHandler.Chosen s answer v)
    (hnumber : ∀ pair, numberOf answer = some pair → pair ∈ st.numbers) :
    Known true id st v := by
  -- the record that is edited has a known secret, if any
  have hsecret {u : UserInfo} (hu : u ∈ (s.population true).records ∨ u = {}) (huid : u.id = id) :
      secretOf u ≠ "" → KnownSecret true id st (secretOf u) := by
    rcases hu with hu | rfl
    · exact (hs.records true u hu rfl huid).secret
    · exact fun hset ↦ absurd rfl hset
  cases hv with
  | @disabled u hu heq =>
    subst heq
    exact .of_off rfl (hsecret (u := u) hu hid)
  | @byEmail u hu heq =>
    subst heq
    exact .of_email rfl (hsecret (u := u) hu hid)
  | @bySms u _ _ hu heq hanswer =>
    subst heq
    exact .of_sms rfl rfl ⟨_, hnumber _ hanswer, rfl⟩ (hsecret (u := u) hu hid)

/-- A choice of a subscriber leaves known records, and validates what it says. -/
theorem known_choice (h : Traced isSub id st) (hput : r.method = .PUT) :
    (∀ v ∈ ((RecordRequest.run svc st.storage (.rest .submfa internal env r)).population
        isSub).records, v.id = id →
      Known isSub id (st.request svc (.rest .submfa internal env r)) v) ∧
    ValidatedAmong st.storage.sms
      (RecordRequest.run svc st.storage (.rest .submfa internal env r)).sms
      (validatesNumber svc st.storage (.rest .submfa internal env r)).toList := by
  have hlogged : validatesNumber svc st.storage (.rest .submfa internal env r) =
      numberOf (reply svc st.storage .submfa internal env r) := if_pos hput
  have hauth : (authenticate svc (submfaHandler svc env.gateway internal) env.moment r
      st.storage).2.Satisfies (invariant isSub id st) := h.satisfies.authenticate _ _ _
  have hsms : (authenticate svc (submfaHandler svc env.gateway internal) env.moment r
      st.storage).2.sms = st.storage.sms := Storage.sms_authenticate _ _ _
  -- what was known stays so with the number of the answer
  have hmono (answer : Response) {v : UserInfo} (hv : Known isSub id st v) :
      Known isSub id { st with numbers := st.numbers ++ (numberOf answer).toList } v :=
    hv.mono rfl (fun _ hw ↦ hw) fun _ hpair ↦ List.mem_append_left _ hpair
  have hrun := handleRequest_rule svc (submfaHandler svc env.gateway internal) env.moment
    env.rateExceeded r (s := st.storage)
    (P := fun a s' ↦ (∀ v ∈ (s'.population isSub).records, v.id = id →
        Known isSub id { st with numbers := st.numbers ++ (numberOf a).toList } v) ∧
      ValidatedAmong st.storage.sms s'.sms (numberOf a).toList)
    (fun c _ _ hrequest _ _ ↦ ?_) ?_
  · refine ⟨fun v hv hid ↦ (hrun.1 v hv hid).mono rfl
      (fun _ hw ↦ List.mem_append_left _ hw) fun pair hpair ↦ ?_, ?_⟩
    · show pair ∈ st.numbers ++
        (validatesNumber svc st.storage (.rest .submfa internal env r)).toList
      rw [hlogged]
      exact hpair
    · rw [hlogged]
      exact hrun.2
  · have hm : c.request.method = .PUT := hrequest ▸ hput
    have hchoice (a : Response) (s' : Storage) (h' : SubMfaHandler.Choice
        (authenticate svc (submfaHandler svc env.gateway internal) env.moment r st.storage).2 a s') :
        (∀ v ∈ (s'.population isSub).records, v.id = id →
          Known isSub id { st with numbers := st.numbers ++ (numberOf a).toList } v) ∧
        ValidatedAmong st.storage.sms s'.sms (numberOf a).toList := by
      refine ⟨fun v hv hid ↦ ?_, hsms ▸ h'.numbers⟩
      rcases h'.records isSub v hv with hold | ⟨rfl, hchosen⟩
      · exact hmono a (hauth.records isSub v hold rfl hid)
      · have hlater : (authenticate svc (submfaHandler svc env.gateway internal) env.moment r
            st.storage).2.Satisfies (invariant true id
              { st with numbers := st.numbers ++ (numberOf a).toList }) :=
          ⟨fun b u hu hb huid ↦ hmono a (hauth.records b u hu hb huid), fun _ _ _ ↦ trivial⟩
        refine known_of_chosen hlater hid hchosen fun pair hpair ↦ ?_
        show pair ∈ st.numbers ++ (numberOf a).toList
        rw [hpair]
        exact List.mem_append_right _ (List.mem_singleton_self pair)
    unfold dispatch
    simp only [hm]
    exact Command.wp_mono SubMfaHandler.wp_doPut_choice hchoice hchoice
  · rintro a s' - (rfl | rfl)
    · exact ⟨fun v hv hid ↦ hmono a (h.records v hv hid), .of_subset fun _ he ↦ he⟩
    · exact ⟨fun v hv hid ↦ hmono a (hauth.records isSub v hv rfl hid),
        .of_subset fun _ he ↦ hsms ▸ he⟩

/-- Any other request leaves known records. -/
theorem known_other (h : Traced isSub id st) {q : RecordRequest}
    (hq : ∀ e internal env r, q = .rest e internal env r → r.method = .PUT →
      e ≠ .user ∧ e ≠ .subuser ∧ e ≠ .submfa) :
    ∀ v ∈ ((q.run svc st.storage).population isSub).records, v.id = id → Known isSub id st v := by
  have hpassword {b : Bool} {salt : String} {allowed : String → Prop} :
      KeptByPassword svc (invariant isSub id st) b salt allowed := by
    intro u v password hu _ hset
    rw [setPassword_applied svc hset]
    exact fun hb hid ↦ (hu hb hid).congr rfl
  have hcreation {b : Bool} {m : Moment} {body : UserInfo} :
      KeptByCreation svc (invariant isSub id st) b m body := by
    intro new hnew _ _
    have hfactor : (Population.newRecord svc m new).userTypeProprietaryInfo = {} :=
      (Population.newRecord_factor svc m new).trans hnew.noMfa
    refine .of_off (by rw [hfactor]) fun hset ↦ absurd ?_ hset
    unfold secretOf
    rw [hfactor]
  suffices hsatisfies : (q.run svc st.storage).Satisfies (invariant isSub id st) from
    fun v hv hid ↦ hsatisfies.records isSub v hv rfl hid
  refine RecordRequest.satisfies_run h.satisfies ?_
  cases q with
  | rest e internal env r =>
    intro c hc
    have hmethod (hm : c.request.method = .PUT) : e ≠ .user ∧ e ≠ .subuser ∧ e ≠ .submfa :=
      hq e internal env r rfl (hc.request ▸ hm)
    cases e with
    | user => exact ⟨fun _ _ _ ↦ hcreation, fun hm ↦ absurd rfl (hmethod hm).1⟩
    | subuser => exact ⟨fun _ _ _ ↦ hcreation, fun hm ↦ absurd rfl (hmethod hm).2.1⟩
    | signup => exact fun _ _ _ _ _ _ ↦ .of_off rfl fun hset ↦ absurd rfl hset
    | submfa => exact fun hm ↦ absurd rfl (hmethod hm).2.2
    | totp => exact ⟨trivial, fun _ _ _ _ ↦ trivial, fun _ _ _ ↦ trivial⟩
    | subtotp => exact ⟨trivial, fun _ _ _ _ ↦ trivial, fun _ _ _ ↦ trivial⟩
  | login isSub' x challenges r => exact fun _ _ _ _ ↦ hpassword
  | link x req => exact fun _ _ _ _ hup hu ↦ kept_of_updates hup (fun _ ↦ hpassword) hpassword hu

/-- A request validates the numbers that it says, and no others. -/
theorem validatedAmong_request (h : Traced isSub id st) (q : RecordRequest) :
    ValidatedAmong st.storage.sms (q.run svc st.storage).sms
      (validatesNumber svc st.storage q).toList := by
  by_cases hq : ∀ internal env r, q ≠ .rest .submfa internal env r
  · rw [RecordRequest.numbers_kept hq]
    exact .of_subset fun _ he ↦ he
  · simp only [not_forall, not_not] at hq
    obtain ⟨internal, env, r, rfl⟩ := hq
    by_cases hput : r.method = .PUT
    · exact (known_choice h hput).2
    · -- the other methods validate nothing
      suffices hsame : (RecordRequest.run svc st.storage (.rest .submfa internal env r)).sms =
          st.storage.sms from hsame ▸ .of_subset fun _ he ↦ he
      refine handleRequest_rule svc (submfaHandler svc env.gateway internal) env.moment
        env.rateExceeded r (P := fun _ s' ↦ s'.sms = st.storage.sms) (fun c _ _ hrequest _ _ ↦ ?_) ?_
      · have hsms : (authenticate svc (submfaHandler svc env.gateway internal) env.moment r
            st.storage).2.sms = st.storage.sms := Storage.sms_authenticate _ _ _
        have hm : c.request.method ≠ .PUT := fun hm ↦ hput (hrequest ▸ hm)
        rw [← hsms]
        unfold dispatch
        cases hmethod : c.request.method with
        | PUT => exact absurd hmethod hm
        | GET =>
          exact Command.wp_mono (@SubMfaHandler.leaves_doGet svc _ c "") (fun _ _ h' ↦ h'.2)
            fun _ _ h' ↦ h'.2
        | POST | DELETE | OPTIONS | other => exact rfl
      · rintro _ s' - (rfl | rfl)
        · rfl
        · exact Storage.sms_authenticate _ _ _

end Others

/-! ## Steps -/

section Steps

variable {svc : Service} {isSub : Bool} {id : String} {st st' : State}

/-- Every request that reuses nothing leaves known records. -/
theorem known_request (h : Traced isSub id st) {q : RecordRequest}
    (hnot : ¬ Reuses svc isSub id st q) :
    ∀ v ∈ ((q.run svc st.storage).population isSub).records, v.id = id →
      Known isSub id (st.request svc q) v := by
  -- the logs only grow
  have hmono {v : UserInfo} (hv : Known isSub id st v) : Known isSub id (st.request svc q) v :=
    hv.mono rfl (fun _ hw ↦ List.mem_append_left _ hw) fun _ hpair ↦ List.mem_append_left _ hpair
  by_cases hq : ∀ e internal env r, q = .rest e internal env r → r.method = .PUT →
      e ≠ .user ∧ e ≠ .subuser ∧ e ≠ .submfa
  · exact fun v hv hid ↦ hmono (known_other h hq v hv hid)
  · simp only [not_forall] at hq
    obtain ⟨e, internal, env, r, rfl, hput, he⟩ := hq
    cases e with
    | user => exact fun v hv hid ↦ hmono (known_update h false hnot hput v hv hid)
    | subuser => exact fun v hv hid ↦ hmono (known_update h true hnot hput v hv hid)
    | submfa => exact (known_choice h hput).1
    | signup | totp | subtotp =>
      exact absurd ⟨EndPoint.noConfusion, EndPoint.noConfusion, EndPoint.noConfusion⟩ he

/-- A request that reuses nothing keeps the invariant. -/
theorem Traced.request (h : Traced isSub id st) {q : RecordRequest}
    (hnot : ¬ Reuses svc isSub id st q) : Traced isSub id (st.request svc q) where
  records := known_request h hnot
  sessions k e hlookup hdone := by
    rcases TotpEnrolment.finished_run hlookup hdone with ⟨e₁, he₁, hdone₁, -, hsecret₁⟩ | hnew
    · rw [← hsecret₁]
      exact (h.sessions k e₁ he₁ hdone₁).imp_right fun ⟨w, hw, hsame⟩ ↦
        ⟨w, List.mem_append_left _ hw, hsame⟩
    · refine .inr ⟨{ subscriber := e.subscriber, id := k, secret := e.secret }, ?_, rfl⟩
      refine List.mem_append_right _ ?_
      rw [hnew]
      exact List.mem_singleton_self _
  numbers := h.numbers.trans (validatedAmong_request h q)

/-- One step keeps the invariant. -/
theorem Traced.step {event : Event} (h : Traced isSub id st) (hstep : Step svc st event st')
    (hfresh : Fresh svc isSub id st event) : Traced isSub id st' := by
  cases hstep with
  | request q => exact h.request (hfresh q rfl)
  | startNumber gateway now number userName =>
    refine ⟨fun v hv hid ↦ ?_, fun k e hlookup ↦ ?_, ?_⟩
    · have hold : v ∈ (st.storage.population isSub).records := by
        rw [← population_smsStartValidation gateway now isSub]
        exact hv
      exact (h.records v hold hid).mono rfl (fun _ hw ↦ hw) fun _ hpair ↦ hpair
    · exact h.sessions k e ((Storage.totp_smsStartValidation gateway now number userName) ▸ hlookup)
    · have hstart : ValidatedAmong st.storage.sms
          (st.storage.smsStartValidation svc gateway now number userName).2.sms [] :=
        validatedAmong_start gateway now []
      have hnone := h.numbers.trans hstart
      rw [List.append_nil] at hnone
      exact hnone
  | completeNumber number code userName =>
    refine ⟨fun v hv hid ↦ ?_, fun k e hlookup ↦ ?_, h.numbers.trans validatedAmong_complete⟩
    · have hold : v ∈ (st.storage.population isSub).records := by
        rw [← population_smsCompleteValidation isSub]
        exact hv
      exact (h.records v hold hid).mono rfl (fun _ hw ↦ hw)
        fun _ hpair ↦ List.mem_append_left _ hpair
    · exact h.sessions k e ((Storage.totp_smsCompleteValidation number code userName) ▸ hlookup)
  | elsewhere hno hsms =>
    refine ⟨fun v hv hid ↦ ?_, fun k e hlookup ↦ h.sessions k e (hno.totp _ _ hlookup), ?_⟩
    · obtain ⟨u, hu, hcore⟩ := hno.records isSub v hv
      have hsame : v.id = u.id := congrArg RecordCore.id hcore
      have hfactor : v.userTypeProprietaryInfo = u.userTypeProprietaryInfo :=
        congrArg RecordCore.userTypeProprietaryInfo hcore
      exact ((h.records u hu (hsame ▸ hid)).congr hfactor).mono rfl (fun _ hw ↦ hw)
        fun _ hpair ↦ hpair
    · exact fun e he ↦ h.numbers e (hsms e he)

end Steps

/-! ## The start -/

section Start

variable {svc : Service} {isSub : Bool} {id : String} {s : Storage} {internal : Bool}
  {env : Surroundings} {r : Request}

/-- A reset turns the second factor off in every copy of the record. -/
theorem mfaOff_reset (hs : s.Coherent) (h : Resets svc isSub id s internal env r) :
    MfaOff isSub id (RecordRequest.run svc s (.rest (endPointOf isSub) internal env r)) := by
  have hsub : ((endPointOf isSub).handler svc env internal).subOnlyService = false := by
    cases isSub <;> rfl
  have hauth := coherent_authenticate svc (m := env.moment) (r := r) hs hsub
  refine handleRequest_rule svc ((endPointOf isSub).handler svc env internal) env.moment
    env.rateExceeded r (P := fun a s' ↦ a.refused = false → MfaOff isSub id s')
    (fun c _ _ hrequest _ _ ↦ ?_) (fun a _ ha _ h ↦ absurd (ha.symm.trans h) Bool.noConfusion)
    h.answered
  have hm : c.request.method = .PUT := hrequest ▸ h.put
  have hasks : AsksReset c.request := hrequest ▸ h.asks
  have htarget : c.request.getBinding "id" = id := hrequest ▸ h.target
  unfold dispatch
  simp only [hm]
  rw [← htarget]
  cases isSub with
  | false => exact mfaOff_putUser (hauth false) hasks
  | true => exact mfaOff_putSubscriber (hauth true) hasks

/-- Right after the reset everything is from before. -/
theorem traced_afterReset (hs : (Storage.system svc).Reachable s)
    (h : Resets svc isSub id s internal env r) :
    Traced isSub id
      (.afterReset (RecordRequest.run svc s (.rest (endPointOf isSub) internal env r))) where
  records v hv hid :=
    .of_off (mfaOff_reset (Storage.coherent_of_reachable svc hs) h v hv hid)
      fun _ ↦ .inl ⟨v, hv, hid, rfl⟩
  sessions _ e he hdone := .inl ⟨e, he, hdone, rfl⟩
  numbers := .of_subset fun _ he ↦ he

/-- In every run after a reset in which no update reuses anything from before, the second factor
of the record is a new one. -/
theorem forgotten_of_run {st : State}
    (h : ((system svc isSub id).restrict (Fresh svc isSub id)).Reachable st) :
    Forgotten isSub id st := by
  have htraced : Traced isSub id st := by
    refine h.invariant ?_ fun _ _ _ htraced hstep ↦ htraced.step hstep.1 hstep.2
    rintro _ ⟨s, internal, env, r, hs, hreset, rfl⟩
    exact traced_afterReset hs hreset
  exact fun v hv hid ↦ (htraced.records v hv hid).renewed

end Start

/-! ## Two resets

The root user resets its own second factor and asks for an authenticator again. -/

/-- The reset. -/
def sampleReset : Request where
  method := .PUT
  bearer := some "token-root"
  bindings := [("id", "root-1")]
  parameters := [("resetMFA", "true")]

/-- A storage after the reset. -/
def sampleAfterReset (s : Storage) : State :=
  .afterReset (RecordRequest.run .sample s (.rest .user false (.sample 1700000000 "a") sampleReset))

theorem init_sampleAfterReset {s : Storage} (hs : s.AtStart)
    (h : (reply .sample s .user false (.sample 1700000000 "a") sampleReset).refused = false) :
    (system .sample false "root-1").init (sampleAfterReset s) :=
  ⟨s, false, .sample 1700000000 "a", sampleReset, .init hs, ⟨rfl, rfl, rfl, h⟩, rfl⟩

/-- The state after a reset and a new enrolment. -/
def sampleEnrolled : State :=
  (((sampleAfterReset TotpEnrolment.sampleStorage).request .sample
    (TotpEnrolment.sampleRequest .totp .GET 1700000000 {})).request .sample
    (TotpEnrolment.sampleRequest .totp .PUT 1700000010
      { parameters := [("value", "732303"), ("index", "1")] })).request .sample
    (TotpEnrolment.sampleRequest .totp .PUT 1700000045
      { parameters := [("value", "136087"), ("index", "2")] })

/-- Only updates reuse anything. -/
theorem not_reuses_of_ne {svc : Service} {isSub : Bool} {id : String} {st : State} {e : EndPoint}
    {internal : Bool} {env : Surroundings} {r : Request} (he : e ≠ endPointOf isSub) :
    ¬ Reuses svc isSub id st (.rest e internal env r) := by
  intro h
  generalize hq : RecordRequest.rest e internal env r = q at h
  cases h with
  | secret | session | number => exact he (RecordRequest.rest.inj hq).1

/-- The enrolment is a new one. -/
theorem not_reuses_sampleUpdate :
    ¬ Reuses .sample false "root-1" sampleEnrolled (TotpEnrolment.sampleUpdate "root-1") := by
  intro h
  generalize hq : TotpEnrolment.sampleUpdate "root-1" = q at h
  cases h with
  | @secret internal env r c asked found h hset hold hsince =>
    obtain ⟨-, rfl, rfl, rfl⟩ := RecordRequest.rest.inj hq
    have hlookup := congrArg (Option.map secretOf) h.reaches.lookup
    rw [h.admitted.request] at hlookup
    exact hset (Option.some.inj hlookup).symm
  | session h hempty hlookup hripe hold => cases hold
  | number h hmobiles hvalid => cases hvalid

theorem reachable_sampleEnrolled :
    ((system .sample false "root-1").restrict (Fresh .sample false "root-1")).Reachable
      sampleEnrolled := by
  have hstart : TotpEnrolment.sampleStorage.AtStart := by
    intro isSub
    cases isSub <;> exact ⟨rfl, rfl, rfl⟩
  have hreset : ((system .sample false "root-1").restrict (Fresh .sample false "root-1")).Reachable
      (sampleAfterReset TotpEnrolment.sampleStorage) :=
    .init (init_sampleAfterReset hstart (by decide))
  have hfresh (st : State) (method : Method) (now : ℕ) (r : Request) :
      Fresh .sample false "root-1" st (.request (TotpEnrolment.sampleRequest .totp method now r)) := by
    rintro q ⟨⟩
    exact not_reuses_of_ne EndPoint.noConfusion
  exact ((hreset.step ⟨.request _, hfresh _ _ _ _⟩).step ⟨.request _, hfresh _ _ _ _⟩).step
    ⟨.request _, hfresh _ _ _ _⟩

/-- With a new enrolment the authenticator is on again. -/
theorem forgotten_of_run_sample :
    (sampleEnrolled.request .sample (TotpEnrolment.sampleUpdate "root-1")).storage.user.users.rows.map
        (fun u ↦ (u.userTypeProprietaryInfo.mfa.method, secretOf u)) =
        [("authenticator", "12345678901234567890"), ("", "")] ∧
      Forgotten false "root-1"
        (sampleEnrolled.request .sample (TotpEnrolment.sampleUpdate "root-1")) :=
  ⟨by decide, forgotten_of_run (reachable_sampleEnrolled.step ⟨.request _, fun _ heq ↦ by
    cases heq
    exact not_reuses_sampleUpdate⟩)⟩

/-- A root user with an authenticator. -/
def sampleWithSecret : Storage where
  user :=
    { users :=
        { rows := [{ id := "root-1", email := "root@example.com", userRole := .ROOT,
                     userTypeProprietaryInfo :=
                       { mobiles := [], mfa := { enabled := true, method := "authenticator" }
                         authenticatorSecret := "12345678901234567890" } }]
          nodup := by decide }
      tokens := TotpEnrolment.sampleStorage.user.tokens }

/-- After a reset the authenticator is asked for, with no codes. -/
def sampleReused : State :=
  (sampleAfterReset sampleWithSecret).request .sample (TotpEnrolment.sampleUpdate "root-1")

/-- The authenticator is on again, with the secret from before the reset. -/
theorem old_secret_after_reset :
    (system .sample false "root-1").Reachable sampleReused ∧ sampleReused.validated = [] ∧
      sampleReused.storage.user.users.rows.map
        (fun u ↦ (u.userTypeProprietaryInfo.mfa.enabled, u.userTypeProprietaryInfo.mfa.method,
          secretOf u)) = [(true, "authenticator", "12345678901234567890")] ∧
      ¬ Forgotten false "root-1" sampleReused := by
  have hstart : sampleWithSecret.AtStart := by
    intro isSub
    cases isSub <;> exact ⟨rfl, rfl, rfl⟩
  have hreset : (system .sample false "root-1").Reachable (sampleAfterReset sampleWithSecret) :=
    .init (init_sampleAfterReset hstart (by decide))
  refine ⟨hreset.step (.request _), by decide, by decide, fun hforgotten ↦ ?_⟩
  have hrow : ∃ v ∈ sampleReused.storage.user.users.rows, v.id = "root-1" ∧
      v.userTypeProprietaryInfo.mfa = { enabled := true, method := "authenticator" } := by decide
  obtain ⟨v, hv, hid, hmfa⟩ := hrow
  obtain ⟨w, hw, -⟩ := (hforgotten v (.inl hv) hid).authenticator (by rw [hmfa]) (by rw [hmfa])
  have hnone : sampleReused.validated = [] := by decide
  rw [hnone] at hw
  cases hw

end FactorReset

end OwSec
