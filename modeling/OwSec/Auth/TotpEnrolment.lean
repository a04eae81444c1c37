import OwSec.Kit.Run
import OwSec.RestApi.SessionFrame

/-!
# Enrolling an authenticator

An authenticator is enrolled at one end point and put into a record at another.  `/totp` and
`/subtotp` take two codes and keep the finished session of the caller, with a flag that says
which of the two it was; a PUT of the record then asks for the second factor `authenticator` and
takes the secret of the session over.

Between the two the session is addressed by the identifier of the caller and the flag.  Both
handlers of records ask for the session of the caller with the flag of the users, whatever record
is updated.  So the secret of a user ends up in any record that this user updates while it is
waiting, and a session of the other end point is not found at all: these are the two cases of
`Misused`.  Apart from them an enrolment ends in the account that showed the codes, and nowhere
else.
-/

namespace OwSec

open SecurityObjects Kit RestApi ACLProcessor

namespace TotpEnrolment

/-- An account that has shown both codes of a secret. -/
structure Validation where
  subscriber : Bool
  id : String
  secret : String
  deriving DecidableEq

section Law

variable (svc : Service)

/-- The flag with which an end point enrols. -/
def enrolsAs : EndPoint → Option Bool
  | .totp => some false
  | .subtotp => some true
  | _ => none

/-- The end point of the records of a population. -/
def endPointOf : Bool → EndPoint
  | false => .user
  | true => .subuser

/-- What a request over REST is answered. -/
def reply (s : Storage) (e : EndPoint) (internal : Bool) (env : Surroundings) (r : Request) :
    Response :=
  (handleRequest svc (e.handler svc env internal) env.moment env.rateExceeded r s).1

/-- The validation that an answer completes for the caller: it says that no more codes are
needed. -/
def validationOf (t : Cache String TotpEntry) : Option Bool → Response → Option String →
    Option Validation
  | some subscriber, .totpProgress _ false, some id =>
    (t.lookup id).map fun entry ↦ { subscriber, id, secret := entry.secret }
  | _, _, _ => none

/-- The validation that a request completes. -/
def completes (s : Storage) (q : RecordRequest) : Option Validation :=
  match q with
  | .rest e internal env r =>
    validationOf s.totp (enrolsAs e) (reply svc s e internal env r) (q.callerId svc s)
  | _ => none

/-- The session of an account is finished. -/
structure Finished (s : Storage) (subscriber : Bool) (id : String) (entry : TotpEntry) : Prop where
  lookup : s.totp.lookup id = some entry
  kind : entry.subscriber = subscriber
  done : entry.done ≠ 0

/-- The secret in a record. -/
def secretOf (u : UserInfo) : String := u.userTypeProprietaryInfo.authenticatorSecret

/-- The update asks for an authenticator in a record without a secret, everything else about it
is in order, and the caller has a finished session. -/
structure Enables (s : Storage) (isSub internal : Bool) (env : Surroundings) (r : Request)
    (c : Context) (asked found : UserInfo) (entry : TotpEntry) : Prop where
  admitted : RecordRequest.Admits svc s (endPointOf isSub) internal env r c
  put : r.method = .PUT
  reaches : ReachesMfa svc isSub c
    (authenticate svc ((endPointOf isSub).handler svc env internal) env.moment r s).2 asked found
  present : (r.body.parsed.getD []).has "userTypeProprietaryInfo" = true
  enabled : asked.userTypeProprietaryInfo.mfa.enabled = true
  method : asked.userTypeProprietaryInfo.mfa.method = "authenticator"
  noSecret : secretOf found = ""
  session : s.totp.lookup c.caller.id = some entry
  finished : entry.done ≠ 0

/-- The record that is found is the caller's own. -/
structure Own (c : Context) (found : UserInfo) : Prop where
  target : c.request.getBinding "id" = c.caller.id
  found : found.id = c.caller.id

/-- The codes were shown less than a quarter of an hour ago. -/
def Recent (now : ℕ) (entry : TotpEntry) : Prop := now < entry.done + 15 * 60

/-- The session was started less than a quarter of an hour ago, as the service counts. -/
def Open (now : ℕ) (entry : TotpEntry) : Prop := u64 (now + 2 ^ 64 - entry.start) < 15 * 60

/-- An update for which the handlers ask for the wrong session, or too late. -/
inductive Misused (s : Storage) : RecordRequest → Prop
  /-- The session of a user, for a record of another account. -/
  | foreign {isSub internal : Bool} {env : Surroundings} {r : Request} {c : Context}
    {asked found : UserInfo} {entry : TotpEntry}
    (h : Enables svc s isSub internal env r c asked found entry)
    (hkind : entry.subscriber = false) (hopen : Open env.moment.now entry)
    (hother : isSub = true ∨ found.id ≠ c.caller.id) :
    Misused s (.rest (endPointOf isSub) internal env r)
  /-- The session of a subscriber, for the subscriber's own record. -/
  | subscriber {internal : Bool} {env : Surroundings} {r : Request} {c : Context}
    {asked found : UserInfo} {entry : TotpEntry}
    (h : Enables svc s true internal env r c asked found entry)
    (hkind : entry.subscriber = true) (hown : Own c found)
    (hrecent : Recent env.moment.now entry) : Misused s (.rest .subuser internal env r)
  /-- The session of a user, for the user's own record, when the codes were shown less than a
  quarter of an hour ago and the session was started before that. -/
  | late {internal : Bool} {env : Surroundings} {r : Request} {c : Context}
    {asked found : UserInfo} {entry : TotpEntry}
    (h : Enables svc s false internal env r c asked found entry)
    (hkind : entry.subscriber = false) (hown : Own c found)
    (hrecent : Recent env.moment.now entry) (hlate : ¬ Open env.moment.now entry) :
    Misused s (.rest .user internal env r)

/-! ## Runs -/

/-- The storage, and the validations that were completed so far. -/
structure State where
  storage : Storage := {}
  validated : List Validation := []

/-- What happens in one step. -/
inductive Event
  | request (q : RecordRequest)
  /-- Anything else: it brings no new record and no new session. -/
  | elsewhere

/-- The state after a request. -/
def State.request (st : State) (q : RecordRequest) : State where
  storage := q.run svc st.storage
  validated := st.validated ++ (completes svc st.storage q).toList

/-- One step. -/
inductive Step : State → Event → State → Prop
  | request {st : State} (q : RecordRequest) : Step st (.request q) (st.request svc q)
  | elsewhere {st : State} {storage : Storage} (h : st.storage.NoNews storage) :
    Step st .elsewhere { st with storage }

/-- Runs start without sessions, with any records. -/
def system : System State Event where
  init st := st.storage.totp = ∅ ∧ st.validated = []
  step := Step svc

/-- A request fits the enrolments. -/
structure Lawful (st : State) (q : RecordRequest) : Prop where
  /-- A validation that is completed leaves a finished session of the account. -/
  completed : ∀ e internal env r v, q = .rest e internal env r → 0 < env.moment.now →
    completes svc st.storage q = some v →
      ∃ entry, Finished (q.run svc st.storage) v.subscriber v.id entry ∧ entry.secret = v.secret
  /-- Nobody touches the session of somebody else. -/
  kept : ∀ id, q.callerId svc st.storage ≠ some id →
    (q.run svc st.storage).totp.lookup id = st.storage.totp.lookup id
  /-- Who enables the authenticator in the own record within a quarter of an hour has it there,
  with the secret that was validated. -/
  enabled : ∀ isSub internal env r c asked found entry,
    q = .rest (endPointOf isSub) internal env r →
    Enables svc st.storage isSub internal env r c asked found entry →
    entry.subscriber = isSub → Own c found → Recent env.moment.now entry →
      { subscriber := isSub, id := c.caller.id, secret := entry.secret } ∈ st.validated ∧
      (∃ u, reply svc st.storage (endPointOf isSub) internal env r = .user u) ∧
      (∃ v, (((q.run svc st.storage).population isSub).getUserById svc c.caller.id).1 = some v ∧
        secretOf v = entry.secret) ∧
      ∀ row, (st.storage.population isSub).users.find? c.caller.id = some row →
        ∃ row', ((q.run svc st.storage).population isSub).users.find? c.caller.id = some row' ∧
          secretOf row' = entry.secret
  /-- A secret that a record did not have before was validated by the account of the record. -/
  stored : ∀ isSub, ∀ v ∈ ((q.run svc st.storage).population isSub).records, secretOf v ≠ "" →
    (∃ u ∈ (st.storage.population isSub).records, u.id = v.id ∧ secretOf u = secretOf v) ∨
      { subscriber := isSub, id := v.id, secret := secretOf v } ∈ st.validated

end Law

/-! ## Secrets in records -/

section Stored

variable {svc : Service} {st : State} {isSub : Bool}

/-- Every finished session belongs to a validation. -/
def Vouched (st : State) : Prop := ∀ id entry, st.storage.totp.lookup id = some entry →
  entry.done ≠ 0 → { subscriber := entry.subscriber, id, secret := entry.secret } ∈ st.validated

/-- The secret of the record is from before, or the account of the record has validated it. -/
def Accounted (st : State) (isSub : Bool) (v : UserInfo) : Prop :=
  secretOf v ≠ "" →
    (∃ u ∈ (st.storage.population isSub).records, u.id = v.id ∧ secretOf u = secretOf v) ∨
      { subscriber := isSub, id := v.id, secret := secretOf v } ∈ st.validated

/-- The same as an invariant of records, beside one of sessions. -/
def invariant (st : State) (sessions : String → TotpEntry → Prop) : RecordInvariant where
  record := Accounted st
  enrolment := sessions
  insensitive isSub u v hcore hu := by
    have hid : v.id = u.id := congrArg RecordCore.id hcore
    have hinfo : v.userTypeProprietaryInfo = u.userTypeProprietaryInfo :=
      congrArg RecordCore.userTypeProprietaryInfo hcore
    unfold Accounted secretOf at hu ⊢
    rw [hid, hinfo]
    exact hu

variable {sessions : String → TotpEntry → Prop}

/-- At the start every secret is from before. -/
theorem satisfies_self (st : State)
    (h : ∀ id e, st.storage.totp.lookup id = some e → sessions id e) :
    st.storage.Satisfies (invariant st sessions) where
  records _ v hv _ := .inl ⟨v, hv, rfl, rfl⟩
  enrolments := h

theorem Accounted.of_empty {v : UserInfo} (h : secretOf v = "") : Accounted st isSub v :=
  fun hset ↦ absurd h hset

theorem keptByPassword (salt : String) (allowed : String → Prop) :
    KeptByPassword svc (invariant st sessions) isSub salt allowed := by
  intro u v password hu _ hset
  rw [setPassword_applied svc hset]
  exact hu

theorem keptByCreation (m : Moment) (body : UserInfo) :
    KeptByCreation svc (invariant st sessions) isSub m body := by
  intro new hnew
  refine .of_empty ?_
  unfold secretOf
  rw [Population.newRecord_factor, hnew.noMfa]

/-- An update that is not misused takes a secret over for the account that has validated it. -/
theorem keptByMfa (hvouched : Vouched st) {internal : Bool} {env : Surroundings} {r : Request}
    {c : Context} {asked found : UserInfo}
    (hnot : ¬ Misused svc st.storage (.rest (endPointOf isSub) internal env r))
    (hadmitted : RecordRequest.Admits svc st.storage (endPointOf isSub) internal env r c)
    (hput : r.method = .PUT) (hreaches : ReachesMfa svc isSub c
      (authenticate svc ((endPointOf isSub).handler svc env internal) env.moment r st.storage).2
      asked found)
    (hparsed : UserInfo.fromJson svc.json r.body.parsed = some asked) :
    KeptByMfa (invariant st fun id e ↦ st.storage.totp.lookup id = some e) isSub c.moment.now
      c.caller asked.userTypeProprietaryInfo found where
  off _ _ _ := .of_empty rfl
  email _ _ _ := .of_empty rfl
  sms _ _ _ _ _ := .of_empty rfl
  oldSecret _ _ hu _ := hu
  newSecret u e hsame _ hempty henabled hmethod hsession hripe := by
    have hnoSecret : secretOf found = "" := by
      unfold secretOf
      rw [← hsame.factor]
      exact hempty
    have hpresent : (r.body.parsed.getD []).has "userTypeProprietaryInfo" = true := by
      by_contra hnone
      rw [UserInfo.fromJson_factor hparsed (by simpa using hnone)] at henabled
      cases henabled
    have henables : Enables svc st.storage isSub internal env r c asked found e :=
      ⟨hadmitted, hput, hreaches, hpresent, henabled, hmethod, hnoSecret, hsession,
        hripe.finished⟩
    have hopen : Open env.moment.now e := hadmitted.moment ▸ hripe.inTime
    have hown : ¬ (isSub = true ∨ found.id ≠ c.caller.id) :=
      fun hother ↦ hnot (.foreign henables hripe.kind hopen hother)
    rw [not_or, Bool.not_eq_true, not_not] at hown
    obtain ⟨rfl, hid⟩ := hown
    have hvalidated := hvouched c.caller.id e hsession hripe.finished
    rw [hripe.kind, ← hid, ← hsame.id] at hvalidated
    exact fun _ ↦ .inr hvalidated

theorem keptByUpdate (hvouched : Vouched st) {internal : Bool} {env : Surroundings} {r : Request}
    {c : Context} (hnot : ¬ Misused svc st.storage (.rest (endPointOf isSub) internal env r))
    (hadmitted : RecordRequest.Admits svc st.storage (endPointOf isSub) internal env r c)
    (hput : c.request.method = .PUT) :
    KeptByUpdate svc (invariant st fun id e ↦ st.storage.totp.lookup id = some e) isSub c
      (authenticate svc ((endPointOf isSub).handler svc env internal) env.moment r
        st.storage).2 where
  password := keptByPassword _ _
  mfa asked found hreaches := by
    have hparsed : UserInfo.fromJson svc.json r.body.parsed = some asked := by
      rw [← hadmitted.request]
      cases isSub
      · exact hreaches.passes.parsed
      · exact hreaches.passes.parsed
    exact keptByMfa hvouched hnot hadmitted (hadmitted.request ▸ hput) hreaches hparsed
  reset _ hu := hu

/-- A secret that a request stores was validated by the account of the record, unless the request
is misused. -/
theorem stored_run (hvouched : Vouched st) {q : RecordRequest}
    (hnot : ¬ Misused svc st.storage q) (isSub : Bool) :
    ((q.run svc st.storage).population isSub).All (Accounted st isSub) := by
  -- the sessions matter for the updates of records only
  have hsessions : st.storage.Satisfies
      (invariant st fun id e ↦ st.storage.totp.lookup id = some e) :=
    satisfies_self st fun _ _ h ↦ h
  have hany : st.storage.Satisfies (invariant st fun _ _ ↦ True) :=
    satisfies_self st fun _ _ _ ↦ trivial
  cases q with
  | rest e internal env r =>
    cases e with
    | user =>
      refine (RecordRequest.satisfies_run hsessions ?_).records isSub
      exact fun c hc ↦ ⟨fun _ _ _ ↦ keptByCreation _ _, fun hm ↦ ⟨fun _ _ hu _ ↦ hu,
        keptByUpdate hvouched hnot hc hm⟩⟩
    | subuser =>
      refine (RecordRequest.satisfies_run hsessions ?_).records isSub
      exact fun c hc ↦ ⟨fun _ _ _ ↦ keptByCreation _ _, fun hm ↦ ⟨fun _ _ _ _ hu _ ↦ hu,
        keptByUpdate hvouched hnot hc hm⟩⟩
    | signup =>
      refine (RecordRequest.satisfies_run hany ?_).records isSub
      exact fun c _ _ _ _ _ ↦ .of_empty rfl
    | submfa =>
      refine (RecordRequest.satisfies_run hany ?_).records isSub
      exact fun c _ _ ↦ ⟨.of_empty rfl, fun _ hu ↦ hu, fun _ hu ↦ hu, fun _ _ hu ↦ hu⟩
    | totp =>
      refine (RecordRequest.satisfies_run hany ?_).records isSub
      exact fun c _ ↦ ⟨trivial, fun _ _ _ _ ↦ trivial, fun _ _ _ ↦ trivial⟩
    | subtotp =>
      refine (RecordRequest.satisfies_run hany ?_).records isSub
      exact fun c _ ↦ ⟨trivial, fun _ _ _ _ ↦ trivial, fun _ _ _ ↦ trivial⟩
  | login isSub' x challenges r =>
    refine (RecordRequest.satisfies_run hany ?_).records isSub
    exact fun _ _ _ _ ↦ keptByPassword _ _
  | link x req =>
    refine (RecordRequest.satisfies_run hany ?_).records isSub
    exact fun _ _ _ _ hup hu ↦ kept_of_updates hup (fun _ ↦ keptByPassword _ _)
      (keptByPassword _ _) hu

end Stored

/-! ## Sessions -/

section Sessions

variable {svc : Service} {s : Storage} {subscriber : Bool} {now : ℕ} {c : Context}

/-- Every finished session was finished before, with the same secret. -/
def NoneFinishes (t t' : Cache String TotpEntry) : Prop :=
  ∀ id entry, t'.lookup id = some entry → entry.done ≠ 0 →
    ∃ e, t.lookup id = some e ∧ e.done ≠ 0 ∧ e.subscriber = entry.subscriber ∧
      e.secret = entry.secret

theorem NoneFinishes.refl (t : Cache String TotpEntry) : NoneFinishes t t :=
  fun _ entry h hdone ↦ ⟨entry, h, hdone, rfl, rfl⟩

theorem NoneFinishes.of_evicts {t t' : Cache String TotpEntry} (h : Cache.Evicts t t') :
    NoneFinishes t t' :=
  fun _ entry hlookup hdone ↦ ⟨entry, h _ _ hlookup, hdone, rfl, rfl⟩

/-- A session is replaced by one that is not finished, or that goes on from it. -/
theorem NoneFinishes.insert {t : Cache String TotpEntry} {id : String} {new : TotpEntry}
    (h : new.done ≠ 0 → ∃ e, t.lookup id = some e ∧ e.done ≠ 0 ∧
      e.subscriber = new.subscriber ∧ e.secret = new.secret) :
    NoneFinishes t (t.insert id new) := by
  intro k entry hlookup hdone
  rw [Cache.lookup_insert_eq] at hlookup
  split at hlookup
  · rename_i hsame
    subst hsame
    obtain rfl := Option.some.inj hlookup
    exact h hdone
  · exact ⟨entry, hlookup, hdone, rfl, rfl⟩

/-- What an enrolment end point does for the caller `who`: it finishes the session of the caller,
and says so, or it finishes none. -/
inductive Progress (subscriber : Bool) (who : Option String) (now : ℕ)
    (t : Cache String TotpEntry) : Response → Cache String TotpEntry → Prop
  | completed {id : String} {n : ℕ} {e : TotpEntry} (hwho : who = some id)
    (hlookup : t.lookup id = some e) (hkind : e.subscriber = subscriber) :
    Progress subscriber who now t (.totpProgress n false) (t.insert id { e with done := now })
  | none {a : Response} {t' : Cache String TotpEntry} (ha : ∀ n, a ≠ .totpProgress n false)
    (h : NoneFinishes t t') : Progress subscriber who now t a t'

theorem progress_doGet (source : TotpSource) (who : Option String) :
    Command.wp (TotpHandlers.doGet source subscriber c)
      (fun a s' ↦ Progress subscriber who now s.totp a s'.totp)
      (fun a s' ↦ Progress subscriber who now s.totp a s'.totp) s := by
  simp only [TotpHandlers.doGet, Command.wp_bind, Command.wp_act, Command.wp_pure,
    Storage.totpStartValidation_totp]
  refine .none (fun _ h ↦ (by cases h)) ?_
  split
  · exact .insert fun hdone ↦ absurd rfl hdone
  · exact .refl _

theorem progress_doPut (source : TotpSource) :
    Command.wp (TotpHandlers.doPut source subscriber c)
      (fun a s' ↦ Progress subscriber (some c.caller.id) c.moment.now s.totp a s'.totp)
      (fun a s' ↦ Progress subscriber (some c.caller.id) c.moment.now s.totp a s'.totp) s := by
  have hrefused (a : Response) (ha : ∀ n, a ≠ .totpProgress n false) :
      Progress subscriber (some c.caller.id) c.moment.now s.totp a s.totp := .none ha (.refl _)
  simp only [TotpHandlers.doPut, Command.wp_bind, Command.wp_act, Command.wp_orStop]
  refine ⟨fun nextIndex _ ↦ ?_, fun _ ↦ hrefused _ fun _ h ↦ (by cases h)⟩
  have hcases := s.totpContinueValidation_cases source.lib c.moment.now c.caller subscriber
    (c.request.getParameter "value") nextIndex
  generalize s.totpContinueValidation source.lib c.moment.now c.caller subscriber
    (c.request.getParameter "value") nextIndex = result at hcases ⊢
  cases hcases with
  | first e hlookup =>
    exact .none (fun _ h ↦ (by cases h)) (.insert fun hdone ↦ ⟨e, hlookup, hdone, rfl, rfl⟩)
  | second e hlookup hsubscriber => exact .completed rfl hlookup hsubscriber
  | refused => exact hrefused _ fun _ h ↦ (by cases h)

/-- A method of an enrolment end point. -/
theorem progress_dispatch {e : EndPoint} (he : enrolsAs e = some subscriber) (internal : Bool)
    (env : Surroundings) :
    Command.wp (dispatch (e.handler svc env internal) c)
      (fun a s' ↦ Progress subscriber (some c.caller.id) c.moment.now s.totp a s'.totp)
      (fun a s' ↦ Progress subscriber (some c.caller.id) c.moment.now s.totp a s'.totp) s := by
  have hother (a : Response) (ha : ∀ n, a ≠ .totpProgress n false) :
      Command.wp (pure a : Handling Response)
        (fun a s' ↦ Progress subscriber (some c.caller.id) c.moment.now s.totp a s'.totp)
        (fun a s' ↦ Progress subscriber (some c.caller.id) c.moment.now s.totp a s'.totp) s :=
    .none ha (.refl _)
  cases e <;> cases he <;> cases hm : c.request.method <;> unfold dispatch <;> simp only [hm]
  case totp.refl.GET | subtotp.refl.GET => exact progress_doGet _ _
  case totp.refl.PUT | subtotp.refl.PUT => exact progress_doPut _
  all_goals exact hother _ fun _ h ↦ (by cases h)

variable {internal : Bool} {env : Surroundings} {r : Request}

/-- A request to an enrolment end point. -/
theorem progress_run {e : EndPoint} (he : enrolsAs e = some subscriber) :
    Progress subscriber (RecordRequest.callerId svc s (.rest e internal env r)) env.moment.now
      s.totp (reply svc s e internal env r)
      (RecordRequest.run svc s (.rest e internal env r)).totp := by
  refine handleRequest_rule svc _ env.moment env.rateExceeded r
    (P := fun a s' ↦ Progress subscriber
      (RecordRequest.callerId svc s (.rest e internal env r)) env.moment.now s.totp a s'.totp)
    (fun c _ hgranted _ _ hmoment ↦ ?_) ?_
  · have hwho : RecordRequest.callerId svc s (.rest e internal env r) = some c.caller.id :=
      congrArg (Option.map fun g : UserInfoAndPolicy × String ↦ g.1.userinfo.id) hgranted
    have htotp : (authenticate svc (e.handler svc env internal) env.moment r s).2.totp = s.totp :=
      Storage.totp_authenticate _ _ _
    generalize (authenticate svc (e.handler svc env internal) env.moment r s).2 = s₁ at htotp ⊢
    rw [hwho, ← htotp, ← hmoment]
    exact progress_dispatch he internal env
  · rintro a s' ha (rfl | rfl)
    · exact .none (fun _ h ↦ (by rw [h] at ha; cases ha)) (.refl _)
    · rw [Storage.totp_authenticate]
      exact .none (fun _ h ↦ (by rw [h] at ha; cases ha)) (.refl _)

/-- Nothing about the records, and every session is one of these. -/
def sessionsAmong (t : Cache String TotpEntry) : RecordInvariant where
  record _ _ := True
  enrolment id e := t.lookup id = some e
  insensitive _ _ _ _ _ := trivial

/-- Any other request finishes no session. -/
theorem noneFinishes_run {q : RecordRequest}
    (hq : ∀ e internal env r, q = .rest e internal env r → enrolsAs e = none) :
    NoneFinishes s.totp (q.run svc s).totp := by
  have hs : s.Satisfies (sessionsAmong s.totp) := ⟨fun _ _ _ ↦ trivial, fun _ _ h ↦ h⟩
  suffices hkept : q.Kept svc (sessionsAmong s.totp) s from
    .of_evicts fun id entry hentry ↦
      (RecordRequest.satisfies_run hs hkept).enrolments id entry hentry
  have hupdate (isSub : Bool) (c : Context) (s' : Storage) :
      KeptByUpdate svc (sessionsAmong s.totp) isSub c s' :=
    ⟨fun _ _ _ _ _ _ ↦ trivial, fun _ found _ ↦ .of_indifferent (fun _ _ _ ↦ trivial) _ _ _ found,
      fun _ _ ↦ trivial⟩
  cases q with
  | rest e internal env r =>
    have henrols : enrolsAs e = none := hq e internal env r rfl
    cases e with
    | user =>
      exact fun c _ ↦ ⟨fun _ _ _ _ _ ↦ trivial, fun _ ↦ ⟨fun _ _ _ _ ↦ trivial, hupdate _ _ _⟩⟩
    | subuser =>
      exact fun c _ ↦
        ⟨fun _ _ _ _ _ ↦ trivial, fun _ ↦ ⟨fun _ _ _ _ _ _ ↦ trivial, hupdate _ _ _⟩⟩
    | signup => exact fun _ _ _ _ _ _ ↦ trivial
    | submfa =>
      exact fun _ _ _ ↦ ⟨trivial, fun _ _ ↦ trivial, fun _ _ ↦ trivial, fun _ _ _ ↦ trivial⟩
    | totp => cases henrols
    | subtotp => cases henrols
  | login isSub x challenges r => exact fun _ _ _ _ _ _ _ _ _ _ ↦ trivial
  | link x req => exact fun _ _ _ _ _ _ ↦ trivial

theorem completes_rest (e : EndPoint) :
    completes svc s (.rest e internal env r) =
      validationOf s.totp (enrolsAs e) (reply svc s e internal env r)
        (RecordRequest.callerId svc s (.rest e internal env r)) := rfl

theorem validationOf_progress {t : Cache String TotpEntry} {id : String} {entry : TotpEntry}
    (h : t.lookup id = some entry) (n : ℕ) :
    validationOf t (some subscriber) (.totpProgress n false) (some id) =
      some { subscriber, id, secret := entry.secret } :=
  congrArg (Option.map fun entry : TotpEntry ↦
    ({ subscriber, id, secret := entry.secret } : Validation)) h

/-- What the answer to an enrolment request says of the sessions. -/
theorem Progress.validationOf_eq {who : Option String} {t t' : Cache String TotpEntry}
    {a : Response} {v : Validation} (h : Progress subscriber who now t a t')
    (hv : validationOf t (some subscriber) a who = some v) :
    ∃ e, t.lookup v.id = some e ∧ v.subscriber = e.subscriber ∧ v.secret = e.secret ∧
      t' = t.insert v.id { e with done := now } := by
  cases h with
  | completed hwho hlookup hkind =>
    subst hwho
    rw [validationOf_progress hlookup] at hv
    obtain rfl := Option.some.inj hv
    exact ⟨_, hlookup, hkind.symm, rfl, rfl⟩
  | none hnot =>
    unfold validationOf at hv
    split at hv
    · exact absurd rfl (hnot _)
    · cases hv

/-- A session that is finished afterwards was finished before, or it is the one that the answer
completes. -/
theorem Progress.finished {who : Option String} {t t' : Cache String TotpEntry} {a : Response}
    (h : Progress subscriber who now t a t') {id : String} {entry : TotpEntry}
    (hlookup : t'.lookup id = some entry) (hdone : entry.done ≠ 0) :
    (∃ e, t.lookup id = some e ∧ e.done ≠ 0 ∧ e.subscriber = entry.subscriber ∧
        e.secret = entry.secret) ∨
      validationOf t (some subscriber) a who =
        some { subscriber := entry.subscriber, id, secret := entry.secret } := by
  cases h with
  | @completed caller n e hwho hcaller hkind =>
    rw [Cache.lookup_insert_eq] at hlookup
    split at hlookup
    · rename_i hsame
      subst hsame hwho hkind
      obtain rfl := Option.some.inj hlookup
      exact .inr (validationOf_progress hcaller n)
    · exact .inl ⟨entry, hlookup, hdone, rfl, rfl⟩
  | none _ hnone => exact .inl (hnone id entry hlookup hdone)

/-- A validation that is completed leaves a finished session of the account. -/
theorem finished_of_completes {e : EndPoint} {v : Validation} (hnow : 0 < env.moment.now)
    (h : completes svc s (.rest e internal env r) = some v) :
    ∃ entry, Finished (RecordRequest.run svc s (.rest e internal env r)) v.subscriber v.id entry ∧
      entry.secret = v.secret := by
  rcases he : enrolsAs e with _ | subscriber
  · rw [completes_rest, he] at h
    cases h
  · rw [completes_rest, he] at h
    obtain ⟨entry, -, hkind, hsecret, htotp⟩ :=
      (progress_run he).validationOf_eq h
    refine ⟨{ entry with done := env.moment.now }, ⟨?_, hkind.symm, hnow.ne'⟩, hsecret.symm⟩
    rw [htotp, Cache.lookup_insert_eq, if_pos rfl]

/-- After a request, a finished session was finished before or belongs to the validation that
the request has completed. -/
theorem finished_run {q : RecordRequest} {id : String} {entry : TotpEntry}
    (hlookup : (q.run svc s).totp.lookup id = some entry) (hdone : entry.done ≠ 0) :
    (∃ e, s.totp.lookup id = some e ∧ e.done ≠ 0 ∧ e.subscriber = entry.subscriber ∧
        e.secret = entry.secret) ∨
      completes svc s q =
        some { subscriber := entry.subscriber, id, secret := entry.secret } := by
  by_cases hq : ∀ e internal env r, q = .rest e internal env r → enrolsAs e = none
  · exact .inl (noneFinishes_run hq id entry hlookup hdone)
  · simp only [not_forall] at hq
    obtain ⟨e, internal, env, r, rfl, hsome⟩ := hq
    obtain ⟨subscriber, he⟩ := Option.ne_none_iff_exists'.mp hsome
    rw [completes_rest, he]
    exact (progress_run he).finished hlookup hdone

/-- A request keeps the link between sessions and validations. -/
theorem vouched_request {st : State} (h : Vouched st) (q : RecordRequest) :
    Vouched (st.request svc q) := by
  intro id entry hlookup hdone
  rcases finished_run hlookup hdone with ⟨e, he, hedone, hkind, hsecret⟩ | hnew
  · exact List.mem_append_left _ (hkind ▸ hsecret ▸ h id e he hedone)
  · refine List.mem_append_right _ ?_
    rw [hnew]
    exact List.mem_singleton_self _

/-- One step keeps the link between sessions and validations. -/
theorem vouched_step {st st' : State} {event : Event} (h : Vouched st)
    (hstep : Step svc st event st') : Vouched st' := by
  cases hstep with
  | request q => exact vouched_request h q
  | elsewhere hno =>
    exact fun id entry hlookup hdone ↦ h id entry (hno.totp _ _ hlookup) hdone

/-- In every reachable state each finished session belongs to a validation. -/
theorem vouched_reachable {st : State} (h : (system svc).Reachable st) : Vouched st := by
  refine h.invariant (fun st₀ h₀ ↦ ?_) fun _ _ _ ↦ vouched_step
  intro id entry hlookup
  rw [h₀.1] at hlookup
  simp at hlookup

end Sessions

/-! ## Taking a session over -/

section Enabled

variable {svc : Service} {s : Storage} {c : Context} {asked found existing : UserInfo}
  {entry : TotpEntry}

/-- The session of a user is taken over by a record without a secret. -/
theorem wp_takeOver {m : Moment} {caller : UserInfo} {Q : UserInfo → Storage → Prop}
    {E : Response → Storage → Prop} (henabled : asked.userTypeProprietaryInfo.mfa.enabled = true)
    (hmethod : asked.userTypeProprietaryInfo.mfa.method = "authenticator")
    (hempty : secretOf existing = "") (hlookup : s.totp.lookup caller.id = some entry)
    (hripe : Ripe m.now false entry)
    (hQ : ∀ u s', u.id = existing.id → secretOf u = entry.secret → s'.user = s.user → Q u s') :
    Command.wp (UserHandler.applyMfaChange svc m caller asked true existing) Q E s := by
  have hcomplete : s.totpCompleteValidation m.now caller.id false =
      (some entry.secret, { s with totp := s.totp.erase caller.id }) :=
    hripe.completeValidation hlookup
  have hnoSecret : existing.userTypeProprietaryInfo.authenticatorSecret = "" := hempty
  unfold UserHandler.applyMfaChange
  simp only [henabled, hmethod, hnoSecret, Command.wp_bind, Command.wp_ensure, Command.wp_pure,
    Command.wp_ite, Command.wp_act, Command.wp_orStop, hcomplete]
  simp [UserHandler.validateMethod]
  exact hQ _ _ rfl rfl rfl

/-- What the update of the user's own record leaves. -/
structure Taken (svc : Service) (p : Population) (id secret : String) (a : Response)
    (p' : Population) : Prop where
  answer : ∃ u, a = .user u
  cached : ∃ v, (p'.getUserById svc id).1 = some v ∧ secretOf v = secret
  stored : ∀ row, p.users.find? id = some row →
    ∃ row', p'.users.find? id = some row' ∧ secretOf row' = secret

/-- The record with the secret is written, and read for the answer. -/
theorem wp_writeOwn {id : String} {u : UserInfo} {p : Population}
    {E : Response → Storage → Prop} (hid : u.id = id) (husers : s.user.users = p.users) :
    Command.wp (do
      let updated ← UserHandler.updateUserInfo svc id u
      Command.ensure updated (.badRequest Errors.RecordNotUpdated)
      UserHandler.buildUpdatedUserResponse svc id .notFound)
      (fun a s' ↦ Taken svc p id (secretOf u) a s'.user) E s := by
  subst hid
  obtain ⟨users, -, heq⟩ := s.user.updateUserInfo_eq svc u
  have hread : (s.user.updateUserInfo svc u.id u).2.getUserById svc u.id =
      (some u, (s.user.updateUserInfo svc u.id u).2) := Population.getUserById_updateUserInfo svc u
  unfold UserHandler.updateUserInfo UserHandler.buildUpdatedUserResponse UserHandler.getUserById
  simp only [Command.wp_bind, Command.wp_act, Command.wp_ensure, Command.wp_orStop,
    Command.wp_pure, Storage.onPopulation, Storage.population_setPopulation]
  rw [show s.population false = s.user from rfl, hread]
  refine ⟨fun _ ↦ ⟨fun v hv ↦ ?_, fun hnone ↦ (by cases hnone)⟩, fun hfailed ↦ ?_⟩
  · constructor
    case answer => exact ⟨_, rfl⟩
    case cached => exact ⟨u, congrArg Prod.fst hread, rfl⟩
    case stored =>
      intro row hrow
      refine ⟨u, ?_, rfl⟩
      show (s.user.updateUserInfo svc u.id u).2.users.find? u.id = some u
      rw [Population.find?_updateUserInfo, if_pos rfl, husers, hrow]
      rfl
  · rw [heq] at hfailed
    cases hfailed

/-- The update of the own record from the body. -/
theorem wp_updateFromBody {p : Population} {E : Response → Storage → Prop} {id : String}
    (hid : found.id = id) (hpasses : UserHandler.PassesEdits svc c asked found)
    (hpresent : (c.request.body.parsed.getD []).has "userTypeProprietaryInfo" = true)
    (henabled : asked.userTypeProprietaryInfo.mfa.enabled = true)
    (hmethod : asked.userTypeProprietaryInfo.mfa.method = "authenticator")
    (hempty : secretOf found = "") (hlookup : s.totp.lookup c.caller.id = some entry)
    (hripe : Ripe c.moment.now false entry) (husers : s.user.users = p.users) :
    Command.wp (UserHandler.updateFromBody svc c id found)
      (fun a s' ↦ Taken svc p id entry.secret a s'.user) E s := by
  obtain ⟨u, hu⟩ := hpasses.edits
  obtain ⟨v, w, x, hv, hw, hx, hlast⟩ := UserHandler.edits_of_applyBody hu
  have hsame : SameFactor found u := sameFactor_of_edits hv hw hx hlast
  have hnoSecret : secretOf u = "" := by
    unfold secretOf
    rw [hsame.factor]
    exact hempty
  -- the second factor, and the rest of the update
  have htake {u' : UserInfo} {s' : Storage} (hid' : u'.id = id) (hempty' : secretOf u' = "")
      (htotp : s'.totp = s.totp) (hsameUsers : s'.user = s.user) :
      Command.wp (do
        let existing ← UserHandler.applyMfaChange svc c.moment c.caller asked true u'
        let updated ← UserHandler.updateUserInfo svc id { existing with modified := c.moment.now }
        Command.ensure updated (.badRequest Errors.RecordNotUpdated)
        UserHandler.buildUpdatedUserResponse svc id .notFound)
        (fun a s' ↦ Taken svc p id entry.secret a s'.user) E s' := by
    rw [Command.wp_bind]
    refine wp_takeOver henabled hmethod hempty' (htotp ▸ hlookup) hripe fun w s₁ hw hsecret hs₁ ↦ ?_
    rw [← hsecret]
    exact wp_writeOwn (u := { w with modified := c.moment.now }) (hw.trans hid')
      ((congrArg Population.users (hs₁.trans hsameUsers)).trans husers)
  unfold UserHandler.updateFromBody
  simp only [Command.wp_bind, Command.wp_ensure, Command.wp_orStop, Command.wp_lift,
    hpasses.parsed, hpasses.payload, hpasses.fields, hu, hpresent, Option.some.injEq,
    Except.ok.injEq, forall_eq', reduceCtorEq, false_implies, implies_true, and_true]
  refine fun _ _ ↦ (Command.wp_ite _ _ _).mpr ⟨fun _ ↦ ?_, fun _ ↦ ?_⟩
  · exact htake (hsame.id.trans hid) hnoSecret (Storage.totp_createAction _)
      (Storage.population_createAction _ _ false)
  · exact htake (hsame.id.trans hid) hnoSecret rfl rfl

/-- The update of the own record. -/
theorem wp_doPut {E : Response → Storage → Prop}
    (hreaches : UserHandler.ReachesMfa svc c s asked found) (hown : Own c found)
    (hpresent : (c.request.body.parsed.getD []).has "userTypeProprietaryInfo" = true)
    (henabled : asked.userTypeProprietaryInfo.mfa.enabled = true)
    (hmethod : asked.userTypeProprietaryInfo.mfa.method = "authenticator")
    (hempty : secretOf found = "") (hlookup : s.totp.lookup c.caller.id = some entry)
    (hripe : Ripe c.moment.now false entry) :
    Command.wp (UserHandler.doPut svc c)
      (fun a s' ↦ Taken svc s.user c.caller.id entry.secret a s'.user) E s := by
  have htarget : (!(c.request.getBinding "id").isEmpty) = true := by
    simpa using hreaches.target
  have hfound : (s.onPopulation false fun p ↦ p.getUserById svc (c.request.getBinding "id")).1 =
      some found := hreaches.lookup
  have husers : (s.onPopulation false fun p ↦
      p.getUserById svc (c.request.getBinding "id")).2.user.users = s.user.users :=
    Population.getUserById_users svc _
  have hbody := wp_updateFromBody (E := E)
    (s := (s.onPopulation false fun p ↦ p.getUserById svc (c.request.getBinding "id")).2)
    (hown.found.trans hown.target.symm) hreaches.passes hpresent henabled hmethod hempty
    ((Storage.totp_onPopulation _ _).symm ▸ hlookup) hripe husers
  unfold UserHandler.doPut UserHandler.getUserById
  simp only [Command.wp_bind, Command.wp_ensure, Command.wp_act, Command.wp_orStop,
    Command.wp_ite, htarget, hfound, Option.some.injEq, forall_eq', hreaches.allowed,
    beq_iff_eq, hreaches.fromBody.1, hreaches.fromBody.2, false_implies, true_implies,
    not_false_eq_true, true_and, reduceCtorEq, and_true]
  rw [← hown.target]
  exact hbody

/-- Nothing but the session stands in the way of an update that names the second factor alone. -/
theorem reaches_plain {j : Json}
    (hbody : c.request.body.parsed = some [("userTypeProprietaryInfo", j)])
    (hparsed : UserInfo.fromJson svc.json c.request.body.parsed = some asked) (hown : Own c found)
    (hid : c.caller.id ≠ "") (hlookup : (s.user.getUserById svc c.caller.id).1 = some found)
    (hrole : c.caller.userRole = .ROOT ∨ found.userRole ≠ .ROOT)
    (hfromBody : c.request.getParameter "resetMFA" ≠ "true" ∧
      c.request.getParameter "forgotPassword" ≠ "true") :
    UserHandler.ReachesMfa svc c s asked found where
  target := hown.target ▸ hid
  lookup := hown.target ▸ hlookup
  allowed := by
    have hself : isSelf c.caller found = true := beq_iff_eq.mpr hown.found.symm
    unfold canModifyUserRecord canWriteUserRecord
    rw [hself]
    rcases hrole with hroot | hnonRoot
    · simp [isRoot, hroot]
    · simp [isNonRootTarget, hnonRoot]
  fromBody := hfromBody
  passes := by
    refine ⟨hparsed, ?_, ?_, found, ?_⟩
    all_goals rw [hbody]
    · rfl
    · simp [UserHandler.hasOnlyAllowedSelfServiceFields, UserHandler.isAllowedSelfServiceField]
    · rfl

/-- The request that asks for the authenticator in the caller's own record. -/
theorem taken_run {internal : Bool} {env : Surroundings} {r : Request}
    (h : Enables svc s false internal env r c asked found entry) (hown : Own c found)
    (hripe : Ripe env.moment.now false entry) :
    Taken svc (authenticate svc (userHandler svc internal) env.moment r s).2.user c.caller.id
      entry.secret (reply svc s .user internal env r)
      (RecordRequest.run svc s (.rest .user internal env r)).user := by
  obtain ⟨q, hacc⟩ := exists_acceptRequest svc (userHandler svc internal) env.moment
    env.rateExceeded r h.admitted.acceptable h.admitted.granted h.admitted.request
    h.admitted.router h.admitted.moment
  have hput : c.request.method = .PUT := h.admitted.request ▸ h.put
  have hmoment : Ripe c.moment.now false entry := h.admitted.moment ▸ hripe
  have hlookup : (authenticate svc (userHandler svc internal) env.moment r s).2.totp.lookup
      c.caller.id = some entry := (Storage.totp_authenticate _ _ _).symm ▸ h.session
  have hreaches : UserHandler.ReachesMfa svc c
      (authenticate svc (userHandler svc internal) env.moment r s).2 asked found := h.reaches
  show Taken svc _ _ _
    (handleRequest svc (userHandler svc internal) env.moment env.rateExceeded r s).1
    (handleRequest svc (userHandler svc internal) env.moment env.rateExceeded r s).2.user
  rw [handleRequest_of_ok svc _ _ _ _ hacc]
  generalize (authenticate svc (userHandler svc internal) env.moment r s).2 = s₁
    at hlookup hreaches ⊢
  have hbody := answer_of_wp (P := fun a s' ↦ Taken svc s₁.user c.caller.id entry.secret a s'.user)
    (wp_doPut hreaches hown (h.admitted.request ▸ h.present) h.enabled h.method h.noSecret hlookup
      hmoment)
  unfold dispatch
  simp only [hput]
  exact hbody

/-- Authenticating a request leaves the rows of the users alone. -/
theorem users_authenticate (h : Handler) (m : Moment) (r : Request) :
    (authenticate svc h m r s).2.user.users = s.user.users := by
  refine authenticate_rule svc (P := fun s' ↦ s'.user.users = s.user.users) rfl (fun id ↦ ?_)
    (fun s' id k hsame ↦ ?_) fun token ↦ ?_
  · exact Population.getUserById_users svc id
  · rw [Storage.updateApiKey_user]
    exact hsame
  · cases h.subOnlyService
    · exact Population.checkToken_users svc m.now token
    · rfl

/-- Who enables the authenticator in the own record in time has it there. -/
theorem enabled_run {isSub internal : Bool} {env : Surroundings} {r : Request}
    (hnot : ¬ Misused svc s (.rest (endPointOf isSub) internal env r))
    (h : Enables svc s isSub internal env r c asked found entry)
    (hkind : entry.subscriber = isSub) (hown : Own c found)
    (hrecent : Recent env.moment.now entry) :
    (∃ u, reply svc s (endPointOf isSub) internal env r = .user u) ∧
      (∃ v, (((RecordRequest.run svc s (.rest (endPointOf isSub) internal env r)).population
          isSub).getUserById svc c.caller.id).1 = some v ∧ secretOf v = entry.secret) ∧
      ∀ row, (s.population isSub).users.find? c.caller.id = some row →
        ∃ row', ((RecordRequest.run svc s (.rest (endPointOf isSub) internal env r)).population
            isSub).users.find? c.caller.id = some row' ∧ secretOf row' = entry.secret := by
  cases isSub with
  | true => exact absurd (.subscriber h hkind hown hrecent) hnot
  | false =>
    have hopen : Open env.moment.now entry := by
      by_contra hlate
      exact hnot (.late h hkind hown hrecent hlate)
    have htaken := taken_run h hown ⟨hkind, hopen, h.finished⟩
    refine ⟨htaken.answer, htaken.cached, fun row hrow ↦ htaken.stored row ?_⟩
    rw [users_authenticate]
    exact hrow

end Enabled

/-! ## The law -/

variable {svc : Service}

/-- In every reachable state, a request that is not misused fits the enrolments: what is
validated can be enabled by the account that has validated it, and a secret that is stored was
validated by the account of the record. -/
theorem enrolment_lawful {st : State} (h : (system svc).Reachable st) {q : RecordRequest}
    (hnot : ¬ Misused svc st.storage q) : Lawful svc st q where
  completed e internal env r v hq hnow hv := by
    subst hq
    exact finished_of_completes hnow hv
  kept _ hne := RecordRequest.session_kept hne
  enabled isSub internal env r c asked found entry hq henables hkind hown hrecent := by
    subst hq
    have hvalidated := vouched_reachable h c.caller.id entry henables.session henables.finished
    exact ⟨hkind ▸ hvalidated, enabled_run hnot henables hkind hown hrecent⟩
  stored isSub v hv hset := stored_run (vouched_reachable h) hnot isSub v hv hset

/-! ## An administrator and a root user

The root user shows both codes, and then asks for the authenticator in a record. -/

/-- A root user with a token, and an administrator. -/
def sampleStorage : Storage where
  user :=
    { users :=
        { rows := [{ id := "root-1", email := "root@example.com", userRole := .ROOT },
            { id := "admin-2", email := "admin@example.com", userRole := .ADMIN }]
          nodup := by decide }
      tokens :=
        { rows :=
            { rows := [{ token := "token-root", userName := "root-1", created := 1700000000,
                         expires := 3600 }]
              nodup := by decide } } }

/-- A request of the root user. -/
def sampleRequest (e : EndPoint) (method : Method) (now : ℕ) (r : Request) : RecordRequest :=
  .rest e false (.sample now "a") { r with method, bearer := some "token-root" }

/-- The state after both codes were shown. -/
def sampleEnrolled : State :=
  ((({ storage := sampleStorage } : State).request .sample
    (sampleRequest .totp .GET 1700000000 {})).request .sample
    (sampleRequest .totp .PUT 1700000010
      { parameters := [("value", "732303"), ("index", "1")] })).request .sample
    (sampleRequest .totp .PUT 1700000045 { parameters := [("value", "136087"), ("index", "2")] })

/-- The update that asks for the authenticator in a record. -/
def sampleUpdate (id : String) : RecordRequest :=
  sampleRequest .user .PUT 1700000050
    { bindings := [("id", id)]
      body := .object [("userTypeProprietaryInfo",
        .obj [("mfa", .obj [("enabled", .bool true), ("method", .str "authenticator")])])] }

theorem init_sampleStorage : (system .sample).init { storage := sampleStorage } := ⟨rfl, rfl⟩

theorem reachable_sampleEnrolled : (system .sample).Reachable sampleEnrolled :=
  (((System.Reachable.init init_sampleStorage).step (Step.request _)).step (Step.request _)).step
    (Step.request _)

/-- The secrets in the rows of the users. -/
def secrets (s : Storage) : List (String × String) :=
  s.user.users.rows.map fun u ↦ (u.id, secretOf u)

theorem notMisused_sampleUpdate :
    ¬ Misused .sample sampleEnrolled.storage (sampleUpdate "root-1") := by
  intro h
  generalize hq : sampleUpdate "root-1" = q at h
  cases h with
  | @foreign isSub internal env r c asked found entry h hkind hopen hother =>
    obtain ⟨he, rfl, rfl, rfl⟩ := RecordRequest.rest.inj hq
    cases isSub with
    | true => cases he
    | false =>
      -- the record that is found is that of the caller
      have hcaller := congrArg (Option.map fun g : UserInfoAndPolicy × String ↦ g.1.userinfo.id)
        h.admitted.granted
      have hfound := congrArg (Option.map UserInfo.id) h.reaches.lookup
      rw [h.admitted.request] at hfound
      have hids : found.id = "root-1" ∧ c.caller.id = "root-1" :=
        ⟨(Option.some.inj hfound).symm, (Option.some.inj hcaller).symm⟩
      exact hother.elim (fun hsub ↦ (by cases hsub)) fun hne ↦ hne (hids.1.trans hids.2.symm)
  | subscriber => cases hq
  | @late internal env r c asked found entry h hkind hown hrecent hlate =>
    obtain ⟨-, rfl, rfl, rfl⟩ := RecordRequest.rest.inj hq
    -- the session was started at 1700000000
    have hcaller := congrArg (Option.map fun g : UserInfoAndPolicy × String ↦ g.1.userinfo.id)
      h.admitted.granted
    have hid : c.caller.id = "root-1" := (Option.some.inj hcaller).symm
    have hsession := h.session
    rw [hid] at hsession
    have hstart : entry.start = 1700000000 :=
      (Option.some.inj (congrArg (Option.map TotpEntry.start) hsession)).symm
    refine hlate ?_
    unfold Open
    rw [hstart]
    decide

/-- The root user asks for it in its own record, and has it there. -/
theorem enrolment_lawful_sample :
    secrets ((sampleUpdate "root-1").run .sample sampleEnrolled.storage) =
        [("root-1", "12345678901234567890"), ("admin-2", "")] ∧
      Lawful .sample sampleEnrolled (sampleUpdate "root-1") :=
  ⟨by decide, enrolment_lawful reachable_sampleEnrolled notMisused_sampleUpdate⟩

/-- Before the update no record has a secret. -/
theorem secretOf_sampleEnrolled {u : UserInfo}
    (hu : u ∈ (sampleEnrolled.storage.population false).records) : secretOf u = "" := by
  have hrows : ∀ u ∈ sampleEnrolled.storage.user.users.rows, secretOf u = "" := by decide
  have hcache : ∀ e ∈ sampleEnrolled.storage.user.cacheById.entries, secretOf e.2 = "" := by decide
  rcases hu with hu | ⟨k, hu⟩
  · exact hrows u hu
  · exact hcache ⟨k, u⟩ (AList.mem_lookup_iff.mp hu)

/-- The root user asks for it in the record of the administrator, which then has the secret of
the root user. -/
theorem secret_of_another_account : (system .sample).Reachable sampleEnrolled ∧
    secrets ((sampleUpdate "admin-2").run .sample sampleEnrolled.storage) =
        [("root-1", ""), ("admin-2", "12345678901234567890")] ∧
      ¬ Lawful .sample sampleEnrolled (sampleUpdate "admin-2") := by
  refine ⟨reachable_sampleEnrolled, by decide, fun hlaw ↦ ?_⟩
  have hrow : ∃ v ∈ ((sampleUpdate "admin-2").run .sample sampleEnrolled.storage).user.users.rows,
      v.id = "admin-2" ∧ secretOf v = "12345678901234567890" := by decide
  obtain ⟨v, hv, hid, hsecret⟩ := hrow
  have hset : secretOf v ≠ "" := by
    rw [hsecret]
    decide
  rcases hlaw.stored false v (.inl hv) hset with ⟨u, hu, -, hsame⟩ | hvalidated
  · exact hset (hsame ▸ secretOf_sampleEnrolled hu)
  · rw [hid, hsecret] at hvalidated
    exact absurd hvalidated (by decide)

end TotpEnrolment

end OwSec
