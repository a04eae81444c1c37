import OwSec.RestApi.Handler
import OwSec.Storage.Runs

/-!
# Expired tokens and `handleRequest`

`IsAuthorized` and `IsSubAuthorized` report two things about a bearer token: whether it is
accepted, and, through a reference parameter, whether its life time is over.  The second
does not enter the first, and `handleRequest` looks at it only after a refusal.  So an
overdue token authorises requests for as long as its record can be found, in the table
until the next purge and in the cache until eviction, and this file says exactly when.
-/

namespace OwSec

open SecurityObjects RestApi Kit

variable (svc : Service)

/-! ## When a bearer token gets a request through -/

/-- `handleRequest` calls a method of `h` for the request `r`, and the credential it judged
the request on is the bearer token `token`. -/
def ReachesOnBearer (h : Handler) (m : Moment) (rateExceeded : Bool) (r : Request)
    (token : String) (s : Storage) : Prop :=
  credentialOf h.internal r = .bearer (some token) ∧
    ∃ c s', acceptRequest svc h m rateExceeded r s = (.ok c, s')

/-- The record found for the token is unrevoked and within its life time, and its owner has
a row. -/
def LiveToken (p : Population) (now : ℕ) (token : String) : Prop :=
  ∃ t, p.tokens.resolve token = some t ∧ t.revocationDate = 0 ∧ now ≤ t.created + t.expires ∧
    ∃ u, p.users.find? t.userName = some u

/-- The lookup of the token still finds an unrevoked record whose life time is over, and
its owner has a row. -/
def OverdueToken (p : Population) (now : ℕ) (token : String) : Prop :=
  token ≠ "" ∧ ∃ t, p.tokens.resolve token = some t ∧ t.revocationDate = 0 ∧
    t.created + t.expires < now ∧ ∃ u, p.users.find? t.userName = some u

section Bearer

variable {svc} {h : Handler} {m : Moment} {rateExceeded : Bool} {r : Request} {token : String}
  {s : Storage}

/-- A bearer token is accepted exactly when it is not empty, its record is unrevoked and its
owner has a row. -/
theorem authenticate_bearer_isSome_iff (hs : s.Coherent) (ha : h.alwaysAuthorize = true)
    (hc : credentialOf h.internal r = .bearer (some token)) :
    (authenticate svc h m r s).1.granted.isSome ↔
      token ≠ "" ∧ ∃ t, (s.population h.subOnlyService).tokens.resolve token = some t ∧
        t.revocationDate = 0 ∧
          ∃ u, (s.population h.subOnlyService).users.find? t.userName = some u := by
  have hfst : (authenticate svc h m r s).1.granted.isSome =
      (s.authServiceIsAuthorized svc m.now (some token) h.subOnlyService).1.uinfo.isSome := by
    simp only [authenticate, ha, if_true, hc, isAuthorized, Option.isSome_map]
  rw [hfst, Storage.authServiceIsAuthorized_fst]
  by_cases ht : token = ""
  · simp [ht]
  · rw [if_neg ht, (hs h.subOnlyService).checkToken_accepts_iff svc m.now token]
    simp only [ne_eq, ht, not_false_eq_true, true_and, Option.isSome_iff_exists]

/-- When a request gets through on a bearer token. -/
theorem reachesOnBearer_iff (hs : s.Coherent) (ha : h.alwaysAuthorize = true) :
    ReachesOnBearer svc h m rateExceeded r token s ↔
      credentialOf h.internal r = .bearer (some token) ∧ Acceptable h rateExceeded r ∧
        token ≠ "" ∧ ∃ t, (s.population h.subOnlyService).tokens.resolve token = some t ∧
          t.revocationDate = 0 ∧
          ∃ u, (s.population h.subOnlyService).users.find? t.userName = some u := by
  refine and_congr_right fun hc ↦ ?_
  rw [← authenticate_bearer_isSome_iff (m := m) hs ha hc]
  constructor
  · rintro ⟨c, s', hok⟩
    obtain ⟨hacc, hgranted, -⟩ := (acceptRequest_eq_ok_iff svc h m rateExceeded r).mp hok
    exact ⟨hacc, by rw [hgranted]; rfl⟩
  · rintro ⟨hacc, hsome⟩
    obtain ⟨caller, hcaller⟩ := Option.isSome_iff_exists.mp hsome
    obtain ⟨q, hq⟩ := hacc.parameters
    let c : Context := ⟨r, h.internal, m, caller.1, caller.2, q⟩
    exact ⟨c, _, (acceptRequest_eq_ok_iff svc h m rateExceeded r).mpr
      ⟨hacc, hcaller, rfl, rfl, rfl, rfl, hq⟩⟩

end Bearer

/-! ## The defect and its extent -/

/-- A handler that answers every GET request of an authenticated caller. -/
def probeHandler (isSub : Bool) : Handler where
  methods := [.GET]
  subOnlyService := isSub
  doGet _ := pure .ok

/-- A GET request with a bearer token. -/
def bearerRequest (token : String) : Request := { bearer := some token }

/-- A GET request with a bearer token passes the checks of the probe that look at the
request alone. -/
theorem acceptable_bearerRequest (isSub rateExceeded : Bool) (token : String) :
    Acceptable (probeHandler isSub) rateExceeded (bearerRequest token) where
  wellFormed := rfl
  rate := rfl
  notOptions := by rintro ⟨⟩
  listed := rfl
  parameters := ⟨_, rfl⟩

/-- In every reachable state, a token gets requests through only while it is live exactly
when its lookup does not find an overdue record: handlers of either population that always
authorise let an overdue token pass until the purge has removed its row and its cache entry
is gone. -/
theorem reachesOnBearer_only_live_iff {s : Storage} (hs : (Storage.system svc).Reachable s)
    (isSub : Bool) (now : ℕ) (token : String) :
    (∀ (h : Handler) (m : Moment) (rateExceeded : Bool) (r : Request),
        h.alwaysAuthorize = true → h.subOnlyService = isSub → m.now = now →
        ReachesOnBearer svc h m rateExceeded r token s →
        LiveToken (s.population isSub) now token) ↔
      ¬ OverdueToken (s.population isSub) now token := by
  have hcoh := Storage.coherent_of_reachable svc hs
  constructor
  · rintro hlive ⟨hne, t, ht, hrev, hlate, hu⟩
    have hreach : ReachesOnBearer svc (probeHandler isSub) (.sample now "") false
        (bearerRequest token) token s :=
      (reachesOnBearer_iff hcoh rfl).mpr
        ⟨rfl, acceptable_bearerRequest isSub false token, hne, t, ht, hrev, hu⟩
    obtain ⟨t', ht', -, hlate', -⟩ := hlive _ _ _ _ rfl rfl rfl hreach
    rw [ht] at ht'
    cases ht'
    omega
  · rintro hover h m rateExceeded r ha rfl rfl hreach
    obtain ⟨-, -, hne, t, ht, hrev, hu⟩ := (reachesOnBearer_iff hcoh ha).mp hreach
    refine ⟨t, ht, hrev, ?_, hu⟩
    by_contra hlate
    exact hover ⟨hne, t, ht, hrev, by omega, hu⟩

/-- The statement at the state after a login, one second after the token's hour. -/
theorem reachesOnBearer_only_live_iff_sample :
    (Storage.system .sample).Reachable (Storage.sampleLoggedIn false) ∧
      ((∀ (h : Handler) (m : Moment) (rateExceeded : Bool) (r : Request),
          h.alwaysAuthorize = true → h.subOnlyService = false → m.now = 3701 →
          ReachesOnBearer .sample h m rateExceeded r "token-b" (Storage.sampleLoggedIn false) →
          LiveToken ((Storage.sampleLoggedIn false).population false) 3701 "token-b") ↔
        ¬ OverdueToken ((Storage.sampleLoggedIn false).population false) 3701 "token-b") :=
  ⟨Storage.reachable_sampleLoggedIn false,
    reachesOnBearer_only_live_iff .sample (Storage.reachable_sampleLoggedIn false) false 3701
      "token-b"⟩

/-- A token issued at 100 for an hour still authorises a GET request at 3701. -/
theorem overdue_token_reaches_handler :
    (Storage.system .sample).Reachable (Storage.sampleLoggedIn false) ∧
      ReachesOnBearer .sample (probeHandler false) (.sample 3701 "c") false
        (bearerRequest "token-b") "token-b" (Storage.sampleLoggedIn false) ∧
      ¬ LiveToken ((Storage.sampleLoggedIn false).population false) 3701 "token-b" := by
  have hreach := Storage.reachable_sampleLoggedIn false
  have hres := Storage.resolve_sampleLoggedIn false
  refine ⟨hreach, ?_, ?_⟩
  · exact (reachesOnBearer_iff (Storage.coherent_of_reachable _ hreach) rfl).mpr
      ⟨rfl, acceptable_bearerRequest false false "token-b", by decide, _, hres, rfl,
        Storage.find?_sampleLoggedIn false⟩
  · rintro ⟨t, ht, -, hlate, -⟩
    rw [hres] at ht
    cases ht
    exact absurd hlate (by decide)

end OwSec
