import OwSec.Kit.Run
import OwSec.RestApi.Callers
import OwSec.RestApi.UserReads

/-!
# Runs of requests about users

The service as it is seen through `/user/{id}` and `/users`: each step is one request on
one of the routers, with any headers, any parameters and any body, executed atomically.
Between two requests the caches may drop entries, tokens and API keys may come and go, and
whatever else is not a user record or an action link may change.

`Call.change` reduces a step to the user table: a request changes it, if at all, in one of
the ways of `TableEffect`, and then its caller is the user of a row.
-/

namespace OwSec

open SecurityObjects Kit RestApi

/-- A request about users, and how it came in. -/
structure Call where
  /-- To `/users` rather than `/user/{id}`. -/
  list : Bool := false
  /-- On the internal router. -/
  internal : Bool := false
  moment : Moment
  rateExceeded : Bool := false
  request : Request

namespace Call

variable (svc : Service)

/-- The handler that the request is routed to. -/
def handler (call : Call) : Handler :=
  if call.list then usersHandler svc call.internal else userHandler svc call.internal

/-- The answer, and the state afterwards. -/
def run (call : Call) : Storage → Response × Storage :=
  handleRequest svc (call.handler svc) call.moment call.rateExceeded call.request

/-- What the authentication of the request reports. -/
def authentication (call : Call) (s : Storage) : AuthResult × Storage :=
  authenticate svc (call.handler svc) call.moment call.request s

/-- The caller, where the request is authenticated. -/
def caller (call : Call) (s : Storage) : Option UserInfo :=
  (call.authentication svc s).1.granted.map fun granted ↦ granted.1.userinfo

theorem handler_subOnlyService (call : Call) : (call.handler svc).subOnlyService = false := by
  unfold handler
  split <;> rfl

theorem handler_alwaysAuthorize (call : Call) : (call.handler svc).alwaysAuthorize = true := by
  unfold handler
  split <;> rfl

theorem handler_internal (call : Call) : (call.handler svc).internal = call.internal := by
  unfold handler
  split <;> rfl

end Call

/-- What happens in one step. -/
inductive UserEvent
  | call (call : Call)
  /-- Something that concerns neither the user records nor the action links. -/
  | elsewhere

/-- One step. -/
inductive UserStep (svc : Service) : Storage → UserEvent → Storage → Prop
  | call {s : Storage} (call : Call) : UserStep svc s (.call call) (call.run svc s).2
  | elsewhere {s s' : Storage} (husers : s'.user.users = s.user.users)
    (hcache : Cache.Evicts s.user.cacheById s'.user.cacheById)
    (hlinks : s'.actionLinks = s.actionLinks) : UserStep svc s .elsewhere s'

/-- The system of these steps.  It may start in any state whose user cache is coherent, as
the cache of a running service is. -/
def userSystem (svc : Service) : System Storage UserEvent where
  init s := s.user.Coherent
  step := UserStep svc

/-- A request that may write a user. -/
def UserEvent.isWrite : UserEvent → Bool
  | .call c => !c.list && [Method.POST, Method.PUT, Method.DELETE].contains c.request.method
  | .elsewhere => false

/-- The caller of the step, if there is one, satisfies `P`. -/
def UserEvent.CallerIs (svc : Service) (P : UserInfo → Prop) (s : Storage) : UserEvent → Prop
  | .call c => ∀ u ∈ c.caller svc s, P u
  | .elsewhere => True

instance (svc : Service) (P : UserInfo → Prop) [DecidablePred P] (s : Storage) (c : Call) :
    Decidable ((UserEvent.call c).CallerIs svc P s) :=
  inferInstanceAs (Decidable (∀ u ∈ c.caller svc s, P u))

/-! ## What a step does to the users -/

/-- What a step does to the user table, and about whom it may store an action link. -/
inductive Change (svc : Service) (s : Storage) :
    UserEvent → (String → Option UserInfo) → Option String → Prop
  | unchanged (e : UserEvent) : Change svc s e s.user.users.find? none
  | effect (call : Call) (c : Context) (row : UserInfo) (hrequest : c.request = call.request)
    (hmoment : c.moment = call.moment) (hlist : call.list = false)
    (hpublic : call.internal = false) (hcaller : call.caller svc s = some c.caller)
    (hrow : s.user.users.find? c.caller.id = some row) (hsame : SameButLogin c.caller row)
    {table : String → Option UserInfo} {about : Option String}
    (h : TableEffect svc c s.user.users.find? table about) : Change svc s (.call call) table about

variable {svc : Service} {s s' : Storage}

/-- The state in the middle of a request only depends on the users and links at its start. -/
theorem RestApi.At.of_sameUsers {s₁ : Storage} {table : String → Option UserInfo}
    {about : Option String} (h : s.SameUsers s₁) (hat : At table about s₁ s') :
    At table about s s' :=
  ⟨hat.users, fun l hl ↦ h.links ▸ hat.links l hl, hat.coherent⟩

/-- Nothing happened, as far as the users are concerned. -/
theorem Storage.SameUsers.at (h : s.SameUsers s') : At s.user.users.find? none s s' :=
  ⟨by rw [h.users], fun _ hl ↦ .inl (h.links ▸ hl), h.coherent⟩

/-- On the internal router a request for one user can only be a reading one. -/
theorem RestApi.TableEffect.of_internal {c : Context} {table : String → Option UserInfo}
    {about : Option String} {before : String → Option UserInfo}
    (h : TableEffect svc c before table about)
    (hlisted : (userHandler svc true).methods.contains c.request.method = true) :
    table = before ∧ about = none := by
  cases h with
  | unchanged => exact ⟨rfl, rfl⟩
  | deleted row hrow hid hm hcan =>
    rw [hm] at hlisted
    cases hlisted
  | created u hfresh hm hcan hid hcreator hemail hvalid about habout =>
    rw [hm] at hlisted
    cases hlisted
  | written row u hrow hid hm hcan hu about habout =>
    rw [hm] at hlisted
    cases hlisted

/-- A request changes the users in one of the ways of `TableEffect`, if at all. -/
theorem Call.change (call : Call) (hs : s.user.Coherent) :
    ∃ table about, Change svc s (.call call) table about ∧
      At table about s (call.run svc s).2 := by
  have hsame := sameUsers_authenticate svc hs (call.handler_subOnlyService svc)
    (m := call.moment) (r := call.request)
  refine handleRequest_rule svc (call.handler svc) call.moment call.rateExceeded call.request
    (P := fun _ s' ↦ ∃ table about, Change svc s (.call call) table about ∧ At table about s s')
    (fun c haccept hgranted hrequest _ hmoment ↦ ?_) fun e s' _ hs' ↦ ?_
  · have hcaller : call.caller svc s = some c.caller := by
      unfold Call.caller Call.authentication
      rw [hgranted]
      rfl
    have hknown := knownCaller_of_authenticate svc hs (call.handler_subOnlyService svc)
      (call.handler_alwaysAuthorize svc) hgranted
    have hlisted := haccept.listed
    unfold Call.handler at hsame hlisted hknown ⊢
    split at hlisted
    · rename_i hlist
      rw [if_pos hlist] at hsame ⊢
      refine Command.wp_mono (UsersHandler.dispatch_within call.internal hsame.coherent) ?_ ?_ <;>
      · rintro r s' ⟨hat, -⟩
        rw [hsame.users] at hat
        exact ⟨_, _, .unchanged _, hat.of_sameUsers hsame⟩
    · rename_i hlist
      rw [if_neg hlist] at hsame hknown ⊢
      refine Command.wp_mono (UserHandler.dispatch_effect call.internal hsame.coherent) ?_ ?_ <;>
      · rintro r s' ⟨table, about, heffect, hat⟩
        rw [hsame.users] at heffect
        refine ⟨table, about, ?_, hat.of_sameUsers hsame⟩
        cases hinternal : call.internal
        · rcases hknown.service_or_row with ⟨hi, -⟩ | ⟨-, -, row, hrow, hcurrent⟩
          · exact absurd (hinternal.symm.trans hi) Bool.false_ne_true
          · exact .effect call c row hrequest hmoment (by simpa using hlist) hinternal hcaller hrow
              hcurrent heffect
        · rw [← hrequest, hinternal] at hlisted
          obtain ⟨rfl, rfl⟩ := heffect.of_internal hlisted
          exact .unchanged _
  · refine ⟨_, _, .unchanged _, ?_⟩
    rcases hs' with rfl | rfl
    · exact At.start hs
    · exact hsame.at

/-- What a step does to the users. -/
theorem UserStep.change {e : UserEvent} (hs : s.user.Coherent) (h : UserStep svc s e s') :
    ∃ table about, Change svc s e table about ∧ At table about s s' := by
  cases h with
  | call call => exact call.change hs
  | elsewhere husers hcache hlinks =>
    have hsame : s.SameUsers s' := ⟨husers, hlinks, hs.evicts husers hcache⟩
    exact ⟨_, _, .unchanged _, hsame.at⟩

/-- The user cache stays coherent. -/
theorem UserStep.coherent {e : UserEvent} (hs : s.user.Coherent) (h : UserStep svc s e s') :
    s'.user.Coherent := by
  obtain ⟨_, _, _, hat⟩ := h.change hs
  exact hat.coherent

/-- Requests that are allowed one after the other are a run. -/
theorem run_of_calls {ok : Storage → UserEvent → Prop} (s : Storage) (calls : List Call)
    (h : System.Allowed (fun s c ↦ ok s (.call c)) (fun s (c : Call) ↦ (c.run svc s).2) s calls) :
    ((userSystem svc).restrict ok).Run s (calls.foldl (fun s c ↦ (c.run svc s).2) s) := by
  have hstep (s : Storage) (c : Call) (hc : ok s (.call c)) :
      ((userSystem svc).restrict ok).step s (UserEvent.call c) (c.run svc s).2 := ⟨.call c, hc⟩
  exact System.Run.of_allowed hstep s calls h

/-! ## A service with three users

Two `ROOT` users and an `ADMIN`, each with a token that is named after them. -/

/-- A user who is named after their identifier. -/
def sampleUser (id : String) (userRole : UserRole) : UserInfo :=
  { id := id, email := id ++ "@example.com", userRole := userRole }

/-- A token of a user. -/
def sampleToken (id : String) : Token :=
  { token := "token-" ++ id, userName := id, expires := 3600 }

/-- The service with the three users. -/
def sampleStaff : Storage :=
  { user :=
      { users :=
          { rows := [sampleUser "root" .ROOT, sampleUser "boss" .ROOT, sampleUser "admin" .ADMIN]
            nodup := by decide }
        tokens :=
          { rows :=
              { rows := [sampleToken "root", sampleToken "boss", sampleToken "admin"]
                nodup := by decide } } } }

/-- A request about one user on the public router, with the token of its caller. -/
def sampleCall (suffix caller id : String) (method : Method) (body : Body := .absent) : Call where
  moment := .sample 100 suffix
  request := { method, bearer := some ("token-" ++ caller), bindings := [("id", id)], body }

end OwSec
