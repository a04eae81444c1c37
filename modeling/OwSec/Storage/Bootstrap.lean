import OwSec.Framework.AppServiceRegistry
import OwSec.Kit.Run
import OwSec.Storage.Coherence

/-!
# The first account

`InitializeDefaultUser` (`SpecialUserHelpers.h`) runs whenever the service is started.  It creates
the default user, in the database, and then sets `defaultusercreated`, in the registry, so that an
account that was deleted does not come back.

The two writes are not one.  Whatever `CreateUser` answers, the value is set, and it is not set if
the process is stopped between them.  As long as neither happens, the registry says what was done,
the account is created once, and it is tried until it is.
-/

namespace OwSec

open SecurityObjects Kit

/-- What a start of the service meets. -/
structure Startup where
  now : ℕ
  cfg : Storage.DefaultUser
  /-- The query of `GetUserById` raises an exception. -/
  lookupFails : Bool := false
  /-- The query of `Exists` raises an exception. -/
  existsFails : Bool := false
  /-- The statement of `CreateRecord` raises an exception. -/
  insertFails : Bool := false
  /-- The process is stopped before the registry is written. -/
  stopped : Bool := false

namespace Startup

variable (svc : Service) (u : Startup)

/-- `GetUserById(NewDefaultUseridStockUUID, U)`; a caught exception is an account not found. -/
def lookup (p : Population) : Option UserInfo × Population :=
  if u.lookupFails then (none, p) else p.getUserById svc Storage.newDefaultUseridStockUUID

/-- `CreateUser("SYSTEM", U, true)`. -/
def createUser (p : Population) : Bool × Population :=
  match if u.existsFails then (none, p) else p.getRecordByEMail svc (toLower u.cfg.username) with
  | (some _, p) => (false, p)
  | (none, p) => if u.insertFails then (false, p) else p.createRecord (u.cfg.record u.now)

variable {T : JsonText} (bool : Scalar Bool)

/-- `InitializeDefaultUser`: what `CreateUser` answered, if it was called, and what is left. -/
def initializeDefaultUser (registry : AppServiceRegistry T) (p : Population) :
    Option Bool × AppServiceRegistry T × Population :=
  match registry.get bool.getValue "defaultusercreated" with
  | (.value DefaultUserCreated, registry) =>
    match u.lookup svc p with
    | (some _, p) => (none, registry, p)
    | (none, p) =>
      if DefaultUserCreated.getD false then (none, registry, p)
      else
        let (created, p) := u.createUser svc p
        (some created,
          if u.stopped then registry
          else (registry.set "defaultusercreated" (bool.toVar true)).2,
          p)
  | (_, registry) => (none, registry, p)

/-- Where nothing fails, the users are left as by the function of the stores. -/
theorem initializeDefaultUser_user {u : Startup} (hlookup : u.lookupFails = false)
    (hexists : u.existsFails = false) (hinsert : u.insertFails = false)
    {registry : AppServiceRegistry T} {flag : Option Bool}
    (hflag : (registry.get bool.getValue "defaultusercreated").1 = .value flag) (s : Storage) :
    (u.initializeDefaultUser svc bool registry s.user).2.2 =
      (s.initializeDefaultUser svc u.cfg u.now (flag.getD false)).2.user := by
  unfold initializeDefaultUser Storage.initializeDefaultUser lookup createUser
  generalize registry.get bool.getValue "defaultusercreated" = r at hflag ⊢
  obtain ⟨reply, registry'⟩ := r
  obtain rfl : reply = .value flag := hflag
  simp only [hlookup, hexists, hinsert, Bool.false_eq_true, if_false]
  rcases s.user.getUserById svc Storage.newDefaultUseridStockUUID with ⟨_ | row, p⟩
  · simp only
    split
    · rfl
    · simp only
      rcases p.getRecordByEMail svc (toLower u.cfg.username) with ⟨_ | row, p'⟩
      · rfl
      · rfl
  · rfl

end Startup

/-- The two stores, and what each start made of the account, the latest first: nothing, or what
`CreateUser` answered. -/
structure Bootstrap (T : JsonText) where
  registry : AppServiceRegistry T
  users : Table String UserInfo UserInfo.id
  starts : List (Option Bool) := []

/-- What happens to the stores. -/
inductive BootstrapEvent
  | start (u : Startup)
  /-- The table is changed by other parts of the service. -/
  | table (users : Table String UserInfo UserInfo.id)
  /-- The registry is used by other parts of the service. -/
  | registry (e : RegistryEvent)

namespace Bootstrap

variable (svc : Service) {T : JsonText} (bool : Scalar Bool)

/-- The service is started: the caches are empty, and the registry is read from its file. -/
def start (s : Bootstrap T) (u : Startup) : Bootstrap T :=
  let (created, registry, p) :=
    u.initializeDefaultUser svc bool s.registry.restart { users := s.users }
  { registry := registry, users := p.users, starts := created :: s.starts }

/-- The default user is in the table. -/
def Present (s : Bootstrap T) : Prop := (s.users.find? Storage.newDefaultUseridStockUUID).isSome

/-- One step.  A user that is created by a request has a fresh identifier, and the registry has
other keys for other values. -/
inductive Step : Bootstrap T → BootstrapEvent → Bootstrap T → Prop
  | start {s : Bootstrap T} (u : Startup) : Step s (.start u) (s.start svc bool u)
  | table {s : Bootstrap T} (users : Table String UserInfo UserInfo.id)
    (h : Present { s with users } → s.Present) : Step s (.table users) { s with users }
  | registry {s : Bootstrap T} (e : RegistryEvent)
    (h : "defaultusercreated" ∉ AppServiceRegistry.setKeys [e]) :
    Step s (.registry e) { s with registry := s.registry.step e }

/-- Runs start with any table and any registry, in a new process. -/
def system : System (Bootstrap T) BootstrapEvent where
  init s := s.starts = [] ∧ s.registry.instance_ = none
  step := Step svc bool

/-! ## The law -/

/-- `defaultusercreated` is true. -/
def Flagged (s : Bootstrap T) : Prop :=
  (s.registry.restart.get bool.getValue "defaultusercreated").1 = .value (some true)

/-- The stores show that the default user was created before. -/
def Shows (s : Bootstrap T) : Prop := s.Flagged bool ∨ s.Present

/-- Before a start that does not try, the account was created by another one. -/
def TriesAgain (starts : List (Option Bool)) : Prop :=
  ∀ later o earlier, starts = later ++ o :: earlier → some true ∉ earlier → o ≠ none

/-- What the starts promise, from the first stores on. -/
structure BootstrapLaw (s₀ s : Bootstrap T) : Prop where
  /-- The registry has the value only if the default user was created. -/
  flagged : s.Flagged bool → s₀.Shows bool ∨ some true ∈ s.starts
  /-- The default user is created at most once. -/
  once : s.starts.count (some true) ≤ 1
  /-- As long as the default user was not created, each start tries. -/
  again : ¬ s₀.Shows bool → TriesAgain s.starts

/-- The start goes well: the value in the registry can be read, and if `CreateUser` is called, it
succeeds and the process is not stopped before the registry is written. -/
structure GoesWell (s : Bootstrap T) (u : Startup) : Prop where
  reads : ∃ flag, (s.registry.restart.get bool.getValue "defaultusercreated").1 = .value flag
  creates : ¬ s.Flagged bool → (u.lookup svc { users := s.users }).1 = none →
    (u.createUser svc { users := s.users }).1 = true ∧ u.stopped = false

/-- The condition on an event. -/
def Undisturbed (s : Bootstrap T) : BootstrapEvent → Prop
  | .start u => GoesWell svc bool s u
  | _ => True

/-! ## A start -/

section Start

variable {svc} {bool} {s : Bootstrap T} {u : Startup}

/-- A lookup leaves the table as it is. -/
theorem lookup_users (u : Startup) (p : Population) : (u.lookup svc p).2.users = p.users := by
  unfold Startup.lookup
  split
  · rfl
  · exact Population.getUserById_users svc _

/-- A lookup that finds nothing leaves the caches as they are, too. -/
theorem eq_of_lookup_none {p p' : Population} (h : u.lookup svc p = (none, p')) : p' = p := by
  unfold Startup.lookup at h
  split at h
  · exact (Prod.mk.inj h).2.symm
  · unfold Population.getUserById Population.getRecordById at h
    split at h
    · cases (Prod.mk.inj h).1
    · split at h
      · cases (Prod.mk.inj h).1
      · exact (Prod.mk.inj h).2.symm

/-- An account that is found is in the table. -/
theorem present_of_lookup {found : UserInfo} {p : Population}
    (h : u.lookup svc { users := s.users } = (some found, p)) : s.Present := by
  unfold Startup.lookup at h
  split at h
  · cases (Prod.mk.inj h).1
  · have hcoherent : ({ users := s.users } : Population).Coherent := fun k v hk ↦ by cases hk
    have hrel : Option.Rel SameButLogin
        (({ users := s.users } : Population).getUserById svc Storage.newDefaultUseridStockUUID).1
        (s.users.find? Storage.newDefaultUseridStockUUID) :=
      hcoherent.getUserById_rel svc _
    rw [h] at hrel
    cases hrow : s.users.find? Storage.newDefaultUseridStockUUID with
    | none => rw [hrow] at hrel; cases hrel
    | some row => exact Option.isSome_iff_exists.mpr ⟨row, hrow⟩

/-- The account that `CreateUser` says it created is in the table. -/
theorem find?_createUser {p : Population} (h : (u.createUser svc p).1 = true) :
    (u.createUser svc p).2.users.find? Storage.newDefaultUseridStockUUID =
      some (u.cfg.record u.now) := by
  unfold Startup.createUser at h ⊢
  split at h
  · cases h
  · split at h
    · cases h
    · rename_i hinsert
      rw [if_neg hinsert]
      unfold Population.createRecord at h ⊢
      split at h
      · rename_i users husers
        exact (Table.find?_insert husers _).trans (if_pos rfl)
      · cases h

/-- What a start does if it goes well: nothing, since the account was created before, or it
creates the account and sets the value. -/
theorem start_cases (h : GoesWell svc bool s u) :
    (s.Shows bool ∧ s.start svc bool u =
      { registry := (s.registry.restart.get bool.getValue "defaultusercreated").2
        users := s.users
        starts := none :: s.starts }) ∨
    (¬ s.Flagged bool ∧ ∃ users,
      users.find? Storage.newDefaultUseridStockUUID = some (u.cfg.record u.now) ∧
      s.start svc bool u =
        { registry := ((s.registry.restart.get bool.getValue "defaultusercreated").2.set
            "defaultusercreated" (bool.toVar true)).2
          users := users
          starts := some true :: s.starts }) := by
  obtain ⟨⟨flag, hflag⟩, hcreates⟩ := h
  have hflagged : s.Flagged bool ↔ flag = some true := by
    unfold Flagged
    rw [hflag, RegistryReply.value.injEq]
  unfold Bootstrap.start Startup.initializeDefaultUser
  generalize s.registry.restart.get bool.getValue "defaultusercreated" = r at hflag ⊢
  obtain ⟨reply, registry⟩ := r
  obtain rfl : reply = .value flag := hflag
  have husers : (u.lookup svc { users := s.users }).2.users = s.users := lookup_users u _
  generalize hlookup : u.lookup svc { users := s.users } = found at hcreates husers ⊢
  obtain ⟨_ | row, p⟩ := found
  · obtain rfl := eq_of_lookup_none hlookup
    by_cases hset : flag = some true
    · refine .inl ⟨.inl (hflagged.mpr hset), ?_⟩
      rw [hset]
      rfl
    · have hunset : ¬ s.Flagged bool := fun h ↦ hset (hflagged.mp h)
      obtain ⟨hcreated, hstopped⟩ := hcreates hunset rfl
      have hget : flag.getD false = false := by
        rcases flag with _ | _ | _
        · rfl
        · rfl
        · exact absurd rfl hset
      refine .inr ⟨hunset, _, find?_createUser hcreated, ?_⟩
      simp only [hget, hstopped, Bool.false_eq_true, if_false, hcreated]
  · have hp : p.users = s.users := husers
    refine .inl ⟨.inr (present_of_lookup hlookup), ?_⟩
    rw [← hp]

end Start

/-! ## Runs -/

theorem TriesAgain.cons {starts : List (Option Bool)} (h : TriesAgain starts) {o : Option Bool}
    (ho : some true ∉ starts → o ≠ none) : TriesAgain (o :: starts) := by
  intro later o' earlier hsplit hfresh
  cases later with
  | nil =>
    obtain ⟨rfl, rfl⟩ := List.cons.inj hsplit
    exact ho hfresh
  | cons _ later => exact h later o' earlier (List.cons.inj hsplit).2 hfresh

/-- What holds from the first stores on, where the starts go well; `m` is what the registry has. -/
structure Follows (s₀ s : Bootstrap T) (m₀ m : String → Option Json) : Prop where
  holds : AppServiceRegistry.Holds s.registry m
  once : s.starts.count (some true) ≤ 1
  again : ¬ s₀.Shows bool → TriesAgain s.starts
  /-- The account was created, and the registry has the value. -/
  created : some true ∈ s.starts → m "defaultusercreated" = some (bool.toVar true)
  /-- The account was not created, and the stores show what they showed at first. -/
  unchanged : some true ∉ s.starts → m "defaultusercreated" = m₀ "defaultusercreated" ∧
    (¬ s₀.Shows bool → s.starts = [] ∧ ¬ s.Present)

section Runs

variable {bool} {s₀ s : Bootstrap T} {m₀ m : String → Option Json}

/-- The value is what the registry has. -/
theorem flagged_iff (h : AppServiceRegistry.Holds s.registry m)
    (h₀ : AppServiceRegistry.Holds s₀.registry m₀)
    (hm : m "defaultusercreated" = m₀ "defaultusercreated") :
    s.Flagged bool ↔ s₀.Flagged bool := by
  have hs : AppServiceRegistry.Holds s.registry.restart m := h.step .restart
  have hs₀ : AppServiceRegistry.Holds s₀.registry.restart m₀ := h₀.step .restart
  unfold Flagged
  rw [hs.get, hs₀.get, hm]

/-- A value that was set is read. -/
theorem flagged_of_toVar (h : AppServiceRegistry.Holds s.registry m)
    (hm : m "defaultusercreated" = some (bool.toVar true)) : s.Flagged bool :=
  AppServiceRegistry.Holds.get_toVar (h.step .restart) bool hm

/-- The law follows. -/
theorem Follows.law (h : Follows bool s₀ s m₀ m) (h₀ : AppServiceRegistry.Holds s₀.registry m₀) :
    BootstrapLaw bool s₀ s where
  flagged hflagged := by
    by_cases hcreated : some true ∈ s.starts
    · exact .inr hcreated
    · have hm := (h.unchanged hcreated).1
      exact .inl (.inl ((flagged_iff h.holds h₀ hm).mp hflagged))
  once := h.once
  again := h.again

/-- A start that goes well. -/
theorem Follows.start {svc : Service} {u : Startup} (h : Follows bool s₀ s m₀ m)
    (h₀ : AppServiceRegistry.Holds s₀.registry m₀) (hu : GoesWell svc bool s u) :
    ∃ m', Follows bool s₀ (s.start svc bool u) m₀ m' := by
  have hread : AppServiceRegistry.Holds
      (s.registry.restart.get bool.getValue "defaultusercreated").2 m :=
    AppServiceRegistry.Holds.get_holds (h.holds.step .restart) bool.getValue _
  rcases start_cases hu with ⟨hshows, hstart⟩ | ⟨hunset, users, hrow, hstart⟩
  · have hnot : ¬ s₀.Shows bool → some true ∈ s.starts := by
      intro hshows₀
      by_contra hcreated
      obtain ⟨hm, hrest⟩ := h.unchanged hcreated
      rcases hshows with hflagged | hpresent
      · exact hshows₀ (.inl ((flagged_iff h.holds h₀ hm).mp hflagged))
      · exact (hrest hshows₀).2 hpresent
    rw [hstart]
    refine ⟨m, hread, ?_, ?_, ?_, ?_⟩
    · exact (List.count_cons_of_ne (by decide)).trans_le h.once
    · exact fun hshows₀ ↦ (h.again hshows₀).cons fun hfresh ↦ absurd (hnot hshows₀) hfresh
    · intro hcreated
      exact h.created ((List.mem_cons.mp hcreated).resolve_left (by decide))
    · intro hfresh
      have hstarts : some true ∉ s.starts := fun hmem ↦ hfresh (List.mem_cons.mpr (.inr hmem))
      exact ⟨(h.unchanged hstarts).1, fun hshows₀ ↦ absurd (hnot hshows₀) hstarts⟩
  · have hfresh : some true ∉ s.starts := fun hcreated ↦
      hunset (flagged_of_toVar h.holds (h.created hcreated))
    rw [hstart]
    refine ⟨_, hread.step (.set "defaultusercreated" (bool.toVar true)), ?_, ?_, ?_, ?_⟩
    · rw [List.count_cons_self, List.count_eq_zero.mpr hfresh]
    · exact fun hshows₀ ↦ (h.again hshows₀).cons fun _ ↦ by decide
    · exact fun _ ↦ AppServiceRegistry.update_set_self m _ _
    · exact fun hcreated ↦ absurd List.mem_cons_self hcreated

/-- A step whose start, if it is one, goes well. -/
theorem Follows.step {svc : Service} {s' : Bootstrap T} {e : BootstrapEvent}
    (h : Follows bool s₀ s m₀ m) (h₀ : AppServiceRegistry.Holds s₀.registry m₀)
    (hstep : Step svc bool s e s') (hok : Undisturbed svc bool s e) :
    ∃ m', Follows bool s₀ s' m₀ m' := by
  cases hstep with
  | start u => exact h.start h₀ hok
  | table users husers =>
    refine ⟨m, h.holds, h.once, h.again, h.created, fun hfresh ↦ ?_⟩
    obtain ⟨hm, hrest⟩ := h.unchanged hfresh
    exact ⟨hm, fun hshows₀ ↦ ⟨(hrest hshows₀).1, fun hnew ↦ (hrest hshows₀).2 (husers hnew)⟩⟩
  | registry e he =>
    have hm : AppServiceRegistry.update m e "defaultusercreated" = m "defaultusercreated" :=
      AppServiceRegistry.foldl_update_of_notMem he
    refine ⟨_, h.holds.step e, h.once, h.again, ?_, ?_⟩
    · rw [hm]
      exact h.created
    · rw [hm]
      exact h.unchanged

/-- The first stores. -/
theorem Follows.init (h₀ : AppServiceRegistry.Holds s₀.registry m₀) (hs₀ : s₀.starts = []) :
    Follows bool s₀ s₀ m₀ m₀ := by
  refine ⟨h₀, ?_, ?_, ?_, ?_⟩
  · rw [hs₀]
    exact Nat.zero_le 1
  · intro _ later o earlier hsplit
    rw [hs₀] at hsplit
    exact absurd hsplit.symm (List.append_ne_nil_of_right_ne_nil later (List.cons_ne_nil o earlier))
  · intro hcreated
    rw [hs₀] at hcreated
    cases hcreated
  · exact fun _ ↦ ⟨rfl, fun hshows₀ ↦ ⟨hs₀, fun hpresent ↦ hshows₀ (.inr hpresent)⟩⟩

end Runs

/-- Where the registry has a file and each start goes well, the starts keep what they promise. -/
theorem bootstrapLaw_of_run {svc : Service} {bool : Scalar Bool} {s₀ s : Bootstrap T}
    (hinit : (system svc bool).init s₀) (hfile : s₀.registry.file ≠ none)
    (hrun : ((system svc bool).restrict (Undisturbed svc bool)).Run s₀ s) :
    BootstrapLaw bool s₀ s := by
  obtain ⟨hstarts, hinstance⟩ := hinit
  obtain ⟨text, htext⟩ := Option.ne_none_iff_exists'.mp hfile
  have h₀ : AppServiceRegistry.Holds s₀.registry (AppServiceRegistry.initially text) := by
    have hholds := AppServiceRegistry.run_holds text []
    unfold AppServiceRegistry.run at hholds
    rw [show s₀.registry = { file := some text } by rw [← htext, ← hinstance]]
    exact hholds
  obtain ⟨m, hm⟩ : ∃ m, Follows bool s₀ s (AppServiceRegistry.initially text) m := by
    refine hrun.invariant
      (I := fun s ↦ ∃ m, Follows bool s₀ s (AppServiceRegistry.initially text) m)
      ?_ ⟨_, .init h₀ hstarts⟩
    rintro s e s' ⟨m, hm⟩ ⟨hstep, hok⟩
    exact hm.step h₀ hstep hok
  exact hm.law h₀

/-- A Boolean that is read back only from one. -/
def sampleBool : Scalar Bool where
  toVar := .bool
  getValue
    | .bool b => some b
    | _ => none
  getValue_toVar _ := rfl
  toVar_ne_null _ := Json.noConfusion

/-- A service that was never started, with an empty object in the registry. -/
def sampleNew : Bootstrap .sample where
  registry := { file := some (some (.obj [])) }
  users := .empty

/-- A start of the service. -/
def sampleStartup (insertFails : Bool) : Startup where
  now := 100
  cfg := ⟨"root@example.com", "<Start-1root@example.com>"⟩
  insertFails := insertFails

theorem goesWell_sampleStartup : GoesWell .sample sampleBool sampleNew (sampleStartup false) :=
  ⟨⟨none, rfl⟩, fun _ _ ↦ by decide⟩

/-- The service after its first start and the deletion of the account that this created. -/
def sampleDeleted : Bootstrap .sample :=
  { sampleNew.start .sample sampleBool (sampleStartup false) with users := .empty }

theorem goesWell_sampleDeleted : GoesWell .sample sampleBool sampleDeleted (sampleStartup false) :=
  ⟨⟨some true, rfl⟩, fun hunflagged _ ↦ absurd rfl hunflagged⟩

/-- A second start does not create the account that was deleted again. -/
theorem bootstrapLaw_of_run_sample :
    BootstrapLaw sampleBool sampleNew
        (sampleDeleted.start .sample sampleBool (sampleStartup false)) ∧
      (sampleDeleted.start .sample sampleBool (sampleStartup false)).starts
        = [none, some true] := by
  have hfirst : ((system .sample sampleBool).restrict (Undisturbed .sample sampleBool)).Run sampleNew
      (sampleNew.start .sample sampleBool (sampleStartup false)) :=
    .single ⟨.start (sampleStartup false), .start _, goesWell_sampleStartup⟩
  have hdeleted : ((system .sample sampleBool).restrict (Undisturbed .sample sampleBool)).Run
      sampleNew sampleDeleted :=
    hfirst.tail ⟨.table .empty, .table _ (fun h ↦ by cases h), trivial⟩
  have hsecond : ((system .sample sampleBool).restrict (Undisturbed .sample sampleBool)).Run
      sampleNew (sampleDeleted.start .sample sampleBool (sampleStartup false)) :=
    hdeleted.tail ⟨.start (sampleStartup false), .start _, goesWell_sampleDeleted⟩
  exact ⟨bootstrapLaw_of_run ⟨rfl, rfl⟩ (Option.some_ne_none _) hsecond, rfl⟩

theorem not_shows_sampleNew : ¬ sampleNew.Shows sampleBool := by
  rintro (hflagged | hpresent)
  · cases RegistryReply.value.inj hflagged
  · cases hpresent

/-- If the first insertion fails, the registry says that the default user was created. -/
theorem failed_creation_is_flagged : ∃ s₀ s : Bootstrap .sample,
    (system .sample sampleBool).init s₀ ∧ (system .sample sampleBool).Run s₀ s ∧
    ¬ BootstrapLaw sampleBool s₀ s := by
  refine ⟨sampleNew, sampleNew.start .sample sampleBool (sampleStartup true), ⟨rfl, rfl⟩,
    .single ⟨.start (sampleStartup true), .start _⟩, fun h ↦ ?_⟩
  rcases h.flagged rfl with hshows | hcreated
  · exact not_shows_sampleNew hshows
  · exact absurd hcreated (by decide)

end Bootstrap

end OwSec
