import OwSec.RestApi.Signup
import OwSec.Storage.Coherence
import OwSec.Kit.Run

/-!
# One record per address

Users and subscribers are created by three requests, each of which first looks whether the
address is taken and then inserts a record.  Nothing holds the two steps together, and the
tables have no constraint on the address, so two requests can both find an address free.
Two of the requests turn the address into lower case, the third takes it as it is, and all of them
refuse one that has capitals then, so that the stored addresses are in lower case and a lookup is
for the very address.
-/

namespace OwSec

open SecurityObjects Kit RestApi

namespace EmailUniqueness

variable (svc : Service)

/-- A request that creates a record, with what its handler has made of the body. -/
inductive Creation
  /-- `POST /user`. -/
  | postUser (m : Moment) (u : UserInfo)
  /-- `POST /subuser`. -/
  | postSubuser (m : Moment) (u : UserInfo)
  /-- `POST /signup`. -/
  | signup (m : Moment) (userName owner operatorName signupUUID : String)

namespace Creation

/-- The table is that of the subscribers. -/
def isSub : Creation → Bool
  | .postUser .. => false
  | .postSubuser .. => true
  | .signup .. => true

/-- The address that is looked up. -/
def address : Creation → String
  | .postUser _ u => toLower u.email
  | .postSubuser _ u => toLower u.email
  | .signup _ userName .. => userName

/-- The record that is inserted. -/
def record : Creation → UserInfo
  | .postUser m u => Population.newRecord svc m u
  | .postSubuser m u => Population.newRecord svc m u
  | .signup m userName owner operatorName signupUUID =>
    SignupHandler.newSub m userName owner operatorName signupUUID

/-- Whether the handler answers `InvalidEmailAddress` before the address is looked up (before the
lookup of `CreateUser` where there is an earlier one). -/
def refused (c : Creation) : Bool := !validEMailAddress c.address

/-- The first step: the address is looked up, and found or not. -/
def check (s : Storage) (c : Creation) : Option UserInfo × Storage :=
  s.onPopulation c.isSub fun p ↦ p.getUserByEmail svc c.address

/-- The second step: the record is inserted. -/
def insert (s : Storage) (c : Creation) : Bool × Storage :=
  s.onPopulation c.isSub fun p ↦ p.createRecord (c.record svc)

/-- The record carries the address that was looked up. -/
theorem record_email (c : Creation) : (c.record svc).email = c.address := by
  cases c with
  | postUser m u => exact (Population.newRecord_fields svc m u).2.1
  | postSubuser m u => exact (Population.newRecord_fields svc m u).2.1
  | signup => rfl

/-- An address that is looked up is in lower case. -/
theorem toLower_address {c : Creation} (h : c.refused = false) : toLower c.address = c.address :=
  toLower_of_validEMailAddress (Bool.not_eq_eq_eq_not.mp h)

/-- `CreateUser` is the two steps, one right after the other. -/
theorem createUser_eq {c : Creation} {m : Moment} {u : UserInfo}
    (h : c = .postUser m u ∨ c = .postSubuser m u) (s : Storage) :
    (s.onPopulation c.isSub fun p ↦ p.createUser svc m u).2 =
      match c.check svc s with
      | (some _, s) => s
      | (none, s) => (c.insert svc s).2 := by
  have haddress : c.address = toLower u.email := by rcases h with rfl | rfl <;> rfl
  have hrecord : c.record svc = Population.newRecord svc m u := by rcases h with rfl | rfl <;> rfl
  unfold check insert Storage.onPopulation Population.createUser
  simp only [haddress, hrecord, Population.getUserByEmail]
  rcases (s.population c.isSub).getRecordByEMail svc (toLower u.email) with ⟨_ | existing, p⟩
  · simp only [Storage.population_setPopulation]
    generalize c.isSub = isSub
    cases isSub <;> rcases p.createRecord (Population.newRecord svc m u) with ⟨_ | _, q⟩ <;> rfl
  · rfl

/-- A sign-up looks the address up by the first step and creates the record by the second. -/
theorem signup_eq (m : Moment) (userName owner operatorName signupUUID : String) :
    UserHandler.getUserByEmail svc true userName =
        Command.act (fun s ↦ (signup m userName owner operatorName signupUUID).check svc s) ∧
      SignupHandler.createRecord (SignupHandler.newSub m userName owner operatorName signupUUID) =
        Command.write fun s ↦
          ((signup m userName owner operatorName signupUUID).insert svc s).2 :=
  ⟨rfl, rfl⟩

end Creation

/-- A request that has found its address free and has not inserted its record yet. -/
structure Pending where
  creation : Creation
  /-- History: meanwhile another request has inserted a record with the same address. -/
  overtaken : Bool := false

/-- The stores, and the requests in progress by number. -/
structure State where
  storage : Storage := {}
  pending : ℕ → Option Pending := fun _ ↦ none

/-- The two requests are after the same address in the same table. -/
def Rivals (c c' : Creation) : Prop := c.isSub = c'.isSub ∧ toLower c.address = toLower c'.address

instance (c c' : Creation) : Decidable (Rivals c c') := inferInstanceAs (Decidable (_ ∧ _))

/-- What happens next. -/
inductive Action
  /-- Request `i` looks whether its address is taken, and goes on if it is not; an address that is
  refused is not looked up. -/
  | check (i : ℕ) (c : Creation)
  /-- Request `i` inserts its record. -/
  | insert (i : ℕ)
  /-- Request `i` is refused by another check. -/
  | abandon (i : ℕ)

namespace State

/-- The insertion by `c` overtakes the requests that are after the same address. -/
def overtake (pending : ℕ → Option Pending) (c : Creation) : ℕ → Option Pending := fun j ↦
  (pending j).map fun p ↦ if Rivals c p.creation then { p with overtaken := true } else p

/-- The state after the action. -/
def apply (s : State) : Action → State
  | .check i c =>
    if c.refused then s
    else
      match c.check svc s.storage with
      | (some _, storage) => { s with storage }
      | (none, storage) =>
        { storage, pending := Function.update s.pending i (some { creation := c }) }
  | .insert i =>
    match s.pending i with
    | none => s
    | some p =>
      match p.creation.insert svc s.storage with
      | (true, storage) =>
        { storage, pending := Function.update (overtake s.pending p.creation) i none }
      | (false, storage) => { storage, pending := Function.update s.pending i none }
  | .abandon i => { s with pending := Function.update s.pending i none }

end State

/-- What happens in one step. -/
inductive Label
  | own (a : Action)
  /-- Anything else; it adds no address to a table. -/
  | elsewhere

/-- The addresses of a table. -/
def emails (s : Storage) (isSub : Bool) : List String :=
  (s.population isSub).users.rows.map (·.email)

/-- The lower-cased addresses of a table. -/
def addresses (s : Storage) (isSub : Bool) : List String := (emails s isSub).map toLower

/-- One step. -/
inductive Step : State → Label → State → Prop
  | own {s : State} (a : Action) : Step s (.own a) (s.apply svc a)
  | elsewhere {s : State} (storage : Storage)
    (h : ∀ isSub, (emails storage isSub).Sublist (emails s.storage isSub)) :
    Step s .elsewhere { s with storage }

/-- No table has two records with one address. -/
def Unique (s : Storage) : Prop := ∀ isSub, (addresses s isSub).Nodup

/-- The stored addresses are in lower case. -/
def LowerCase (s : Storage) : Prop := ∀ isSub, ∀ email ∈ emails s isSub, toLower email = email

/-- The service; at first no address is there twice, the addresses are in lower case, as every
request leaves them, and no request is in progress. -/
def system : System State Label where
  init s := Unique s.storage ∧ LowerCase s.storage ∧ s.pending = fun _ ↦ none
  step := Step svc

/-- The condition on a step: a request that inserts its record has not been overtaken. -/
def InOrder (s : State) : Label → Prop
  | .own (.insert i) => ∀ p, s.pending i = some p → p.overtaken = false
  | _ => True

section Steps

variable {svc} {s : Storage} {c : Creation}

/-- Looking an address up leaves the addresses. -/
theorem emails_check (isSub : Bool) : emails (c.check svc s).2 isSub = emails s isSub := by
  unfold emails Creation.check Storage.onPopulation
  by_cases hsub : isSub = c.isSub
  · subst hsub
    rw [Storage.population_setPopulation, Population.getUserByEmail_users]
  · rw [Storage.population_setPopulation_ne _ _ hsub]

/-- An address that is not found is not in the table. -/
theorem free_of_check (h : (c.check svc s).1 = none) : c.address ∉ emails s c.isSub := by
  intro hmem
  obtain ⟨r, hr, hemail⟩ := List.mem_map.mp hmem
  have hnone : (s.population c.isSub).users.select (·.email == c.address) = none := by
    change ((s.population c.isSub).getRecordByEMail svc c.address).1 = none at h
    unfold Population.getRecordByEMail at h
    split at h
    · cases h
    · split at h
      · cases h
      · assumption
  have hne := List.find?_eq_none.mp hnone r hr
  simp [hemail] at hne

/-- An insertion adds its own address, or nothing. -/
theorem emails_insert (isSub : Bool) :
    emails (c.insert svc s).2 isSub =
      if (c.insert svc s).1 = true ∧ isSub = c.isSub then emails s isSub ++ [c.address]
      else emails s isSub := by
  have hresult : (c.insert svc s).1 = ((s.population c.isSub).createRecord (c.record svc)).1 := rfl
  have hstate : (c.insert svc s).2 = s.setPopulation c.isSub
      ((s.population c.isSub).createRecord (c.record svc)).2 := rfl
  rw [hresult, hstate]
  unfold emails
  by_cases hsub : isSub = c.isSub
  · subst hsub
    simp only [Storage.population_setPopulation, Population.createRecord, and_true]
    rcases hins : (s.population c.isSub).users.insert (c.record svc) with _ | users
    · simp
    · simp only [if_true]
      rw [Table.rows_of_insert hins, List.map_append, List.map_singleton, Creation.record_email]
  · rw [Storage.population_setPopulation_ne _ _ hsub, if_neg (fun h ↦ hsub h.2)]

/-- In lower case, the addresses of a table are as they are stored. -/
theorem LowerCase.addresses (h : LowerCase s) (isSub : Bool) : addresses s isSub = emails s isSub :=
  (List.map_congr_left (h isSub)).trans (List.map_id' _)

/-- What holds throughout a run: no address is there twice, the addresses are in lower case, and
so is the address of a request, which is still free if the request has not been overtaken. -/
structure Sound (s : State) : Prop where
  unique : ∀ isSub, (emails s.storage isSub).Nodup
  lower : LowerCase s.storage
  request : ∀ i p, s.pending i = some p → toLower p.creation.address = p.creation.address
  free : ∀ i p, s.pending i = some p → p.overtaken = false →
    p.creation.address ∉ emails s.storage p.creation.isSub

theorem Sound.of_emails {s s' : State} (h : Sound s)
    (hemails : ∀ isSub, (emails s'.storage isSub).Sublist (emails s.storage isSub))
    (hrequest : ∀ i p, s'.pending i = some p → s.pending i = some p ∨
      toLower p.creation.address = p.creation.address ∧
        p.creation.address ∉ emails s.storage p.creation.isSub) : Sound s' where
  unique isSub := (h.unique isSub).sublist (hemails isSub)
  lower isSub email hmem := h.lower isSub email ((hemails isSub).subset hmem)
  request i p hp := (hrequest i p hp).elim (h.request i p) And.left
  free i p hp hover hmem :=
    (hrequest i p hp).elim (fun hold ↦ h.free i p hold hover ((hemails _).subset hmem))
      fun hnew ↦ hnew.2 ((hemails _).subset hmem)

/-- A check keeps what holds. -/
theorem Sound.check {s : State} (h : Sound s) (i : ℕ) (c : Creation) :
    Sound (s.apply svc (.check i c)) := by
  have hsame (isSub : Bool) : emails (c.check svc s.storage).2 isSub = emails s.storage isSub :=
    emails_check isSub
  simp only [State.apply]
  split
  · exact h
  · rename_i hrefused
    rcases hfound : c.check svc s.storage with ⟨_ | existing, storage⟩
    · simp only [hfound] at hsame
      refine h.of_emails (fun isSub ↦ (hsame isSub).symm ▸ List.Sublist.refl _) fun j p hp ↦ ?_
      change Function.update s.pending i (some { creation := c }) j = some p at hp
      by_cases hj : j = i
      · subst hj
        rw [Function.update_self] at hp
        cases hp
        exact .inr ⟨Creation.toLower_address (Bool.not_eq_true _ ▸ hrefused),
          free_of_check (by rw [hfound])⟩
      · rw [Function.update_of_ne hj] at hp
        exact .inl hp
    · simp only [hfound] at hsame
      exact h.of_emails (fun isSub ↦ (hsame isSub).symm ▸ List.Sublist.refl _) fun j p hp ↦ .inl hp

/-- Ending a request leaves the other ones. -/
theorem pending_of_update_none {pending : ℕ → Option Pending} {i j : ℕ} {p : Pending}
    (h : Function.update pending i none j = some p) : pending j = some p := by
  by_cases hj : j = i
  · subst hj
    simp at h
  · rwa [Function.update_of_ne hj] at h

/-- The requests after an insertion are other ones from before it. -/
theorem exists_of_overtake {pending : ℕ → Option Pending} {c : Creation} {i j : ℕ} {p : Pending}
    (h : Function.update (State.overtake pending c) i none j = some p) :
    ∃ p₀, pending j = some p₀ ∧ p.creation = p₀.creation ∧
      (p.overtaken = false → p₀.overtaken = false ∧ ¬ Rivals c p₀.creation) := by
  obtain ⟨p₀, hp₀, rfl⟩ := Option.map_eq_some_iff.mp (pending_of_update_none h)
  refine ⟨p₀, hp₀, ?_⟩
  by_cases hrivals : Rivals c p₀.creation
  · rw [if_pos hrivals]
    exact ⟨rfl, fun hover ↦ Bool.noConfusion hover⟩
  · rw [if_neg hrivals]
    exact ⟨rfl, fun hover ↦ ⟨hover, hrivals⟩⟩

/-- A request that goes no further keeps what holds. -/
theorem Sound.abandon {s : State} (h : Sound s) (i : ℕ) : Sound (s.apply svc (.abandon i)) :=
  h.of_emails (fun _ ↦ List.Sublist.refl _) fun _ _ hp ↦ .inl (pending_of_update_none hp)

/-- An insertion that was not overtaken keeps what holds. -/
theorem Sound.insert {s : State} (h : Sound s) {i : ℕ}
    (horder : InOrder s (.own (.insert i))) : Sound (s.apply svc (.insert i)) := by
  rcases hp : s.pending i with _ | p
  · have happly : s.apply svc (.insert i) = s := by simp only [State.apply, hp]
    rw [happly]
    exact h
  have hfree := h.free i p hp (horder p hp)
  have hadd (isSub : Bool) : emails (p.creation.insert svc s.storage).2 isSub = _ :=
    emails_insert isSub
  rcases hins : p.creation.insert svc s.storage with ⟨_ | _, storage⟩
  · -- the identifier was taken
    have happly : s.apply svc (.insert i) =
        { storage, pending := Function.update s.pending i none } := by
      simp only [State.apply, hp, hins]
    rw [happly]
    simp only [hins, Bool.false_eq_true, false_and, if_false] at hadd
    exact h.of_emails (fun isSub ↦ (hadd isSub).symm ▸ List.Sublist.refl _) fun _ _ hq ↦
      .inl (pending_of_update_none hq)
  · have happly : s.apply svc (.insert i) =
        { storage, pending := Function.update (State.overtake s.pending p.creation) i none } := by
      simp only [State.apply, hp, hins]
    rw [happly]
    simp only [hins, true_and] at hadd
    refine ⟨fun isSub ↦ ?_, fun isSub email hmem ↦ ?_, fun j q hq ↦ ?_, fun j q hq hover ↦ ?_⟩
    · rw [hadd]
      split
      · rename_i hsub
        subst hsub
        refine List.nodup_append.mpr ⟨h.unique _, List.nodup_singleton _, ?_⟩
        rintro a ha b hb rfl
        exact hfree (List.mem_singleton.mp hb ▸ ha)
      · exact h.unique isSub
    · rw [hadd] at hmem
      split at hmem
      · rcases List.mem_append.mp hmem with hmem | hmem
        · exact h.lower isSub email hmem
        · rw [List.mem_singleton.mp hmem]
          exact h.request i p hp
      · exact h.lower isSub email hmem
    · obtain ⟨q₀, hq₀, hcreation, -⟩ := exists_of_overtake hq
      rw [hcreation]
      exact h.request j q₀ hq₀
    · obtain ⟨q₀, hq₀, hcreation, hkept⟩ := exists_of_overtake hq
      obtain ⟨hover₀, hrivals⟩ := hkept hover
      have hfree₀ := h.free j q₀ hq₀ hover₀
      rw [hcreation, hadd]
      split
      · rename_i hsub
        intro hmem
        rcases List.mem_append.mp hmem with hmem | hmem
        · exact hfree₀ hmem
        · exact hrivals ⟨hsub.symm, congrArg toLower (List.mem_singleton.mp hmem).symm⟩
      · exact hfree₀

end Steps

/-- In every run in which requests are not overtaken between their two steps, no table ever has
two records with one address. -/
theorem unique_of_inOrder {s : State} (h : ((system svc).restrict InOrder).Reachable s) :
    Unique s.storage := by
  have hsound : Sound s := by
    refine System.Reachable.invariant (I := Sound) ?_ ?_ h
    · rintro s ⟨hunique, hlower, hpending⟩
      refine ⟨fun isSub ↦ hlower.addresses isSub ▸ hunique isSub, hlower, fun i p hp ↦ ?_,
        fun i p hp ↦ ?_⟩
      · rw [hpending] at hp
        cases hp
      · rw [hpending] at hp
        cases hp
    · rintro s l s' hs ⟨hstep, horder⟩
      cases hstep with
      | own a =>
        cases a with
        | check i c => exact hs.check i c
        | insert i => exact hs.insert horder
        | abandon i => exact hs.abandon i
      | elsewhere storage hsub => exact hs.of_emails hsub fun i p hp ↦ .inl hp
  intro isSub
  rw [hsound.lower.addresses]
  exact hsound.unique isSub

/-! ## Two requests for one address -/

/-- Two creations of a subscriber with the same address. -/
def sampleCreation (suffix : String) : Creation :=
  .postSubuser (.sample 100 suffix) { email := "joe@example.com", userRole := .SUBSCRIBER }

/-- One request after the other. -/
def sampleInTurn : List Action :=
  [.check 0 (sampleCreation "a"), .insert 0, .check 1 (sampleCreation "b"), .insert 1]

/-- The second request looks the address up before the first has inserted it. -/
def sampleInterleaved : List Action :=
  [.check 0 (sampleCreation "a"), .check 1 (sampleCreation "b"), .insert 0, .insert 1]

/-- A list of actions that meet a condition is a run of the restricted system. -/
theorem reachable_of_allowed (ok : State → Label → Prop) (as : List Action)
    (h : System.Allowed (fun s a ↦ ok s (.own a)) (State.apply .sample) {} as) :
    ((system .sample).restrict ok).Reachable (as.foldl (State.apply .sample) {}) := by
  have hinit : ((system .sample).restrict ok).init {} :=
    ⟨fun isSub ↦ by cases isSub <;> exact List.nodup_nil,
      fun isSub _ hmem ↦ by cases isSub <;> exact absurd hmem List.not_mem_nil, rfl⟩
  have hstep (s : State) (a : Action) (h : ok s (.own a)) :
      ((system .sample).restrict ok).step s (.own a) (s.apply .sample a) := ⟨.own a, h⟩
  exact (System.Reachable.init hinit).run (System.Run.of_allowed hstep _ as h)

/-- One after the other, the second request is refused. -/
theorem unique_of_inOrder_sample :
    Unique (sampleInTurn.foldl (State.apply .sample) {}).storage := by
  refine unique_of_inOrder .sample (reachable_of_allowed InOrder sampleInTurn
    ⟨trivial, ?_, trivial, ?_, trivial⟩)
  · intro p hp
    cases hp
    rfl
  · intro p hp
    cases hp

/-- Interleaved, both requests insert a record for the address. -/
theorem address_twice :
    (system .sample).Reachable (sampleInterleaved.foldl (State.apply .sample) {}) ∧
    (sampleInterleaved.foldl (State.apply .sample) {}).storage.sub.users.rows.map (·.email) =
      ["joe@example.com", "joe@example.com"] ∧
    ¬ Unique (sampleInterleaved.foldl (State.apply .sample) {}).storage := by
  refine ⟨(reachable_of_allowed (fun _ _ ↦ True) sampleInterleaved
    ⟨trivial, trivial, trivial, trivial, trivial⟩).of_restrict, by decide, fun h ↦ ?_⟩
  have hnodup : (["joe@example.com", "joe@example.com"] : List String).Nodup := h true
  exact absurd hnodup (by decide)

end EmailUniqueness

end OwSec
